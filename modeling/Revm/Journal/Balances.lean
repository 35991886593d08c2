import Mathlib.Data.FinEnum
import Revm.Foundations.Ledger
import Revm.Journal.Nested

/-!
# Balances in the journal

The balances of all accounts form a ledger: a loaded account has the balance of its info, every
other account the balance of the database. A journal entry says how to move the balances back, and
`balanceRule` is that as an undo rule over the integers, with the guard that no register is left on
the way. `Books` relates two journals: undoing the entries of the later one leads back to the
balances of the earlier one.

Each journal function that moves value has one lemma here: what becomes of the books and of the
total.
-/

set_option autoImplicit false

namespace Revm

open Option List JournalInner

open Ledger

variable {ε : Type} {amount : ℤ} {x y z : U256} {e : JournalEntry} {sd : Bool} {b : Address → ℤ}
  {j₁ j₂ : JournalInner} {caller : Address} {acc : Account} {f : Account → Account}
  {state state' : EvmState} {v : U256} {account : Account}

/-- The balance of an account in the database. -/
def Database.balance (db : Database ε) (a : Address) : U256 :=
  match db.basic a with
  | .ok (some info) => info.balance
  | _ => 0

/-- The balances of all accounts. -/
def balances (db : Database ε) (state : EvmState) (a : Address) : ℤ :=
  match state.lookup a with
  | some account => account.info.balance.toNat
  | none => (db.balance a).toNat

section Balances

variable {db : Database ε} {a : Address}
theorem balances_of_lookup (db : Database ε) (h : state.lookup a = some account) :
    balances db state a = account.info.balance.toNat := by
  simp only [balances, h]

theorem fits_toNat (x : U256) : Fits 256 x.toNat :=
  ⟨by omega, by exact_mod_cast x.isLt⟩

theorem balances_fits (db : Database ε) (state : EvmState) (a : Address) :
    Fits 256 (balances db state a) := by
  unfold balances
  cases state.lookup a with
  | none => exact fits_toNat _
  | some account => exact fits_toNat _

theorem balances_nonneg (db : Database ε) (state : EvmState) (a : Address) :
    0 ≤ balances db state a :=
  (balances_fits db state a).1

/-- Storing an account credits it with the difference. -/
theorem balances_insert (h : (account.info.balance.toNat : ℤ) = balances db state a + amount) :
    balances db (state.insert a account) = credit (balances db state) a amount := by
  funext x
  rw [credit_apply]
  by_cases hx : x = a
  · subst hx
    rw [if_pos rfl, ← h]
    exact balances_of_lookup db (AList.lookup_insert _)
  · rw [if_neg hx, add_zero]
    unfold balances
    rw [AList.lookup_insert_ne hx]

theorem balances_insert_same (h : (account.info.balance.toNat : ℤ) = balances db state a) :
    balances db (state.insert a account) = balances db state := by
  rw [← credit_zero (balances db state) a]
  exact balances_insert (by rw [h, add_zero])

theorem balances_modify (h : state.modify a f = some state')
    (hf : ∀ account, state.lookup a = some account →
      ((f account).info.balance.toNat : ℤ) = balances db state a + amount) :
    balances db state' = credit (balances db state) a amount := by
  obtain ⟨account, hl, rfl⟩ := map_eq_some_iff.1 h
  exact balances_insert (hf account hl)

/-- An update that leaves the balance alone. -/
theorem balances_modify_same (h : state.modify a f = some state')
    (hf : ∀ account, (f account).info.balance = account.info.balance) :
    balances db state' = balances db state := by
  obtain ⟨account, hl, rfl⟩ := map_eq_some_iff.1 h
  apply balances_insert_same
  rw [hf, balances_of_lookup db hl]

theorem toNat_add_of_fits (h : Fits 256 ((x.toNat : ℤ) + y.toNat)) :
    ((x + y).toNat : ℤ) = x.toNat + y.toNat := by
  have hlt : x.toNat + y.toNat < 2 ^ 256 := by exact_mod_cast h.2
  rw [BitVec.toNat_add, Nat.mod_eq_of_lt hlt]
  push_cast
  rfl

theorem toNat_sub_of_fits (h : Fits 256 ((x.toNat : ℤ) - y.toNat)) :
    ((x - y).toNat : ℤ) = x.toNat - y.toNat := by
  have hle : y.toNat ≤ x.toNat := by have := h.1; omega
  rw [BitVec.toNat_sub_of_le hle]
  omega

theorem balances_modify_add (h : state.modify a f = some state')
    (hf : ∀ account, (f account).info.balance = account.info.balance + v)
    (hfits : Fits 256 (balances db state a + v.toNat)) :
    balances db state' = credit (balances db state) a v.toNat := by
  refine balances_modify h fun account hl => ?_
  rw [balances_of_lookup db hl] at hfits ⊢
  rw [hf, toNat_add_of_fits hfits]

theorem balances_modify_sub (h : state.modify a f = some state')
    (hf : ∀ account, (f account).info.balance = account.info.balance - v)
    (hfits : Fits 256 (balances db state a - v.toNat)) :
    balances db state' = credit (balances db state) a (-v.toNat) := by
  refine balances_modify h fun account hl => ?_
  rw [balances_of_lookup db hl] at hfits ⊢
  rw [hf, toNat_sub_of_fits hfits]
  rfl

end Balances

/-! ## Undoing entries -/

/-- What undoing an entry does to the balances over the integers. The guard says that every sum and
difference that the revert stores fits a `U256`. -/
def balanceRule : UndoRule JournalEntry (Address → ℤ) where
  guard e b :=
    match e with
    | .accountDestroyed hadBalance address target _ =>
        Fits 256 (b address + hadBalance.toNat) ∧
          (address ≠ target →
            Fits 256 (credit b address hadBalance.toNat target - hadBalance.toNat))
    | .balanceTransfer balance src dst =>
        Fits 256 (b src + balance.toNat) ∧
          Fits 256 (credit b src balance.toNat dst - balance.toNat)
    | _ => True
  undo e b :=
    match e with
    | .accountDestroyed hadBalance address target _ =>
        if address ≠ target then
          credit (credit b address hadBalance.toNat) target (-hadBalance.toNat)
        else credit b address hadBalance.toNat
    | .balanceChange oldBalance address => credit b address (oldBalance.toNat - b address)
    | .balanceTransfer balance src dst => credit (credit b src balance.toNat) dst (-balance.toNat)
    | _ => b

/-- Entries that record no change of a balance. -/
def JournalEntry.isIdle : JournalEntry → Bool
  | .accountDestroyed .. | .balanceChange .. | .balanceTransfer .. => false
  | _ => true

theorem balanceRule_undo_idle (h : e.isIdle = true) (b : Address → ℤ) :
    balanceRule.undo e b = b := by
  cases e <;> first | rfl | cases h

theorem balanceRule_guard_idle (h : e.isIdle = true) (b : Address → ℤ) : balanceRule.guard e b := by
  cases e <;> first | exact trivial | cases h

theorem balanceRule_extends_idle {es : List JournalEntry} (h : ∀ e ∈ es, e.isIdle = true)
    (log : List JournalEntry) (b : Address → ℤ) : balanceRule.Extends log b (log ++ es) b := by
  induction es generalizing log with
  | nil =>
    rw [append_nil]
    exact .refl log b
  | cons e es ih =>
    have he := h e mem_cons_self
    have hhead : balanceRule.Extends log b (log ++ [e]) b :=
      .record (balanceRule_guard_idle he b) (balanceRule_undo_idle he b)
    have htail := ih (fun e' he' => h e' (mem_cons_of_mem e he')) (log ++ [e])
    rw [append_cons]
    exact hhead.trans htail

section Revert

variable {db : Database ε}

theorem revertState_idle (he : e.isIdle = true)
    (h : e.revertState sd state = some state') : balances db state' = balances db state := by
  cases e with
  | accountWarmed => exact balances_modify_same h fun _ => rfl
  | accountTouched =>
    simp only [JournalEntry.revertState] at h
    split at h
    · cases h
      rfl
    · exact balances_modify_same h fun _ => rfl
  | nonceChange => exact balances_modify_same h fun _ => rfl
  | accountCreated address isCreatedGlobally =>
    refine balances_modify_same h fun account => ?_
    cases isCreatedGlobally <;> rfl
  | storageWarmed key address | storageChanged key _ address =>
    simp only [JournalEntry.revertState, EvmState.modifySlot, bind_eq_bind, bind_eq_some_iff] at h
    obtain ⟨account, hl, slot, -, hstate⟩ := h
    cases hstate
    exact balances_insert_same (balances_of_lookup db hl).symm
  | transientStorageChange =>
    cases h
    rfl
  | codeChange => exact balances_modify_same h fun _ => rfl
  | accountDestroyed | balanceChange | balanceTransfer => cases he

/-- The revert of the source is the undo rule as long as the guard holds. -/
theorem revertState_balances
    (h : e.revertState sd state = some state') (hg : balanceRule.guard e (balances db state)) :
    balances db state' = balanceRule.undo e (balances db state) := by
  cases hidle : e.isIdle with
  | true => rw [balanceRule_undo_idle hidle, revertState_idle hidle h]
  | false =>
    cases e with
    | accountDestroyed hadBalance address target status =>
      obtain ⟨state₁, h₁, h₂⟩ := bind_eq_some_iff.1 h
      have hb₁ : balances db state₁ = credit (balances db state) address hadBalance.toNat := by
        refine balances_modify_add h₁ (fun account => ?_) hg.1
        cases status <;> rfl
      show _ = if address ≠ target then _ else _
      split_ifs at h₂ ⊢ with hne
      · rw [← hb₁]
        refine balances_modify_sub h₂ (fun _ => rfl) ?_
        rw [hb₁]
        exact hg.2 hne
      · cases h₂
        exact hb₁
    | balanceChange oldBalance address =>
      refine balances_modify h fun account _ => ?_
      show (oldBalance.toNat : ℤ) = _
      omega
    | balanceTransfer balance src dst =>
      obtain ⟨state₁, h₁, h₂⟩ := bind_eq_some_iff.1 h
      have hb₁ : balances db state₁ = credit (balances db state) src balance.toNat :=
        balances_modify_add h₁ (fun _ => rfl) hg.1
      show _ = credit (credit _ src _) dst _
      rw [← hb₁]
      refine balances_modify_sub h₂ (fun _ => rfl) ?_
      rw [hb₁]
      exact hg.2
    | _ => cases hidle

/-- The loop of `checkpoint_revert` rewinds the balances. -/
theorem revert_fold_balances (sd : Bool) (es : List JournalEntry)
    {t : Option TransientStorage} {r : EvmState × Option TransientStorage}
    (h : es.reverse.foldlM (fun acc entry => entry.revert acc.1 acc.2 sd) (state, t) = some r)
    (hg : balanceRule.Guarded es (balances db state)) :
    balances db r.1 = balanceRule.rewind es (balances db state) := by
  -- the first entry is undone last
  induction es generalizing r with
  | nil =>
    cases h
    rfl
  | cons e es ih =>
    rw [reverse_cons, foldlM_append] at h
    obtain ⟨r₁, h₁, h₂⟩ := bind_eq_some_iff.1 h
    have hb₁ := ih h₁ hg.1
    have hlast : e.revert r₁.1 r₁.2 sd = some r := by
      simpa [foldlM_cons, foldlM_nil] using h₂
    rw [JournalEntry.revert_eq] at hlast
    obtain ⟨state₂, hstate, rfl⟩ := map_eq_some_iff.1 hlast
    show balances db state₂ = balanceRule.undo e (balanceRule.rewind es _)
    rw [← hb₁]
    refine revertState_balances hstate ?_
    rw [hb₁]
    exact hg.2

end Revert

/-! ## The books of the journal functions -/

section Books

variable (db : Database ε)

/-- Undoing the new entries of `j'` leads back to the balances of `j`. -/
def Books (j j' : JournalInner) : Prop :=
  balanceRule.Extends j.journal (balances db j.state) j'.journal (balances db j'.state)

/-- The balances stay and only idle entries are recorded. -/
def Quiet (j j' : JournalInner) : Prop :=
  balances db j'.state = balances db j.state ∧
    ∃ es, j'.journal = j.journal ++ es ∧ ∀ e ∈ es, e.isIdle = true

variable {db} {j j' j'' : JournalInner} {a : Address}
variable {skipColdLoad : Bool} {src dst target address : Address}

theorem Quiet.refl (j : JournalInner) : Quiet db j j :=
  ⟨rfl, [], (append_nil _).symm, nofun⟩

theorem Quiet.trans (h : Quiet db j j') (h' : Quiet db j' j'') : Quiet db j j'' := by
  obtain ⟨hb, es, hes, hidle⟩ := h
  obtain ⟨hb', es', hes', hidle'⟩ := h'
  refine ⟨hb'.trans hb, es ++ es', by rw [hes', hes, append_assoc], fun e he => ?_⟩
  rcases mem_append.1 he with he | he
  · exact hidle e he
  · exact hidle' e he

theorem Quiet.books (h : Quiet db j j') : Books db j j' := by
  obtain ⟨hb, es, hes, hidle⟩ := h
  unfold Books
  rw [hes, hb]
  exact balanceRule_extends_idle hidle _ _

theorem Quiet.push (j : JournalInner) (he : e.isIdle = true) : Quiet db j (j.push e) := by
  refine ⟨rfl, [e], rfl, fun e' he' => ?_⟩
  rw [mem_singleton.1 he']
  exact he

theorem Quiet.setAccount (h : (account.info.balance.toNat : ℤ) = balances db j.state a) :
    Quiet db j (j.setAccount a account) :=
  ⟨balances_insert_same h, [], (append_nil _).symm, nofun⟩

theorem isIdle_touchEntries (h : e ∈ touchEntries a account) : e.isIdle = true := by
  unfold touchEntries at h
  split_ifs at h
  · cases h
  · rw [mem_singleton.1 h]
    rfl

theorem Quiet.touchAccount (h : (account.info.balance.toNat : ℤ) = balances db j.state a) :
    Quiet db j (j.touchAccount a account) := by
  unfold JournalInner.touchAccount
  split
  · exact (Quiet.push j (e := .accountTouched a) rfl).trans (.setAccount h)
  · exact .setAccount h

variable (es : List JournalEntry)

/-- A change of balances that is recorded by the last entry. Only the entries before it need to be
idle: what the balances were while those were written does not matter. -/
theorem Books.record (hjournal : j'.journal = j.journal ++ es ++ [e])
    (hidle : ∀ e ∈ es, e.isIdle = true) (hg : balanceRule.guard e (balances db j'.state))
    (hundo : balanceRule.undo e (balances db j'.state) = balances db j.state) : Books db j j' := by
  unfold Books
  rw [hjournal]
  exact (balanceRule_extends_idle hidle _ _).trans (.record hg hundo)

/-! ### Loads -/

/-- The load does not meet an account that an earlier transaction destroyed and that holds a balance
since: its first load in the transaction clears it. -/
def JournalInner.loadKeepsBalance (j : JournalInner) (a : Address) : Bool :=
  match j.state.lookup a with
  | some account =>
      !(account.isColdTransactionId j.transactionId && account.isSelfdestructedLocally &&
        account.info.balance != 0)
  | none => true

section

variable (hkeep : j.loadKeepsBalance a = true)

include hkeep

theorem loadEntry_balance {load : StateLoad Account}
    (h : j.loadEntry db a skipColdLoad = .ok load) :
    (load.data.info.balance.toNat : ℤ) = balances db j.state a := by
  cases found_of_loadEntry h with
  | cold account hl hcold =>
    unfold loadKeepsBalance at hkeep
    rw [hl] at hkeep
    rw [balances_of_lookup db hl]
    cases hdestroyed : account.isSelfdestructedLocally with
    | false => rw [Scope.warmUp_of_not_destroyed hdestroyed]
    | true =>
      have hzero : account.info.balance = 0 := by simpa [hcold, hdestroyed] using hkeep
      rw [Scope.warmUp_of_destroyed hdestroyed, hzero]
      rfl
  | warm account hl => rw [balances_of_lookup db hl]
  | stored info hl hbasic => simp only [balances, Database.balance, hl, hbasic, Account.ofInfo]
  | absent hl hbasic =>
    simp only [balances, Database.balance, hl, hbasic]
    rfl

theorem Quiet.load {loadCode : Bool} :
    Quiet db j (j.loadAccountOptional db a loadCode skipColdLoad).2 := by
  have hfound : ∀ load, j.loadEntry db a skipColdLoad = .ok load → Quiet db j (j.found a load) := by
    intro load hentry
    have hset : Quiet db j (j.setAccount a load.data) :=
      .setAccount (loadEntry_balance hkeep hentry)
    unfold found
    split_ifs
    · exact hset.trans (.push _ rfl)
    · exact hset
  generalize hr : j.loadAccountOptional db a loadCode skipColdLoad = r
  cases loadOutcome hr with
  | failed => exact .refl j
  | noCode load e hentry => exact hfound load hentry
  | loaded load hentry => exact hfound load hentry
  | code load code hentry =>
    refine (hfound load hentry).trans (.setAccount ?_)
    rw [(hfound load hentry).1]
    exact loadEntry_balance hkeep hentry

theorem Quiet.loadDelegated (hdelegated : ∀ load j₁ delegated v b,
      j.loadAccountOptional db a (j.spec.isEnabledIn .prague) false = (.ok load, j₁) →
      load.data.info.code = some (.eip7702 delegated v b) → j₁.loadKeepsBalance delegated = true) :
    Quiet db j (j.loadAccountDelegated db a).2 := by
  have hfirst : Quiet db j (j.loadAccountOptional db a (j.spec.isEnabledIn .prague) false).2 :=
    .load hkeep
  refine loadAccountDelegated_ends hfirst fun load j₁ delegated v b hload hcode => ?_
  rw [hload] at hfirst
  exact hfirst.trans (.load (hdelegated load j₁ delegated v b hload hcode))

end

/-! ### Payments -/

theorem checkedSub_eq (h : checkedSub x y = some z) : (z.toNat : ℤ) = x.toNat + -y.toNat := by
  unfold checkedSub at h
  split_ifs at h with hle
  cases h
  rw [toNat_sub_of_fits]
  · rfl
  · have hle' : y.toNat ≤ x.toNat := hle
    constructor <;> omega

theorem checkedAdd_eq (h : checkedAdd x y = some z) :
    (z.toNat : ℤ) = x.toNat + y.toNat ∧ Fits 256 ((x.toNat : ℤ) + y.toNat) := by
  unfold checkedAdd at h
  split_ifs at h with hlt
  cases h
  have hfits : Fits 256 ((x.toNat : ℤ) + y.toNat) := ⟨by omega, by exact_mod_cast hlt⟩
  exact ⟨toNat_add_of_fits hfits, hfits⟩

theorem journalModify_books (db : Database ε)
    (h : j.modify a f = some j') (hf : ∀ account, j.state.lookup a = some account →
      ((f account).info.balance.toNat : ℤ) = balances db j.state a + amount) :
    balances db j'.state = credit (balances db j.state) a amount ∧ j'.journal = j.journal := by
  obtain ⟨account, hl, rfl⟩ := map_eq_some_iff.1 h
  exact ⟨balances_insert (hf account hl), rfl⟩

/-- In a ledger that a `U256` can count, nobody can be paid too much. -/
theorem credit_fits (htotal : total (balances db j.state) < 2 ^ 256) (hne : src ≠ dst) {x : ℤ}
    (h₀ : 0 ≤ x) (hx : x ≤ balances db j.state src) : Fits 256 (balances db j.state dst + x) := by
  have hpair := add_le_total (balances_nonneg db j.state) hne
  have hdst := balances_nonneg db j.state dst
  constructor <;> omega

/-- The guard and the effect of undoing a payment that was just made. -/
theorem balanceRule_pay (hne : src ≠ dst) (hsrc : Fits 256 (b src)) (hdst : Fits 256 (b dst)) :
    balanceRule.guard (.balanceTransfer v src dst) (pay b src dst v.toNat) ∧
      balanceRule.undo (.balanceTransfer v src dst) (pay b src dst v.toNat) = b := by
  have hsrc' : pay b src dst v.toNat src = b src + -v.toNat := by
    unfold pay
    rw [credit_of_ne _ hne, credit_self]
  have hdst' : credit (pay b src dst v.toNat) src v.toNat dst = b dst + v.toNat := by
    unfold pay
    rw [credit_of_ne _ hne.symm, credit_self, credit_of_ne _ hne.symm]
  refine ⟨⟨?_, ?_⟩, credit_pay_back b src dst v.toNat⟩
  · rw [hsrc']
    simpa using hsrc
  · rw [hdst']
    simpa using hdst

/-- A payment that ends with its entry. -/
theorem Books.pay (hne : src ≠ dst)
    (hjournal : j'.journal = j.journal ++ es ++ [.balanceTransfer v src dst])
    (hidle : ∀ e ∈ es, e.isIdle = true)
    (hb : balances db j'.state = pay (balances db j.state) src dst v.toNat) : Books db j j' := by
  obtain ⟨hguard, hundo⟩ := balanceRule_pay (v := v) hne (balances_fits db j.state src)
    (balances_fits db j.state dst)
  refine Books.record es hjournal hidle ?_ ?_
  · rw [hb]
    exact hguard
  · rw [hb]
    exact hundo

/-- What an operation that burns nothing does to the ledger. -/
def Conserves (db : Database ε) (j j' : JournalInner) : Prop :=
  Books db j j' ∧ total (balances db j'.state) = total (balances db j.state)

theorem Quiet.conserves (h : Quiet db j j') : Conserves db j j' :=
  ⟨h.books, by rw [h.1]⟩

/-- `transfer_loaded` moves value and never meets an overflow. -/
theorem transferLoaded_conserves (htotal : total (balances db j.state) < 2 ^ 256)
    {r : Option TransferError × JournalInner} (h : j.transferLoaded src dst v = some r) :
    Conserves db j r.2 ∧ r.1 ≠ some .overflowPayment := by
  cases transferOutcome h with
  | same error herror =>
    exact ⟨(Quiet.refl j).conserves, by rcases herror with rfl | rfl <;> exact (nomatch ·)⟩
  | nothing receiver hl =>
    exact ⟨(Quiet.touchAccount (balances_of_lookup db hl).symm).conserves, (nomatch ·)⟩
  | outOfFunds sender _ hl =>
    exact ⟨(Quiet.touchAccount (balances_of_lookup db hl).symm).conserves, (nomatch ·)⟩
  | overflow sender receiver hne hsrc hdst hle hadd =>
    -- nobody can be paid too much
    have hfits : Fits 256 (balances db j.state dst + v.toNat) := by
      refine credit_fits htotal hne (by omega) ?_
      rw [balances_of_lookup db hsrc]
      exact_mod_cast hle
    rw [balances_of_lookup db hdst] at hfits
    rw [checkedAdd, if_pos (by exact_mod_cast hfits.2)] at hadd
    cases hadd
  | paid sender receiver hne hsrc hdst hle hadd =>
    have hdebit : balances db (j.state.insert src
        (sender.markTouch.setBalance (sender.info.balance - v))) =
          credit (balances db j.state) src (-v.toNat) := by
      refine balances_insert ?_
      rw [balances_of_lookup db hsrc]
      exact checkedSub_eq (if_pos hle)
    have hpay : balances db ((j.state.insert src (sender.markTouch.setBalance
        (sender.info.balance - v))).insert dst (receiver.markTouch.setBalance
          (receiver.info.balance + v))) = pay (balances db j.state) src dst v.toNat := by
      rw [pay, ← hdebit]
      refine balances_insert ?_
      rw [hdebit, credit_of_ne _ hne.symm, balances_of_lookup db hdst]
      exact (checkedAdd_eq hadd).1
    refine ⟨⟨Books.pay (touchEntries src sender ++ touchEntries dst receiver) hne ?_ ?_ hpay, ?_⟩,
      (nomatch ·)⟩
    · rw [← append_assoc]
    · intro e he
      exact (mem_append.1 he).elim isIdle_touchEntries isIdle_touchEntries
    · show total (balances db _) = _
      rw [hpay, total_pay]

/-! ### Reverting to a checkpoint -/

/-- `checkpoint_revert` goes back to the balances of the checkpoint. -/
theorem checkpointRevert_balances {checkpoint : JournalCheckpoint} {log : List JournalEntry}
    (hlog : checkpoint.journalI = log.length)
    (hext : balanceRule.Extends log b j.journal (balances db j.state))
    (h : j.checkpointRevert checkpoint = some j') :
    j'.journal = log ∧ balances db j'.state = b := by
  obtain ⟨es, hes, hguarded, hrewind⟩ := hext
  obtain ⟨r, hr, hj'⟩ := bind_eq_some_iff.1 h
  cases hj'
  rw [hes, hlog, drop_left] at hr
  refine ⟨?_, ?_⟩
  · show j.journal.take checkpoint.journalI = log
    rw [hes, hlog, take_left]
  · show balances db r.1 = b
    rw [revert_fold_balances _ es hr hguarded, hrewind]

/-- Nothing that matters to the ledger happened since the checkpoint. -/
theorem checkpointRevert_conserves {k : JournalInner} (hbooks : Books db j k)
    (h : k.checkpointRevert j.checkpoint.1 = some j') : Conserves db j j' := by
  obtain ⟨hjournal, hb⟩ := checkpointRevert_balances rfl hbooks h
  refine ⟨?_, by rw [hb]⟩
  unfold Books
  rw [hjournal, hb]
  exact .refl _ _

/-! ### Creating accounts -/

theorem createdAccount_balance (account : Account) (specId : SpecId) :
    (JournalInner.createdAccount account specId).info.balance = account.info.balance := by
  unfold createdAccount
  split_ifs <;> rfl

section

variable (hfunds : caller ≠ target → (v.toNat : ℤ) ≤ balances db j.state caller)

include hfunds

/-- The end of `create_account_checkpoint`: the value moves from the caller to the new account, also
when both are the same. -/
theorem createPayment_conserves {j₃ : JournalInner} {new : U256} (hquiet : Quiet db j j₁)
    (hnew : (new.toNat : ℤ) = balances db j.state target + v.toNat)
    (hj₂ : (j₁.modify target fun a => a.setBalance new) = some j₂)
    (hj₃ : (j₂.modify caller fun a => a.setBalance (a.info.balance - v)) = some j₃) :
    Conserves db j (j₃.push (.balanceTransfer v caller target)) := by
  obtain ⟨hb₂, hlog₂⟩ := journalModify_books db hj₂ fun _ _ => by
    rw [hquiet.1]
    exact hnew
  rw [hquiet.1] at hb₂
  have hcaller : Fits 256 (balances db j₂.state caller - v.toNat) := by
    rw [hb₂]
    by_cases heq : caller = target
    · rw [heq, credit_self, add_sub_cancel_right]
      exact balances_fits db j.state target
    · rw [credit_of_ne _ heq]
      have := (balances_fits db j.state caller).2
      have := hfunds heq
      constructor <;> omega
  have hsub : ∀ account, j₂.state.lookup caller = some account →
      ((account.setBalance (account.info.balance - v)).info.balance.toNat : ℤ) =
        balances db j₂.state caller + -v.toNat := by
    intro account hl
    rw [balances_of_lookup db hl] at hcaller ⊢
    exact toNat_sub_of_fits hcaller
  obtain ⟨hb₃, hlog₃⟩ := journalModify_books db hj₃ hsub
  have hpay : balances db j₃.state = pay (balances db j.state) caller target v.toNat := by
    rw [hb₃, hb₂, credit_comm]
    rfl
  obtain ⟨-, es, hes, hidle⟩ := hquiet
  have hjournal : (j₃.push (.balanceTransfer v caller target)).journal =
      j.journal ++ es ++ [.balanceTransfer v caller target] := by
    show j₃.journal ++ _ = _
    rw [hlog₃, hlog₂, hes]
  refine ⟨?_, ?_⟩
  · by_cases heq : caller = target
    · subst heq
      have hsame : balances db j₃.state = balances db j.state := by
        rw [hpay]
        exact credit_neg_cancel _ _ _
      -- the sum that the revert stores was checked when the account was created
      have hfits : Fits 256 (balances db j.state caller + v.toNat) := by
        rw [← hnew]
        exact fits_toNat new
      refine Books.record es hjournal hidle ⟨?_, ?_⟩ ?_
      · show Fits 256 (balances db j₃.state caller + _)
        rw [hsame]
        exact hfits
      · show Fits 256 (credit (balances db j₃.state) caller _ caller - _)
        rw [hsame, credit_self, add_sub_cancel_right]
        exact balances_fits db j.state caller
      · show credit (credit (balances db j₃.state) caller _) caller _ = _
        rw [hsame, credit_cancel]
    · exact Books.pay es heq hjournal hidle hpay
  · show total (balances db j₃.state) = _
    rw [hpay, total_pay]

/-- `create_account_checkpoint` moves value; a failed one leaves the ledger alone. -/
theorem createAccountCheckpoint_conserves {specId : SpecId}
    {r : Except TransferError JournalCheckpoint × JournalInner}
    (h : j.createAccountCheckpoint caller target v specId = some r) :
    Conserves db j r.2 ∧ ∀ checkpoint, r.1 = .ok checkpoint → checkpoint = j.checkpoint.1 := by
  obtain ⟨account, hl, h⟩ := bind_eq_some_iff.1 h
  have hbalance : balances db j.state target = account.info.balance.toNat :=
    balances_of_lookup db hl
  have hstart : Quiet db j j.checkpoint.2 :=
    ⟨rfl, [], (append_nil _).symm, nofun⟩
  split_ifs at h with hcollision
  · obtain ⟨k, hk, h⟩ := bind_eq_some_iff.1 h
    cases h
    exact ⟨checkpointRevert_conserves hstart.books hk, nofun⟩
  · have htouched : Quiet db j ((j.checkpoint.2.push (.accountCreated target
        account.markCreatedLocally.2)).touchAccount target
          (createdAccount account specId)) := by
      refine (hstart.trans (.push _ rfl)).trans (.touchAccount ?_)
      rw [createdAccount_balance]
      exact hbalance.symm
    cases hadd : checkedAdd account.info.balance v with
    | none =>
      rw [hadd] at h
      obtain ⟨k, hk, h⟩ := bind_eq_some_iff.1 h
      cases h
      exact ⟨checkpointRevert_conserves htouched.books hk, nofun⟩
    | some new =>
      rw [hadd] at h
      obtain ⟨j₂, hj₂, h⟩ := bind_eq_some_iff.1 h
      obtain ⟨j₃, hj₃, h⟩ := bind_eq_some_iff.1 h
      cases h
      refine ⟨createPayment_conserves hfunds htouched ?_ hj₂ hj₃, ?_⟩
      · rw [hbalance]
        exact (checkedAdd_eq hadd).1
      · rintro checkpoint ⟨⟩
        rfl

end

/-! ### Destroying accounts -/

/-- What a selfdestruct burns: the balance of an account that is destroyed in its own favour, if it
was created in this transaction or before Cancun. -/
def JournalInner.burned (db : Database ε) (j : JournalInner) (address target : Address) : Nat :=
  if address = target then
    match j.loadAccount db target with
    | (.ok load, _) =>
        if load.data.isCreatedLocally || !j.spec.isEnabledIn .cancun then
          load.data.info.balance.toNat
        else 0
    | (.error _, _) => 0
  else 0

/-- The start of `selfdestruct`. -/
theorem creditTarget_balances (htotal : total (balances db j.state) < 2 ^ 256)
    (hne : address ≠ target) (h : j.creditTarget address target = some j') :
    balances db j'.state = credit (balances db j.state) target (balances db j.state address) ∧
      ∃ es, j'.journal = j.journal ++ es ∧ ∀ e ∈ es, e.isIdle = true := by
  unfold creditTarget at h
  rw [if_pos hne] at h
  obtain ⟨account, hl, h⟩ := bind_eq_some_iff.1 h
  obtain ⟨targetAccount, hlt, h⟩ := bind_eq_some_iff.1 h
  have haddress := balances_of_lookup db hl
  have htouch : Quiet db j (j.touchAccount target targetAccount) :=
    .touchAccount (balances_of_lookup db hlt).symm
  have hfits : Fits 256 (balances db j.state target + balances db j.state address) :=
    credit_fits htotal hne (balances_nonneg db j.state address) le_rfl
  have hadd : ∀ t, (j.touchAccount target targetAccount).state.lookup target = some t →
      ((t.setBalance (t.info.balance + account.info.balance)).info.balance.toNat : ℤ) =
        balances db (j.touchAccount target targetAccount).state target +
          balances db j.state address := by
    intro t ht
    have htarget := balances_of_lookup db ht
    rw [haddress, ← htouch.1, htarget] at hfits
    rw [htarget, haddress]
    exact toNat_add_of_fits hfits
  obtain ⟨hb, hlog⟩ := journalModify_books db h hadd
  rw [htouch.1] at hb
  obtain ⟨-, es, hes, hidle⟩ := htouch
  exact ⟨hb, es, hlog.trans hes, hidle⟩

/-- Destroying an account in favour of another one moves its balance, whether or not the account
itself goes. -/
theorem destroyAccount_other (hne : address ≠ target) (hb₂ : balances db j₂.state =
      credit (balances db j.state) target (balances db j.state address))
    (hlog₂ : j₂.journal = j.journal ++ es) (hidle : ∀ e ∈ es, e.isIdle = true)
    (hl : j₂.state.lookup address = some acc) :
    Conserves db j (j₂.destroyAccount address target acc) := by
  have hbalance : balances db j.state address = acc.info.balance.toNat := by
    rw [← balances_of_lookup db hl, hb₂, credit_of_ne _ hne]
  have hb : ∀ account : Account, account.info.balance = 0 →
      balances db (j₂.state.insert address account) =
        pay (balances db j.state) address target acc.info.balance.toNat := by
    intro account hzero
    have hcredit : balances db (j₂.state.insert address account) =
        credit (balances db j₂.state) address (-acc.info.balance.toNat) := by
      refine balances_insert ?_
      rw [hzero, balances_of_lookup db hl, add_neg_cancel]
      rfl
    rw [hcredit, hb₂, credit_comm, hbalance]
    rfl
  obtain ⟨hguard, hundo⟩ := balanceRule_pay (v := acc.info.balance) hne
    (balances_fits db j.state address) (balances_fits db j.state target)
  unfold destroyAccount
  split_ifs with hdestroy
  · have hb' := hb (acc.markSelfdestructedLocally.setBalance 0) rfl
    refine ⟨Books.record es (congrArg (· ++ _) hlog₂) hidle ?_ ?_, ?_⟩
    · refine ⟨?_, fun _ => ?_⟩
      · show Fits 256 (balances db (j₂.state.insert address _) address + _)
        rw [hb']
        exact hguard.1
      · show Fits 256 (credit (balances db (j₂.state.insert address _)) address _ target - _)
        rw [hb']
        exact hguard.2
    · show (if address ≠ target then
        credit (credit (balances db (j₂.state.insert address _)) address _) target _ else _) = _
      rw [if_pos hne, hb']
      exact hundo
    · show total (balances db (j₂.state.insert address _)) = _
      rw [hb', total_pay]
  · have hb' := hb (acc.setBalance 0) rfl
    refine ⟨Books.pay es hne (congrArg (· ++ _) hlog₂) hidle hb', ?_⟩
    show total (balances db (j₂.state.insert address _)) = _
    rw [hb', total_pay]

/-- Destroying an account in its own favour burns its balance, unless EIP-6780 keeps the account. -/
theorem destroyAccount_self
    (hquiet : Quiet db j j₁) (hspec : j₁.spec = j.spec) (hl : j₁.state.lookup address = some acc) :
    Books db j (j₁.destroyAccount address address acc) ∧
      total (balances db (j₁.destroyAccount address address acc).state) +
        (if acc.isCreatedLocally || !j.spec.isEnabledIn .cancun then acc.info.balance.toNat else 0 :
          Nat) = total (balances db j.state) := by
  have hbalance : balances db j.state address = acc.info.balance.toNat := by
    rw [← hquiet.1, balances_of_lookup db hl]
  unfold destroyAccount
  rw [hspec, if_neg (not_not_intro rfl)]
  by_cases hdestroy : (acc.isCreatedLocally || !j.spec.isEnabledIn .cancun) = true
  · rw [if_pos hdestroy, if_pos hdestroy]
    have hb : balances db (j₁.state.insert address (acc.markSelfdestructedLocally.setBalance 0)) =
        credit (balances db j.state) address (-acc.info.balance.toNat) := by
      rw [← hquiet.1]
      refine balances_insert ?_
      rw [hquiet.1, hbalance, add_neg_cancel]
      rfl
    obtain ⟨-, es, hes, hidle⟩ := hquiet
    refine ⟨Books.record es (congrArg (· ++ _) hes) hidle ⟨?_, ?_⟩ ?_, ?_⟩
    · show Fits 256 (balances db (j₁.state.insert address _) address + _)
      rw [hb, credit_self, neg_add_cancel_right]
      exact balances_fits db j.state address
    · exact fun h => absurd rfl h
    · show (if address ≠ address then _ else
        credit (balances db (j₁.state.insert address _)) address _) = _
      rw [if_neg (not_not_intro rfl), hb, credit_neg_cancel]
    · show total (balances db (j₁.state.insert address _)) + _ = _
      rw [hb, total_credit, neg_add_cancel_right]
  · rw [if_neg hdestroy, if_neg hdestroy]
    exact ⟨hquiet.books, by rw [hquiet.1]; simp⟩

/-- `selfdestruct` moves or burns the balance. -/
theorem selfdestruct_books (htotal : total (balances db j.state) < 2 ^ 256)
    {r : LoadAnswer ε SelfDestructResult × JournalInner}
    (hkeep : j.loadKeepsBalance target = true) (h : j.selfdestruct db address target = some r) :
    Books db j r.2 ∧
      total (balances db r.2.state) + j.burned db address target =
        total (balances db j.state) := by
  have hquiet : Quiet db j (j.loadAccount db target).2 := .load hkeep
  unfold selfdestruct at h
  unfold burned
  generalize hload : j.loadAccount db target = load at h hquiet ⊢
  obtain ⟨_ | load, j₁⟩ := load
  · cases h
    refine ⟨hquiet.books, ?_⟩
    rw [hquiet.1]
    split_ifs <;> simp
  · have hout := loadOutcome hload
    have hlookup := hout.lookup
    have hspec := hout.frame.2.1
    obtain ⟨j₂, hj₂, h⟩ := bind_eq_some_iff.1 h
    obtain ⟨acc, hacc, h⟩ := bind_eq_some_iff.1 h
    cases h
    by_cases hne : address = target
    · subst hne
      simp only [creditTarget, ne_eq, not_true, if_false] at hj₂
      cases hj₂
      rw [hlookup] at hacc
      cases hacc
      rw [if_pos rfl]
      exact destroyAccount_self hquiet hspec hlookup
    · rw [if_neg hne]
      have htotal₁ : total (balances db j₁.state) < 2 ^ 256 := by
        rw [hquiet.1]
        exact htotal
      obtain ⟨hb₂, es₂, hes₂, hidle₂⟩ := creditTarget_balances htotal₁ hne hj₂
      rw [hquiet.1] at hb₂
      obtain ⟨-, es, hes, hidle⟩ := hquiet
      have hconserves : Conserves db j (j₂.destroyAccount address target acc) := by
        refine destroyAccount_other (es ++ es₂) hne hb₂ ?_ (fun e he => ?_) hacc
        · rw [hes₂, hes, append_assoc]
        · exact (mem_append.1 he).elim (hidle e) (hidle₂ e)
      exact ⟨hconserves.1, by simpa using hconserves.2⟩

end Books

end Revm
