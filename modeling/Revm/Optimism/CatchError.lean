import Revm.Journal.Discard
import Revm.Optimism.Fees

/-!
# The end of a failed OP transaction

`OpHandler::catch_error` treats two kinds of transactions differently.

- A deposit cannot be rejected. When it fails the whole journal is reverted to the default
  checkpoint, the nonce of the caller is bumped, the mint is added to its balance, and the
  transaction is committed: `failedDeposit_mints`. The journal that is reverted is the one of an
  arbitrary partial run (`DepositFails`): the caller was loaded and charged while no address of this
  transaction was warm yet, then `load_accounts` replaced the warm addresses, then any operations
  followed. The view of the journal (`Scope.later`) depends on the warm addresses, so the entry of
  the first load is treated apart from the other entries, which are undone in the view with the new
  warm addresses.
- For every other transaction the journal is left as it is. `opRun_untouched` says when that is
  harmless: the transaction was rejected before its caller was loaded. `opRun_leaves_trace` shows
  what stays behind otherwise.
-/

set_option autoImplicit false

namespace Revm

open JournalInner Scope Option AList SeenAccount JournalEntry List Except Bool Account

variable {ε : Type} {info : AccountInfo} {loadCode : Bool} {load : StateLoad Account} {α : Type}
  {a : Address} {s : EvmState}

/-! ## The state that a revert gives back -/

/-- The state map holds what the journal held: accounts that were in it and that no earlier
transaction destroyed are as they were, new ones are as the database has them. -/
structure JournalInner.GivenBack {ε : Type} (db : Database ε) (j : JournalInner) (s : EvmState) :
    Prop where
  old : ∀ a acc, j.state.lookup a = some acc → acc.isSelfdestructedLocally = false →
    ∃ acc', s.lookup a = some acc' ∧ acc.Undone j.spec a acc'
  new : ∀ a acc' info, j.state.lookup a = none → s.lookup a = some acc' → db.basic a = .ok info →
    acc'.LikeDatabase j.spec a (info.getD AccountInfo.default) ∧
      (db.NoCodelessStorage → acc'.SlotsLikeDatabase db a)

/-- The info that an account has before the transaction. -/
def JournalInner.infoBefore (db : Database ε) (j : JournalInner) (a : Address) :
    Except ε AccountInfo :=
  match j.state.lookup a with
  | some acc => .ok acc.info
  | none => (db.basic a).map fun info => info.getD AccountInfo.default

theorem JournalInner.basic_of_infoBefore {db : Database ε} {j : JournalInner}
    (hl : j.state.lookup a = none) (h : j.infoBefore db a = .ok info) :
    ∃ stored, db.basic a = .ok stored := by
  simp only [infoBefore, hl] at h
  cases hbasic : db.basic a with
  | error e =>
    rw [hbasic] at h
    cases h
  | ok stored => exact ⟨stored, rfl⟩

/-- The two accounts differ at most in their warmth and in what is only kept for it. -/
structure Account.Alike (acc acc' : Account) : Prop where
  info : acc'.info = acc.info
  storage : acc'.storage = acc.storage
  touched : acc'.isTouched = acc.isTouched
  created : acc'.isCreated = acc.isCreated
  selfDestructed : acc'.isSelfdestructed = acc.isSelfdestructed

/-- The nonce was bumped and an amount was added to the balance. -/
structure Account.Minted (mint : Nat) (acc acc' : Account) : Prop where
  nonce : acc'.info.nonce.toNat = acc.info.nonce.toNat + 1
  balance : acc'.info.balance.toNat = acc.info.balance.toNat + mint
  codeHash : acc'.info.codeHash = acc.info.codeHash
  touched : acc'.isTouched = true
  created : acc'.isCreated = acc.isCreated
  selfDestructed : acc'.isSelfdestructed = acc.isSelfdestructed
  storage : acc'.storage = acc.storage

namespace Account

variable {spec : SpecId} {acc acc' acc'' : Account}

theorem Alike.refl (acc : Account) : acc.Alike acc := ⟨rfl, rfl, rfl, rfl, rfl⟩

theorem Alike.warmUp (h : acc.isSelfdestructedLocally = false) (t : Nat) :
    acc.Alike (warmUp acc t) := by
  rw [warmUp_of_not_destroyed h]
  exact ⟨rfl, rfl, rfl, rfl, rfl⟩

theorem Shows.trans_alike {touched created selfDestructed : Bool}
    (h : acc.Shows spec a info touched created selfDestructed) (halike : acc.Alike acc') :
    acc'.Shows spec a info touched created selfDestructed where
  balance := by rw [halike.info, h.balance]
  nonce := by rw [halike.info, h.nonce]
  codeHash := by rw [halike.info, h.codeHash]
  touched := fun hhide => by rw [halike.touched, h.touched hhide]
  created := by rw [halike.created, h.created]
  selfDestructed := by rw [halike.selfDestructed, h.selfDestructed]

theorem Undone.trans_alike (h : acc.Undone spec a acc') (halike : acc'.Alike acc'') :
    acc.Undone spec a acc'' :=
  ⟨h.toShows.trans_alike halike, by rw [halike.storage]; exact h.slot⟩

end Account

namespace JournalInner.GivenBack

variable {db : Database ε} {j : JournalInner} {acc : Account}

section

variable (h : GivenBack db j s)

include h

/-- An account that is as before, or as the database has it if it is new, may be put into the
map. -/
theorem insert (hold : ∀ x, j.state.lookup a = some x → x.isSelfdestructedLocally = false →
      x.Undone j.spec a acc) (hnew : ∀ info, j.state.lookup a = none → db.basic a = .ok info →
      acc.LikeDatabase j.spec a (info.getD AccountInfo.default) ∧
        (db.NoCodelessStorage → acc.SlotsLikeDatabase db a)) : GivenBack db j (s.insert a acc) where
  old := by
    intro b x hx hlocal
    by_cases hb : b = a
    · subst hb
      exact ⟨acc, lookup_insert _, hold x hx hlocal⟩
    · rw [lookup_insert_ne hb]
      exact h.old b x hx hlocal
  new := by
    intro b y info hx hy hinfo
    by_cases hb : b = a
    · subst hb
      obtain rfl : acc = y := some.inj ((lookup_insert _).symm.trans hy)
      exact hnew info hx hinfo
    · exact h.new b y info hx ((lookup_insert_ne hb).symm.trans hy) hinfo

/-- An account of the map may be replaced by one that differs in its warmth only. -/
theorem put {acc acc' : Account} (hl : s.lookup a = some acc)
    (halike : acc.Alike acc') : GivenBack db j (s.insert a acc') := by
  refine h.insert (fun x hx hlocal => ?_) fun info hx hinfo => ?_
  · obtain ⟨y, hy, hundone⟩ := h.old a x hx hlocal
    obtain rfl : acc = y := some.inj (hl.symm.trans hy)
    exact hundone.trans_alike halike
  · obtain ⟨hlike, hslots⟩ := h.new a acc info hx hl hinfo
    refine ⟨hlike.trans_alike halike, fun hdb k slot value hk hvalue => ?_⟩
    rw [halike.storage] at hk
    exact hslots hdb k slot value hk hvalue

/-- An account that the database answers may be added. -/
theorem add {info : Option AccountInfo}
    (hl : j.state.lookup a = none) (hinfo : db.basic a = .ok info)
    (hlike : acc.LikeDatabase j.spec a (info.getD AccountInfo.default))
    (hstorage : acc.storage = ∅) :
    GivenBack db j (s.insert a acc) := by
  refine h.insert (fun x hx => ?_) fun info' _ hinfo' => ?_
  · rw [hl] at hx
    cases hx
  · obtain rfl : info = info' := ok.inj (hinfo.symm.trans hinfo')
    refine ⟨hlike, fun hdb k slot value hk => ?_⟩
    rw [hstorage] at hk
    cases hk

/-- The info of an account that was given back. -/
theorem info_eq (hbefore : j.infoBefore db a = .ok info)
    (hlocal : ∀ x, j.state.lookup a = some x → x.isSelfdestructedLocally = false)
    (hl : s.lookup a = some acc) :
    acc.info.nonce = info.nonce ∧ acc.info.balance = info.balance := by
  cases hx : j.state.lookup a with
  | some x =>
    obtain ⟨y, hy, hundone⟩ := h.old a x hx (hlocal x hx)
    obtain rfl : acc = y := some.inj (hl.symm.trans hy)
    simp only [infoBefore, hx] at hbefore
    rw [← ok.inj hbefore]
    exact ⟨hundone.nonce, hundone.balance⟩
  | none =>
    obtain ⟨stored, hbasic⟩ := basic_of_infoBefore hx hbefore
    obtain ⟨hlike, -⟩ := h.new a acc stored hx hl hbasic
    simp only [infoBefore, hx, hbasic] at hbefore
    rw [← ok.inj hbefore]
    exact ⟨hlike.nonce, hlike.balance⟩

end

end JournalInner.GivenBack

/-! ## Reverting to the default checkpoint -/

variable {c : Scope ε}

namespace Scope

section Warm

variable {db : Database ε} {j k : JournalInner} {observe : Bool} (warm : WarmAddresses)

/-- The facts about the state map in a later transaction do not depend on the warm addresses. -/
theorem later_stateInv_withWarm :
    (later db { j with warmAddresses := warm } observe).StateInv s ↔
      (later db j observe).StateInv s := by
  refine forall_congr' fun a => ?_
  cases s.lookup a with
  | none => exact ⟨fun h => ⟨h.backed, h.fresh⟩, fun h => ⟨h.backed, h.fresh⟩⟩
  | some acc =>
    exact ⟨fun h => ⟨h.backed, h.vacant, h.live, nofun⟩,
      fun h => ⟨h.backed, h.vacant, h.live, nofun⟩⟩

theorem later_persists_withWarm {s s' : EvmState} :
    (later db { j with warmAddresses := warm } observe).Persists s s' ↔
      (later db j observe).Persists s s' :=
  ⟨fun h => ⟨h.account, h.slot⟩, fun h => ⟨h.account, h.slot⟩⟩

/-- The warm addresses are only seen as warmth. -/
theorem later_see_withWarm (s : EvmState) (a : Address) :
    ((later db { j with warmAddresses := warm } observe).see s a).still =
      ((later db j observe).see s a).still := by
  have hslot : ∀ (k : StorageKey) (slot : Option EvmStorageSlot),
      { (later db { j with warmAddresses := warm } observe).seeSlot a k slot with cold := false } =
        { (later db j observe).seeSlot a k slot with cold := false } := by
    intro k slot
    simp only [seeSlot]
    rw [show (later db { j with warmAddresses := warm } observe).base a k =
      (later db j observe).base a k from rfl]
    cases (later db j observe).base a k with
    | none => rfl
    | some value => cases slot <;> rfl
  cases hl : s.lookup a with
  | none =>
    rw [see_of_none hl, see_of_none hl]
    exact SeenAccount.ext rfl rfl rfl rfl rfl rfl rfl rfl rfl rfl (funext fun k => hslot k none)
  | some acc =>
    rw [see_of_some hl, see_of_some hl]
    exact SeenAccount.ext rfl rfl rfl rfl rfl rfl rfl rfl rfl rfl (funext fun k => hslot k _)

theorem Inv.later_withWarm (h : (later db j observe).Inv k) :
    (later db { j with warmAddresses := warm } observe).Inv { k with warmAddresses := warm } where
  spec := h.spec
  transactionId := h.transactionId
  warm := rfl
  state := (later_stateInv_withWarm warm).2 h.state
  seen := by
    -- nonce, code and flags are seen alike
    have hsee : ∀ a, ((later db { j with warmAddresses := warm } observe).see k.state a).still =
        ((later db j observe).see k.state a).still := later_see_withWarm warm k.state
    refine ⟨fun hc a hfresh hcodeless => h.seen.codeless hc a hfresh ?_, fun hc a hlocal => ?_⟩
    · have hnonce := congrArg nonce (hsee a)
      have hcode := congrArg codeHash (hsee a)
      exact ⟨hnonce.symm.trans hcodeless.1, hcode.symm.trans hcodeless.2⟩
    · have hlocal' := congrArg selfDestructedLocal (hsee a)
      have hdestroyed := congrArg selfDestructed (hsee a)
      exact hdestroyed.trans (h.seen.destroyed hc a (hlocal'.symm.trans hlocal))
  transient := nofun

end Warm

/-- Undoing what was recorded since the base, as one loop over the entries. -/
theorem Nested.rewind {base k : JournalInner}
    {frames : List JournalCheckpoint} {below : List JournalInner}
    (h : c.Nested base frames below k) : ∃ es s t, k.journal = base.journal ++ es ∧
      es.reverse.foldlM (fun acc entry => JournalEntry.revert entry acc.1 acc.2
        (k.spec.isEnabledIn .spuriousDragon)) (k.state, some k.transientStorage) =
          some (s, some t) ∧
      c.StateInv s ∧ c.Persists base.state s ∧ c.see s = c.see base.state := by
  have hinv := h.inv
  obtain ⟨hundo, hkeep, es', hes', hlive⟩ := h.undo
  obtain ⟨es, hes, hguard, hview⟩ := hundo
  obtain rfl : es = es' := append_cancel_left (hes.symm.trans hes')
  obtain ⟨s, t, hrun, hback, hstate, hkeep', -⟩ :=
    revertAll_becomes hinv.state k.transientStorage hlive hguard
  refine ⟨es, s, t, hes, ?_, hstate, hkeep.trans hkeep',
    congrArg Prod.fst (hback.trans hview)⟩
  rw [hinv.spec]
  exact hrun

theorem later_selfDestructedLocal {db : Database ε} {j : JournalInner} {observe : Bool}
    (hleft : j.AllCold)
    (a : Address) : ((later db j observe).see j.state a).selfDestructedLocal = false := by
  cases hl : j.state.lookup a with
  | none =>
    rw [see_of_none hl]
    rfl
  | some acc =>
    rw [see_of_some hl]
    have hcold : acc.isColdTransactionId (later db j observe).transactionId = true := hleft a acc hl
    simp [seeAccount, hcold]

theorem isCold_of_see (h : (c.see s a).cold = true) : c.warm.isCold a = true := by
  cases hl : s.lookup a with
  | none =>
    rw [see_of_none hl] at h
    exact h
  | some acc =>
    rw [see_of_some hl] at h
    exact (and_eq_true_iff.1 h).2

/-- Undoing the entry of a load, if there is one, only changes the warmth of the account. -/
theorem rewind_warming (hstrict : c.strict = false) (t : TransientStorage) (isCold sd : Bool)
    (h : c.StateInv s) (ha : c.Loaded s a) (hlocal : (c.see s a).selfDestructedLocal = false)
    (hcold : isCold = true → c.warm.isCold a = true) :
    ∃ s', (if isCold then [accountWarmed a] else []).reverse.foldlM
        (fun acc entry => revert entry acc.1 acc.2 sd) (s, some t) =
          some (s', some t) ∧
      c.StateInv s' ∧ c.Persists s s' ∧ ∀ b, (c.see s' b).still = (c.see s b).still := by
  cases isCold with
  | false => exact ⟨s, rfl, h, Persists.refl s, fun b => rfl⟩
  | true =>
    have hcreated : (c.see s a).createdLocal = false := by
      obtain ⟨acc, hl, -⟩ := ha
      rw [see_of_some hl]
      simp [seeAccount, hstrict]
    obtain ⟨s', hs', hbecomes⟩ := revert_accountWarmed h ha ⟨hcreated, hlocal, hcold rfl⟩
    refine ⟨s', ?_, hbecomes.inv, hbecomes.keep, fun b => ?_⟩
    · simp only [if_pos, reverse_singleton, foldlM_cons, foldlM_nil,
        revert, hs']
      rfl
    · rw [hbecomes.see]
      by_cases hb : b = a
      · subst hb
        rw [Seen.modify_self]
        rfl
      · rw [Seen.modify_of_ne _ hb]

end Scope

namespace JournalInner

variable {db : Database ε} {j j₁ : JournalInner}

/-- A load records the warming of a cold account and nothing else. -/
theorem journal_load {skipColdLoad : Bool}
    (h : j.loadAccountMutOptionalCode db a loadCode skipColdLoad = (.ok load, j₁)) :
    j₁.journal = j.journal ++ if load.isCold then [.accountWarmed a] else [] := by
  cases loadOutcome h with
  | code load code hentry => exact found_journal j a load
  | loaded load hentry => exact found_journal j a load

/-- A use of the handle without a load of the code. -/
theorem withJournaledAccount_of_loadEntry
    (hload : j.loadEntry db a false = .ok load) (f : JournaledAccount → α × JournaledAccount) :
    ∃ entries j', j.withJournaledAccount db a false f = (.ok (f ⟨a, load.data, entries⟩).1, j') ∧
      j'.state = j.state.insert a (f ⟨a, load.data, entries⟩).2.account ∧
      j'.transactionId = j.transactionId := by
  have haccount : j.loadAccountMutOptionalCode db a false false = (.ok load, j.found a load) := by
    simp only [loadAccountMutOptionalCode, hload]
    rfl
  refine ⟨_, _, by rw [withJournaledAccount, haccount], ?_, ?_⟩
  · rw [found_eq]
    exact insert_insert _
  · exact found_transactionId j a load

/-- What a revert to the default checkpoint leaves. -/
def revertedTo (j : JournalInner) (s : EvmState) (t : TransientStorage) : JournalInner :=
  { j with depth := j.depth - 1, logs := [], journal := [], state := s, transientStorage := t }

/-- `checkpoint_revert` to the default checkpoint undoes the entries of two parts of the journal,
the later part first. -/
theorem checkpointRevert_default {es₁ es₂ : List JournalEntry} {s s' : EvmState}
    {t t' : TransientStorage} (hjournal : j.journal = es₁ ++ es₂)
    (hlater : es₂.reverse.foldlM (fun acc entry => revert entry acc.1 acc.2
      (j.spec.isEnabledIn .spuriousDragon)) (j.state, some j.transientStorage) = some (s, some t))
    (hfirst : es₁.reverse.foldlM (fun acc entry => revert entry acc.1 acc.2
      (j.spec.isEnabledIn .spuriousDragon)) (s, some t) = some (s', some t')) :
    j.checkpointRevert ⟨0, 0⟩ = some (j.revertedTo s' t') := by
  simp only [checkpointRevert, drop_zero, hjournal, reverse_append, foldlM_append,
    hlater, bind_eq_bind, bind_some, hfirst]
  rfl

end JournalInner

/-! ## The mint -/

namespace JournaledAccount

variable (x : JournaledAccount)

/-- The nonce is bumped and the mint is added. -/
theorem minted {mint : Nat} (hnonce : x.account.info.nonce.toNat + 1 < 2 ^ 64)
    (hbalance : x.account.info.balance.toNat + mint < 2 ^ 256) :
    x.account.Minted mint (x.bumpNonce.2.incrBalance (BitVec.ofNat 256 mint)).2.account := by
  have hmint : (BitVec.ofNat 256 mint).toNat = mint := by
    exact Nat.mod_eq_of_lt (by omega)
  have hnext : checkedAdd x.account.info.nonce 1 = some (x.account.info.nonce + 1) := if_pos hnonce
  have hsum : checkedAdd x.account.info.balance (BitVec.ofNat 256 mint) =
      some (x.account.info.balance + BitVec.ofNat 256 mint) :=
    if_pos (by rw [hmint]; exact hbalance)
  rw [account_incrBalance, account_bumpNonce, hnext]
  change x.account.Minted mint (Account.setBalance _
    ((checkedAdd x.account.info.balance (BitVec.ofNat 256 mint)).getD x.account.info.balance))
  rw [hsum]
  refine ⟨?_, ?_, rfl, rfl, rfl, rfl, rfl⟩
  · show (x.account.info.nonce + 1).toNat = _
    exact Nat.mod_eq_of_lt hnonce
  · show (x.account.info.balance + BitVec.ofNat 256 mint).toNat = _
    rw [BitVec.toNat_add, hmint]
    exact Nat.mod_eq_of_lt hbalance

end JournaledAccount

/-! ## Deposits -/

section Deposit

variable [Keccak256] (flzCompressLen : List UInt8 → Nat) (db : Database ε) (tx : OpTransaction)
  (block : BlockEnv) (cfg : OpCfgEnv)

/-- The journals in which a deposit can meet an error of the transaction. -/
inductive DepositFails (chain : L1BlockInfo) (j : JournalInner) : JournalInner → Prop where
  /-- `validate` refused the transaction. -/
  | refused : DepositFails chain j j
  /-- The caller was charged, `load_accounts` replaced the warm addresses, and operations
  followed. -/
  | started {chain' : L1BlockInfo} {j₁ : JournalInner} {ops : List Op} {c : Config}
      (warm : WarmAddresses)
      (charged : opValidateAgainstStateAndDeductCaller flzCompressLen db tx block cfg chain j =
        some (.ok (), chain', j₁))
      (allowed : EachStep db (DiscardOk db) ops ⟨{ j₁ with warmAddresses := warm }, []⟩)
      (ran : run db ops ⟨{ j₁ with warmAddresses := warm }, []⟩ = some c) :
      DepositFails chain j c.journal

variable {flzCompressLen db tx block cfg} {chain chain' : L1BlockInfo} {j j₁ k : JournalInner}

omit [Keccak256] in
/-- The charge of a deposit is a load of its caller and a use of the handle. -/
theorem deposit_charged (hdeposit : tx.isDeposit = true)
    (h : opValidateAgainstStateAndDeductCaller flzCompressLen db tx block cfg chain j =
      some (.ok (), chain', j₁)) : ∃ load loaded,
      j.loadAccountMutOptionalCode db tx.base.caller true false = (.ok load, loaded) ∧
      j₁ = putAccount loaded
        { (depositDeductCaller tx block cfg ⟨tx.base.caller, load.data, loaded.journal⟩).2 with
          address := tx.base.caller } := by
  unfold opValidateAgainstStateAndDeductCaller withJournaledAccount at h
  rw [if_pos hdeposit] at h
  rcases hload : j.loadAccountMutOptionalCode db tx.base.caller true false with ⟨_ | load, loaded⟩
  · rw [hload] at h
    cases h
  · rw [hload] at h
    obtain ⟨_, -, h⟩ := map_eq_some_iff.1 h
    exact ⟨load, loaded, rfl, (congrArg (fun r => r.2.2) h).symm⟩

variable (tx block cfg) in
omit [Keccak256] in
/-- The use of the handle is recorded in every view. -/
theorem handled_depositDeductCaller {x : JournaledAccount}
    (h : c.Inv (putAccount k x)) (hlive : x.account.isStale c.transactionId = false) :
    c.Handled k x (depositDeductCaller tx block cfg x).2 := by
  have hset := fun balance => Scope.Handled.setBalance h hlive balance
  have hbump := fun balance => (hset balance).trans
    (Scope.Handled.bumpNonce (hset balance).grows.inv (hset balance).live)
  unfold depositDeductCaller
  split
  · dsimp only
    split_ifs
    · exact hset _
    · exact hset _
    · exact hbump _
    · exact hbump _
  · exact ⟨rfl, hlive, .refl h⟩

omit [Keccak256] in
/-- The load of the caller at the start of a transaction only changes its warmth. -/
theorem later_load (observe : Bool) (hleft : j.AllCold)
    (hload : j.loadAccountMutOptionalCode db a loadCode false = (.ok load, j₁)) :
    (later db j observe).Grows j j₁ ∧
      (∀ b, ((later db j observe).see j₁.state b).still =
        ((later db j observe).see j.state b).still) ∧
      Scope.LoadResult (later db j observe) j a load j₁ := by
  have hinv : (later db j observe).Inv j := later_inv hleft
  rcases hinv.load_cases (c := later db j observe) hload with
    ⟨e, -, he⟩ | ⟨entry, -, hgrow, -, hsee, hanswer⟩
  · cases he
  · refine ⟨hgrow, fun b => ?_, hanswer load rfl⟩
    rw [hsee]
    by_cases hb : b = a
    · subst hb
      rw [Seen.modify_self]
      rfl
    · rw [Seen.modify_of_ne _ hb]

section Fails

variable (hdeposit : tx.isDeposit = true) (hempty : j.journal = [])
  (hleft : j.AllCold)
  (h : DepositFails flzCompressLen db tx block cfg chain j k)
include hdeposit hempty hleft h

/-- Before `load_accounts` and after it: what the run recorded is undone in the view with the new
warm addresses, the warming of the caller in the view with the old ones. -/
theorem DepositFails.rewind (observe : Bool) (hdb : observe = true → db.NoCodelessStorage) :
    k.transactionId = j.transactionId ∧ ∃ s t,
      k.checkpointRevert ⟨0, 0⟩ = some (k.revertedTo s t) ∧
      (later db j observe).StateInv s ∧ (later db j observe).Persists j.state s ∧
      ∀ a, ((later db j observe).see s a).still =
        ((later db j observe).see j.state a).still := by
  have hinv₀ : (later db j observe).Inv j := later_inv hleft
  cases h with
  | refused =>
    refine ⟨rfl, j.state, j.transientStorage, ?_, hinv₀.state, Scope.Persists.refl _, fun a => rfl⟩
    have hnil : j.journal = [] ++ [] := hempty
    exact checkpointRevert_default hnil rfl rfl
  | @started chain' j₁ ops c warm charged allowed ran =>
    obtain ⟨load, loaded, hload, rfl⟩ := deposit_charged hdeposit charged
    obtain ⟨hgrow₁, hsee₁, hres⟩ := later_load observe hleft hload
    have hbase := hgrow₁.inv.later_withWarm warm
    -- the charge and the operations, on top of the loaded caller
    have hself := hbase.setAccount_self (a := tx.base.caller) hres.lookup
    have hcharge := handled_depositDeductCaller tx block cfg
      (x := ⟨tx.base.caller, load.data, loaded.journal⟩) hself.inv hres.live
    have hgrow := hself.trans hcharge.grows
    generalize (depositDeductCaller tx block cfg ⟨tx.base.caller, load.data, loaded.journal⟩).2 =
      caller at hgrow hcharge allowed ran
    have haddress : ({ caller with address := tx.base.caller } : JournaledAccount) = caller := by
      rw [← show caller.address = tx.base.caller from hcharge.address]
    rw [haddress] at allowed ran
    obtain ⟨below, hnested⟩ := Scope.Nested.run
      (c := later db { j with warmAddresses := warm } observe)
      (later_noCodelessStorage hdb) ⟨[], .base hgrow⟩
      (later_admissible allowed) ran
    obtain ⟨es, s, t, hjournal, hloop, hstate, hkeep, hsee⟩ := hnested.rewind
    have hstate₀ := (later_stateInv_withWarm warm).1 hstate
    have hkeep₀ := (later_persists_withWarm warm).1 hkeep
    have hsee₀ : ∀ a, ((later db j observe).see s a).still =
        ((later db j observe).see j.state a).still := by
      intro a
      rw [← later_see_withWarm warm, hsee, later_see_withWarm warm]
      exact hsee₁ a
    -- the entry of the load
    have hcaller : ((later db j observe).see j.state tx.base.caller).selfDestructedLocal =
        false := later_selfDestructedLocal hleft tx.base.caller
    obtain ⟨s', hfirst, hstate', hkeep', hsee'⟩ := rewind_warming
      (c := later db j observe) rfl t load.isCold
      (c.journal.spec.isEnabledIn .spuriousDragon) hstate₀
      (hkeep₀.account _ ⟨load.data, hres.lookup, hres.live⟩)
      ((congrArg selfDestructedLocal (hsee₀ tx.base.caller)).trans hcaller)
      (fun hcold => isCold_of_see (hres.isCold.symm.trans hcold))
    refine ⟨hnested.inv.transactionId, s', t, ?_, hstate', (hgrow₁.keep.trans hkeep₀).trans hkeep',
      fun a => (hsee' a).trans (hsee₀ a)⟩
    have hloaded := journal_load hload
    rw [hempty, nil_append] at hloaded
    rw [← hloaded] at hfirst
    exact checkpointRevert_default hjournal hloop hfirst

/-- The revert gives back the state, and the caller is found in it as if nothing had happened. -/
theorem DepositFails.givenBack : k.transactionId = j.transactionId ∧ ∃ s t,
      k.checkpointRevert ⟨0, 0⟩ = some (k.revertedTo s t) ∧
      j.GivenBack db s ∧
      ∀ a info, j.infoBefore db a = .ok info →
        (∀ x, j.state.lookup a = some x → x.isSelfdestructedLocally = false) →
        (s.lookup a = none → j.state.lookup a = none) ∧
        ∀ acc, s.lookup a = some acc → acc.isSelfdestructedLocally = false := by
  obtain ⟨htid, s, t, hrevert, hinv, hkeep, hsee⟩ :=
    rewind hdeposit hempty hleft h false nofun
  refine ⟨htid, s, t, hrevert, ⟨fun a acc hl hlocal => ?_, fun a acc' info hl hl' hinfo =>
    ⟨?_, fun hdb => ?_⟩⟩, fun a info hbefore hlocal => ⟨fun hnone => ?_, fun acc hacc => ?_⟩⟩
  · exact undone_of_see hkeep (hsee a) hl (isStale_of_not_destroyed _ hlocal)
  · exact (likeDatabase_of_see hinv (hsee a) hl hl' hinfo).1
  · -- the slots of new accounts are observed in a view of their own
    obtain ⟨-, s', t', hrevert', hinv', -, hsee'⟩ :=
      rewind hdeposit hempty hleft h true fun _ => hdb
    obtain rfl : s = s' :=
      congrArg state (some.inj (hrevert.symm.trans hrevert'))
    exact (likeDatabase_of_see hinv' (hsee' a) hl hl' hinfo).2 rfl
  · by_contra hx
    obtain ⟨x, hx⟩ := ne_none_iff_exists'.1 hx
    obtain ⟨acc, hacc, -⟩ :=
      hkeep.account a ⟨x, hx, isStale_of_not_destroyed _ (hlocal x hx)⟩
    rw [hnone] at hacc
    cases hacc
  · -- destroyed accounts are seen as such while they are warm, and none is destroyed and cold
    have hlive : acc.isStale j.transactionId = false := by
      cases hx : j.state.lookup a with
      | none => exact (hinv.account hacc).live (.inr ⟨hx, basic_of_infoBefore hx hbefore⟩)
      | some x =>
        obtain ⟨acc', hacc', hlive⟩ :=
          hkeep.account a ⟨x, hx, isStale_of_not_destroyed _ (hlocal x hx)⟩
        obtain rfl : acc = acc' := some.inj (hacc.symm.trans hacc')
        exact hlive
    have hseen : ((later db j false).see s a).selfDestructedLocal = false :=
      (congrArg selfDestructedLocal (hsee a)).trans
        (later_selfDestructedLocal hleft a)
    rw [see_of_some hacc] at hseen
    cases hcold : acc.isColdTransactionId j.transactionId with
    | true => simpa [isStale, hcold] using hlive
    | false =>
      have hcold' : acc.isColdTransactionId (later db j false).transactionId = false := hcold
      simpa [seeAccount, hcold'] using hseen

end Fails

omit [Keccak256] in
/-- The load of the caller in `catch_error` finds the state that was given back. -/
theorem JournalInner.GivenBack.loadEntry (h : j.GivenBack db s)
    (hbefore : j.infoBefore db a = .ok info) (habsent : s.lookup a = none → j.state.lookup a = none)
    (hlocal : ∀ acc, s.lookup a = some acc → acc.isSelfdestructedLocally = false)
    (hstate : k.state = s) :
    ∃ load, k.loadEntry db a false = .ok load ∧ j.GivenBack db (s.insert a load.data) := by
  subst hstate
  unfold JournalInner.loadEntry
  cases hl : k.state.lookup a with
  | some acc =>
    dsimp only
    rw [Bool.and_false, if_neg Bool.false_ne_true]
    cases acc.isColdTransactionId k.transactionId with
    | true => exact ⟨_, rfl, h.put hl (Account.Alike.warmUp (hlocal acc hl) k.transactionId)⟩
    | false => exact ⟨_, rfl, h.put hl (Account.Alike.refl acc)⟩
  | none =>
    have hx := habsent hl
    obtain ⟨stored, hbasic⟩ := basic_of_infoBefore hx hbefore
    dsimp only
    rw [Bool.and_false, if_neg Bool.false_ne_true, hbasic]
    cases stored with
    | some stored => exact ⟨_, rfl, h.add hx hbasic ⟨rfl, rfl, rfl, fun _ => rfl, rfl, rfl⟩ rfl⟩
    | none => exact ⟨_, rfl, h.add hx hbasic ⟨rfl, rfl, rfl, fun _ => rfl, rfl, rfl⟩ rfl⟩

/-- A failed deposit only mints. -/
theorem failedDeposit_mints (error : OpError ε) (chain' : L1BlockInfo) {info : AccountInfo}
    (hdeposit : tx.isDeposit = true) (herror : error.isTxError = true) (hempty : j.journal = [])
    (hleft : j.AllCold) (hfails : DepositFails flzCompressLen db tx block cfg chain j k)
    (hcaller : ∀ acc, j.state.lookup tx.base.caller = some acc → acc.isSelfdestructedLocally =
      false) (hinfo : j.infoBefore db tx.base.caller = .ok info)
    (hnonce : info.nonce.toNat + 1 < 2 ^ 64)
    (hbalance : info.balance.toNat + (tx.mint.getD 0).toNat < 2 ^ 256) : ∃ s j',
      opCatchError db tx cfg error chain' k =
        some (.failedDeposit (failedDepositGas tx cfg), chain'.clearTxL1Cost, j') ∧
      j.GivenBack db s ∧
      (∀ a, a ≠ tx.base.caller → j'.state.lookup a = s.lookup a) ∧
      (∃ acc acc', s.lookup tx.base.caller = some acc ∧ j'.state.lookup tx.base.caller = some acc' ∧
        acc.Minted (tx.mint.getD 0).toNat acc') ∧
      j'.journal = [] ∧ j'.logs = [] ∧ j'.transientStorage = ∅ ∧
      j'.transactionId = j.transactionId + 1 := by
  obtain ⟨htid, s, t, hrevert, hback, hfound⟩ := DepositFails.givenBack hdeposit hempty hleft hfails
  obtain ⟨habsent, hlocal⟩ := hfound tx.base.caller info hinfo hcaller
  -- the load of the caller in the journal after the revert
  have hstate : (k.revertedTo s t).state = s := rfl
  obtain ⟨load, hload, hback'⟩ := hback.loadEntry hinfo habsent hlocal hstate
  have hfound : (s.insert tx.base.caller load.data).lookup tx.base.caller = some load.data :=
    lookup_insert _
  obtain ⟨hnonce', hbalance'⟩ := hback'.info_eq hinfo hcaller hfound
  obtain ⟨entries, final, hfinal, hstate', hid'⟩ := withJournaledAccount_of_loadEntry
    hload fun account =>
      account.bumpNonce.2.incrBalance (BitVec.ofNat 256 (tx.mint.getD 0).toNat)
  have hminted := JournaledAccount.minted ⟨tx.base.caller, load.data, entries⟩
    (by rw [hnonce']; exact hnonce) (by rw [hbalance']; exact hbalance)
  rw [hstate] at hstate'
  refine ⟨s.insert tx.base.caller load.data, final.commitTx, ?_, hback', fun a ha => ?_,
    ⟨load.data, _, hfound, ?_, hminted⟩, rfl, rfl, rfl, congrArg (· + 1) (hid'.trans htid)⟩
  · simp only [opCatchError, herror, hdeposit, Bool.and_self, if_true, hrevert,
      bind_eq_bind, bind_some, hfinal]
    rfl
  · show final.state.lookup a = _
    rw [hstate', lookup_insert_ne ha, lookup_insert_ne ha]
  · show final.state.lookup tx.base.caller = _
    rw [hstate']
    exact lookup_insert _

end Deposit

/-! ### A failing deposit on a small database -/

/-- A deposit that mints. -/
def mintingDeposit (caller : Address) : OpTransaction where
  base := { TxEnv.default with caller := caller }
  envelopedTx := none
  sourceHash := 1
  mint := some 7
  isSystemTransaction := false
  baseIsDeposit := true

/-- The journal with which a minting deposit halts after the operations. -/
def depositHalts (opSpec : OpSpecId) (caller : Address) (ops : List Op) (j : JournalInner) :
    Option JournalInner :=
  letI := lengthKeccak
  do
    let (_, _, j) ← opValidateAgainstStateAndDeductCaller (fun _ => 0) contractDb
      (mintingDeposit caller) (feeBlock 9) (.newWithSpec opSpec) .default j
    let c ← run contractDb ops ⟨{ j with warmAddresses := .new }, []⟩
    return c.journal

/-- The contract of `contractWrote` deposits, is charged and pays before it halts. -/
theorem failedDeposit_mints_contract : letI := lengthKeccak
    ∃ cfg₀ k s j' acc acc',
      contractWrote = some cfg₀ ∧
      depositHalts .isthmus 1 contractPays cfg₀.journal.commitTx = some k ∧
      opCatchError contractDb (mintingDeposit 1) (.newWithSpec .isthmus)
        .haltedDepositPostRegolith .default k =
          some (.failedDeposit 16777216, L1BlockInfo.default.clearTxL1Cost, j') ∧
      cfg₀.journal.commitTx.GivenBack contractDb s ∧
      s.lookup 1 = some acc ∧ j'.state.lookup 1 = some acc' ∧ acc.Minted 7 acc' := by
  let _ := lengthKeccak
  obtain ⟨cfg₀, hrun₀, hleft, ⟨x, hx, hlocal, hnonce, hbalance⟩, ⟨_ | _, chain', j₁⟩, hpaid, ⟨⟩,
      c, hrun, -⟩ :
      ∃ cfg₀ ∈ contractWrote, (∀ e ∈ cfg₀.journal.state.entries,
          e.2.isColdTransactionId cfg₀.journal.commitTx.transactionId = true) ∧
        (∃ acc ∈ cfg₀.journal.state.lookup 1, acc.isSelfdestructedLocally = false ∧
          acc.info.nonce = 1 ∧ acc.info.balance = 5) ∧
        ∃ r ∈ opValidateAgainstStateAndDeductCaller (fun _ => 0) contractDb (mintingDeposit 1)
          (feeBlock 9) (.newWithSpec .isthmus) .default cfg₀.journal.commitTx, r.1.isOk = true ∧
          ∃ c ∈ run contractDb contractPays ⟨{ r.2.2 with warmAddresses := .new }, []⟩, True := by
    decide
  have hl : cfg₀.journal.commitTx.state.lookup (mintingDeposit 1).base.caller = some x := hx
  have hfails : DepositFails (fun _ => 0) contractDb (mintingDeposit 1) (feeBlock 9)
      (.newWithSpec .isthmus) .default cfg₀.journal.commitTx c.journal :=
    .started .new hpaid
      (EachStep.of_forall (fun op hop cfg => by fin_cases hop <;> exact trivial) _) hrun
  have hinfo : cfg₀.journal.commitTx.infoBefore contractDb (mintingDeposit 1).base.caller =
      .ok x.info := by
    simp only [infoBefore, hl]
  obtain ⟨s, j', hcatch, hback, -, ⟨acc, acc', hacc, hacc', hminted⟩, -⟩ :=
    failedDeposit_mints .haltedDepositPostRegolith .default rfl rfl rfl
      (fun a acc hl => hleft ⟨a, acc⟩ (mem_lookup_iff.1 hl)) hfails
      (fun acc hacc => by
        obtain rfl : x = acc := some.inj (hl.symm.trans hacc)
        exact hlocal)
      hinfo (by rw [hnonce]; decide) (by rw [hbalance]; decide)
  refine ⟨cfg₀, c.journal, s, j', acc, acc', hrun₀, ?_, hcatch, hback, hacc, hacc', hminted⟩
  exact bind_eq_some_iff.2 ⟨_, hpaid, bind_eq_some_iff.2 ⟨c, hrun, rfl⟩⟩

/-- A field of an account before a deposit of another account and after it failed. -/
def aroundDeposit (opSpec : OpSpecId) (before ops : List Op) (a : Address)
    (f : Account → α) : Option (Option α × Option α) :=
  letI := lengthKeccak
  do
    let cfg₀ ← run contractDb before ⟨.new opSpec.intoEthSpec .new, []⟩
    let k ← depositHalts opSpec 5 ops cfg₀.journal.commitTx
    let (_, _, j') ← opCatchError contractDb (mintingDeposit 5) (.newWithSpec opSpec)
      .haltedDepositPostRegolith .default k
    return ((cfg₀.journal.state.lookup a).map f, (j'.state.lookup a).map f)

/-- A failed deposit leaves `0x03` touched, and clears an account that the transaction before
destroyed and that it loads. -/
theorem failedDeposit_keeps :
    aroundDeposit .isthmus [.loadAccount precompile3] [.touch precompile3] precompile3
        isTouched = some (some false, some true) ∧
      aroundDeposit .canyon [.loadAccount 1, .selfdestruct 1 2] [.loadAccount 1] 1
        (·.info.nonce) = some (some 1, some 0) := by
  decide

/-! ## Other transactions -/

section Run

variable (flzCompressLen : List UInt8 → Nat) (db : Database ε) (tx : OpTransaction)
  (block : BlockEnv) (cfg : OpCfgEnv)
  (rest : InitialAndFloorGas → L1BlockInfo → JournalInner →
    Option (Except (OpError ε) α × L1BlockInfo × JournalInner))
  (chain : L1BlockInfo) (j : JournalInner)

/-- `run_without_catch_error`. `rest` stands for what follows the charge: `load_accounts`,
`apply_eip7702_auth_list`, the execution (inspected or not), `post_execution` and
`execution_result`. -/
def opRunWithoutCatchError : Option (Except (OpError ε) α × L1BlockInfo × JournalInner) :=
  match opValidateEnv tx block cfg with
  | .error e => some (.error e, chain, j)
  | .ok _ =>
      match validateInitialTxGas tx.env cfg.spec cfg.disableEip7623 with
      | none => none
      | some (.error e) => some (.error (.invalid e), chain, j)
      | some (.ok gas) =>
          match opValidateAgainstStateAndDeductCaller flzCompressLen db tx block cfg chain j with
          | none => none
          | some (.error e, chain, j) => some (.error e, chain, j)
          | some (.ok _, chain, j) => rest gas chain j

/-- `run`, and `inspect_run`. -/
def opRun : Option (Except (OpOutcome ε) α × L1BlockInfo × JournalInner) := do
  match ← opRunWithoutCatchError flzCompressLen db tx block cfg rest chain j with
  | (.ok output, chain, j) => return (.ok output, chain, j)
  | (.error e, chain, j) =>
      let (outcome, chain, j) ← opCatchError db tx cfg e chain j
      return (.error outcome, chain, j)

/-- The transaction is refused before its caller is loaded: by `validate`, or because the L1 block
or the caller cannot be read. -/
def refusedEarly : Bool :=
  match (opValidateEnv tx block cfg : Except (OpError ε) Unit) with
  | .error _ => true
  | .ok _ =>
      match validateInitialTxGas tx.env cfg.spec cfg.disableEip7623 with
      | none => false
      | some (.error _) => true
      | some (.ok _) =>
          match refreshChain db block cfg chain with
          | .error _ => true
          | .ok _ => !(j.loadEntry db tx.base.caller false).isOk

variable {flzCompressLen db tx block cfg rest}

/-- What is not a deposit is left by `catch_error` as it is. -/
theorem opCatchError_of_not_deposit (hdeposit : tx.isDeposit = false) (error : OpError ε)
    (chain : L1BlockInfo) (j : JournalInner) :
    opCatchError db tx cfg error chain j = some (.error error, chain.clearTxL1Cost, j) := by
  unfold opCatchError
  rw [hdeposit, Bool.and_false]
  rfl

/-- The caller cannot be read. -/
theorem charge_of_unreadable {chain fetched : L1BlockInfo} {j : JournalInner}
    {e : JournalLoadError ε} (hdeposit : tx.isDeposit = false)
    (hchain : refreshChain db block cfg chain = .ok fetched)
    (hload : j.loadEntry db tx.base.caller false = .error e) :
    opValidateAgainstStateAndDeductCaller flzCompressLen db tx block cfg chain j =
      some (.error (.database e), fetched, j) := by
  have hmut : j.loadAccountMutOptionalCode db tx.base.caller true false = (.error e, j) := by
    simp only [loadAccountMutOptionalCode, hload]
  simp only [opValidateAgainstStateAndDeductCaller, hdeposit, false_eq_true, if_false, hchain,
    withJournaledAccount, hmut]

/-! ### The entry of the caller -/

section Entries

variable (x : JournaledAccount)

theorem JournaledAccount.entries_touch : x.journalEntries <+: x.touch.journalEntries := by
  rw [touch_eq]
  exact prefix_append _ _

theorem JournaledAccount.entries_setBalance (balance : U256) :
    x.journalEntries <+: (x.setBalance balance).journalEntries := by
  unfold JournaledAccount.setBalance
  dsimp only
  split_ifs
  · exact x.entries_touch.trans (prefix_append _ _)
  · exact x.entries_touch

theorem JournaledAccount.entries_bumpNonce : x.journalEntries <+: x.bumpNonce.2.journalEntries := by
  unfold JournaledAccount.bumpNonce
  dsimp only
  split
  · exact x.entries_touch
  · exact x.entries_touch.trans (prefix_append _ _)

end Entries

variable (flzCompressLen tx block cfg) in
/-- The charge of the caller records what it does behind what was recorded. -/
theorem entries_opDeductCaller (caller : JournaledAccount) : caller.journalEntries <+:
      (opDeductCaller flzCompressLen tx block cfg chain caller).2.journalEntries := by
  unfold opDeductCaller
  split
  · exact prefix_rfl
  split
  · exact prefix_rfl
  · exact prefix_rfl
  split
  · exact prefix_rfl
  · exact prefix_rfl
  dsimp only
  split_ifs
  · exact caller.entries_setBalance _
  · exact (caller.entries_setBalance _).trans (JournaledAccount.entries_bumpNonce _)

/-- A cold load is recorded, and a use of the handle that only records more does not take it
back. -/
theorem journal_withJournaledAccount_of_cold {β : Type} {j : JournalInner}
    (loadCode : Bool) {f : JournaledAccount → β × JournaledAccount}
    (hf : ∀ x, x.journalEntries <+: (f x).2.journalEntries)
    (hload : j.loadEntry db a false = .ok load) (hcold : load.isCold = true) :
    (j.withJournaledAccount db a loadCode f).2.journal ≠ [] := by
  have hfound : (j.found a load).journal ≠ [] := by simp [found_journal, hcold]
  unfold withJournaledAccount
  generalize hr : j.loadAccountMutOptionalCode db a loadCode false = r
  cases loadOutcome hr with
  | failed e hentry =>
    rw [hload] at hentry
    cases hentry
  | noCode load' e hentry =>
    rw [hload] at hentry
    cases hentry
    exact hfound
  | code load' code hentry =>
    rw [hload] at hentry
    cases hentry
    exact fun hnil => hfound (prefix_nil.1 (hnil ▸ hf ⟨_, _, (j.found a load).journal⟩))
  | loaded load' hentry =>
    rw [hload] at hentry
    cases hentry
    exact fun hnil => hfound (prefix_nil.1 (hnil ▸ hf ⟨_, _, (j.found a load).journal⟩))

variable (flzCompressLen) in
/-- The charge of a cold caller leaves an entry, whatever it is answered with. -/
theorem charge_of_cold {chain fetched : L1BlockInfo} {j : JournalInner}
    (r : Except (OpError ε) Unit) (chain' : L1BlockInfo) (j' : JournalInner)
    (hdeposit : tx.isDeposit = false) (hchain : refreshChain db block cfg chain = .ok fetched)
    (hload : j.loadEntry db tx.base.caller false = .ok load) (hcold : load.isCold = true)
    (h : opValidateAgainstStateAndDeductCaller flzCompressLen db tx block cfg chain j =
      some (r, chain', j')) : j'.journal ≠ [] := by
  have hentry := journal_withJournaledAccount_of_cold true
    (entries_opDeductCaller flzCompressLen tx block cfg fetched) hload hcold
  simp only [opValidateAgainstStateAndDeductCaller, hdeposit, false_eq_true, if_false, hchain] at h
  generalize j.withJournaledAccount db tx.base.caller true
    (opDeductCaller flzCompressLen tx block cfg fetched) = w at h hentry
  obtain ⟨e | answer, j₁⟩ := w
  · cases h
    exact hentry
  · obtain ⟨answer', -, heq⟩ := map_eq_some_iff.1 h
    cases heq
    exact hentry

variable (flzCompressLen rest) in
/-- A transaction that is refused early is answered with an error and the journal as it is. Any
other one that fails leaves an entry, if its caller is cold. -/
theorem opRunWithoutCatchError_cases (hdeposit : tx.isDeposit = false) :
    (refusedEarly db tx block cfg chain j = true ∧
      ∃ e chain', opRunWithoutCatchError flzCompressLen db tx block cfg rest chain j =
        some (.error e, chain', j)) ∨ (refusedEarly db tx block cfg chain j = false ∧
      ((∀ load, j.loadEntry db tx.base.caller false = .ok load → load.isCold = true) →
      (∀ gas chain j e chain' j', rest gas chain j = some (.error e, chain', j') →
        j'.journal = [] → j.journal = []) →
      ∀ e chain' j', opRunWithoutCatchError flzCompressLen db tx block cfg rest chain j =
        some (.error e, chain', j') → j'.journal ≠ [])) := by
  unfold refusedEarly opRunWithoutCatchError
  -- the stages in their order
  rcases opValidateEnv tx block cfg with e | _
  · exact .inl ⟨rfl, e, chain, rfl⟩
  rcases validateInitialTxGas tx.env cfg.spec cfg.disableEip7623 with _ | e | gas
  · exact .inr ⟨rfl, fun _ _ _ _ _ h => by cases h⟩
  · exact .inl ⟨rfl, .invalid e, chain, rfl⟩
  dsimp only
  cases hchain : refreshChain db block cfg chain with
  | error e =>
    refine .inl ⟨rfl, .database (.dbError e), chain, ?_⟩
    simp only [opValidateAgainstStateAndDeductCaller, hdeposit, false_eq_true, if_false, hchain]
  | ok fetched =>
    cases hload : j.loadEntry db tx.base.caller false with
    | error e =>
      refine .inl ⟨rfl, .database e, fetched, ?_⟩
      simp only [charge_of_unreadable hdeposit hchain hload]
    | ok load =>
      -- the caller is loaded, and the entry of the load is still there in the end
      refine .inr ⟨rfl, fun hcold hrest e chain' j' h hempty => ?_⟩
      have hentry := fun r chain' j' =>
        charge_of_cold flzCompressLen r chain' j' hdeposit hchain hload (hcold load rfl)
      generalize opValidateAgainstStateAndDeductCaller flzCompressLen db tx block cfg chain j =
        charged at h hentry
      rcases charged with _ | ⟨_ | _, chain₁, j₁⟩
      · cases h
      · cases h
        exact hentry _ _ _ rfl hempty
      · exact hentry _ _ _ rfl (hrest _ _ _ _ _ _ h hempty)

/-- What a transaction that was never submitted leaves of a journal without entries: nothing is
recorded, the accounts are as they were, and the next transaction finds the same accounts and slots
warm. -/
structure NoTrace (db : Database ε) (j j' : JournalInner) : Prop where
  entries : j'.journal = []
  logs : j'.logs = []
  transientStorage : j'.transientStorage = ∅
  accounts : ∀ a, j'.state.lookup a = j.state.lookup a
  loads : ∀ a, (j'.loadAccount db a).1 = (j.loadAccount db a).1
  slots : ∀ a key, ((j'.loadAccount db a).2.sload db a key false).map Prod.fst =
    ((j.loadAccount db a).2.sload db a key false).map Prod.fst

variable (flzCompressLen db tx block cfg rest) in
/-- A transaction that is refused before its caller is loaded leaves no trace. If the caller is cold
and what follows the charge does not remove its entries when it fails, no other failed transaction
does. -/
theorem opRun_untouched (hdeposit : tx.isDeposit = false)
    (hentries : j.journal = []) (hlogs : j.logs = []) (htransient : j.transientStorage = ∅) :
    (refusedEarly db tx block cfg chain j = true → ∃ e chain' j',
      opRun flzCompressLen db tx block cfg rest chain j = some (.error (.error e), chain', j') ∧
        NoTrace db j j') ∧
    ((∀ load, j.loadEntry db tx.base.caller false = .ok load → load.isCold = true) →
      (∀ gas chain j e chain' j', rest gas chain j = some (.error e, chain', j') →
        j'.journal = [] → j.journal = []) →
      ∀ outcome chain' j', opRun flzCompressLen db tx block cfg rest chain j =
        some (.error outcome, chain', j') → NoTrace db j j' →
        refusedEarly db tx block cfg chain j = true) := by
  rcases opRunWithoutCatchError_cases flzCompressLen rest chain j hdeposit with
    ⟨hearly, e, chain', hrun⟩ | ⟨hlate, hentry⟩
  · refine ⟨fun _ => ⟨e, chain'.clearTxL1Cost, j, ?_, hentries, hlogs, htransient, fun _ => rfl,
      fun _ => rfl, fun _ _ => rfl⟩, fun _ _ _ _ _ _ _ => hearly⟩
    simp only [opRun, hrun, opCatchError_of_not_deposit hdeposit, bind_eq_bind, bind_some]
    rfl
  · -- the caller was loaded, and its entry is still there
    refine ⟨fun hearly => by simp [hlate] at hearly,
      fun hcold hrest outcome chain' j' hrun hnone => ?_⟩
    simp only [opRun, opCatchError_of_not_deposit hdeposit, bind_eq_bind] at hrun
    obtain ⟨⟨_ | _, chain₁, j₁⟩, hbefore, hafter⟩ := bind_eq_some_iff.1 hrun
    · cases hafter
      exact absurd hnone.entries (hentry hcold hrest _ _ _ hbefore)
    · cases hafter

end Run

/-- The execution and what follows it cannot read the database. -/
def unreadableRest (_ : InitialAndFloorGas) (chain : L1BlockInfo) (j : JournalInner) :
    Option (Except (OpError Empty) Unit × L1BlockInfo × JournalInner) :=
  some (.error (.custom "unreadable"), chain, j)

/-- The journal after a transaction that loaded account `1`. -/
def knownCaller : JournalInner := ((new .prague .new).loadAccount opFeeDb 1).2.commitTx

/-- A second transaction of account `1`: with too little gas for the transaction itself it leaves no
trace, with a wrong nonce it leaves one. -/
theorem opRun_untouched_gas :
    (∃ e chain' j', opRun (fun _ => 0) opFeeDb (opFeeTx { feeTx with gasLimit := 100 } [2, 1])
      opFeeBlock (.newWithSpec .isthmus) unreadableRest .default knownCaller =
        some (.error (.error e), chain', j') ∧ NoTrace opFeeDb knownCaller j') ∧
    ∀ outcome chain' j', opRun (fun _ => 0) opFeeDb (opFeeTx { feeTx with nonce := 3 } [2, 1])
      opFeeBlock (.newWithSpec .isthmus) unreadableRest .default knownCaller =
        some (.error outcome, chain', j') → ¬NoTrace opFeeDb knownCaller j' := by
  have huntouched := fun base => opRun_untouched
    (fun _ => 0) opFeeDb (opFeeTx base [2, 1]) opFeeBlock
    (.newWithSpec .isthmus) unreadableRest .default knownCaller rfl rfl rfl rfl
  refine ⟨(huntouched _).1 (by decide +kernel), fun outcome chain' j' hrun hnone => ?_⟩
  have hrefused := (huntouched _).2 (fun load hload => ?_) (fun _ _ _ _ _ _ h hempty => ?_)
    outcome chain' j' hrun hnone
  · exact absurd hrefused (by decide +kernel)
  · have hcold : (knownCaller.loadEntry opFeeDb 1 false).toOption.map (·.isCold) = some true := by
      decide +kernel
    have hload : knownCaller.loadEntry opFeeDb 1 false = .ok load := hload
    rw [hload] at hcold
    exact Option.some.inj hcold
  · cases h
    exact hempty

/-- What a failed transaction of account `1` leaves: the number of entries, its balance, and whether
the next load of it is cold. -/
def afterFailure (base : TxEnv) : Option (Bool × Nat × Option U256 × Option Bool) := do
  let (r, _, j) ← opRun (fun _ => 0) opFeeDb (opFeeTx base [2, 1]) opFeeBlock
    (.newWithSpec .isthmus) unreadableRest .default (.new .prague .new)
  return (r.isOk, j.journal.length, (j.state.lookup 1).map (·.info.balance),
    (j.loadEntry opFeeDb 1 false).toOption.map (·.isCold))

/-- A transaction with a wrong nonce leaves its caller warm and an entry in the journal; one that
fails after the charge leaves the charge as well. Before them account `1` is cold and holds
`10 ^ 9`. -/
theorem opRun_leaves_trace :
    (((new .prague .new).loadEntry opFeeDb 1 false).toOption.map (·.isCold)) =
        some true ∧
      afterFailure { feeTx with nonce := 3 } = some (false, 1, some (10 ^ 9), some false) ∧
      afterFailure feeTx = some (false, 4, some (10 ^ 9 - 30000 * 9 - 1600000 - 60005),
        some false) := by
  decide +kernel

end Revm
