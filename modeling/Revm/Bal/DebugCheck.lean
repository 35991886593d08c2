import Revm.Bal.PerTransaction

/-!
# The check of a block access list

`execute_blocks` compares the recorded list of a block with the one of its execution, after it has
taken out what was recorded before and after the transactions. The index after the transactions is
computed from the number of accounts, so the check is exact if and only if this makes no difference
to the recorded writes (`balCheck_exact`). For the only-if part the recorded writes are split by
transaction (`Bal.parts`): merged again they are what was recorded (`Bal.parts_sameAt`).
-/

set_option autoImplicit false

namespace Revm

open BalWrites List AccountBal

/-! ## The source -/

variable {T : Type}

/-- `writes.retain` by the index. -/
def BalWrites.retain (self : BalWrites T) (keep : Nat → Bool) : BalWrites T :=
  ⟨self.writes.filter fun write => keep write.1⟩

/-- The writes of an account whose index is kept. -/
def AccountBal.retain (self : AccountBal) (keep : Nat → Bool) : AccountBal where
  accountInfo := ⟨self.accountInfo.nonce.retain keep, self.accountInfo.balance.retain keep,
    self.accountInfo.code.retain keep⟩
  storage := ⟨self.storage.storage.mapValues (·.retain keep)⟩

variable (self : Bal)

/-- The writes whose index is kept. -/
def Bal.retain (keep : Nat → Bool) : Bal := ⟨self.accounts.mapValues (·.retain keep)⟩

/-- `remove_at_ids`. -/
def Bal.removeAtIds (idxs : List Nat) : Bal :=
  if idxs.isEmpty then self else self.retain fun i => !idxs.contains i

/-- `remove_first_last`. -/
def Bal.removeFirstLast : Bal := self.removeAtIds [0, self.accounts.entries.length + 1]

variable (addrs : List Address)

/-- `remove_at_address`. -/
def Bal.removeAtAddress : Bal :=
  ⟨addrs.foldl (fun accounts address => accounts.erase address) self.accounts⟩

/-- `SYSTEM_CA_ADDRESSES`. -/
def systemCaAddresses : List Address :=
  [0xfffffffffffffffffffffffffffffffffffffffe, 0x000f3df6d732807ef1319fb7b8bb8522d0beac02,
    0x0000f90827f1c53a10cb7a02335b175320002935, 0x00000961ef480eb55e80d19ad83579a64c007002,
    0x0000bbddc7ce488642fb579f8b00f3a590007251]

/-- `output_bals` of `execute_blocks`: the lists of the transactions, merged under the indices from
1. -/
def outputBals (results : List (Option Bal)) : Bal :=
  (results.zipIdx 1).foldl (fun output result =>
    result.1.elim output fun bal => output.mergeBal bal result.2) .new

/-- The lists differ neither in an account nor in a write: `==`, which does not see the order of the
accounts, so that `sort_keys` changes nothing. -/
def balCheck (recorded output : Bal) : Prop :=
  (output.removeAtAddress systemCaAddresses).Same
    (recorded.removeFirstLast.removeAtAddress systemCaAddresses)

/-! ## What is removed -/

/-- The indices of the writes of an account. -/
def AccountBal.indices (self : AccountBal) : List Nat :=
  self.accountInfo.nonce.writes.map (·.1) ++ self.accountInfo.balance.writes.map (·.1) ++
    self.accountInfo.code.writes.map (·.1) ++
    self.storage.storage.entries.flatMap fun slot => slot.2.writes.map (·.1)

variable {keep keep' : Nat → Bool}

theorem BalWrites.retain_inj {self : BalWrites T} :
    self.retain keep = self.retain keep' ↔ ∀ i ∈ self.writes.map (·.1), keep i = keep' i := by
  constructor
  · intro h i hi
    obtain ⟨write, hwrite, rfl⟩ := mem_map.1 hi
    have hmem := congrArg (write ∈ ·.writes) h
    simp only [retain, mem_filter, hwrite, true_and] at hmem
    exact Bool.eq_iff_iff.2 hmem.to_iff
  · exact fun h =>
      congrArg mk (filter_congr fun _ hwrite => h _ (mem_map_of_mem hwrite))

/-- Only the indices of the writes matter, and all of them do. -/
theorem AccountBal.retain_same_iff {self : AccountBal} :
    (self.retain keep).Same (self.retain keep') ↔ ∀ i ∈ self.indices, keep i = keep' i := by
  simp only [indices, mem_append, mem_flatMap]
  constructor
  · rintro ⟨hinfo, hstorage⟩ i hi
    simp only [retain, AccountInfoBal.mk.injEq, retain_inj] at hinfo
    obtain ((hi | hi) | hi) | ⟨⟨key, writes⟩, hslot, hi⟩ := hi
    · exact hinfo.1 i hi
    · exact hinfo.2.1 i hi
    · exact hinfo.2.2 i hi
    · have hkey := hstorage key
      simp only [retain, HashMap.lookup_mapValues] at hkey
      rw [AList.mem_lookup_iff.2 hslot] at hkey
      exact retain_inj.1 (Option.some.inj hkey) i hi
  · intro h
    constructor
    · simp only [retain]
      rw [retain_inj.2 fun i hi => h i (.inl (.inl (.inl hi))),
        retain_inj.2 fun i hi => h i (.inl (.inl (.inr hi))),
        retain_inj.2 fun i hi => h i (.inl (.inr hi))]
    · intro key
      simp only [retain, HashMap.lookup_mapValues]
      cases hkey : self.storage.storage.lookup key with
      | none => rfl
      | some writes =>
        refine congrArg some (retain_inj.2 fun i hi => h i (.inr ⟨⟨key, writes⟩, ?_, hi⟩))
        exact AList.mem_lookup_iff.1 hkey

theorem Bal.lookup_retain (address : Address) :
    (self.retain keep).accounts.lookup address =
      (self.accounts.lookup address).map (·.retain keep) :=
  HashMap.lookup_mapValues ..

theorem Bal.lookup_removeAtAddress (address : Address) :
    (self.removeAtAddress addrs).accounts.lookup address =
      if address ∈ addrs then none else self.accounts.lookup address := by
  unfold removeAtAddress
  dsimp only
  generalize self.accounts = accounts
  induction addrs generalizing accounts with
  | nil => rfl
  | cons a addrs ih =>
    rw [foldl_cons, ih, HashMap.lookup_erase_ite]
    simp only [mem_cons]
    split_ifs <;> simp_all

/-- Without some addresses the lists are the same if they are at the others. -/
theorem Bal.same_removeAtAddress {x y : Bal} :
    (x.removeAtAddress addrs).Same (y.removeAtAddress addrs) ↔ ∀ a ∉ addrs, x.SameAt y a := by
  refine forall_congr' fun a => ?_
  unfold Bal.SameAt Bal.account
  rw [lookup_removeAtAddress, lookup_removeAtAddress]
  by_cases ha : a ∈ addrs
  · rw [if_pos ha, if_pos ha]
    exact ⟨fun _ hnot => absurd ha hnot, fun _ => ⟨rfl, rfl, fun _ => rfl⟩⟩
  · rw [if_neg ha, if_neg ha]
    exact ⟨fun h _ => h, fun h => h ha⟩

theorem Bal.sameAt_retain_iff {self : Bal} {address : Address} :
    (self.retain keep).SameAt (self.retain keep') address ↔
      ∀ account, self.accounts.lookup address = some account →
        ∀ i ∈ account.indices, keep i = keep' i := by
  unfold SameAt account
  rw [lookup_retain, lookup_retain]
  cases self.accounts.lookup address with
  | none => exact ⟨fun _ _ h => by simp at h, fun _ => ⟨rfl, rfl, fun _ => rfl⟩⟩
  | some account =>
    simp only [Option.map_some, Option.some.injEq, forall_eq', ← retain_same_iff]
    exact ⟨And.right, fun h => ⟨rfl, h⟩⟩

/-- An empty list has no account. -/
theorem Bal.sameAt_new_iff {self : Bal} {address : Address} :
    (self.retain keep).SameAt .new address ↔ self.accounts.lookup address = none := by
  have hnew : Bal.new.accounts.lookup address = none := AList.lookup_empty address
  unfold SameAt account
  rw [lookup_retain, hnew]
  cases self.accounts.lookup address with
  | none => exact ⟨fun _ => rfl, fun _ => ⟨rfl, rfl, fun _ => rfl⟩⟩
  | some account => exact ⟨fun h => absurd h.1 (by simp), fun h => absurd h (by simp)⟩

/-! ## The recorded writes, transaction by transaction -/

/-- The writes of every item are in the order of their indices. -/
def AccountBal.Ordered (self : AccountBal) : Prop :=
  ∀ {T : Type} (field : BalField T),
    (self.writesOf field).writes.Pairwise fun write write' => write.1 ≤ write'.1

/-- The writes of every account are in order. -/
def Bal.Ordered : Prop := ∀ e ∈ self.accounts.entries, e.2.Ordered

/-- The indices of the first `k` transactions. -/
def upTo (k i : Nat) : Bool := decide (1 ≤ i ∧ i ≤ k)

/-- The lists that the recorded writes of `n` transactions are merged from. -/
def Bal.parts (n : Nat) : List (Option Bal) :=
  (range n).map fun k => some (self.retain (· == k + 1))

theorem Bal.outputBals_parts_succ (n : Nat) :
    outputBals (self.parts (n + 1)) =
      (outputBals (self.parts n)).mergeBal (self.retain (· == n + 1)) (n + 1) := by
  unfold outputBals parts
  rw [range_succ, map_append, zipIdx_append, foldl_append]
  simp [Nat.add_comm]

theorem BalWrites.retain_upTo_zero (self : BalWrites T) : self.retain (upTo 0) = .default :=
  congrArg mk (filter_eq_nil_iff.2 fun _ _ => by simp [upTo]; omega)

/-- The writes of one transaction come behind those of the transactions before it. -/
theorem BalWrites.retain_succ {self : BalWrites T} (k : Nat)
    (h : self.writes.Pairwise fun write write' => write.1 ≤ write'.1) :
    (self.retain (upTo k)).append (self.retain (· == k + 1)) (fun _ => k + 1) =
      self.retain (upTo (k + 1)) := by
  obtain ⟨writes⟩ := self
  refine congrArg mk ?_
  dsimp only [retain] at h ⊢
  induction writes with
  | nil => rfl
  | cons write writes ih =>
    obtain ⟨i, value⟩ := write
    obtain ⟨hwrite, hrest⟩ := pairwise_cons.1 h
    have ih := ih hrest
    by_cases hi : i = k + 1
    · -- no write of an earlier transaction follows
      have hnone : writes.filter (fun write => upTo k write.1) = [] := by
        refine filter_eq_nil_iff.2 fun write hmem => ?_
        have := hwrite write hmem
        simp only [upTo, decide_eq_true_eq]
        omega
      have hlow : upTo k (k + 1) = false := by simp [upTo]
      have hup : upTo (k + 1) (k + 1) = true := by simp [upTo]
      rw [hnone] at ih
      simp [hi, hlow, hup, hnone, ← ih]
    · have hsame : upTo (k + 1) i = upTo k i := decide_eq_decide.2 (by omega)
      simp only [filter_cons, hsame, beq_iff_eq, hi, if_false, ← ih]
      split_ifs <;> rfl

/-- The writes of one transaction, merged into a list that has those of the transactions before it:
only slots that are recorded get into the list. -/
theorem AccountBal.append_retain {self x : AccountBal} {k : Nat} (h : self.Ordered)
    (hinfo : x.accountInfo = (self.retain (upTo k)).accountInfo)
    (hwrites : ∀ key, x.storage.writes key = (self.storage.writes key).retain (upTo k))
    (hnone : ∀ key, self.storage.storage.lookup key = none → x.storage.storage.lookup key = none) :
    (x.append (self.retain (· == k + 1)) fun _ => k + 1).Same (self.retain (upTo (k + 1))) where
  accountInfo := by
    have hnonce := retain_succ k (h .nonce)
    have hbalance := retain_succ k (h .balance)
    have hcode := retain_succ k (h .code)
    dsimp only [writesOf] at hnonce hbalance hcode
    simp only [append, hinfo, retain, AccountInfoBal.append, hnonce, hbalance, hcode]
  storage := by
    intro key
    unfold append
    rw [StorageBal.lookup_append, hwrites]
    have hslot := retain_succ k (h (.slot key))
    simp only [retain, HashMap.lookup_mapValues]
    simp only [writesOf, StorageBal.writes] at hslot ⊢
    cases hkey : self.storage.storage.lookup key with
    | none => exact hnone key hkey
    | some writes =>
      rw [hkey] at hslot
      exact congrArg some hslot

theorem AccountBal.writes_retain (self : AccountBal) (key : StorageKey) :
    (self.retain keep).storage.writes key = (self.storage.writes key).retain keep := by
  unfold retain StorageBal.writes
  rw [HashMap.lookup_mapValues]
  cases self.storage.storage.lookup key <;> rfl

/-- Merged, the writes of the transactions are the recorded ones. -/
theorem Bal.parts_sameAt {self : Bal} (h : self.Ordered) (n : Nat) (address : Address) :
    (self.retain (upTo (n + 1))).SameAt (outputBals (self.parts (n + 1))) address := by
  unfold SameAt account
  rw [lookup_retain]
  cases hl : self.accounts.lookup address with
  | none =>
    have hnone : ∀ n, (outputBals (self.parts n)).accounts.lookup address = none := by
      intro n
      induction n with
      | zero => exact AList.lookup_empty address
      | succ n ih =>
        rw [outputBals_parts_succ, mergeBal, lookup_append, lookup_retain, hl]
        exact ih
    rw [hnone]
    exact ⟨rfl, rfl, fun _ => rfl⟩
  | some account =>
    have hordered : account.Ordered := h ⟨address, account⟩ (AList.mem_lookup_iff.1 hl)
    have hsome : ∃ x, (outputBals (self.parts (n + 1))).accounts.lookup address = some x ∧
        x.Same (account.retain (upTo (n + 1))) := by
      induction n with
      | zero =>
        rw [outputBals_parts_succ, mergeBal, lookup_append, lookup_retain, hl]
        refine ⟨_, rfl, append_retain hordered ?_ ?_ fun _ _ => rfl⟩
        · simp only [AccountBal.retain, retain_upTo_zero]
          rfl
        · exact fun key => (retain_upTo_zero _).symm
      | succ n ih =>
        obtain ⟨x, hx, hsame⟩ := ih
        rw [outputBals_parts_succ, mergeBal, lookup_append, lookup_retain, hl]
        refine ⟨_, rfl, ?_⟩
        unfold Bal.account
        rw [hx]
        refine append_retain hordered hsame.accountInfo (fun key => ?_)
          fun key hkey => ?_
        · rw [← writes_retain]
          exact congrArg (·.getD .default) (hsame.storage key)
        · rw [Option.getD_some, hsame.storage key]
          simp only [AccountBal.retain, HashMap.lookup_mapValues, hkey, Option.map_none]
    obtain ⟨x, hx, hsame⟩ := hsome
    rw [hx]
    exact ⟨rfl, hsame.accountInfo.symm, fun key => (hsame.storage key).symm⟩

/-! ## The check -/

/-- The index that `remove_first_last` takes for the last one is, of all indices of writes that are
compared, the one after `n` transactions. -/
def Bal.LastIndex (n : Nat) : Prop :=
  ∀ e ∈ self.accounts.entries, e.1 ∉ systemCaAddresses → ∀ i ∈ e.2.indices,
    i = self.accounts.entries.length + 1 ↔ i = n + 1

/-- Whatever the `n` transactions return, the check succeeds exactly if this is what was recorded of
them. -/
def BalCheckExact (recorded : Bal) (n : Nat) : Prop :=
  ∀ results : List (Option Bal), results.length = n →
    (balCheck recorded (outputBals results) ↔ ∀ a ∉ systemCaAddresses,
      (recorded.retain (upTo n)).SameAt (outputBals results) a)

theorem Bal.lastIndex_iff {self : Bal} {n : Nat}
    (hrange : ∀ e ∈ self.accounts.entries, ∀ i ∈ e.2.indices, i ≤ n + 1) :
    self.LastIndex n ↔
      ∀ a ∉ systemCaAddresses, (self.retain (upTo n)).SameAt self.removeFirstLast a := by
  have hindex : ∀ i ≤ n + 1, (i = self.accounts.entries.length + 1 ↔ i = n + 1) ↔
      upTo n i = !contains [0, self.accounts.entries.length + 1] i := by
    intro i hi
    rw [upTo, contains_eq_mem, Bool.eq_iff_iff]
    simp only [decide_eq_true_eq, Bool.not_eq_true', decide_eq_false_iff_not, mem_cons,
      not_mem_nil, or_false]
    omega
  constructor
  · intro hlast a ha
    refine sameAt_retain_iff.2 fun account hl i hi => ?_
    have hmem : ⟨a, account⟩ ∈ self.accounts.entries := AList.mem_lookup_iff.1 hl
    exact (hindex i (hrange _ hmem i hi)).1 (hlast _ hmem ha i hi)
  · intro hsame e he ha i hi
    have hl := AList.mem_lookup_iff.2 he
    exact (hindex i (hrange _ he i hi)).2 (sameAt_retain_iff.1 (hsame e.1 ha) e.2 hl i hi)

/-- The check compares the writes of the transactions if the removed index makes no difference. If
the recorded writes are in order, it does so only then: the recorded writes of the transactions,
merged, are refused otherwise. -/
theorem balCheck_exact (recorded : Bal) (n : Nat)
    (hrange : ∀ e ∈ recorded.accounts.entries, ∀ i ∈ e.2.indices, i ≤ n + 1) :
    (n = 0 ∨ recorded.LastIndex n → BalCheckExact recorded n) ∧
      (recorded.Ordered → BalCheckExact recorded n → n = 0 ∨ recorded.LastIndex n) := by
  unfold BalCheckExact balCheck
  simp only [Bal.same_removeAtAddress]
  constructor
  · rintro (rfl | hlast) results hlength
    · -- without transactions both sides say that there is no account
      obtain rfl := length_eq_zero_iff.1 hlength
      exact forall₂_congr fun a _ => ⟨fun h => Bal.sameAt_new_iff.2 (Bal.sameAt_new_iff.1 h.symm),
        fun h => (Bal.sameAt_new_iff.2 (Bal.sameAt_new_iff.1 h)).symm⟩
    · have hsame := (Bal.lastIndex_iff hrange).1 hlast
      exact forall₂_congr fun a ha =>
        ⟨fun h => (hsame a ha).trans h.symm, fun h => h.symm.trans (hsame a ha)⟩
  · intro hordered hexact
    cases n with
    | zero => exact .inl rfl
    | succ n =>
      -- the recorded writes, split by transaction, are results that the check has to accept
      have hparts := fun a (_ : a ∉ systemCaAddresses) => Bal.parts_sameAt hordered n a
      have hcheck := (hexact (recorded.parts (n + 1)) (by simp [Bal.parts])).2 hparts
      exact .inr ((Bal.lastIndex_iff hrange).2 fun a ha => (hparts a ha).trans (hcheck a ha))

/-- A list of one account and the writes of its nonce. -/
def noncesBal (writes : List (Nat × U64)) : Bal :=
  ⟨(∅ : HashMap Address AccountBal).insert 1 ⟨⟨⟨writes⟩, .default, .default⟩, .default⟩⟩

/-- One transaction, with writes before and after it. The check of two transactions of the account
is not exact. -/
theorem balCheck_exact_nonce : BalCheckExact (noncesBal [(0, 4), (1, 5), (2, 6)]) 1 ∧
    ¬BalCheckExact (noncesBal [(1, 5), (2, 6)]) 2 := by
  refine ⟨(balCheck_exact _ 1 (by decide)).1 (.inr (by unfold Bal.LastIndex; decide)), fun h => ?_⟩
  have hordered : (noncesBal [(1, 5), (2, 6)]).Ordered := by
    intro e he T field
    obtain rfl := mem_singleton.1 he
    cases field with
    | nonce => exact pairwise_pair.2 (by decide)
    | balance => exact .nil
    | code => exact .nil
    | slot key => exact .nil
  have hlast := ((balCheck_exact _ 2 (by decide)).2 hordered h).resolve_left (by decide)
  unfold Bal.LastIndex at hlast
  exact absurd hlast (by decide)

/-- Two transactions and one account: the write of the second one is removed. -/
theorem balCheck_inexact : let recorded := noncesBal [(1, 5), (2, 6)]
    let output := outputBals [some (nonceBal 1 0 5), some (nonceBal 1 0 6)]
    recorded = output ∧ ¬balCheck recorded output := by
  refine ⟨rfl, fun h => ?_⟩
  have hwrites := congrArg (fun info => info.nonce.writes.length) (h 1).2.accountInfo
  exact absurd hwrites (by decide)

end Revm
