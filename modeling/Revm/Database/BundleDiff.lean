import Revm.Database.BlockRun

/-!
# The bundle is the difference between database and cache

Writing the plain state of the bundle to the database gives what the state answers. Main result:
`State.write_bundle_eq`, for every reached state after a merge and both ways of building the
changes. `State.write_bundle_ne_of_touch_empty` is a run outside its conditions: an account that
was loaded and is emptied by a touch stays in the database.
-/

set_option autoImplicit false

namespace Revm

open BundleAccount

variable {ε : Type}

/-! ## Writing a changeset -/

namespace PlainState

variable (d : PlainState)

/-- Sets or removes an account. -/
def setInfo (a : Address) (info : Option AccountInfo) : PlainState :=
  Function.update d a ⟨info, (d a).storage⟩

/-- Wipes the storage of an account if asked to, then sets slots. -/
def setStorage (changes : PlainStorageChangeset) : PlainState :=
  Function.update d changes.address
    ⟨(d changes.address).info,
      changes.storage.foldl (fun storage e => Function.update storage e.1 e.2)
        (if changes.wipeStorage then fun _ => 0 else (d changes.address).storage)⟩

/-- Writes a changeset: accounts first, then storage. -/
def write (changes : StateChangeset) : PlainState :=
  changes.storage.foldl setStorage (changes.accounts.foldl (fun d e => d.setInfo e.1 e.2) d)

end PlainState

variable (b : BundleAccount) (isValueKnown : OriginalValuesKnown)

/-- The slots that `to_plain_state` lists. -/
def isPlainChange (slot : StorageSlot) : Bool :=
  isValueKnown = .no || b.wasDestroyed && slot.presentValue != 0 ||
    !b.wasDestroyed && slot.isChanged

variable (base : StorageKey → StorageValue)

namespace BundleAccount

/-- The storage of an account in the database after the changes of a bundle account. -/
def writeStorage (k : StorageKey) : StorageValue :=
  (b.storage.lookup k).elim (base k) fun slot =>
    if isPlainChange b isValueKnown slot then slot.presentValue else base k

/-- What writing the changes of one bundle account does to its account in the database. -/
def write (v : PlainView) : PlainView where
  info :=
    if isValueKnown = .no || b.isInfoChanged then b.info.map AccountInfo.copyWithoutCode else v.info
  storage := b.writeStorage isValueKnown (if b.wasDestroyed then fun _ => 0 else v.storage)

end BundleAccount

namespace BundleState

/-- Slots of one account after its storage changes. -/
theorem foldl_plainStorageChanges :
    (plainStorageChanges b isValueKnown).foldl (fun storage e => Function.update storage e.1 e.2)
        base = b.writeStorage isValueKnown base := by
  funext k
  refine HashMap.foldl_filterMap_obs _ _ (fun k storage => storage k)
    (fun _ slot old => if isPlainChange b isValueKnown slot then slot.presentValue else old)
    (fun storage key slot => ?_) (fun storage key slot k' hne => ?_) b.storage base k
  · show (if isPlainChange b isValueKnown slot then some (key, slot.presentValue) else none).elim
        storage (fun e => Function.update storage e.1 e.2) key = _
    cases isPlainChange b isValueKnown slot <;> simp
  · show (if isPlainChange b isValueKnown slot then some (key, slot.presentValue) else none).elim
        storage (fun e => Function.update storage e.1 e.2) k' = _
    cases isPlainChange b isValueKnown slot <;> simp [hne]

/-- The plain state of a bundle, written to a database, seen at one address. -/
theorem write_toPlainState (b : BundleState) (isValueKnown : OriginalValuesKnown) (d : PlainState)
    (a : Address) : d.write (b.toPlainState isValueKnown) a =
      (b.state.lookup a).elim (d a) fun account => account.write isValueKnown (d a) := by
  have haccounts : ∀ a, (b.toPlainState isValueKnown).accounts.foldl
      (fun d e => d.setInfo e.1 e.2) d a =
        (b.state.lookup a).elim (d a) fun account =>
          ⟨(account.write isValueKnown (d a)).info, (d a).storage⟩ := by
    intro a
    refine HashMap.foldl_filterMap_obs _ _ (fun a (d : PlainState) => d a)
      (fun _ account v => ⟨(account.write isValueKnown v).info, v.storage⟩)
      (fun d key account => ?_) (fun d key account a' hne => ?_) b.state d a
    · by_cases h : (decide (isValueKnown = .no) || account.isInfoChanged) = true <;>
        simp [h, PlainState.setInfo, write]
    · by_cases h : (decide (isValueKnown = .no) || account.isInfoChanged) = true <;>
        simp [h, PlainState.setInfo, hne]
  have hstorage := HashMap.foldl_filterMap_obs (fun e : Sigma fun _ : Address => BundleAccount =>
      let changes := plainStorageChanges e.2 isValueKnown
      if !changes.isEmpty || e.2.wasDestroyed then
        some (PlainStorageChangeset.mk e.1 e.2.wasDestroyed changes)
      else none) PlainState.setStorage (fun a (d : PlainState) => d a)
    (fun _ account v => ⟨v.info, account.writeStorage isValueKnown
      (if account.wasDestroyed then fun _ => 0 else v.storage)⟩)
    (fun d key account => ?_) (fun d key account a' hne => ?_) b.state
    ((b.toPlainState isValueKnown).accounts.foldl (fun d e => d.setInfo e.1 e.2) d) a
  · refine Eq.trans hstorage ?_
    rw [haccounts a]
    cases b.state.lookup a <;> rfl
  · have hslots := foldl_plainStorageChanges account isValueKnown
      (if account.wasDestroyed then fun _ => 0 else (d key).storage)
    by_cases h : (!(plainStorageChanges account isValueKnown).isEmpty || account.wasDestroyed) =
        true
    · simp only [h, if_true, Option.elim_some, PlainState.setStorage, Function.update_self]
      rw [hslots]
    · -- Nothing is listed for an account without changes.
      obtain ⟨hempty, hd⟩ : plainStorageChanges account isValueKnown = [] ∧
          account.wasDestroyed = false := by simpa using h
      rw [hempty, hd] at hslots
      simp only [Bool.false_eq_true, if_false] at hslots
      simp only [hempty, hd, List.isEmpty_nil, Bool.not_true, Bool.or_false, Bool.false_eq_true,
        if_false, Option.elim_none, ← hslots]
      rfl
  · by_cases h : (!(plainStorageChanges account isValueKnown).isEmpty || account.wasDestroyed) =
        true
    · simp [h, PlainState.setStorage, hne]
    · simp [h]

end BundleState

/-! ## The written state -/

/-- Writing a bundle account to the database account gives the view it stands for. -/
theorem BundleInv.view_write {v : PlainView} {w : AccountView} {b : BundleAccount}
    (h : BundleInv v w b) (isValueKnown : OriginalValuesKnown) :
    (b.write isValueKnown v).view = w := by
  refine AccountView.ext ?_ (funext fun k => ?_)
  · show infoKey (b.write isValueKnown v).info = w.info
    rw [write]
    by_cases hc : (decide (isValueKnown = .no) || b.isInfoChanged) = true
    · rw [if_pos hc, infoKey_copyWithoutCode]
      exact h.info
    · -- An unchanged info is the one of the database.
      rw [if_neg hc]
      have hsame : eqInfoOption b.info b.originalInfo = true := by
        simp only [Bool.or_eq_true, not_or, isInfoChanged] at hc
        simpa using hc.2
      rw [← h.originalInfo, ← infoKey_congr hsame]
      exact h.info
  · show (b.write isValueKnown v).storage k = w.storage k
    rw [h.storage k]
    show b.writeStorage isValueKnown (if b.wasDestroyed then fun _ => 0 else v.storage) k = _
    have hbase : ∀ fallback : Bool, (fallback = b.status.isStorageKnown) →
        (if b.wasDestroyed then fun _ => 0 else v.storage) k =
          if fallback then 0 else v.storage k := by
      rintro fallback rfl
      cases hd : b.status.wasDestroyed with
      | true =>
        rw [AccountStatus.isStorageKnown_of_wasDestroyed hd, wasDestroyed, hd]
        rfl
      | false =>
        rw [wasDestroyed, hd]
        cases hk : b.status.isStorageKnown with
        | true => exact h.inMemory hk hd k
        | false => rfl
    cases hslot : b.storage.lookup k with
    | none =>
      rw [slotValue_of_none hslot, writeStorage, hslot]
      exact hbase _ rfl
    | some slot =>
      rw [slotValue_of_some hslot, writeStorage, hslot]
      show (if isPlainChange b isValueKnown slot then slot.presentValue else _) = _
      by_cases hc : isPlainChange b isValueKnown slot = true
      · rw [if_pos hc]
      · -- A slot that is not listed already has its value.
        rw [if_neg hc]
        simp only [isPlainChange, Bool.or_eq_true, Bool.and_eq_true, not_or, not_and] at hc
        cases hd : b.status.wasDestroyed with
        | true =>
          have hzero : slot.presentValue = 0 := by simpa using hc.1.2 hd
          rw [wasDestroyed, hd, hzero]
          rfl
        | false =>
          have hsame : slot.previousOrOriginalValue = slot.presentValue := by
            have hnc := hc.2 (by simp [wasDestroyed, hd])
            simpa [StorageSlot.isChanged] using hnc
          rw [wasDestroyed, hd, ← hsame]
          exact (h.original hd k slot hslot).symm

/-- In every reached state a merge does not panic, every commit that agrees with the view does not
panic, and after the merge the bundle written to the database answers as the state does. -/
theorem State.write_bundle_eq (d : PlainState) (code : B256 → Bytecode) (hd : d.NoDanglingStorage)
    (s : State ε) (hs : Reached d code s) (retention : BundleRetention) :
    (∀ evmState, s.CommitOk d evmState → (s.commit evmState).isSome) ∧
    ∃ s', s.mergeTransitions retention = some s' ∧
      ∀ (isValueKnown : OriginalValuesKnown) (a : Address),
        ∃ info s₁, s'.basic a = .ok (info, s₁) ∧
          infoKey (d.write (s'.bundleState.toPlainState isValueKnown) a).info = infoKey info ∧
          ∀ k, ∃ s₂, s₁.storage a k =
            some (.ok ((d.write (s'.bundleState.toPlainState isValueKnown) a).storage k, s₂)) := by
  have htracked := hs.tracked hd
  refine ⟨fun evmState hok => ?_, ?_⟩
  · obtain ⟨s', hrun, -⟩ := htracked.commit hd hok
    rw [hrun]
    rfl
  obtain ⟨s', hrun, hs', htr⟩ := htracked.merge retention
  refine ⟨s', hrun, fun isValueKnown a => ?_⟩
  obtain ⟨s₁, hbasic, hs₁, -, -, hslice⟩ := State.basic_slice hs'.reads a
  refine ⟨_, s₁, hbasic, ?_⟩
  -- The account is loaded now, and has no pending transition.
  have hload := (hs'.slices a).load (hd a)
  obtain ⟨hcached, w₀, s₀, hentry, -, hnone⟩ := hload.cached rfl
  have hpend : (s'.slice a).transition = none := by simp [State.slice, htr]
  have hview : ((s'.slice a).loaded (d a)).view (d a) = w₀ := by
    rw [show _ = none from hpend] at hnone
    exact hnone.1
  have hwrite : (d.write (s'.bundleState.toPlainState isValueKnown) a).view = w₀ := by
    rw [BundleState.write_toPlainState]
    have hentry' : EntryInv (d a) w₀ s₀ (s'.bundleState.state.lookup a) := hentry
    cases hb : s'.bundleState.state.lookup a with
    | none =>
      rw [hb] at hentry'
      exact hentry'.1.symm
    | some b =>
      rw [hb] at hentry'
      exact hentry'.1.view_write isValueKnown
  have hsame := hwrite.trans hview.symm
  refine ⟨congrArg AccountView.info hsame, fun k => ?_⟩
  have hcache : (s₁.slice a).cache = some ((s'.slice a).loaded (d a)) := by
    rw [hslice, if_pos rfl]
  obtain ⟨s₂, hstorage, -⟩ := State.storage_slice hs₁ hcache k
  refine ⟨s₂, ?_⟩
  rw [hstorage]
  have hk : (d.write (s'.bundleState.toPlainState isValueKnown) a).storage k =
      ((s'.slice a).loaded (d a)).storageAt (d a) k :=
    congrFun (congrArg AccountView.storage hsame) k
  rw [hk]

/-- The write of the contract agrees with every view that has the old value of the slot. -/
theorem contractWrite_commitOk {s : State ε} {c : CacheAccount}
    (hc : s.cache.accounts.lookup 1 = some c) (hslot : c.storageAt (contractDatabase 1) 1 = 7) :
    s.CommitOk contractDatabase contractWrite := by
  refine State.commitOk_insert hc ⟨fun k slot hk => ?_, nofun, fun _ _ _ _ _ => rfl, nofun⟩
  obtain ⟨rfl, rfl⟩ := HashMap.lookup_singleton hk
  exact hslot.symm

/-- The contract of `contractDatabase` writes its slot, and the bundle carries the write over. -/
theorem State.write_bundle_eq_contract :
    ∃ s s' : State Empty, Reached contractDatabase (fun _ => Bytecode.default) s ∧
      s.mergeTransitions .reverts = some s' ∧
      (contractDatabase.write (s'.bundleState.toPlainState .yes) 1).storage 1 = 9 ∧
      ∃ info s₁ s₂, s'.basic 1 = .ok (info, s₁) ∧ s₁.storage 1 1 = some (.ok (9, s₂)) := by
  have hreached : ∃ s s' : State Empty, Reached contractDatabase (fun _ => Bytecode.default) s ∧
      s.mergeTransitions .reverts = some s' ∧
      (contractDatabase.write (s'.bundleState.toPlainState .yes) 1).storage 1 = 9 := by
    have hload : Reached (ε := Empty) contractDatabase (fun _ => Bytecode.default) _ :=
      Reached.basic (a := 1) Reached.new rfl
    exact ⟨_, _, hload.commit (contractWrite_commitOk rfl (by decide)) rfl, rfl, by decide⟩
  obtain ⟨s, s', hs, hmerge, hnine⟩ := hreached
  obtain ⟨-, s'', hmerge', hview⟩ := State.write_bundle_eq contractDatabase
    (fun _ => Bytecode.default) contractDatabase_noDanglingStorage s hs .reverts
  rw [hmerge] at hmerge'
  cases hmerge'
  obtain ⟨info, s₁, hbasic, -, hstorage⟩ := hview .yes 1
  obtain ⟨s₂, hs₂⟩ := hstorage 1
  rw [hnine] at hs₂
  exact ⟨s, s', hs, hmerge, hnine, info, s₁, s₂, hbasic, hs₂⟩

/-- An account without nonce and code. -/
def fundedDatabase : PlainState := fun a =>
  if a = 1 then ⟨some { AccountInfo.default with balance := 5 }, fun _ => 0⟩ else PlainView.removed

/-- The account is touched and left empty. -/
def touchEmptied : EvmState :=
  (∅ : EvmState).insert 1
    { info := AccountInfo.default
      originalInfo := { AccountInfo.default with balance := 5 }
      transactionId := 0
      storage := ∅
      status := { AccountFlags.empty with touched := true } }

/-- An account that was loaded with a balance and is emptied by a touch is missing for the state,
and the bundle does not remove it from the database. -/
theorem State.write_bundle_ne_of_touch_empty : fundedDatabase.NoDanglingStorage ∧
    ∃ s₁ s₂ s₃ s₄ : State Empty,
      (State.new fundedDatabase (fun _ => Bytecode.default) true).basic 1 =
        .ok (some { AccountInfo.default with balance := 5 }, s₁) ∧
      s₁.commit touchEmptied = some s₂ ∧ s₂.mergeTransitions .reverts = some s₃ ∧
      s₃.basic 1 = .ok (none, s₄) ∧
      ∀ isValueKnown, (fundedDatabase.write (s₃.bundleState.toPlainState isValueKnown) 1).info =
        some { AccountInfo.default with balance := 5 } := by
  refine ⟨fun a _ k => ?_, _, _, _, _, rfl, rfl, rfl, rfl, fun isValueKnown => ?_⟩
  · by_cases ha : a = 1
    · rw [fundedDatabase, if_pos ha]
    · rw [fundedDatabase, if_neg ha]
      rfl
  · cases isValueKnown <;> rfl

end Revm
