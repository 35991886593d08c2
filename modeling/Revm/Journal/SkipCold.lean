import Revm.Journal.Nested

/-!
# Skipped cold loads

`load_account_optional`, `sload` and `sstore` can be asked not to load what is cold. The answer to
such a call is compared with the answer to the same call without the request: `SkipsCold` says that
it is an early exit and nothing else. It holds for accounts, and for the slots whose coldness the
storage map or the access list tells (`slotAccess_skipsCold`). A slot that is not in the storage map
is skipped without a look at the access list, so a slot of the access list is skipped although its
load is warm.
-/

set_option autoImplicit false

namespace Revm

open Option

variable {isCold skipColdLoad : Bool} {slot : EvmStorageSlot}

/-- `skipped` is the answer of a call that skips cold loads, `full` the one of the same call on the
same journal that does not. The call is skipped where the full one finds something cold, or fails to
load it; then the journal stays. Otherwise the two agree. -/
structure SkipsCold {ε α : Type} (self : JournalInner) (isCold : Bool)
    (skipped full : LoadAnswer ε α × JournalInner) : Prop where
  skips : skipped.1 = .error .coldLoadSkipped ↔
    (∃ load, full.1 = .ok load ∧ load.isCold = true) ∨
      (∃ e, full.1 = .error (.dbError e)) ∧ isCold = true
  unchanged : skipped.1 = .error .coldLoadSkipped → skipped.2 = self
  same : skipped.1 ≠ .error .coldLoadSkipped → skipped = full

/-- A call that skips is an exit in front of what is cold. -/
theorem SkipsCold.of_eq {ε α : Type} {self : JournalInner}
    {skipped full : LoadAnswer ε α × JournalInner}
    (hskipped : skipped = if isCold then (.error .coldLoadSkipped, self) else full)
    (hfull : (∃ load, full.1 = .ok load ∧ load.isCold = isCold) ∨
      ∃ e, full.1 = .error (.dbError e)) : SkipsCold self isCold skipped full := by
  cases isCold with
  | true =>
    have hexit : skipped = (.error .coldLoadSkipped, self) := hskipped
    rw [hexit]
    refine ⟨⟨fun _ => ?_, fun _ => rfl⟩, fun _ => rfl, fun hne => absurd rfl hne⟩
    rcases hfull with hok | herror
    · exact .inl hok
    · exact .inr ⟨herror, rfl⟩
  | false =>
    have hsame : skipped = full := hskipped
    have hne : full.1 ≠ .error .coldLoadSkipped := by
      rcases hfull with ⟨load, hok, -⟩ | ⟨e, herror⟩
      · rw [hok]
        exact nofun
      · rw [herror]
        exact nofun
    rw [hsame]
    refine ⟨⟨fun heq => absurd heq hne, ?_⟩, fun heq => absurd heq hne, fun _ => rfl⟩
    rintro (⟨load, hok, hcold⟩ | ⟨-, hcold⟩)
    · -- the full call would report something warm
      rcases hfull with ⟨load', hok', hwarm⟩ | ⟨e, herror⟩
      · rw [hok] at hok'
        cases hok'
        rw [hwarm] at hcold
        cases hcold
      · rw [hok] at herror
        cases herror
    · cases hcold

namespace JournalInner

variable {ε : Type} (db : Database ε) (self : JournalInner) (address : Address)

/-- A load of the account is cold. -/
def loadsCold : Bool :=
  match self.state.lookup address with
  | some account =>
      account.isColdTransactionId self.transactionId && self.warmAddresses.isCold address
  | none => self.warmAddresses.isCold address

/-- A load of the slot is cold. -/
def loadsColdSlot (account : Account) (key : StorageKey) : Bool :=
  match account.storage.lookup key with
  | some slot => slot.isColdTransactionId self.transactionId
  | none => !self.warmAddresses.isStorageWarm address key

/-! ## Accounts -/

theorem loadEntry_skip : self.loadEntry db address true =
      if self.loadsCold address then .error .coldLoadSkipped
      else self.loadEntry db address false := by
  unfold loadEntry loadsCold
  cases self.state.lookup address with
  | some account =>
    by_cases hcold : account.isColdTransactionId self.transactionId = true
    · simp [hcold]
    · simp [hcold]
  | none => simp

theorem isCold_of_loadEntry {load : StateLoad Account}
    (h : self.loadEntry db address false = .ok load) : load.isCold = self.loadsCold address := by
  unfold loadsCold
  cases found_of_loadEntry h with
  | cold account hl hcold => simp [hl, hcold]
  | warm account hl hwarm => simp [hl, hwarm]
  | stored info hl | absent hl => simp [hl]

variable {e : JournalLoadError ε}

/-- Without the request to skip, only the database can refuse. -/
theorem dbError_of_loadEntry
    (h : self.loadEntry db address false = .error e) : ∃ e', e = .dbError e' := by
  unfold loadEntry at h
  simp only [Bool.and_false, Bool.false_eq_true, if_false] at h
  split at h
  · split_ifs at h
  · split at h
    · cases h
      exact ⟨_, rfl⟩
    · cases h
    · cases h

theorem loadAccountOptional_skipsCold (loadCode : Bool) :
    SkipsCold self (self.loadsCold address) (self.loadAccountOptional db address loadCode true)
      (self.loadAccountOptional db address loadCode false) := by
  apply SkipsCold.of_eq
  · unfold loadAccountOptional loadAccountMutOptionalCode
    rw [loadEntry_skip]
    split_ifs
    · rfl
    · rfl
  · generalize hr : self.loadAccountOptional db address loadCode false = r
    cases loadOutcome hr with
    | failed e hentry =>
      obtain ⟨e', rfl⟩ := self.dbError_of_loadEntry db address hentry
      exact .inr ⟨e', rfl⟩
    | noCode load e hentry => exact .inr ⟨e, rfl⟩
    | code load code hentry =>
      have hcold := self.isCold_of_loadEntry db address hentry
      exact .inl ⟨_, rfl, hcold⟩
    | loaded load hentry => exact .inl ⟨_, rfl, self.isCold_of_loadEntry db address hentry⟩

/-! ## Slots -/

section Slot

variable {address} {account : Account} {key : StorageKey}

/-- A missing slot is skipped whatever the access list says. -/
theorem loadSlot_skip (hlisted : account.storage.lookup key = none →
      self.warmAddresses.isStorageWarm address key = false) :
    self.loadSlot db address account key true =
      if self.loadsColdSlot address account key then .error .coldLoadSkipped
      else self.loadSlot db address account key false := by
  unfold loadSlot loadsColdSlot
  cases hl : account.storage.lookup key with
  | some slot => simp
  | none => simp [hlisted hl]

theorem loadSlot_full (account : Account) (key : StorageKey) :
    (∃ r, self.loadSlot db address account key false = .ok r ∧
        r.2 = self.loadsColdSlot address account key) ∨
      ∃ e, self.loadSlot db address account key false = .error (.dbError e) := by
  unfold loadSlot loadsColdSlot
  cases account.storage.lookup key with
  | some slot => exact .inl ⟨_, rfl, rfl⟩
  | none =>
    cases account.isCreated with
    | true => exact .inl ⟨_, rfl, rfl⟩
    | false =>
      cases db.storage address key with
      | error e => exact .inr ⟨e, rfl⟩
      | ok value => exact .inl ⟨_, rfl, rfl⟩

section

variable (hl : self.state.lookup address = some account)

include hl

theorem sload_of_ok (h : self.loadSlot db address account key skipColdLoad = .ok (slot, isCold)) :
    ∃ j, self.sload db address key skipColdLoad = some (.ok ⟨slot.presentValue, isCold⟩, j) ∧
      j.state.lookup address =
        some { account with storage := account.storage.insert key slot } := by
  have hsload : self.sload db address key skipColdLoad = some (.ok ⟨slot.presentValue, isCold⟩,
        if isCold then
          (self.setAccount address
            { account with storage := account.storage.insert key slot }).push
              (.storageWarmed key address)
        else self.setAccount address
          { account with storage := account.storage.insert key slot }) := by
    unfold sload
    rw [hl]
    simp only [bind_eq_bind, bind_some, h]
    rfl
  refine ⟨_, hsload, ?_⟩
  split_ifs
  · exact AList.lookup_insert _
  · exact AList.lookup_insert _

theorem sload_of_error (h : self.loadSlot db address account key skipColdLoad = .error e) :
    self.sload db address key skipColdLoad = some (.error e, self) := by
  unfold sload
  rw [hl]
  simp only [bind_eq_bind, bind_some, h]
  rfl

/-- `sstore` goes on after its load with what the load has reported. -/
theorem sstore_of_ok (h : self.loadSlot db address account key skipColdLoad = .ok (slot, isCold))
    (new : StorageValue) :
    ∃ result j, self.sstore db address key new skipColdLoad = some (.ok ⟨result, isCold⟩, j) := by
  obtain ⟨j, hsload, hlookup⟩ := self.sload_of_ok db hl h
  unfold sstore
  simp only [hsload, hlookup, AList.lookup_insert, bind_eq_bind, bind_some]
  split_ifs
  · exact ⟨_, _, rfl⟩
  · exact ⟨_, _, rfl⟩

theorem sstore_of_error (h : self.loadSlot db address account key skipColdLoad = .error e)
    (new : StorageValue) : self.sstore db address key new skipColdLoad = some (.error e, self) := by
  unfold sstore
  simp only [self.sload_of_error db hl h, bind_eq_bind, bind_some]
  rfl

/-- The request to skip reaches `sload` through the match on the slot only. -/
theorem sload_congr
    (h : self.loadSlot db address account key true = self.loadSlot db address account key false) :
    self.sload db address key true = self.sload db address key false := by
  unfold sload
  rw [hl]
  simp only [bind_eq_bind, bind_some, h]

end

/-- An access to a slot that is decided by the match on the slot. -/
theorem slotAccess_skipsCold {α : Type} {access : Bool → Option (LoadAnswer ε α × JournalInner)}
    (hlisted : account.storage.lookup key = none →
      self.warmAddresses.isStorageWarm address key = false)
    (hok : ∀ skip slot isCold, self.loadSlot db address account key skip = .ok (slot, isCold) →
      ∃ result j, access skip = some (.ok ⟨result, isCold⟩, j))
    (herror : ∀ skip e, self.loadSlot db address account key skip = .error e →
      access skip = some (.error e, self)) (hsame : self.loadSlot db address account key true =
      self.loadSlot db address account key false → access true = access false) :
    ∃ skipped full, access true = some skipped ∧ access false = some full ∧
      SkipsCold self (self.loadsColdSlot address account key) skipped full := by
  have hfull : ∃ full, access false = some full ∧
      ((∃ load, full.1 = .ok load ∧ load.isCold = self.loadsColdSlot address account key) ∨
        ∃ e, full.1 = .error (.dbError e)) := by
    rcases self.loadSlot_full db account key with ⟨⟨slot, isCold⟩, hload, hcold⟩ | ⟨e, hload⟩
    · obtain ⟨result, j, hj⟩ := hok false slot isCold hload
      exact ⟨_, hj, .inl ⟨_, rfl, hcold⟩⟩
    · exact ⟨_, herror false _ hload, .inr ⟨e, rfl⟩⟩
  obtain ⟨full, haccess, hfull⟩ := hfull
  have hskip := self.loadSlot_skip db hlisted
  cases hcold : self.loadsColdSlot address account key with
  | true =>
    rw [hcold] at hskip hfull
    exact ⟨_, full, herror true _ hskip, haccess, .of_eq rfl hfull⟩
  | false =>
    rw [hcold] at hskip hfull
    exact ⟨full, full, (hsame hskip).trans haccess, haccess, .of_eq rfl hfull⟩

end Slot

/-- To skip cold loads is an early exit: for accounts, and for slots unless the slot is not loaded
yet and in the access list. Without the account both calls panic. -/
theorem skipColdLoad_exitsEarly : (∀ loadCode, SkipsCold self (self.loadsCold address)
      (self.loadAccountOptional db address loadCode true)
      (self.loadAccountOptional db address loadCode false)) ∧
    (self.state.lookup address = none → ∀ key new skip,
      self.sload db address key skip = none ∧ self.sstore db address key new skip = none) ∧
    ∀ account key, self.state.lookup address = some account →
      (account.storage.lookup key = none →
        self.warmAddresses.isStorageWarm address key = false) →
      (∃ skipped full, self.sload db address key true = some skipped ∧
        self.sload db address key false = some full ∧
        SkipsCold self (self.loadsColdSlot address account key) skipped full) ∧
      ∀ new, ∃ skipped full, self.sstore db address key new true = some skipped ∧
        self.sstore db address key new false = some full ∧
        SkipsCold self (self.loadsColdSlot address account key) skipped full := by
  refine ⟨self.loadAccountOptional_skipsCold db address, fun hl key new skip => ?_,
    fun account key hl hlisted => ⟨?_, fun new => ?_⟩⟩
  · have hsload : self.sload db address key skip = none := by
      unfold sload
      rw [hl]
      rfl
    refine ⟨hsload, ?_⟩
    unfold sstore
    rw [hsload]
    rfl
  · refine self.slotAccess_skipsCold db hlisted (fun skip slot isCold h => ?_)
      (fun skip e h => self.sload_of_error db hl h) fun h => self.sload_congr db hl h
    obtain ⟨j, hj, -⟩ := self.sload_of_ok db hl h
    exact ⟨_, j, hj⟩
  · refine self.slotAccess_skipsCold db hlisted (fun skip slot isCold h => ?_)
      (fun skip e h => self.sstore_of_error db hl h new) fun h => ?_
    · exact self.sstore_of_ok db hl h new
    · unfold sstore
      rw [self.sload_congr db hl h]

end JournalInner

/-! ## Concrete accesses -/

/-- A database that does not answer. -/
def failingDb : Database Unit where
  basic _ := .error ()
  codeByHash _ := .error ()
  storage _ _ := .error ()

/-- A journal in which account `1` is loaded and slot `1` of it is in the access list. -/
def accessListJournal : JournalInner :=
  let warm := WarmAddresses.new.setAccessList (AList.singleton 1 (AList.singleton 1 ()))
  ((JournalInner.new .prague warm).loadAccount contractDb 1).2

/-- Slot `2`, which is not in the access list, is skipped; it would have been cold. -/
theorem skipColdLoad_exitsEarly_unlisted :
    ∃ account skipped full, accessListJournal.state.lookup 1 = some account ∧
      accessListJournal.sload contractDb 1 2 true = some skipped ∧
      accessListJournal.sload contractDb 1 2 false = some full ∧
      SkipsCold accessListJournal (accessListJournal.loadsColdSlot 1 account 2) skipped full := by
  have hl : accessListJournal.state.lookup 1 ≠ none := by decide +kernel
  obtain ⟨account, hl⟩ := ne_none_iff_exists'.1 hl
  have hlisted : accessListJournal.warmAddresses.isStorageWarm 1 2 = false := by decide +kernel
  obtain ⟨skipped, full, h⟩ := ((accessListJournal.skipColdLoad_exitsEarly contractDb 1).2.2
    account 2 hl
    fun _ => hlisted).1
  exact ⟨account, skipped, full, hl, h⟩

/-- A slot of the access list is skipped although its load is warm. A cold account is skipped
although its load would fail. -/
theorem skipColdLoad_exceptions :
    (accessListJournal.sload contractDb 1 1 true).map (·.1) = some (.error .coldLoadSkipped) ∧
      (accessListJournal.sload contractDb 1 1 false).map (·.1) = some (.ok ⟨7, false⟩) ∧
    ((JournalInner.new .prague .new).loadAccountOptional failingDb 1 false true).1.map (·.isCold) =
        .error .coldLoadSkipped ∧
      ((JournalInner.new .prague .new).loadAccountOptional failingDb 1 false false).1.map
        (·.isCold) = .error (.dbError ()) := by
  refine ⟨by decide +kernel, by decide +kernel, by decide +kernel, by decide +kernel⟩

end Revm
