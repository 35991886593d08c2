import Revm.Database.InMemory

/-!
# Reading a `State` by reference

`State` can be read mutably, which loads what is read into its cache, and by reference. The two
paths are separate code. They agree on the code of a hash. They agree on accounts up to empty ones,
which a load replaces by the default account. For storage the path by reference asks the database in
two cases in which the account alone decides: a cached account that was destroyed, and an account
that only the preloaded bundle holds (`CodedState.refs_diverge`). `CodedState.refs_agree` is the
agreement outside of these cases, and `State.RefSafe.of_agree` says that there are no others.
-/

set_option autoImplicit false

namespace Revm

open CacheAccount

variable {ε : Type}

/-- `State` with the cached contracts, which only `code_by_hash` reads and writes. -/
structure CodedState (ε : Type) where
  state : State ε
  contracts : HashMap B256 Bytecode

namespace State

variable (self : State ε) (address : Address)

/-- The account of the preloaded bundle, if one is used. -/
def preloaded : Option BundleAccount :=
  if self.usePreloadedBundle then self.bundleState.state.lookup address else none

/-- `DatabaseRef::basic_ref`. -/
def basicRef : Except ε (Option AccountInfo) :=
  match self.cache.accounts.lookup address with
  | some account => .ok account.accountInfo
  | none =>
      match self.preloaded address with
      | some account => .ok account.info
      | none => self.database.basic address

/-- `DatabaseRef::storage_ref`. The bundle is not asked. -/
def storageRef (index : StorageKey) : Except ε StorageValue :=
  match self.cache.accounts.lookup address with
  | some account =>
      match account.account with
      | some plain =>
          match plain.storage.lookup index with
          | some value => .ok value
          | none =>
              if account.status.isStorageKnown then .ok 0
              else self.database.storage address index
      | none => self.database.storage address index
  | none => self.database.storage address index

end State

namespace CodedState

variable (self : CodedState ε) (codeHash : B256)

/-- The code of a hash in the preloaded bundle. -/
def preloadedCode : Option Bytecode :=
  if self.state.usePreloadedBundle then self.state.bundleState.contracts.lookup codeHash else none

/-- `Database::code_by_hash`. -/
def codeByHash : Except ε (Bytecode × CodedState ε) :=
  let insert (code : Bytecode) : Bytecode × CodedState ε :=
    (code, { self with contracts := self.contracts.insert codeHash code })
  match self.contracts.lookup codeHash with
  | some code => .ok (code, self)
  | none =>
      match self.preloadedCode codeHash with
      | some code => .ok (insert code)
      | none => (self.state.database.codeByHash codeHash).map insert

/-- `DatabaseRef::code_by_hash_ref`. -/
def codeByHashRef : Except ε Bytecode :=
  match self.contracts.lookup codeHash with
  | some code => .ok code
  | none =>
      match self.preloadedCode codeHash with
      | some code => .ok code
      | none => self.state.database.codeByHash codeHash

end CodedState

/-! ## Agreement -/

/-- The database answers zero for the storage of missing accounts. -/
def Database.ZeroForMissing (db : Database ε) : Prop :=
  ∀ a, db.basic a = .ok none → ∀ k, db.storage a k = .ok 0

/-- The value of a slot that a cached account knows. -/
def CacheAccount.known? (account : CacheAccount) (k : StorageKey) : Option StorageValue :=
  match account.account with
  | none => some 0
  | some plain =>
      match plain.storage.lookup k with
      | some value => some value
      | none => if account.status.isStorageKnown then some 0 else none

/-- Where the two paths meet, for one address and one slot. -/
structure State.RefSafe {ε : Type} (s : State ε) (a : Address) (k : StorageKey) : Prop where
  /-- a cached account that does not exist is missing in the database, or its slot is zero there -/
  cached : ∀ account, s.cache.accounts.lookup a = some account → account.account = none →
    s.database.basic a ≠ .ok none → s.database.storage a k = .ok 0
  /-- a slot that an account of the preloaded bundle knows is the one of the database -/
  preloaded : s.cache.accounts.lookup a = none → ∀ account, s.preloaded a = some account →
    ∀ value, (ofBundle account).known? k = some value →
      s.database.storage a k = .ok value
  /-- the empty accounts of the database have the hash of the empty code -/
  empty : s.cache.accounts.lookup a = none → s.preloaded a = none →
    ∀ info, s.database.basic a = .ok (some info) → info.isEmpty = true → info.codeHash ≠ 0

namespace State

variable {s : State ε} {a : Address} {k : StorageKey}
variable {account : CacheAccount} {s' : State ε}

/-- The state with an account loaded into its cache. -/
def cacheAccount (s : State ε) (a : Address) (account : CacheAccount) : State ε :=
  { s with cache := { s.cache with accounts := s.cache.accounts.insert a account } }

/-- The four ways in which a load ends well. -/
theorem loadCacheAccount_cases (h : s.loadCacheAccount a = .ok (account, s')) :
    (s.cache.accounts.lookup a = some account ∧ s' = s) ∨
    s.cache.accounts.lookup a = none ∧ s' = s.cacheAccount a account ∧
      ((∃ b, s.preloaded a = some b ∧ account = .ofBundle b) ∨
        s.preloaded a = none ∧
          ((s.database.basic a = .ok none ∧ account = .newLoadedNotExisting) ∨
          ∃ info, s.database.basic a = .ok (some info) ∧
            ((info.isEmpty = true ∧ account = .newLoadedEmptyEip161 ∅) ∨
              info.isEmpty = false ∧ account = .newLoaded info ∅))) := by
  unfold loadCacheAccount at h
  cases hcached : s.cache.accounts.lookup a with
  | some cached =>
    rw [hcached] at h
    cases h
    exact .inl ⟨rfl, rfl⟩
  | none =>
    right
    rw [hcached] at h
    change (match s.preloaded a with
      | some b => _
      | none => _) = _ at h
    cases hbundle : s.preloaded a with
    | some b =>
      rw [hbundle] at h
      cases h
      exact ⟨rfl, rfl, .inl ⟨b, rfl, rfl⟩⟩
    | none =>
      rw [hbundle] at h
      rcases hbasic : s.database.basic a with e | info
      · rw [hbasic] at h
        cases h
      · rw [hbasic] at h
        cases info with
        | none =>
          cases h
          exact ⟨rfl, rfl, .inr ⟨rfl, .inl ⟨rfl, rfl⟩⟩⟩
        | some info =>
          dsimp only at h
          split_ifs at h with hempty
          · cases h
            exact ⟨rfl, rfl, .inr ⟨rfl, .inr ⟨info, rfl, .inl ⟨hempty, rfl⟩⟩⟩⟩
          · cases h
            exact ⟨rfl, rfl, .inr ⟨rfl, .inr ⟨info, rfl, .inr ⟨by simpa using hempty, rfl⟩⟩⟩⟩

/-- What the two paths make of a slot: the value that the cache knows, or the one of the
database. -/
def readSlot (s : State ε) (a : Address) (k : StorageKey) :
    Option StorageValue → Except ε StorageValue
  | some value => .ok value
  | none => s.database.storage a k

theorem storage_cached (h : s.cache.accounts.lookup a = some account) :
    (s.storage a k).map (·.map Prod.fst) = some (s.readSlot a k (account.known? k)) := by
  simp only [storage, h, Option.map_some, known?]
  rcases account.account with - | plain
  · rfl
  · dsimp only
    rcases plain.storage.lookup k with - | value
    · dsimp only
      split_ifs
      · rfl
      · dsimp only [readSlot]
        cases s.database.storage a k <;> rfl
    · rfl

/-- By reference a known slot is answered too, unless the account does not exist. -/
theorem storageRef_cached (h : s.cache.accounts.lookup a = some account)
    (hnone : account.account = none → s.database.storage a k = .ok 0) :
    s.storageRef a k = s.readSlot a k (account.known? k) := by
  simp only [storageRef, h, known?]
  rcases hplain : account.account with - | plain
  · exact hnone hplain
  · dsimp only
    rcases plain.storage.lookup k with - | value
    · dsimp only
      split_ifs <;> rfl
    · rfl

theorem cacheAccount_lookup (s : State ε) (a : Address) (account : CacheAccount) :
    (s.cacheAccount a account).cache.accounts.lookup a = some account :=
  AList.lookup_insert _

/-- A loaded account that does not exist has a zero slot in the database. -/
theorem RefSafe.storage_zero (hsafe : s.RefSafe a k) (hzero : s.database.ZeroForMissing)
    (h : s.loadCacheAccount a = .ok (account, s')) (hnone : account.account = none) :
    s.database.storage a k = .ok 0 := by
  rcases loadCacheAccount_cases h with
    ⟨hcached, rfl⟩ | ⟨hcached, rfl, ⟨b, hbundle, rfl⟩ | ⟨hbundle, hdb⟩⟩
  · by_cases hbasic : s'.database.basic a = .ok none
    · exact hzero a hbasic k
    · exact hsafe.cached account hcached hnone hbasic
  · apply hsafe.preloaded hcached b hbundle
    simp only [known?, hnone]
  · rcases hdb with ⟨hbasic, rfl⟩ | ⟨info, hbasic, ⟨-, rfl⟩ | ⟨-, rfl⟩⟩
    · exact hzero a hbasic k
    · cases hnone
    · cases hnone

/-- Before the load the path by reference already gives what the loaded account gives. -/
theorem RefSafe.storageRef_load (hsafe : s.RefSafe a k) (hzero : s.database.ZeroForMissing)
    (h : s.loadCacheAccount a = .ok (account, s')) :
    s.storageRef a k = s.readSlot a k (account.known? k) := by
  have hnone := hsafe.storage_zero hzero h
  rcases loadCacheAccount_cases h with
    ⟨hcached, rfl⟩ | ⟨hcached, rfl, ⟨b, hbundle, rfl⟩ | ⟨hbundle, hdb⟩⟩
  · exact storageRef_cached hcached hnone
  · simp only [storageRef, hcached]
    cases hknown : (ofBundle b).known? k with
    | none => rfl
    | some value => exact hsafe.preloaded hcached b hbundle value hknown
  · simp only [storageRef, hcached]
    rcases hdb with ⟨hbasic, rfl⟩ | ⟨info, hbasic, ⟨-, rfl⟩ | ⟨-, rfl⟩⟩
    · exact hzero a hbasic k
    -- neither of the two loaded statuses knows the storage
    · rfl
    · rfl

/-- After the load the account is cached and the database is the same. -/
theorem loadCacheAccount_after (h : s.loadCacheAccount a = .ok (account, s')) :
    s'.cache.accounts.lookup a = some account ∧ s'.database = s.database := by
  rcases loadCacheAccount_cases h with ⟨hcached, rfl⟩ | ⟨-, rfl, -⟩
  · exact ⟨hcached, rfl⟩
  · exact ⟨s.cacheAccount_lookup a account, rfl⟩

theorem readSlot_load (h : s.loadCacheAccount a = .ok (account, s'))
    (known : Option StorageValue) : s'.readSlot a k known = s.readSlot a k known := by
  cases known with
  | none => exact congrArg (fun db => db.storage a k) (loadCacheAccount_after h).2
  | some value => rfl

theorem loadCacheAccount_of_basic {info : Option AccountInfo} (h : s.basic a = .ok (info, s')) :
    ∃ account, s.loadCacheAccount a = .ok (account, s') ∧ account.accountInfo = info := by
  unfold basic at h
  split at h
  · cases h
  · rename_i r hload
    cases h
    exact ⟨r.1, hload, rfl⟩

/-- An account read by reference is the loaded one, for the equality of `AccountInfo`. -/
theorem RefSafe.basicRef_load (hsafe : s.RefSafe a k)
    (h : s.loadCacheAccount a = .ok (account, s')) :
    ∃ info, s.basicRef a = .ok info ∧ eqInfoOption info account.accountInfo = true := by
  rcases loadCacheAccount_cases h with
    ⟨hcached, rfl⟩ | ⟨hcached, rfl, ⟨b, hbundle, rfl⟩ | ⟨hbundle, hdb⟩⟩
  · refine ⟨account.accountInfo, ?_, eqInfoOption_refl _⟩
    simp only [basicRef, hcached]
  · refine ⟨b.info, ?_, ?_⟩
    · simp only [basicRef, hcached, hbundle]
    · simp only [ofBundle, accountInfo, Option.map_map]
      cases b.info <;> simp [eqInfoOption]
  · simp only [basicRef, hcached, hbundle]
    rcases hdb with ⟨hbasic, rfl⟩ | ⟨info, hbasic, ⟨hempty, rfl⟩ | ⟨-, rfl⟩⟩
    · exact ⟨none, hbasic, rfl⟩
    -- the one case in which the answers need not be the same value
    · refine ⟨some info, hbasic, ?_⟩
      have hhash := hsafe.empty hcached hbundle info hbasic hempty
      have hfields := hempty
      simp only [AccountInfo.isEmpty, AccountInfo.isEmptyCodeHash, Bool.and_eq_true,
        Bool.or_eq_true, beq_iff_eq] at hfields
      obtain ⟨⟨hcode | hcode, hbalance⟩, hnonce⟩ := hfields
      · exact AccountInfo.eqInfo_iff.2 ⟨hbalance, hnonce, hcode⟩
      · exact absurd hcode hhash
    · exact ⟨some info, hbasic, eqInfoOption_refl _⟩

/-- Conversely a state is safe for a slot if the two paths agree on the account and on the slot. -/
theorem RefSafe.of_agree {info info' : Option AccountInfo} (hbasic : s.basic a = .ok (info, s'))
    (hinfo : s.basicRef a = .ok info') (heq : eqInfoOption info' info = true)
    (hslot : (s'.storage a k).map (·.map Prod.fst) = some (s.storageRef a k)) : s.RefSafe a k := by
  obtain ⟨account, hload, rfl⟩ := loadCacheAccount_of_basic hbasic
  rw [storage_cached (loadCacheAccount_after hload).1, readSlot_load hload] at hslot
  have hread := Option.some.inj hslot
  -- each way of loading the account decides one of the conditions and excludes the others
  rcases loadCacheAccount_cases hload with
    ⟨hcached, -⟩ | ⟨hcached, -, ⟨b, hbundle, rfl⟩ | ⟨hbundle, hdb⟩⟩
  · refine ⟨fun account' hcached' hnone _ => ?_, fun hnone => ?_, fun hnone => ?_⟩
    · cases hcached.symm.trans hcached'
      simpa only [storageRef, hcached, known?, hnone, readSlot] using hread.symm
    · cases hcached.symm.trans hnone
    · cases hcached.symm.trans hnone
  · refine ⟨fun _ hcached' => ?_, fun _ b' hbundle' value hknown => ?_, fun _ hnone => ?_⟩
    · cases hcached.symm.trans hcached'
    · cases hbundle.symm.trans hbundle'
      simpa only [storageRef, hcached, hknown, readSlot] using hread.symm
    · cases hbundle.symm.trans hnone
  · refine ⟨fun _ hcached' => ?_, fun _ _ hbundle' => ?_, fun _ _ info hbasic hempty hzero => ?_⟩
    · cases hcached.symm.trans hcached'
    · cases hbundle.symm.trans hbundle'
    · simp only [basicRef, hcached, hbundle, hbasic] at hinfo
      cases hinfo
      rcases hdb with ⟨hnone, -⟩ | ⟨info', hsome, ⟨-, rfl⟩ | ⟨hfull, -⟩⟩
      · cases hbasic.symm.trans hnone
      · have hhash := (AccountInfo.eqInfo_iff.1 heq).2.2
        exact absurd (hzero.symm.trans hhash) (by decide)
      · cases hbasic.symm.trans hsome
        rw [hempty] at hfull
        cases hfull

theorem basicRef_error {e : ε} (h : s.loadCacheAccount a = .error e) : s.basicRef a = .error e := by
  unfold loadCacheAccount at h
  unfold basicRef preloaded
  cases hcached : s.cache.accounts.lookup a with
  | some cached => rw [hcached] at h; cases h
  | none =>
    rw [hcached] at h
    cases hbundle : (if s.usePreloadedBundle then s.bundleState.state.lookup a else none) with
    | some account => rw [hbundle] at h; cases h
    | none =>
      rw [hbundle] at h
      rcases hbasic : s.database.basic a with e' | info
      · rw [hbasic] at h
        cases h
        rfl
      -- an answer of the database is loaded, whatever it is
      · rw [hbasic] at h
        cases info with
        | none => cases h
        | some info => dsimp only at h; split_ifs at h

end State

namespace CodedState

theorem codeByHashRef_eq (s : CodedState ε) (h : B256) :
    s.codeByHashRef h = (s.codeByHash h).map Prod.fst := by
  unfold codeByHashRef codeByHash
  rcases s.contracts.lookup h with - | code
  · dsimp only
    rcases s.preloadedCode h with - | code
    · dsimp only
      cases s.state.database.codeByHash h <;> rfl
    · rfl
  · rfl

/-- Reading by reference and reading mutably agree on an account, on a slot read after its account
and on a code hash, wherever the state is safe for the slot. The slot may be read by reference
before or after the account was loaded. -/
theorem refs_agree (s : CodedState ε) (hzero : s.state.database.ZeroForMissing) (a : Address)
    (k : StorageKey) (h : B256) (hsafe : s.state.RefSafe a k) :
    (∀ e, s.state.basic a = .error e → s.state.basicRef a = .error e) ∧
    (∀ info s', s.state.basic a = .ok (info, s') →
      (∃ info', s.state.basicRef a = .ok info' ∧ eqInfoOption info' info = true) ∧
      (s'.storage a k).map (·.map Prod.fst) = some (s.state.storageRef a k) ∧
      s'.storageRef a k = s.state.storageRef a k) ∧
    s.codeByHashRef h = (s.codeByHash h).map Prod.fst := by
  refine ⟨?_, ?_, s.codeByHashRef_eq h⟩
  · intro e hbasic
    apply State.basicRef_error
    unfold State.basic at hbasic
    split at hbasic
    · cases hbasic; assumption
    · cases hbasic
  · intro info s' hbasic
    obtain ⟨account, hload, rfl⟩ := State.loadCacheAccount_of_basic hbasic
    obtain ⟨hcached, hdb⟩ := State.loadCacheAccount_after hload
    have hbefore := hsafe.storageRef_load hzero hload
    have hread := State.readSlot_load hload (k := k) (account.known? k)
    refine ⟨hsafe.basicRef_load hload, ?_, ?_⟩
    · rw [State.storage_cached hcached, hread, hbefore]
    · rw [State.storageRef_cached hcached, hread, hbefore]
      intro hnone
      rw [hdb]
      exact hsafe.storage_zero hzero hload hnone

/-! ## A destroyed account and a preloaded one -/

/-- A state over the database with one contract, and over a bundle. -/
def overSlotDb (bundle : BundleState) (usePreloadedBundle : Bool) : CodedState Unit where
  state :=
    { cache := ⟨∅, true⟩
      database := CacheDB.slotDb
      transitionState := none
      bundleState := bundle
      usePreloadedBundle := usePreloadedBundle }
  contracts := ∅

/-- The bundle of a block that wrote slot 2 of the contract. -/
def writtenBundle : BundleState :=
  { BundleState.empty with
    state := (∅ : HashMap Address BundleAccount).insert 1
      { info := some CacheDB.fundedContract.info
        originalInfo := some { AccountInfo.default with nonce := 1 }
        storage := (∅ : StorageWithOriginalValues).insert 2 ⟨0, 9⟩
        status := .changed } }

/-- The contract is loaded, and the output of a transaction is committed. -/
def loadAndCommit (self : CodedState Unit) (account : Account) : Option (CodedState Unit) :=
  match self.state.basic 1 with
  | .error _ => none
  | .ok (_, s) =>
      (s.commit (CacheDB.changesOf account)).map fun s => { self with state := s }

theorem slotDb_zeroForMissing : CacheDB.slotDb.ZeroForMissing := by
  intro a hbasic k
  by_cases ha : a = 1
  · subst ha
    cases hbasic
  · exact congrArg Except.ok (if_neg fun h => ha h.1)

/-- A contract that was funded reads the same both ways. -/
theorem refs_agree_funded :
    ∃ s, (overSlotDb .empty false).loadAndCommit CacheDB.fundedContract = some s ∧
      s.state.storageRef 1 1 = .ok 7 ∧
      ∀ info s', s.state.basic 1 = .ok (info, s') →
        (s'.storage 1 1).map (·.map Prod.fst) = some (.ok 7) := by
  refine ⟨_, rfl, rfl, ?_⟩
  intro info s' hbasic
  refine ((refs_agree _ slotDb_zeroForMissing 1 1 0 ?_).2.1 info s' hbasic).2.1
  refine ⟨?_, ?_, ?_⟩
  · intro account hcached hnone
    cases hcached
    cases hnone
  · intro hcached
    cases hcached
  · intro hcached
    cases hcached

/-- The slot of a destroyed contract is zero, and the one of the database by reference. A slot that
only the preloaded bundle holds is the one of the bundle, and zero by reference. -/
theorem refs_diverge : CacheDB.slotDb.ZeroForMissing ∧
    (∃ s, (overSlotDb .empty false).loadAndCommit CacheDB.destroyedContract = some s ∧
      (∃ r, s.state.basic 1 = .ok r ∧ (r.2.storage 1 1).map (·.map Prod.fst) = some (.ok 0)) ∧
      s.state.storageRef 1 1 = .ok 7) ∧
    (∃ r, (overSlotDb writtenBundle true).state.basic 1 = .ok r ∧
      (r.2.storage 1 2).map (·.map Prod.fst) = some (.ok 9)) ∧
    (overSlotDb writtenBundle true).state.storageRef 1 2 = .ok 0 :=
  ⟨slotDb_zeroForMissing, ⟨_, rfl, ⟨_, rfl, rfl⟩, rfl⟩, ⟨_, rfl, rfl⟩, rfl⟩

end CodedState

end Revm
