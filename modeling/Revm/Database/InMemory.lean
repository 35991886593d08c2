import Revm.Database.PlainState

/-!
# The in-memory database

`CacheDB` keeps the accounts that were read or written over a database that is only read. Whether a
slot that is not cached is zero or is asked from the database follows from the `AccountState` of its
account. `CacheDB.reads_refine` says that the answers are those of a plain state to which the same
writes were made.

Two writes are excluded, since they lose part of the `AccountState` (`CacheDB.reads_diverge`). A
destroyed account that is written again, without being created, is no longer marked as cleared, so
the slots it had in the database come back. Replacing the storage of a missing account marks the
account as cleared, and with that as existing.
-/

set_option autoImplicit false

namespace Revm

open Option Function Database

variable {ε : Type} {a : Address} {db : Database ε}

/-- `AccountState`. -/
inductive AccountState where
  | notExisting
  | touched
  | storageCleared
  | none
  deriving DecidableEq, Repr

/-- The states in which a slot that is not cached is zero. -/
def AccountState.isKnown : AccountState → Bool
  | .notExisting | .storageCleared => true
  | .touched | .none => false

/-- `DbAccount`. -/
structure DbAccount where
  info : AccountInfo
  accountState : AccountState
  storage : PlainStorage

namespace DbAccount

/-- `DbAccount::default()`. -/
def default : DbAccount := ⟨AccountInfo.default, .none, ∅⟩

/-- `DbAccount::new_not_existing`. -/
def newNotExisting : DbAccount := { default with accountState := .notExisting }

/-- `From<Option<AccountInfo>> for DbAccount`. -/
def ofInfo : Option AccountInfo → DbAccount
  | some info => { default with info := info }
  | none => newNotExisting

/-- `DbAccount::info`. -/
def info? (self : DbAccount) : Option AccountInfo :=
  if self.accountState = .notExisting then none else some self.info

end DbAccount

/-- `Cache`, without logs and block hashes. -/
structure Cache where
  accounts : HashMap Address DbAccount
  contracts : HashMap B256 Bytecode

/-- `CacheDB`. -/
structure CacheDB (ε : Type) where
  cache : Cache
  db : Database ε

namespace CacheDB

variable (self : CacheDB ε) (address : Address)

/-- `CacheDB::new`. -/
def new (db : Database ε) : CacheDB ε where
  cache := ⟨∅, ((∅ : HashMap B256 Bytecode).insert keccakEmpty .default).insert 0 .default⟩
  db := db

def setAccount (account : DbAccount) : CacheDB ε :=
  { self with cache := { self.cache with accounts := self.cache.accounts.insert address account } }

variable (info : AccountInfo)

/-- The info that `insert_contract` leaves: the hash of the code is filled in, and a zero hash is
the hash of the empty code. -/
def completeInfo [Keccak256] : AccountInfo :=
  let info :=
    match info.code with
    | some code =>
        if !code.isEmpty && info.codeHash == keccakEmpty then
          { info with codeHash := code.hashSlow }
        else info
    | none => info
  if info.codeHash = 0 then { info with codeHash := keccakEmpty } else info

/-- Balance, nonce and code are kept. A code that is not empty and was given no hash gets its own
one, and no info has the zero hash. -/
theorem completeInfo_eq [Keccak256] :
    ∃ hash, completeInfo info = { info with codeHash := if hash = 0 then keccakEmpty else hash } ∧
      hash = match info.code with
        | some code => if !code.isEmpty && info.codeHash == keccakEmpty then code.hashSlow
          else info.codeHash
        | none => info.codeHash := by
  refine ⟨_, ?_, rfl⟩
  obtain ⟨balance, nonce, codeHash, storageId, code⟩ := info
  unfold completeInfo
  cases code <;> dsimp only <;> split_ifs <;> rfl

/-- The contracts that `insert_contract` leaves. -/
def insertContract [Keccak256] (contracts : HashMap B256 Bytecode) (info : AccountInfo) :
    HashMap B256 Bytecode :=
  match info.code with
  | some code =>
      let codeHash := if info.codeHash == keccakEmpty then code.hashSlow else info.codeHash
      if !code.isEmpty && (contracts.lookup codeHash).isNone then contracts.insert codeHash code
      else contracts
  | none => contracts

/-- `insert_account_info`. -/
def insertAccountInfo [Keccak256] : CacheDB ε :=
  let account := (self.cache.accounts.lookup address).getD .default
  let accountState :=
    if account.accountState = .notExisting then .none else account.accountState
  let self := { self with
    cache := { self.cache with contracts := insertContract self.cache.contracts info } }
  self.setAccount address
    { account with info := completeInfo info, accountState := accountState }

/-- `load_account`. -/
def loadAccount : Except ε DbAccount × CacheDB ε :=
  match self.cache.accounts.lookup address with
  | some account => (.ok account, self)
  | none =>
      match self.db.basic address with
      | .error e => (.error e, self)
      | .ok info => (.ok (DbAccount.ofInfo info), self.setAccount address (DbAccount.ofInfo info))

/-- `insert_account_storage`. -/
def insertAccountStorage (slot : StorageKey) (value : StorageValue) : Except ε Unit × CacheDB ε :=
  match self.loadAccount address with
  | (.error e, self) => (.error e, self)
  | (.ok account, self) =>
      (.ok (),
        self.setAccount address { account with storage := account.storage.insert slot value })

/-- `replace_account_storage`. -/
def replaceAccountStorage (storage : PlainStorage) : Except ε Unit × CacheDB ε :=
  match self.loadAccount address with
  | (.error e, self) => (.error e, self)
  | (.ok account, self) =>
      (.ok (),
        self.setAccount address
          { account with accountState := .storageCleared, storage := storage })

/-- The cached account after the body of the loop of `commit`. -/
def commitEntry [Keccak256] (account : Account) (entry : Option DbAccount) : Option DbAccount :=
  if !account.isTouched then entry
  else if account.isSelfdestructed then some ⟨AccountInfo.default, .notExisting, ∅⟩
  else
    let dbAccount := entry.getD .default
    let storage := if account.isCreated then ∅ else dbAccount.storage
    some
      { info := completeInfo account.info
        accountState :=
          if account.isCreated then .storageCleared
          else if dbAccount.accountState = .storageCleared then .storageCleared
          else .touched
        storage := (account.storage.mapValues (·.presentValue)) ∪ storage }

/-- The body of the loop of `commit`. -/
def commitAccount [Keccak256] (self : CacheDB ε) (address : Address) (account : Account) :
    CacheDB ε :=
  let contracts :=
    if account.isTouched && !account.isSelfdestructed then
      insertContract self.cache.contracts account.info
    else self.cache.contracts
  let accounts :=
    match commitEntry account (self.cache.accounts.lookup address) with
    | some entry => self.cache.accounts.insert address entry
    | none => self.cache.accounts
  { self with cache := ⟨accounts, contracts⟩ }

/-- `commit`. -/
def commit [Keccak256] (changes : EvmState) : CacheDB ε :=
  changes.foldl commitAccount self

/-! ## Reading -/

/-- `Database::basic`. -/
def basic : Except ε (Option AccountInfo) × CacheDB ε :=
  match self.loadAccount address with
  | (.error e, self) => (.error e, self)
  | (.ok account, self) => (.ok account.info?, self)

/-- `Database::storage`. -/
def storage (index : StorageKey) : Except ε StorageValue × CacheDB ε :=
  match self.cache.accounts.lookup address with
  | some account =>
      match account.storage.lookup index with
      | some value => (.ok value, self)
      | none =>
          if account.accountState.isKnown then (.ok 0, self)
          else
            match self.db.storage address index with
            | .error e => (.error e, self)
            | .ok value =>
                (.ok value,
                  self.setAccount address
                    { account with storage := account.storage.insert index value })
  | none =>
      match self.db.basic address with
      | .error e => (.error e, self)
      | .ok (some info) =>
          match self.db.storage address index with
          | .error e => (.error e, self)
          | .ok value =>
              let account := DbAccount.ofInfo (some info)
              (.ok value,
                self.setAccount address
                  { account with storage := account.storage.insert index value })
      | .ok none => (.ok 0, self.setAccount address (DbAccount.ofInfo none))

/-- `DatabaseRef::basic_ref`. -/
def basicRef : Except ε (Option AccountInfo) :=
  match self.cache.accounts.lookup address with
  | some account => .ok account.info?
  | none => self.db.basic address

/-- `DatabaseRef::storage_ref`. -/
def storageRef (index : StorageKey) : Except ε StorageValue :=
  match self.cache.accounts.lookup address with
  | some account =>
      match account.storage.lookup index with
      | some value => .ok value
      | none =>
          if account.accountState.isKnown then .ok 0 else self.db.storage address index
  | none => self.db.storage address index

end CacheDB

/-! ## Runs next to the reference -/

/-- Calls on a `CacheDB`. -/
inductive CacheOp where
  | basic (address : Address)
  | storage (address : Address) (index : StorageKey)
  | loadAccount (address : Address)
  | insertAccountInfo (address : Address) (info : AccountInfo)
  | insertAccountStorage (address : Address) (slot : StorageKey) (value : StorageValue)
  | replaceAccountStorage (address : Address) (storage : PlainStorage)
  | commit (changes : EvmState)

/-- What a commit of an account is meant to do: an untouched account stays, a destroyed one is
deleted with its storage, a created one is replaced, any other one gets its info and its slots. -/
def PlainView.store [Keccak256] (v : PlainView) (account : Account) : PlainView :=
  if !account.isTouched then v
  else if account.isSelfdestructed then .removed
  else
    ⟨some (CacheDB.completeInfo account.info),
      fun k => ((account.storage.lookup k).map (·.presentValue)).getD
        (if account.isCreated then 0 else v.storage k)⟩

/-- What a call is meant to do to a plain state. -/
def CacheOp.apply [Keccak256] (op : CacheOp) (d : PlainState) : PlainState :=
  match op with
  | .basic _ | .storage _ _ | .loadAccount _ => d
  | .insertAccountInfo a info =>
      update d a ⟨some (CacheDB.completeInfo info), (d a).storage⟩
  | .insertAccountStorage a slot value =>
      update d a ⟨(d a).info, update (d a).storage slot value⟩
  | .replaceAccountStorage a slots =>
      update d a ⟨(d a).info, fun k => (slots.lookup k).getD 0⟩
  | .commit changes => fun a =>
      match changes.lookup a with
      | some account => (d a).store account
      | none => d a

namespace CacheDB

section Run

variable [Keccak256]

/-- One call: whether it succeeded, and the database after it. -/
def step (self : CacheDB ε) : CacheOp → Bool × CacheDB ε
  | .basic a => ((self.basic a).1.isOk, (self.basic a).2)
  | .storage a k => ((self.storage a k).1.isOk, (self.storage a k).2)
  | .loadAccount a => ((self.loadAccount a).1.isOk, (self.loadAccount a).2)
  | .insertAccountInfo a info => (true, self.insertAccountInfo a info)
  | .insertAccountStorage a slot value =>
      ((self.insertAccountStorage a slot value).1.isOk, (self.insertAccountStorage a slot value).2)
  | .replaceAccountStorage a slots =>
      ((self.replaceAccountStorage a slots).1.isOk, (self.replaceAccountStorage a slots).2)
  | .commit changes => (true, self.commit changes)

/-- A sequence of calls on the database and on the reference. A call that fails does nothing to the
reference. -/
def run : List CacheOp → CacheDB ε × PlainState → CacheDB ε × PlainState
  | [], s => s
  | op :: ops, (self, d) =>
      let r := self.step op
      run ops (r.2, if r.1 then op.apply d else d)

end Run

end CacheDB

/-- The plain state of a database. A query that fails reads as missing or zero. -/
def Database.toPlainState (db : Database ε) : PlainState := fun a =>
  { info := match db.basic a with
      | .ok info => info
      | .error _ => none
    storage := fun k => match db.storage a k with
      | .ok value => value
      | .error _ => 0 }

/-! ## The relation at one address -/

/-- The value that a cached account answers for a slot, over the account `v` of the database. -/
def DbAccount.slot (self : DbAccount) (v : PlainView) (k : StorageKey) : StorageValue :=
  (self.storage.lookup k).getD (if self.accountState.isKnown then 0 else v.storage k)

/-- A cached account stands for the reference account `r`, over the account `v` of the database. An
address that is not cached has the account of the database. -/
def StandsFor (v r : PlainView) : Option DbAccount → Prop
  | none => r = v
  | some acc => acc.info? = r.info ∧ ∀ k, acc.slot v k = r.storage k

/-- A missing account may be written without being created, if the slots that are neither cached nor
written are zero in the database. -/
def Revivable (v : PlainView) (written : StorageKey → Bool) (entry : Option DbAccount) : Prop :=
  ∀ acc, entry = some acc → acc.accountState = .notExisting →
    ∀ k, acc.storage.lookup k = none → written k = false → v.storage k = 0

section Entry

variable {v r : PlainView} {entry : Option DbAccount} {acc : DbAccount}

/-- The account that a load puts into the cache. -/
theorem StandsFor.ofInfo (hmissing : v.info = none → ∀ k, v.storage k = 0) :
    StandsFor v v (some (DbAccount.ofInfo v.info)) := by
  cases hinfo : v.info with
  | none =>
    refine ⟨hinfo.symm, fun k => ?_⟩
    rw [hmissing hinfo k]
    rfl
  | some info => exact ⟨hinfo.symm, fun k => rfl⟩

theorem StandsFor.insertInfo (h : StandsFor v r entry) (hok : Revivable v (fun _ => false) entry)
    (info : AccountInfo) : let acc := entry.getD .default
    StandsFor v ⟨some info, r.storage⟩
      (some
        { acc with
          info := info
          accountState :=
            if acc.accountState = .notExisting then .none else acc.accountState }) := by
  cases entry with
  | none =>
    cases h
    exact ⟨rfl, fun k => rfl⟩
  | some acc =>
    obtain ⟨-, hslots⟩ := h
    dsimp only [getD_some]
    by_cases hstate : acc.accountState = .notExisting
    · refine ⟨by rw [if_pos hstate]; rfl, fun k => ?_⟩
      rw [← hslots k, DbAccount.slot, DbAccount.slot, if_pos hstate, hstate]
      cases hk : acc.storage.lookup k with
      | some value => rfl
      | none => exact hok acc rfl hstate k hk rfl
    · refine ⟨?_, fun k => ?_⟩
      · rw [if_neg hstate]
        exact if_neg hstate
      · rw [← hslots k, if_neg hstate]
        rfl

section

variable (h : StandsFor v r (some acc))

include h

theorem StandsFor.insertSlot (slot : StorageKey)
    (value : StorageValue) : StandsFor v ⟨r.info, update r.storage slot value⟩
      (some { acc with storage := acc.storage.insert slot value }) := by
  refine ⟨h.1, fun k => ?_⟩
  unfold DbAccount.slot
  dsimp only
  rw [HashMap.lookup_insert_ite, update_apply]
  split
  · rfl
  · exact h.2 k

/-- Caching the value that the account answers changes nothing. -/
theorem StandsFor.cacheSlot (slot : StorageKey) :
    StandsFor v r (some { acc with storage := acc.storage.insert slot (r.storage slot) }) := by
  have hinsert := h.insertSlot slot (r.storage slot)
  rwa [update_eq_self] at hinsert

theorem StandsFor.replaceSlots (hexists : r.info ≠ none)
    (slots : PlainStorage) : StandsFor v ⟨r.info, fun k => (slots.lookup k).getD 0⟩
      (some { acc with accountState := .storageCleared, storage := slots }) := by
  have hstate : acc.accountState ≠ .notExisting := by
    intro hstate
    rw [← h.1, DbAccount.info?, if_pos hstate] at hexists
    exact hexists rfl
  refine ⟨?_, fun k => rfl⟩
  rw [← h.1, DbAccount.info?, DbAccount.info?, if_neg hstate]
  rfl

end

theorem StandsFor.commit [Keccak256] (h : StandsFor v r entry) (account : Account)
    (hok : account.isTouched = true → account.isSelfdestructed = false →
      account.isCreated = false →
      Revivable v (fun k => (account.storage.lookup k).isSome) entry) :
    StandsFor v (r.store account) (CacheDB.commitEntry account entry) := by
  unfold PlainView.store CacheDB.commitEntry
  cases htouched : account.isTouched with
  | false => exact h
  | true =>
    cases hdestroyed : account.isSelfdestructed with
    | true => exact ⟨rfl, fun k => rfl⟩
    | false =>
      cases hcreated : account.isCreated with
      | true =>
        refine ⟨rfl, fun k => ?_⟩
        simp [DbAccount.slot, AccountState.isKnown]
      | false =>
        cases entry with
        | none =>
          cases h
          refine ⟨rfl, fun k => ?_⟩
          simp [DbAccount.slot, DbAccount.default, AccountState.isKnown]
        | some acc =>
          refine ⟨?_, fun k => ?_⟩
          · dsimp only [DbAccount.info?]
            split_ifs <;> simp_all
          · have hslot := h.2 k
            unfold DbAccount.slot at hslot ⊢
            simp only [Bool.not_true, Bool.false_eq_true, if_false, getD_some,
              HashMap.lookup_union, HashMap.lookup_mapValues]
            cases hk : account.storage.lookup k with
            | some slot => rfl
            | none =>
              rw [← hslot]
              cases hk' : acc.storage.lookup k with
              | some value => rfl
              | none =>
                -- only a missing account loses its mark
                obtain ⟨info, state, storage⟩ := acc
                cases state with
                | notExisting =>
                  exact hok htouched hdestroyed hcreated _ rfl rfl k hk' (by simp [hk])
                | touched | storageCleared | none => rfl

end Entry

/-! ## Calls keep the relation -/

/-- The database stands for the plain state `d`. -/
def CacheDB.Inv (db : Database ε) (c : CacheDB ε) (d : PlainState) : Prop :=
  c.db = db ∧ ∀ a, StandsFor (db.toPlainState a) (d a) (c.cache.accounts.lookup a)

/-- The database has no storage for missing accounts. -/
def Database.NoMissingStorage (db : Database ε) : Prop :=
  ∀ a, db.basic a = .ok none → ∀ k value, db.storage a k = .ok value → value = 0

/-- The calls that keep the relation: a destroyed account does not get slots of the database back,
and the storage of a missing account is not replaced. -/
def CacheOp.Safe (op : CacheOp) (c : CacheDB ε) : Prop :=
  match op with
  | .insertAccountInfo a _ =>
      Revivable (c.db.toPlainState a) (fun _ => false) (c.cache.accounts.lookup a)
  | .replaceAccountStorage a _ => c.basicRef a ≠ .ok none
  | .commit changes => ∀ a account, changes.lookup a = some account →
      account.isTouched = true → account.isSelfdestructed = false → account.isCreated = false →
      Revivable (c.db.toPlainState a) (fun k => (account.storage.lookup k).isSome)
        (c.cache.accounts.lookup a)
  | _ => True

/-- The condition holds before every call of a sequence. -/
def CacheDB.EachSafe [Keccak256] : List CacheOp → CacheDB ε → Prop
  | [], _ => True
  | op :: ops, c => op.Safe c ∧ CacheDB.EachSafe ops (c.step op).2

section Plain

theorem Database.info_toPlainState {info : Option AccountInfo} (h : db.basic a = .ok info) :
    (db.toPlainState a).info = info := by
  simp only [toPlainState, h]

theorem Database.storage_toPlainState {k : StorageKey} {value : StorageValue}
    (h : db.storage a k = .ok value) : (db.toPlainState a).storage k = value := by
  simp only [toPlainState, h]

theorem Database.NoMissingStorage.storage_eq (h : db.NoMissingStorage)
    (hbasic : db.basic a = .ok none) (k : StorageKey) : (db.toPlainState a).storage k = 0 := by
  cases hk : db.storage a k with
  | ok value => exact (storage_toPlainState hk).trans (h a hbasic k value hk)
  | error e => simp only [toPlainState, hk]

end Plain

namespace CacheDB

section Refines

variable {c : CacheDB ε} {d : PlainState}

theorem Inv.new (db : Database ε) : Inv db (CacheDB.new db) db.toPlainState :=
  ⟨rfl, fun _ => rfl⟩

section

variable (h : Inv db c d)

include h

/-- A call that changes one address of both. -/
theorem Inv.set {acc : DbAccount} {r : PlainView}
    (hacc : StandsFor (db.toPlainState a) r (some acc)) :
    Inv db (c.setAccount a acc) (update d a r) := by
  refine ⟨h.1, fun b => ?_⟩
  unfold setAccount
  rw [HashMap.lookup_insert_ite, update_apply]
  split
  · next hb =>
    subst hb
    exact hacc
  · exact h.2 b

/-- A call that changes one address of the cache only. -/
theorem Inv.set_cache {acc : DbAccount}
    (hacc : StandsFor (db.toPlainState a) (d a) (some acc)) : Inv db (c.setAccount a acc) d := by
  have hset := h.set hacc
  rwa [update_eq_self] at hset

section

variable (hmissing : db.NoMissingStorage)

include hmissing

/-- A load fails with the error of the database, or the account is cached afterwards. -/
theorem Inv.loadAccount (a : Address) :
    (∃ e, db.basic a = .error e ∧ c.loadAccount a = (.error e, c)) ∨
      ∃ acc c', c.loadAccount a = (.ok acc, c') ∧ Inv db c' d ∧ c.basicRef a = .ok acc.info? ∧
        StandsFor (db.toPlainState a) (d a) (some acc) := by
  have ha := h.2 a
  unfold CacheDB.loadAccount CacheDB.basicRef
  cases hentry : c.cache.accounts.lookup a with
  | some acc =>
    rw [hentry] at ha
    exact .inr ⟨acc, c, rfl, h, rfl, ha⟩
  | none =>
    rw [hentry] at ha
    rw [h.1]
    cases hbasic : db.basic a with
    | error e => exact .inl ⟨e, rfl, rfl⟩
    | ok info =>
      have hinfo := info_toPlainState hbasic
      have hacc : StandsFor (db.toPlainState a) (d a) (some (DbAccount.ofInfo info)) := by
        rw [show d a = db.toPlainState a from ha, ← hinfo]
        refine StandsFor.ofInfo fun hnone => ?_
        rw [hinfo] at hnone
        rw [hnone] at hbasic
        exact hmissing.storage_eq hbasic
      refine .inr ⟨_, _, rfl, h.set_cache hacc, ?_, hacc⟩
      rw [hacc.1, show d a = db.toPlainState a from ha, hinfo]

theorem Inv.basic (a : Address) : Inv db (c.basic a).2 d ∧
      ((∃ e, db.basic a = .error e ∧ (c.basic a).1 = .error e) ∨
        (c.basic a).1 = .ok (d a).info) := by
  unfold CacheDB.basic
  rcases h.loadAccount hmissing a with ⟨e, hbasic, hload⟩ | ⟨acc, c', hload, hinv, -, hacc⟩
  · rw [hload]
    exact ⟨h, .inl ⟨e, hbasic, rfl⟩⟩
  · rw [hload]
    exact ⟨hinv, .inr (congrArg Except.ok hacc.1)⟩

theorem Inv.storage (a : Address) (k : StorageKey) : Inv db (c.storage a k).2 d ∧
      ((∃ e, (db.basic a = .error e ∨ db.storage a k = .error e) ∧
          (c.storage a k).1 = .error e) ∨
        (c.storage a k).1 = .ok ((d a).storage k)) := by
  have ha := h.2 a
  unfold CacheDB.storage
  rw [h.1]
  cases hentry : c.cache.accounts.lookup a with
  | some acc =>
    rw [hentry] at ha
    have hslot := ha.2 k
    unfold DbAccount.slot at hslot
    dsimp only
    cases hk : acc.storage.lookup k with
    | some value =>
      rw [hk] at hslot
      exact ⟨h, .inr (congrArg Except.ok hslot)⟩
    | none =>
      rw [hk, getD_none] at hslot
      split_ifs with hknown
      · rw [if_pos hknown] at hslot
        exact ⟨h, .inr (congrArg Except.ok hslot)⟩
      · rw [if_neg hknown] at hslot
        cases hvalue : db.storage a k with
        | error e => exact ⟨h, .inl ⟨e, .inr rfl, rfl⟩⟩
        | ok value =>
          have hvalue' : (d a).storage k = value :=
            hslot.symm.trans (storage_toPlainState hvalue)
          have hcache := ha.cacheSlot k
          rw [hvalue'] at hcache
          exact ⟨h.set_cache hcache, .inr (congrArg Except.ok hvalue'.symm)⟩
  | none =>
    rw [hentry] at ha
    have hd : d a = db.toPlainState a := ha
    cases hbasic : db.basic a with
    | error e => exact ⟨h, .inl ⟨e, .inl rfl, rfl⟩⟩
    | ok info =>
      have hinfo := info_toPlainState hbasic
      have hacc : StandsFor (db.toPlainState a) (d a) (some (DbAccount.ofInfo info)) := by
        rw [hd, ← hinfo]
        refine StandsFor.ofInfo fun hnone => ?_
        rw [hinfo] at hnone
        rw [hnone] at hbasic
        exact hmissing.storage_eq hbasic
      cases info with
      | none =>
        refine ⟨h.set_cache hacc, .inr ?_⟩
        rw [hd, hmissing.storage_eq hbasic k]
      | some info =>
        cases hvalue : db.storage a k with
        | error e => exact ⟨h, .inl ⟨e, .inr rfl, rfl⟩⟩
        | ok value =>
          have hvalue' : (d a).storage k = value := by
            rw [hd]
            exact storage_toPlainState hvalue
          have hcache := hacc.cacheSlot k
          rw [hvalue'] at hcache
          exact ⟨h.set_cache hcache, .inr (congrArg Except.ok hvalue'.symm)⟩

end

theorem Inv.basicRef (a : Address) :
    (∃ e, db.basic a = .error e ∧ c.basicRef a = .error e) ∨ c.basicRef a = .ok (d a).info := by
  have ha := h.2 a
  unfold CacheDB.basicRef
  rw [h.1]
  cases hentry : c.cache.accounts.lookup a with
  | some acc =>
    rw [hentry] at ha
    exact .inr (congrArg Except.ok ha.1)
  | none =>
    rw [hentry] at ha
    cases hbasic : db.basic a with
    | error e => exact .inl ⟨e, rfl, rfl⟩
    | ok info =>
      right
      rw [show d a = db.toPlainState a from ha, info_toPlainState hbasic]

theorem Inv.storageRef (a : Address) (k : StorageKey) :
    (∃ e, db.storage a k = .error e ∧ c.storageRef a k = .error e) ∨
      c.storageRef a k = .ok ((d a).storage k) := by
  have ha := h.2 a
  unfold CacheDB.storageRef
  rw [h.1]
  cases hentry : c.cache.accounts.lookup a with
  | some acc =>
    rw [hentry] at ha
    have hslot := ha.2 k
    unfold DbAccount.slot at hslot
    dsimp only
    cases hk : acc.storage.lookup k with
    | some value =>
      rw [hk] at hslot
      exact .inr (congrArg Except.ok hslot)
    | none =>
      rw [hk, getD_none] at hslot
      split_ifs with hknown
      · rw [if_pos hknown] at hslot
        exact .inr (congrArg Except.ok hslot)
      · rw [if_neg hknown] at hslot
        cases hvalue : db.storage a k with
        | error e => exact .inl ⟨e, rfl, rfl⟩
        | ok value => exact .inr (by rw [← hslot, storage_toPlainState hvalue])
  | none =>
    rw [hentry] at ha
    cases hvalue : db.storage a k with
    | error e => exact .inl ⟨e, rfl, rfl⟩
    | ok value =>
      right
      rw [show d a = db.toPlainState a from ha, storage_toPlainState hvalue]

end

section Writes

variable [Keccak256]

theorem lookup_commitAccount (c : CacheDB ε) (a : Address) (account : Account) :
    (c.commitAccount a account).cache.accounts.lookup a =
      commitEntry account (c.cache.accounts.lookup a) := by
  unfold commitAccount
  cases hentry : commitEntry account (c.cache.accounts.lookup a) with
  | some entry =>
    exact AList.lookup_insert _
  | none =>
    -- only an untouched account that is not cached stays so
    have htouched : account.isTouched = false := by
      by_contra htouched
      rw [Bool.not_eq_false] at htouched
      unfold commitEntry at hentry
      rw [htouched] at hentry
      split_ifs at hentry with hnot
      exact absurd hnot Bool.false_ne_true
    rw [commitEntry, htouched] at hentry
    exact hentry

theorem lookup_commitAccount_of_ne (c : CacheDB ε) {a b : Address} (hb : b ≠ a)
    (account : Account) :
    (c.commitAccount a account).cache.accounts.lookup b = c.cache.accounts.lookup b := by
  unfold commitAccount
  dsimp only
  split
  · exact AList.lookup_insert_ne hb
  · rfl

theorem lookup_commit (c : CacheDB ε) (changes : EvmState) (a : Address) :
    (c.commit changes).cache.accounts.lookup a =
      (changes.lookup a).elim (c.cache.accounts.lookup a) fun account =>
        commitEntry account (c.cache.accounts.lookup a) :=
  HashMap.foldl_obs commitAccount (fun a c => c.cache.accounts.lookup a)
    (fun _ account entry => commitEntry account entry)
    (fun c a account => lookup_commitAccount c a account)
    (fun c _ account _ hb => lookup_commitAccount_of_ne c hb account) changes c a

theorem db_commit (c : CacheDB ε) (changes : EvmState) : (c.commit changes).db = c.db := by
  have hdb := HashMap.foldl_obs commitAccount (fun _ c => c.db) (fun _ _ db => db)
    (fun (_ : CacheDB ε) _ _ => rfl) (fun _ _ _ _ _ => rfl) changes c 0
  rw [commit, hdb]
  cases changes.lookup 0 <;> rfl

/-- Every call keeps the relation. -/
theorem Inv.step (h : Inv db c d) (hmissing : db.NoMissingStorage) {op : CacheOp}
    (hsafe : op.Safe c) {ok : Bool} {c' : CacheDB ε} (hstep : c.step op = (ok, c')) :
    Inv db c' (if ok then op.apply d else d) := by
  cases op with
  | basic a =>
    cases hstep
    exact (ite_self d).symm ▸ (h.basic hmissing a).1
  | storage a k =>
    cases hstep
    exact (ite_self d).symm ▸ (h.storage hmissing a k).1
  | loadAccount a =>
    cases hstep
    refine (ite_self d).symm ▸ ?_
    rcases h.loadAccount hmissing a with ⟨e, -, hload⟩ | ⟨acc, c', hload, hinv, -⟩
    · rwa [hload]
    · rwa [hload]
  | insertAccountInfo a info =>
    cases hstep
    have hsafe' : Revivable (db.toPlainState a) (fun _ => false) (c.cache.accounts.lookup a) := by
      rw [← h.1]
      exact hsafe
    exact h.set ((h.2 a).insertInfo hsafe' (completeInfo info))
  | insertAccountStorage a slot value =>
    simp only [CacheDB.step, CacheDB.insertAccountStorage] at hstep
    rcases h.loadAccount hmissing a with ⟨e, -, hload⟩ | ⟨acc, c', hload, hinv, -, hacc⟩
    · rw [hload] at hstep
      cases hstep
      exact h
    · rw [hload] at hstep
      cases hstep
      exact hinv.set (hacc.insertSlot slot value)
  | replaceAccountStorage a slots =>
    simp only [CacheDB.step, CacheDB.replaceAccountStorage] at hstep
    rcases h.loadAccount hmissing a with ⟨e, -, hload⟩ | ⟨acc, c', hload, hinv, href, hacc⟩
    · rw [hload] at hstep
      cases hstep
      exact h
    · rw [hload] at hstep
      cases hstep
      refine hinv.set (hacc.replaceSlots ?_ slots)
      intro hnone
      rw [hacc.1, hnone] at href
      exact hsafe href
  | commit changes =>
    cases hstep
    refine ⟨(db_commit c changes).trans h.1, fun a => ?_⟩
    simp only [CacheOp.apply, if_true]
    rw [lookup_commit]
    cases haccount : changes.lookup a with
    | none => exact h.2 a
    | some account =>
      refine (h.2 a).commit account fun htouched hdestroyed hcreated => ?_
      rw [← h.1]
      exact hsafe a account haccount htouched hdestroyed hcreated

theorem Inv.run (h : Inv db c d) (hmissing : db.NoMissingStorage) {ops : List CacheOp}
    (hsafe : EachSafe ops c) : Inv db (CacheDB.run ops (c, d)).1 (CacheDB.run ops (c, d)).2 := by
  induction ops generalizing c d with
  | nil => exact h
  | cons op ops ih => exact ih (h.step hmissing hsafe.1 rfl) hsafe.2

end Writes

end Refines

/-- After any sequence of safe calls the four reads answer the value of the reference, unless the
database they would ask fails. -/
theorem reads_refine {ε : Type} [Keccak256] (db : Database ε) (hmissing : db.NoMissingStorage)
    (ops : List CacheOp) (hsafe : EachSafe ops (CacheDB.new db)) (a : Address) (k : StorageKey) :
    let c := (CacheDB.run ops (CacheDB.new db, db.toPlainState)).1
    let d := (CacheDB.run ops (CacheDB.new db, db.toPlainState)).2
    ((∃ e, db.basic a = .error e ∧ c.basicRef a = .error e) ∨ c.basicRef a = .ok (d a).info) ∧
    ((∃ e, db.storage a k = .error e ∧ c.storageRef a k = .error e) ∨
      c.storageRef a k = .ok ((d a).storage k)) ∧
    ((∃ e, db.basic a = .error e ∧ (c.basic a).1 = .error e) ∨
      (c.basic a).1 = .ok (d a).info) ∧
    ((∃ e, (db.basic a = .error e ∨ db.storage a k = .error e) ∧
        (c.storage a k).1 = .error e) ∨
      (c.storage a k).1 = .ok ((d a).storage k)) := by
  have hinv := (Inv.new db).run hmissing hsafe
  exact ⟨hinv.basicRef a, hinv.storageRef a k, (hinv.basic hmissing a).2,
    (hinv.storage hmissing a k).2⟩

/-! ## Runs on a small database -/

/-- A contract with the value 7 in its slot 1, and nothing else. -/
def slotDb : Database Unit where
  basic a := .ok (if a = 1 then some { AccountInfo.default with nonce := 1 } else none)
  codeByHash _ := .ok .default
  storage a k := .ok (if a = 1 ∧ k = 1 then 7 else 0)

theorem slotDb_noMissingStorage : slotDb.NoMissingStorage := by
  intro a hbasic k value hvalue
  by_cases ha : a = 1
  · subst ha
    cases hbasic
  · rw [← Except.ok.inj hvalue]
    exact if_neg fun h => ha h.1

/-- The hash is not computed in these runs. -/
@[reducible]
def constKeccak : Keccak256 := ⟨fun _ => 0⟩

/-- The EVM output that holds the contract only. -/
def changesOf (account : Account) : EvmState := (∅ : EvmState).insert 1 account

def destroyedContract : Account :=
  (Account.ofInfo AccountInfo.default).markTouch.markSelfdestructedLocally

def fundedContract : Account := (Account.ofInfo { AccountInfo.default with balance := 1 }).markTouch

def createdContract : Account := fundedContract.markCreatedLocally.1

theorem reads_refine_recreated : letI := constKeccak
    let ops := [CacheOp.storage 1 1, .commit (changesOf destroyedContract),
      .commit (changesOf createdContract)]
    let c := (CacheDB.run ops (CacheDB.new slotDb, slotDb.toPlainState)).1
    c.storageRef 1 1 = .ok 0 ∧ c.basicRef 1 = .ok (some createdContract.info) := by
  let := constKeccak
  have hsafe : EachSafe [CacheOp.storage 1 1, .commit (changesOf destroyedContract),
      .commit (changesOf createdContract)] (CacheDB.new slotDb) := by
    refine ⟨trivial, fun a account hmem _ hdestroyed => ?_, fun a account hmem _ _ hcreated => ?_,
      trivial⟩
    · obtain ⟨-, rfl⟩ := HashMap.lookup_singleton hmem
      cases hdestroyed
    · obtain ⟨-, rfl⟩ := HashMap.lookup_singleton hmem
      cases hcreated
  obtain ⟨hinfo, hslot, -⟩ := reads_refine slotDb slotDb_noMissingStorage _ hsafe 1 1
  refine ⟨?_, ?_⟩
  · rcases hslot with ⟨e, herror, -⟩ | hslot
    · cases herror
    · exact hslot
  · rcases hinfo with ⟨e, herror, -⟩ | hinfo
    · cases herror
    · exact hinfo

/-- The contract is destroyed and receives funds. -/
def fundedRun : CacheDB Unit × PlainState :=
  letI := constKeccak
  CacheDB.run [.commit (changesOf destroyedContract), .commit (changesOf fundedContract)]
    (CacheDB.new slotDb, slotDb.toPlainState)

/-- The storage of a missing account is replaced. -/
def replacedRun : CacheDB Unit × PlainState :=
  letI := constKeccak
  CacheDB.run [.replaceAccountStorage 2 ∅] (CacheDB.new slotDb, slotDb.toPlainState)

/-- A destroyed contract that receives funds has its slot of the database again, and an account that
is missing exists once its storage was replaced. -/
theorem reads_diverge : slotDb.NoMissingStorage ∧
    (fundedRun.1.storageRef 1 1 = .ok 7 ∧ (fundedRun.1.storage 1 1).1 = .ok 7 ∧
      (fundedRun.2 1).storage 1 = 0) ∧
    replacedRun.1.basicRef 2 = .ok (some AccountInfo.default) ∧ (replacedRun.2 2).info = none :=
  ⟨slotDb_noMissingStorage, ⟨rfl, rfl, rfl⟩, rfl, rfl⟩

end CacheDB

end Revm
