import Revm.Database.InMemory
import Revm.Journal.Inner

/-!
# Flattening nested caches

A `CacheDB` over a `CacheDB` asks its own cache first and then the reads by reference of the inner
one. `flatten` merges the two caches: the accounts, contracts and block hashes of the outer cache
replace those of the inner one.

Accounts are replaced as a whole. If both caches hold an account and the outer one does not know all
of its storage, the slots that only the inner cache holds are lost, and with them the mark that its
storage was cleared (`LayeredDB.flatten_diverges`). `LayeredDB.flatten_answers` is the agreement of
all four reads when no such slot is lost.
-/

set_option autoImplicit false

namespace Revm

open CacheDB

variable {ε : Type}

/-! ## Caches with block hashes -/

/-- The read interface `DatabaseRef`, with the block hashes. -/
structure DatabaseRef (ε : Type) extends Database ε where
  blockHash : U64 → Except ε B256

/-- `CacheDB` with the parts of its cache that `CacheDB` leaves out. -/
structure LayeredDB (ε : Type) where
  accountsDb : CacheDB ε
  logs : List Log
  blockHashes : HashMap U256 B256
  dbBlockHash : U64 → Except ε B256

variable (db : DatabaseRef ε)

namespace LayeredDB

variable (self : LayeredDB ε)

/-- `CacheDB::new`. -/
def new : LayeredDB ε := ⟨CacheDB.new db.toDatabase, [], ∅, db.blockHash⟩

/-- `Database::code_by_hash`. -/
def codeByHash (codeHash : B256) : Except ε Bytecode × LayeredDB ε :=
  let cache := self.accountsDb.cache
  match cache.contracts.lookup codeHash with
  | some code => (.ok code, self)
  | none =>
      match self.accountsDb.db.codeByHash codeHash with
      | .error e => (.error e, self)
      | .ok code =>
          (.ok code,
            { self with
              accountsDb :=
                { self.accountsDb with
                  cache := { cache with contracts := cache.contracts.insert codeHash code } } })

/-- `Database::block_hash`. -/
def blockHash (number : U64) : Except ε B256 × LayeredDB ε :=
  match self.blockHashes.lookup (number.setWidth 256) with
  | some hash => (.ok hash, self)
  | none =>
      match self.dbBlockHash number with
      | .error e => (.error e, self)
      | .ok hash =>
          (.ok hash,
            { self with blockHashes := self.blockHashes.insert (number.setWidth 256) hash })

/-- `DatabaseRef::code_by_hash_ref`. -/
def codeByHashRef (codeHash : B256) : Except ε Bytecode :=
  match self.accountsDb.cache.contracts.lookup codeHash with
  | some code => .ok code
  | none => self.accountsDb.db.codeByHash codeHash

/-- `DatabaseRef::block_hash_ref`. -/
def blockHashRef (number : U64) : Except ε B256 :=
  match self.blockHashes.lookup (number.setWidth 256) with
  | some hash => .ok hash
  | none => self.dbBlockHash number

/-- The implementation of `DatabaseRef`. -/
def toRef : DatabaseRef ε where
  basic := self.accountsDb.basicRef
  codeByHash := self.codeByHashRef
  storage := self.accountsDb.storageRef
  blockHash := self.blockHashRef

/-- `flatten`, of the cache `self` over the cache `inner`. -/
def flatten (self inner : LayeredDB ε) : LayeredDB ε where
  accountsDb :=
    { cache :=
        { accounts := self.accountsDb.cache.accounts ∪ inner.accountsDb.cache.accounts
          contracts := self.accountsDb.cache.contracts ∪ inner.accountsDb.cache.contracts }
      db := inner.accountsDb.db }
  logs := inner.logs ++ self.logs
  blockHashes := self.blockHashes ∪ inner.blockHashes
  dbBlockHash := inner.dbBlockHash

end LayeredDB

/-! ## Runs -/

/-- Calls on a cache: the ones on accounts and storage, and the two other reads. -/
inductive LayerOp where
  | accounts (op : CacheOp)
  | codeByHash (codeHash : B256)
  | blockHash (number : U64)

namespace LayeredDB

variable [Keccak256]

/-- The cache after a call. A call that fails leaves it. -/
def step (self : LayeredDB ε) : LayerOp → LayeredDB ε
  | .accounts op => { self with accountsDb := (self.accountsDb.step op).2 }
  | .codeByHash codeHash => (self.codeByHash codeHash).2
  | .blockHash number => (self.blockHash number).2

/-- The cache after a sequence of calls. -/
def run (self : LayeredDB ε) (ops : List LayerOp) : LayeredDB ε := ops.foldl step self

/-- The inner cache after the calls `ops`, over `db`. -/
def innerOf (ops : List LayerOp) : LayeredDB ε := (new db).run ops

/-- The outer cache after the calls `ops'`, over the inner one. -/
def outerOf (ops ops' : List LayerOp) : LayeredDB ε :=
  (new (innerOf db ops).toRef).run ops'

end LayeredDB

/-! ## The database below stays -/

section Db

variable (c : CacheDB ε)

theorem CacheDB.db_loadAccount (a : Address) : (c.loadAccount a).2.db = c.db := by
  unfold loadAccount
  cases c.cache.accounts.lookup a with
  | some account => rfl
  | none => cases c.db.basic a <;> rfl

theorem CacheDB.db_storage (a : Address) (k : StorageKey) : (c.storage a k).2.db = c.db := by
  unfold storage
  cases c.cache.accounts.lookup a with
  | some account =>
    dsimp only
    cases account.storage.lookup k with
    | some value => rfl
    | none =>
      split_ifs
      · rfl
      · cases c.db.storage a k <;> rfl
  | none =>
    cases c.db.basic a with
    | error e => rfl
    | ok info =>
      cases info with
      | none => rfl
      | some info =>
        cases c.db.storage a k <;> rfl

/-- A call that loads the account and then writes it. -/
theorem CacheDB.db_afterLoad {α : Type} (a : Address)
    (f : DbAccount → CacheDB ε → Except ε α × CacheDB ε)
    (hf : ∀ account c', (f account c').2.db = c'.db) : (match c.loadAccount a with
      | (.error e, c') => ((.error e, c') : Except ε α × CacheDB ε)
      | (.ok account, c') => f account c').2.db = c.db := by
  have hload := c.db_loadAccount a
  revert hload
  rcases c.loadAccount a with ⟨result, c'⟩
  cases result with
  | error e => exact fun hload => hload
  | ok account => exact fun hload => (hf account c').trans hload

theorem CacheDB.db_step [Keccak256] (op : CacheOp) : (c.step op).2.db = c.db := by
  cases op with
  | basic a => exact c.db_afterLoad a (fun account c' => (.ok account.info?, c')) fun _ _ => rfl
  | storage a k => exact c.db_storage a k
  | loadAccount a => exact c.db_loadAccount a
  | insertAccountInfo a info => rfl
  | insertAccountStorage a slot value =>
    exact c.db_afterLoad a (fun account c' =>
      (.ok (), c'.setAccount a { account with storage := account.storage.insert slot value }))
      fun _ _ => rfl
  | replaceAccountStorage a slots =>
    exact c.db_afterLoad a (fun account c' =>
      (.ok (), c'.setAccount a
        { account with accountState := .storageCleared, storage := slots })) fun _ _ => rfl
  | commit changes => exact db_commit c changes

end Db

namespace LayeredDB

variable [Keccak256]

theorem step_db (c : LayeredDB ε) (op : LayerOp) :
    (c.step op).accountsDb.db = c.accountsDb.db ∧ (c.step op).dbBlockHash = c.dbBlockHash := by
  cases op with
  | accounts op => exact ⟨c.accountsDb.db_step op, rfl⟩
  | codeByHash codeHash =>
    dsimp only [step]
    unfold codeByHash
    dsimp only
    cases c.accountsDb.cache.contracts.lookup codeHash with
    | some code => exact ⟨rfl, rfl⟩
    | none => cases c.accountsDb.db.codeByHash codeHash <;> exact ⟨rfl, rfl⟩
  | blockHash number =>
    dsimp only [step]
    unfold blockHash
    cases c.blockHashes.lookup (number.setWidth 256) with
    | some hash => exact ⟨rfl, rfl⟩
    | none =>
      cases c.dbBlockHash number <;> exact ⟨rfl, rfl⟩

theorem run_db (c : LayeredDB ε) (ops : List LayerOp) :
    (c.run ops).accountsDb.db = c.accountsDb.db ∧ (c.run ops).dbBlockHash = c.dbBlockHash := by
  induction ops generalizing c with
  | nil => exact ⟨rfl, rfl⟩
  | cons op ops ih =>
    obtain ⟨hdb, hhash⟩ := ih (c.step op)
    obtain ⟨hdb', hhash'⟩ := c.step_db op
    exact ⟨hdb.trans hdb', hhash.trans hhash'⟩

/-- The cache `outer` asks the reads by reference of `inner`. -/
structure Over (outer inner : LayeredDB ε) : Prop where
  db : outer.accountsDb.db = inner.toRef.toDatabase
  blockHash : outer.dbBlockHash = inner.blockHashRef

theorem outerOf_over (ops ops' : List LayerOp) : (outerOf db ops ops').Over (innerOf db ops) := by
  obtain ⟨hdb, hhash⟩ := run_db (new (innerOf db ops).toRef) ops'
  exact ⟨hdb, hhash⟩

end LayeredDB

/-! ## What flattening keeps -/

/-- A slot that the outer cache leaves to the inner one, which holds `account`, is what the database
answers. -/
def DbAccount.SlotFromDb (account : DbAccount) (answer : Except ε StorageValue)
    (k : StorageKey) : Prop :=
  match account.storage.lookup k with
  | some value => answer = .ok value
  | none => account.accountState.isKnown = true → answer = .ok 0

namespace LayeredDB

/-- If both caches hold an account and the outer one does not know all of its storage, then the
slots that it has not cached are the ones of the database. -/
def NoSlotLost (outer inner : LayeredDB ε) : Prop :=
  ∀ a account account', outer.accountsDb.cache.accounts.lookup a = some account →
    inner.accountsDb.cache.accounts.lookup a = some account' →
    account.accountState.isKnown = false → ∀ k, account.storage.lookup k = none →
      account'.SlotFromDb (inner.accountsDb.db.storage a k) k

variable {outer inner : LayeredDB ε}

theorem flatten_basicRef (h : outer.accountsDb.db = inner.toRef.toDatabase) (a : Address) :
    (outer.flatten inner).accountsDb.basicRef a = outer.accountsDb.basicRef a := by
  unfold basicRef flatten
  rw [HashMap.lookup_union, h]
  cases outer.accountsDb.cache.accounts.lookup a with
  | some account => rfl
  | none => rfl

theorem flatten_codeByHashRef (h : outer.accountsDb.db = inner.toRef.toDatabase) (codeHash : B256) :
    (outer.flatten inner).codeByHashRef codeHash = outer.codeByHashRef codeHash := by
  unfold codeByHashRef flatten
  rw [HashMap.lookup_union, h]
  cases outer.accountsDb.cache.contracts.lookup codeHash with
  | some code => rfl
  | none => rfl

theorem flatten_blockHashRef (h : outer.dbBlockHash = inner.blockHashRef) (number : U64) :
    (outer.flatten inner).blockHashRef number = outer.blockHashRef number := by
  unfold blockHashRef flatten
  rw [HashMap.lookup_union, h]
  cases outer.blockHashes.lookup (number.setWidth 256) with
  | some hash => rfl
  | none => rfl

/-- A slot that the inner cache holds reads as in the database exactly if it is one of the
database. -/
theorem storageRef_eq_iff {a : Address} {account : DbAccount}
    (h : inner.accountsDb.cache.accounts.lookup a = some account) (k : StorageKey) :
    inner.accountsDb.storageRef a k = inner.accountsDb.db.storage a k ↔
      account.SlotFromDb (inner.accountsDb.db.storage a k) k := by
  unfold storageRef DbAccount.SlotFromDb
  rw [h]
  dsimp only
  cases account.storage.lookup k with
  | some value => exact eq_comm
  | none =>
    by_cases hknown : account.accountState.isKnown = true
    · rw [if_pos hknown]
      exact ⟨fun h _ => h.symm, fun h => (h hknown).symm⟩
    · rw [if_neg hknown]
      exact ⟨fun _ h => absurd h hknown, fun _ => rfl⟩

/-- Flattening keeps the storage exactly if no slot is lost. -/
theorem flatten_storageRef_iff (h : outer.accountsDb.db = inner.toRef.toDatabase) :
    (∀ a k, (outer.flatten inner).accountsDb.storageRef a k = outer.accountsDb.storageRef a k) ↔
      outer.NoSlotLost inner := by
  have hstep : ∀ a k, (outer.flatten inner).accountsDb.storageRef a k =
      outer.accountsDb.storageRef a k ↔ ∀ account, outer.accountsDb.cache.accounts.lookup a =
        some account → account.accountState.isKnown = false → account.storage.lookup k = none →
        inner.accountsDb.storageRef a k = inner.accountsDb.db.storage a k := by
    intro a k
    unfold storageRef flatten
    rw [HashMap.lookup_union, h]
    cases houter : outer.accountsDb.cache.accounts.lookup a with
    | none =>
      refine ⟨?_, fun _ => rfl⟩
      intro _ account haccount
      cases haccount
    | some account =>
      dsimp only [Option.some_or]
      cases hslot : account.storage.lookup k with
      | some value =>
        refine ⟨?_, fun _ => rfl⟩
        rintro - _ ⟨⟩ - hnone
        rw [hslot] at hnone
        cases hnone
      | none =>
        cases hknown : account.accountState.isKnown with
        | true =>
          refine ⟨?_, fun _ => rfl⟩
          rintro - _ ⟨⟩ hunknown
          rw [hknown] at hunknown
          cases hunknown
        | false =>
          refine ⟨?_, fun hall => (hall account rfl hknown hslot).symm⟩
          rintro heq _ ⟨⟩ - -
          exact heq.symm
  refine ⟨?_, ?_⟩
  · intro hall a account account' houter hinner hknown k hslot
    exact (storageRef_eq_iff hinner k).1 ((hstep a k).1 (hall a k) account houter hknown hslot)
  · intro hlost a k
    refine (hstep a k).2 ?_
    intro account houter hknown hslot
    cases hinner : inner.accountsDb.cache.accounts.lookup a with
    | some account' =>
      exact (storageRef_eq_iff hinner k).2 (hlost a account account' houter hinner hknown k hslot)
    | none =>
      unfold storageRef
      rw [hinner]

/-- The flattened cache answers the four reads by reference as the nested one, if no slot is
lost. -/
theorem flatten_answers [Keccak256] (db : DatabaseRef ε) (ops ops' : List LayerOp)
    (hlost : (outerOf db ops ops').NoSlotLost (innerOf db ops)) : let outer := outerOf db ops ops'
    let flat := outer.flatten (innerOf db ops)
    (∀ a, flat.accountsDb.basicRef a = outer.accountsDb.basicRef a) ∧
    (∀ a k, flat.accountsDb.storageRef a k = outer.accountsDb.storageRef a k) ∧
    (∀ codeHash, flat.codeByHashRef codeHash = outer.codeByHashRef codeHash) ∧
    ∀ number, flat.blockHashRef number = outer.blockHashRef number := by
  have hover := outerOf_over db ops ops'
  exact ⟨flatten_basicRef hover.db, (flatten_storageRef_iff hover.db).2 hlost,
    flatten_codeByHashRef hover.db, flatten_blockHashRef hover.blockHash⟩

/-! ## Runs on a small database -/

/-- The contract with the value 7 in its slot 1, and no block hashes. -/
def slotRef : DatabaseRef Unit := ⟨slotDb, fun _ => .ok 0⟩

/-- The contract with the value 9 in its slot 1. -/
def writtenContract : Account :=
  { fundedContract with
    storage := (∅ : EvmStorage).insert 1 { EvmStorageSlot.new 7 0 with presentValue := 9 } }

/-- The inner cache writes the slot, and the outer one creates the contract again. -/
theorem flatten_answers_recreated : letI := constKeccak
    let ops := [LayerOp.accounts (.commit (changesOf writtenContract))]
    let ops' := [LayerOp.accounts (.commit (changesOf createdContract))]
    let outer := outerOf slotRef ops ops'
    let inner := innerOf slotRef ops
    inner.accountsDb.storageRef 1 1 = .ok 9 ∧
      (outer.flatten inner).accountsDb.storageRef 1 1 = .ok 0 ∧ outer.NoSlotLost inner := by
  let := constKeccak
  intro ops ops' outer inner
  have hlost : outer.NoSlotLost inner := by
    intro a account account' houter _ hknown
    have haccount : outer.accountsDb.cache.accounts.lookup a =
        if a = 1 then some
          ⟨completeInfo createdContract.info, .storageCleared, ∅⟩ else none :=
      HashMap.lookup_insert_ite _ _ _ _
    rw [haccount] at houter
    split_ifs at houter
    cases houter
    cases hknown
  refine ⟨rfl, ?_, hlost⟩
  rw [(flatten_answers slotRef ops ops' hlost).2.1]
  rfl

/-- The inner cache writes the slot, and the outer one only reads the account: the write is lost. -/
theorem flatten_diverges : letI := constKeccak
    let ops := [LayerOp.accounts (.commit (changesOf writtenContract))]
    let ops' := [LayerOp.accounts (.basic 1)]
    let outer := outerOf slotRef ops ops'
    outer.accountsDb.storageRef 1 1 = .ok 9 ∧
      (outer.flatten (innerOf slotRef ops)).accountsDb.storageRef 1 1 = .ok 7 := ⟨rfl, rfl⟩

end LayeredDB

end Revm
