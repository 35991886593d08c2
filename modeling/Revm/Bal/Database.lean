import Revm.Bal.Account
import Revm.Database.PlainState

/-!
# Reading through a block access list

`BalDatabase` answers reads of a database with the writes of a block access list laid over them, at
the index of the transaction that runs (`basic_eq`, `storage_eq`). At an index above every write it
answers the state after the block (`basic_of_below`, `storage_of_below`).
-/

set_option autoImplicit false

namespace Revm

open Bal AccountInfoBal StorageBal

variable {address : Address} {info : Option AccountInfo} {key : StorageKey} {value : StorageValue}

/-- `BalDatabaseError`. -/
inductive BalDatabaseError (ε : Type) where
  | bal (error : BalError)
  | database (error : ε)
  deriving DecidableEq, Repr

/-- `BalDatabase`, without the changes of the transactions, which only `merge` functions read. -/
structure BalDatabase (DB : Type) where
  bal : Option Bal
  balBuilder : Option Bal
  balIndex : Nat
  db : DB

namespace BalDatabase

variable {DB ε : Type} (self : BalDatabase DB)

/-- The account that `basic` makes of the answer of the database. An empty account is missing. -/
def populateBasic (address : Address) (basic : Option AccountInfo) :
    Except BalError (Option AccountInfo) :=
  let populated : Except BalError (Option AccountInfo) :=
    match self.bal with
    | none => .ok basic
    | some bal =>
        match basic with
        | some acct =>
            (bal.populateAccountInfo address self.balIndex acct).map fun result => some result.2
        | none =>
            (bal.populateAccountInfo address self.balIndex .default).map fun result =>
              if result.1 then some result.2 else none
  populated.map nonEmpty

/-- The value that `storage` makes of the answer of the database. -/
def populateStorage (address : Address) (key : StorageKey)
    (value : StorageValue) : Except BalError StorageValue :=
  match self.bal with
  | none => .ok value
  | some bal => bal.populateStorageSlot address self.balIndex key value

/-- `BalDatabase::basic`. -/
def basic (self : BalDatabase (Database ε)) (address : Address) :
    Except (BalDatabaseError ε) (Option AccountInfo) :=
  match self.db.basic address with
  | .error e => .error (.database e)
  | .ok info => (self.populateBasic address info).mapError .bal

/-- `BalDatabase::storage`. -/
def storage (self : BalDatabase (Database ε)) (address : Address) (key : StorageKey) :
    Except (BalDatabaseError ε) StorageValue :=
  match self.db.storage address key with
  | .error e => .error (.database e)
  | .ok value => (self.populateStorage address key value).mapError .bal

/-- `BalDatabase::code_by_hash`. -/
def codeByHash (self : BalDatabase (Database ε)) (codeHash : B256) :
    Except (BalDatabaseError ε) Bytecode :=
  (self.db.codeByHash codeHash).mapError .database

/-- `BalDatabase::commit`, with the commit of the database, which may panic. -/
def commit (commitDb : DB → EvmState → Option DB) (changes : EvmState) : Option (BalDatabase DB) :=
  (commitDb self.db changes).map fun db =>
    { self with
      balBuilder := self.balBuilder.map (·.update self.balIndex changes)
      db := db }

/-- `bump_bal_index`. -/
def bumpBalIndex : BalDatabase DB :=
  { self with balIndex := self.balIndex + 1 }

end BalDatabase

/-! ## What is seen at an index -/

namespace Bal

variable (self : Bal)

/-- The account with the writes in front of an index. -/
def infoAt (address : Address) (index : Nat) (info : Option AccountInfo) : Option AccountInfo :=
  match self.accounts.lookup address with
  | none => info
  | some account =>
      some (account.accountInfo.infoAt index
        { info.getD .default with storageId := some (self.accounts.keys.idxOf address) })

/-- The slot with the writes in front of an index. -/
def storageAt (address : Address) (key : StorageKey) (index : Nat)
    (value : StorageValue) : StorageValue :=
  ((self.accounts.lookup address).bind (·.storage.before key index)).getD value

/-- The account after all writes. -/
def finalInfo (address : Address) (info : Option AccountInfo) : Option AccountInfo :=
  match self.accounts.lookup address with
  | none => info
  | some account =>
      some (account.accountInfo.final
        { info.getD .default with storageId := some (self.accounts.keys.idxOf address) })

/-- The slot after all writes. -/
def finalStorage (address : Address) (key : StorageKey) (value : StorageValue) : StorageValue :=
  ((self.accounts.lookup address).bind (·.storage.last key)).getD value

end Bal

namespace BalDatabase

variable {ε : Type} {db : Database ε} {bal : Bal} {index : Nat}

section

variable (hinc : bal.Increasing)

include hinc

/-- An account is seen with the writes in front of the index. -/
theorem basic_eq (hdb : db.basic address = .ok info) :
    basic ⟨some bal, none, index, db⟩ address = .ok (nonEmpty (bal.infoAt address index info)) := by
  unfold basic populateBasic Bal.populateAccountInfo Bal.infoAt
  rw [hdb]
  dsimp only
  cases hlookup : bal.accounts.lookup address with
  | none => cases info <;> rfl
  | some account =>
    obtain ⟨hinc, -⟩ := hinc address account hlookup
    dsimp only [AccountBal.populateAccountInfo]
    cases info with
    | some acct =>
      dsimp only
      rw [populateAccountInfo_eq hinc]
      rfl
    | none =>
      rw [populateAccountInfo_eq hinc]
      cases hwritten : account.accountInfo.isWrittenAt index with
      | true => rfl
      | false =>
        -- nothing was written to a missing account: the default account is empty
        rw [infoAt_of_not_isWrittenAt hwritten,
          infoAt_of_not_isWrittenAt hwritten]
        rfl

/-- Above every write an account is the one after the block. -/
theorem basic_of_below (hbelow : bal.Below index) (hdb : db.basic address = .ok info) :
    basic ⟨some bal, none, index, db⟩ address = .ok (nonEmpty (bal.finalInfo address info)) := by
  rw [basic_eq hinc hdb]
  unfold Bal.infoAt Bal.finalInfo
  cases hlookup : bal.accounts.lookup address with
  | none => rfl
  | some account =>
    dsimp only
    rw [infoAt_of_below (hbelow address account hlookup).1]

/-- A slot is seen with the writes in front of the index. -/
theorem storage_eq (hdb : db.storage address key = .ok value) :
    storage ⟨some bal, none, index, db⟩ address key =
      .ok (bal.storageAt address key index value) := by
  unfold storage populateStorage populateStorageSlot storageAt
  rw [hdb]
  dsimp only
  cases hlookup : bal.accounts.lookup address with
  | none => rfl
  | some account =>
    dsimp only
    rw [get_eq_before (hinc address account hlookup).2]
    rfl

/-- Above every write a slot is the one after the block. -/
theorem storage_of_below (hbelow : bal.Below index) (hdb : db.storage address key = .ok value) :
    storage ⟨some bal, none, index, db⟩ address key = .ok (bal.finalStorage address key value) := by
  rw [storage_eq hinc hdb]
  unfold storageAt finalStorage
  cases hlookup : bal.accounts.lookup address with
  | none => rfl
  | some account =>
    rw [Option.bind_some, Option.bind_some,
      before_of_below (hbelow address account hlookup).2]

end

end BalDatabase

end Revm
