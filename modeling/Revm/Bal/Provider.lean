import Revm.Bal.Database
import Revm.Bytecode.Decode
import Revm.Foundations.DupSort

/-!
# The providers

A provider keeps the state between blocks in flat tables: the accounts, the codes under their hashes
and the slots. There are two of them. `MdbxTables` keeps the slots of an account as sorted
duplicates under its address, `RocksDbTables` under keys of address and slot. Both answer
`basic_ref` and `storage_ref`, and `commit_bal_changes` writes the last values of a block access
list into them.

The table operations are those of the two databases. The delete of `mdbx` takes a value and deletes
the record only if it has this value. A transaction of `mdbx` does not change what is read outside
of it before it is committed; the accounts are read from the tables as they were. A panic is the
fault `ProviderFault.panic` of a read and the result `none` of a commit.
-/

set_option autoImplicit false

namespace Revm

variable {R : Type}

/-! ## Records -/

/-- `reth_primitives_traits::Account`. -/
structure RethAccount where
  nonce : U64
  balance : U256
  bytecodeHash : Option B256
  deriving DecidableEq, Repr

namespace RethAccount

/-- `get_bytecode_hash`. -/
def getBytecodeHash (self : RethAccount) : B256 := self.bytecodeHash.getD keccakEmpty

/-- `From<reth_primitives_traits::Account> for AccountInfo`. -/
def toInfo (self : RethAccount) : AccountInfo where
  balance := self.balance
  nonce := self.nonce
  codeHash := self.bytecodeHash.getD keccakEmpty
  storageId := none
  code := some .default

/-- `From<AccountInfo> for reth_primitives_traits::Account`. -/
def ofInfo (info : AccountInfo) : RethAccount where
  balance := info.balance
  nonce := info.nonce
  bytecodeHash := some info.codeHash

end RethAccount

/-- `StorageEntry`. -/
structure StorageEntry where
  key : B256
  value : U256
  deriving DecidableEq, Repr

/-- The bytes of a value in a record: big endian, without leading zeros. -/
def compactBytes (value : U256) : List UInt8 := (bigEndianBytes value.toNat 32).dropWhile (· = 0)

/-- The order of the duplicates: by the key, then by the bytes of the value. -/
def storageOrder : DupSort.Order StorageEntry where
  subkey entry := entry.key.toNat
  le x y :=
    x.key.toNat < y.key.toNat || x.key == y.key && compactBytes x.value ≤ compactBytes y.value
  subkey_le_of_le x y h := by
    rcases Bool.or_eq_true_iff.1 h with hlt | heq
    · exact (of_decide_eq_true hlt).le
    · rw [eq_of_beq (Bool.and_eq_true_iff.1 heq).1]
  subkey_le_of_not_le x y h := Nat.not_lt.1 (of_decide_eq_false (Bool.or_eq_false_iff.1 h).1)

/-! ## Reading -/

/-- `MyError`. -/
structure MyError where
  message : String
  deriving DecidableEq, Repr

/-- How a read fails. -/
inductive ProviderFault where
  | error (e : MyError)
  | panic
  deriving DecidableEq, Repr

/-- `Display` of a hash. -/
def displayHash (hash : B256) : String :=
  let digits := Nat.toDigits 16 hash.toNat
  "0x" ++ String.ofList (List.replicate (64 - digits.length) '0' ++ digits)

/-- A decoded code without the padding and the jump table. -/
def DecodedBytecode.toBytecode : DecodedBytecode → Bytecode
  | .eip7702 delegatedAddress version raw => .eip7702 delegatedAddress version raw
  | .legacyAnalyzed analyzed => .legacyAnalyzed (analyzed.bytecode.take analyzed.originalLen)

@[simp] theorem Bytecode.toBytecode_analyzed (code : Bytecode) :
    code.analyzed.toBytecode = code := by
  cases code with
  | eip7702 => rfl
  | legacyAnalyzed bytes =>
    exact congrArg Bytecode.legacyAnalyzed (DecodedBytecode.originalBytes_newLegacy bytes)

/-- The tables of accounts and of codes: `PlainAccountState` and `Bytecodes` of `mdbx`,
`ACCOUNT_FLATKEYVALUE` and `ACCOUNT_CODES` of RocksDB. -/
structure AccountTables (R : Type) where
  accounts : HashMap Address RethAccount
  codes : HashMap B256 R

namespace AccountTables

variable (reth : RethBytecode R) (self : AccountTables R)

/-- A code of the table, converted by `into`. -/
def readCode (codeHash : B256) : Option Bytecode :=
  (self.codes.lookup codeHash).bind fun code => (ofReth reth code).map (·.toBytecode)

/-- `code_by_hash_ref`, with the message for a missing code. -/
def codeByHashRef (message : B256 → String) (codeHash : B256) : Except ProviderFault Bytecode :=
  match self.codes.lookup codeHash with
  | none => .error (.error ⟨message codeHash⟩)
  | some code =>
      match ofReth reth code with
      | none => .error .panic
      | some code => .ok code.toBytecode

/-- `basic_ref`. The code of an account is read along with it, and a code that is not found is a
panic of `unwrap`. -/
def basicRef (address : Address) : Except ProviderFault (Option AccountInfo) :=
  match self.accounts.lookup address with
  | none => .ok none
  | some acct =>
      if acct.getBytecodeHash ≠ keccakEmpty then
        match self.readCode reth acct.getBytecodeHash with
        | none => .error .panic
        | some code => .ok (some { acct.toInfo with code := some code })
      else .ok (some { acct.toInfo with code := none })

end AccountTables

/-- The tables of `mdbx`. -/
structure MdbxTables (R : Type) extends AccountTables R where
  storages : HashMap Address (DupSort.Items storageOrder)

/-- The tables of RocksDB. -/
structure RocksDbTables (R : Type) extends AccountTables R where
  storages : HashMap (Address × StorageKey) StorageValue

namespace MdbxTables

variable (reth : RethBytecode R) (self : MdbxTables R)

/-- The slots of an account. -/
def slots (address : Address) : DupSort.Items storageOrder :=
  (self.storages.lookup address).getD .empty

/-- `LatestProvider::storage_ref`. -/
def storageRef (address : Address) (index : StorageKey) : StorageValue :=
  (((self.slots address).get index.toNat).map (·.value)).getD 0

/-- `LatestProvider`. -/
def latestProvider : Database ProviderFault where
  basic := self.basicRef reth
  codeByHash := self.codeByHashRef reth fun hash =>
    "code for codehash:" ++ displayHash hash ++ " not found"
  storage address index := .ok (self.storageRef address index)

end MdbxTables

namespace RocksDbTables

variable (reth : RethBytecode R) (self : RocksDbTables R)

/-- `RocksDbProvider::storage_ref`. -/
def storageRef (address : Address) (index : StorageKey) : StorageValue :=
  (self.storages.lookup (address, index)).getD 0

/-- `RocksDbProvider`. -/
def latestProvider : Database ProviderFault where
  basic := self.basicRef reth
  codeByHash := self.codeByHashRef reth fun hash =>
    "[rocksdb] code for codehash:" ++ displayHash hash ++ " not found"
  storage address index := .ok (self.storageRef address index)

end RocksDbTables

/-! ## The last values of a block access list -/

/-- `writes.last().map_or(0, |(v, _)| *v + 1)`. -/
def BalWrites.nextIndex {T : Type} (self : BalWrites T) : Nat :=
  self.writes.getLast?.elim 0 fun write => write.1 + 1

/-- `max_bal_index`. -/
def AccountInfoBal.maxBalIndex (self : AccountInfoBal) : Nat :=
  max (max self.balance.nextIndex self.nonce.nextIndex) self.code.nextIndex

/-- The account that `commit_bal_changes` computes. -/
def AccountBal.latestInfo (self : AccountBal) (prevInfo : AccountInfo) : AccountInfo :=
  if 0 < self.accountInfo.maxBalIndex then
    (self.populateAccountInfo self.accountInfo.maxBalIndex prevInfo).2
  else prevInfo

/-- The slots that `commit_bal_changes` writes, with their last values. -/
def StorageBal.written (self : StorageBal) : List (StorageKey × StorageValue) :=
  self.storage.entries.filterMap fun entry => entry.2.last.map fun value => (entry.1, value)

/-- `latest_storage`. -/
def StorageBal.latestStorage (self : StorageBal) : PlainStorage :=
  self.written.foldl (fun storage slot => storage.insert slot.1 slot.2) ∅

/-- `MyPlainAccount`. -/
structure MyPlainAccount where
  info : Option AccountInfo
  storage : PlainStorage

/-- `PreBlockState`. -/
structure PreBlockState where
  accounts : HashMap Address MyPlainAccount

/-- The account that `commit_bal_changes` answers. -/
def AccountBal.latestAcct (self : AccountBal) (info : AccountInfo) : MyPlainAccount where
  info := if info.isEmpty then none else some info
  storage := self.storage.latestStorage

/-! ## The commit of `mdbx` -/

namespace MdbxTables

variable (self : MdbxTables R)

/-- `put::<Bytecodes>`. -/
def putCode (codeHash : B256) (code : R) : MdbxTables R :=
  { self with codes := self.codes.insert codeHash code }

variable (address : Address)

/-- `put::<PlainAccountState>`. -/
def putAccount (acct : RethAccount) : MdbxTables R :=
  { self with accounts := self.accounts.insert address acct }

/-- `delete::<PlainAccountState>`: the record is deleted if it has the value. -/
def deleteAccount (acct : RethAccount) : MdbxTables R :=
  if self.accounts.lookup address = some acct then
    { self with accounts := self.accounts.erase address }
  else self

/-- The record of an account is put, or the one before is deleted if the account is empty. -/
def setAccount (prevInfo info : AccountInfo) : MdbxTables R :=
  if info.isEmpty then self.deleteAccount address (.ofInfo prevInfo)
  else self.putAccount address (.ofInfo info)

/-- The entries with the key are deleted one by one, and the new one is put in their place. -/
def putStorage (slot : StorageKey × StorageValue) : MdbxTables R :=
  { self with
    storages := self.storages.insert address
      (((self.slots address).clear slot.1.toNat).put ⟨slot.1, slot.2⟩) }

variable (reth : RethBytecode R) (self : MdbxTables R)

/-- The last code of an account is put. -/
def putLastCode (acctBal : AccountBal) : Option (MdbxTables R) :=
  match acctBal.accountInfo.code.last with
  | none => some self
  | some (codeHash, code) => (toReth reth code.analyzed).map (self.putCode codeHash)

/-- The part of `commit_bal_changes` for one account. -/
def commitAccount (old : MdbxTables R) (state : MdbxTables R × PreBlockState) (address : Address)
    (acctBal : AccountBal) : Option (MdbxTables R × PreBlockState) :=
  match old.basicRef reth address with
  | .error _ => none
  | .ok prev =>
      let prevInfo := prev.getD .default
      (state.1.putLastCode reth acctBal).map fun tables =>
        let info := acctBal.latestInfo prevInfo
        let tables := tables.setAccount address prevInfo info
        (acctBal.storage.written.foldl (fun tables slot => tables.putStorage address slot) tables,
          ⟨state.2.accounts.insert address (acctBal.latestAcct info)⟩)

/-- `commit_bal_changes`. -/
def commitBalChanges (bal : Bal) : Option (MdbxTables R × PreBlockState) :=
  bal.accounts.foldlM (self.commitAccount reth) (self, ⟨∅⟩)

end MdbxTables

/-! ## The commit of RocksDB -/

/-- What `commit_bal_changes` collects for the batches. -/
structure RocksDbChanges (R : Type) where
  accounts : HashMap Address RethAccount
  codes : HashMap B256 R
  storages : List (Address × StorageKey × StorageValue)
  accountsToDelete : List Address
  latestState : PreBlockState

namespace RocksDbChanges

def empty : RocksDbChanges R := ⟨∅, ∅, [], [], ⟨∅⟩⟩

def insertCode (self : RocksDbChanges R) (codeHash : B256) (code : R) : RocksDbChanges R :=
  { self with codes := self.codes.insert codeHash code }

/-- The last code of an account is collected. -/
def insertLastCode (reth : RethBytecode R) (self : RocksDbChanges R) (acctBal : AccountBal) :
    Option (RocksDbChanges R) :=
  match acctBal.accountInfo.code.last with
  | none => some self
  | some (codeHash, code) => (toReth reth code.analyzed).map (self.insertCode codeHash)

/-- An account is collected, to be deleted if it is empty. -/
def insertAccount (self : RocksDbChanges R) (address : Address) (info : AccountInfo) :
    RocksDbChanges R :=
  if info.isEmpty then { self with accountsToDelete := address :: self.accountsToDelete }
  else { self with accounts := self.accounts.insert address (.ofInfo info) }

end RocksDbChanges

namespace RocksDbTables

/-- `delete_accounts`, `set_accounts`, `set_codes` and `set_storages`, one batch after the other. -/
def apply (self : RocksDbTables R) (changes : RocksDbChanges R) : RocksDbTables R where
  accounts :=
    changes.accounts ∪
      changes.accountsToDelete.foldl (fun accounts address => accounts.erase address) self.accounts
  codes := changes.codes ∪ self.codes
  storages := changes.storages.foldl
    (fun storages slot => storages.insert (slot.1, slot.2.1) slot.2.2) self.storages

variable (reth : RethBytecode R)

/-- The part of `commit_bal_changes` for one account. -/
def commitAccount (old : RocksDbTables R) (changes : RocksDbChanges R) (address : Address)
    (acctBal : AccountBal) : Option (RocksDbChanges R) :=
  match old.basicRef reth address with
  | .error _ => none
  | .ok prev =>
      let prevInfo := prev.getD .default
      (changes.insertLastCode reth acctBal).map fun changes =>
        let info := acctBal.latestInfo prevInfo
        let changes := changes.insertAccount address info
        { changes with
          storages := changes.storages ++ acctBal.storage.written.map fun slot => (address, slot)
          latestState := ⟨changes.latestState.accounts.insert address (acctBal.latestAcct info)⟩ }

/-- `commit_bal_changes`. -/
def commitBalChanges (self : RocksDbTables R) (bal : Bal) :
    Option (RocksDbTables R × PreBlockState) :=
  (bal.accounts.foldlM (self.commitAccount reth) .empty).map fun changes =>
    (self.apply changes, changes.latestState)

end RocksDbTables

end Revm
