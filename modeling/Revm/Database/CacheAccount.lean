import Revm.State.Account
import Revm.Database.AccountStatus

/-!
# Cached accounts and their transitions

`CacheAccount` holds the current info and storage of an account with its status. Each operation
updates it in place and returns the `TransitionAccount` that the block state collects; here an
operation returns the transition together with the updated account.
-/

set_option autoImplicit false

namespace Revm

/-- `StorageSlot`: a value with the value it had before the block. -/
structure StorageSlot where
  previousOrOriginalValue : StorageValue
  presentValue : StorageValue
  deriving DecidableEq, Repr

namespace StorageSlot

/-- `StorageSlot::new`: an unchanged slot. -/
def new (original : StorageValue) : StorageSlot := ⟨original, original⟩

def isChanged (slot : StorageSlot) : Bool := slot.previousOrOriginalValue != slot.presentValue

/-- `From<EvmStorageSlot> for StorageSlot`. -/
def ofEvm (slot : EvmStorageSlot) : StorageSlot := ⟨slot.originalValue, slot.presentValue⟩

end StorageSlot

abbrev StorageWithOriginalValues := HashMap StorageKey StorageSlot

abbrev PlainStorage := HashMap StorageKey StorageValue

/-- `PlainAccount`. -/
structure PlainAccount where
  info : AccountInfo
  storage : PlainStorage

/-- `PlainAccount::default()`. -/
def PlainAccount.default : PlainAccount := ⟨AccountInfo.default, ∅⟩

/-- `PlainAccount::new_empty_with_storage`. -/
def PlainAccount.newEmptyWithStorage (storage : PlainStorage) : PlainAccount :=
  ⟨AccountInfo.default, storage⟩

/-- `TransitionAccount`. -/
structure TransitionAccount where
  info : Option AccountInfo
  status : AccountStatus
  previousInfo : Option AccountInfo
  previousStatus : AccountStatus
  storage : StorageWithOriginalValues
  storageWasDestroyed : Bool

/-- The slot part of `TransitionAccount::update`: a slot that returns to its original value is
dropped, any other slot keeps the original value it had first. -/
def TransitionAccount.updateSlot (storage : StorageWithOriginalValues) (key : StorageKey)
    (slot : StorageSlot) : StorageWithOriginalValues :=
  match storage.lookup key with
  | none => storage.insert key slot
  | some value =>
      if value.previousOrOriginalValue = slot.presentValue then storage.erase key
      else storage.insert key { value with presentValue := slot.presentValue }

/-- `TransitionAccount::update`. -/
def TransitionAccount.update (self other : TransitionAccount) : TransitionAccount :=
  if other.status = .destroyed ∨ other.status = .destroyedAgain then
    { self with
      info := other.info
      status := other.status
      storage := other.storage
      storageWasDestroyed := true }
  else
    { self with
      info := other.info
      status := other.status
      storage := other.storage.foldl TransitionAccount.updateSlot self.storage }

/-- `CacheAccount`. -/
structure CacheAccount where
  account : Option PlainAccount
  status : AccountStatus

namespace CacheAccount

variable (self : CacheAccount)

def newLoaded (info : AccountInfo) (storage : PlainStorage) : CacheAccount :=
  ⟨some ⟨info, storage⟩, .loaded⟩

def newLoadedEmptyEip161 (storage : PlainStorage) : CacheAccount :=
  ⟨some (PlainAccount.newEmptyWithStorage storage), .loadedEmptyEip161⟩

def newLoadedNotExisting : CacheAccount := ⟨none, .loadedNotExisting⟩

/-- `account_info`. -/
def accountInfo : Option AccountInfo := self.account.map (·.info)

/-- `previous_info.map(has_no_code_and_nonce).unwrap_or_default()`. -/
def hadNoNonceAndCode (previousInfo : Option AccountInfo) : Bool :=
  (previousInfo.map AccountInfo.hasNoCodeAndNonce).getD false

variable (storage : StorageWithOriginalValues)

/-- Present values of a storage with original values. -/
def presentValues : PlainStorage :=
  storage.mapValues (·.presentValue)

/-- `touch_create_pre_eip161`. The outer `none` is the panic of `on_touched_created_pre_eip161`. -/
def touchCreatePreEip161 : Option (Option TransitionAccount × CacheAccount) :=
  let hadNoInfo := (self.account.map (·.info.isEmpty)).getD false
  match self.status.onTouchedCreatedPreEip161 hadNoInfo with
  | none => none
  | some none => some (none, self)
  | some (some status) =>
      some (some
          { info := some AccountInfo.default
            status := status
            previousInfo := self.accountInfo
            previousStatus := self.status
            storage := storage
            storageWasDestroyed := false },
        ⟨some (PlainAccount.newEmptyWithStorage (presentValues storage)), status⟩)

/-- `touch_empty_eip161`. -/
def touchEmptyEip161 : Option TransitionAccount × CacheAccount :=
  let status := self.status.onTouchedEmptyPostEip161
  let transition : Option TransitionAccount :=
    match self.status with
    | .loadedNotExisting | .destroyed | .destroyedAgain => none
    | _ =>
        some
          { info := none
            status := status
            previousInfo := self.accountInfo
            previousStatus := self.status
            storage := ∅
            storageWasDestroyed := true }
  (transition, ⟨none, status⟩)

/-- `selfdestruct`. -/
def selfdestruct : Option TransitionAccount × CacheAccount :=
  let status := self.status.onSelfdestructed
  let transition : Option TransitionAccount :=
    if self.status = .loadedNotExisting then none
    else
      some
        { info := none
          status := status
          previousInfo := self.accountInfo
          previousStatus := self.status
          storage := ∅
          storageWasDestroyed := true }
  (transition, ⟨none, status⟩)

/-- `newly_created`. -/
def newlyCreated (newInfo : AccountInfo)
    (newStorage : StorageWithOriginalValues) : TransitionAccount × CacheAccount :=
  let status := self.status.onCreated
  ({ info := some newInfo
     status := status
     previousInfo := self.accountInfo
     previousStatus := self.status
     storage := newStorage
     storageWasDestroyed := false },
    ⟨some ⟨newInfo, presentValues newStorage⟩, status⟩)

/-- `account_info_change`, for a change without output. -/
def accountInfoChange (change : AccountInfo → AccountInfo) : TransitionAccount × CacheAccount :=
  let previousInfo := self.accountInfo
  let account := self.account.getD PlainAccount.default
  let account := { account with info := change account.info }
  let status := self.status.onChanged (hadNoNonceAndCode previousInfo)
  ({ info := some account.info
     status := status
     previousInfo := previousInfo
     previousStatus := self.status
     storage := ∅
     storageWasDestroyed := false },
    ⟨some account, status⟩)

/-- `increment_balance`, with the amount a `u128`. -/
def incrementBalance (balance : BitVec 128) : Option TransitionAccount × CacheAccount :=
  if balance = 0 then (none, self)
  else
    let r := self.accountInfoChange fun info =>
      { info with balance := saturatingAdd info.balance (balance.setWidth 256) }
    (some r.1, r.2)

/-- `change`. -/
def change (new : AccountInfo) (storage : StorageWithOriginalValues) :
    TransitionAccount × CacheAccount :=
  let previousInfo := self.accountInfo
  let thisStorage : PlainStorage := (self.account.map (·.storage)).getD ∅
  let status := self.status.onChanged (hadNoNonceAndCode previousInfo)
  ({ info := some new
     status := status
     previousInfo := previousInfo
     previousStatus := self.status
     storage := storage
     storageWasDestroyed := false },
    ⟨some ⟨new, presentValues storage ∪ thisStorage⟩, status⟩)

end CacheAccount

end Revm
