import Revm.Database.CacheAccount

/-!
# Bundle accounts and reverts

`BundleAccount` collects the changes of an account over many blocks together with the original info
and the original slot values. `BundleAccount.updateAndCreateRevert` merges the transition of one
block into it and returns the `AccountRevert` of that block; `BundleAccount.revert` applies such a
revert. The `unreachable!` arms of the merge are the result `none`.
-/

set_option autoImplicit false

namespace Revm

/-- `AccountInfoRevert`. -/
inductive AccountInfoRevert where
  | doNothing
  | deleteIt
  | revertTo (info : AccountInfo)
  deriving DecidableEq, Repr

/-- `RevertToSlot`. -/
inductive RevertToSlot where
  | some (value : StorageValue)
  | destroyed
  deriving DecidableEq, Repr

/-- `AccountRevert`. -/
structure AccountRevert where
  account : AccountInfoRevert
  storage : HashMap StorageKey RevertToSlot
  previousStatus : AccountStatus
  wipeStorage : Bool

/-- `BundleAccount`. -/
structure BundleAccount where
  info : Option AccountInfo
  originalInfo : Option AccountInfo
  storage : StorageWithOriginalValues
  status : AccountStatus

/-- `PartialEq` of `Option<AccountInfo>`. -/
def eqInfoOption : Option AccountInfo → Option AccountInfo → Bool
  | none, none => true
  | some x, some y => x.eqInfo y
  | _, _ => false

@[simp] theorem eqInfoOption_refl (x : Option AccountInfo) : eqInfoOption x x = true := by
  cases x <;> simp [eqInfoOption]

variable (storage : StorageWithOriginalValues)

namespace AccountRevert

/-- `size_hint`. -/
def sizeHint (self : AccountRevert) : Nat := 1 + self.storage.entries.length

/-- Present values as slots to revert to. -/
def presentSlots : HashMap StorageKey RevertToSlot :=
  storage.mapValues fun slot => .some slot.presentValue

/-- `entry(key).or_insert(Destroyed)` for every key of the updated storage. -/
def addDestroyed (previous : HashMap StorageKey RevertToSlot)
    (updated : StorageWithOriginalValues) : HashMap StorageKey RevertToSlot :=
  updated.foldl
    (fun acc key _ => if (acc.lookup key).isSome then acc else acc.insert key .destroyed) previous

/-- `new_selfdestructed_again`. -/
def newSelfdestructedAgain (status : AccountStatus) (account : AccountInfoRevert)
    (previousStorage updatedStorage : StorageWithOriginalValues) : AccountRevert where
  account := account
  storage := addDestroyed (presentSlots previousStorage) updatedStorage
  previousStatus := status
  wipeStorage := false

/-- `new_selfdestructed_from_bundle`. The storage of the bundle account is drained when the result
is `some`, so the caller replaces it. -/
def newSelfdestructedFromBundle (accountInfoRevert : AccountInfoRevert)
    (bundleAccount : BundleAccount) (updatedStorage : StorageWithOriginalValues) :
    Option AccountRevert :=
  match bundleAccount.status with
  | .inMemoryChange | .changed | .loadedEmptyEip161 | .loaded =>
      some { newSelfdestructedAgain bundleAccount.status accountInfoRevert bundleAccount.storage
        updatedStorage with wipeStorage := true }
  | _ => none

/-- `new_selfdestructed`. -/
def newSelfdestructed (status : AccountStatus) (account : AccountInfoRevert)
    (storage : StorageWithOriginalValues) : AccountRevert where
  account := account
  storage := presentSlots storage
  previousStatus := status
  wipeStorage := true

/-- `is_empty`: nothing to revert. -/
def isEmpty (self : AccountRevert) : Bool :=
  (match self.account with | .doNothing => true | _ => false) && self.storage.entries.isEmpty &&
    !self.wipeStorage

end AccountRevert

namespace BundleAccount

variable (self : BundleAccount) (transition : TransitionAccount)

/-- `size_hint`. -/
def sizeHint : Nat := 1 + self.storage.entries.length

/-- `storage_slot`: the present value, zero when the storage is known, `none` when the database
must be asked. -/
def storageSlot (slot : StorageKey) : Option StorageValue :=
  match self.storage.lookup slot with
  | some s => some s.presentValue
  | none => if self.status.isStorageKnown then some 0 else none

def wasDestroyed : Bool := self.status.wasDestroyed

def isInfoChanged : Bool := !eqInfoOption self.info self.originalInfo

/-- One slot of `BundleAccount::revert`. -/
def revertSlot (key : StorageKey) (slot : RevertToSlot) : StorageWithOriginalValues :=
  match slot with
  | .some value =>
      storage.insert key
        { (storage.lookup key).getD (StorageSlot.new value) with presentValue := value }
  | .destroyed => storage.erase key

/-- `BundleAccount::revert`, with the Boolean saying that the account can be removed. -/
def revert (revert : AccountRevert) : BundleAccount × Bool :=
  match revert.account with
  | .deleteIt =>
      if self.originalInfo.isNone then
        ({ self with status := revert.previousStatus, info := none, storage := ∅ }, true)
      else
        -- Early return: the slots of the revert are not applied.
        ({ self with
            status := revert.previousStatus
            info := none
            storage := self.storage.mapValues fun v => { v with presentValue := 0 } }, false)
  | .doNothing =>
      ({ self with
          status := revert.previousStatus
          storage := revert.storage.foldl revertSlot self.storage }, false)
  | .revertTo info =>
      ({ self with
          status := revert.previousStatus
          info := some info
          storage := revert.storage.foldl revertSlot self.storage }, false)

/-- The closure `extend_storage`: later values overwrite, original values stay. -/
def extendStorage (thisStorage storageUpdate : StorageWithOriginalValues) :
    StorageWithOriginalValues :=
  storageUpdate.foldl
    (fun acc key value =>
      acc.insert key { (acc.lookup key).getD value with presentValue := value.presentValue })
    thisStorage

/-- The closure `previous_storage_from_update`. -/
def previousStorageFromUpdate (updatedStorage : StorageWithOriginalValues) :
    HashMap StorageKey RevertToSlot :=
  updatedStorage.filterMapValues fun slot =>
    if slot.isChanged then some (RevertToSlot.some slot.previousOrOriginalValue) else none

/-- `info_revert` of `update_and_create_revert`. -/
def infoRevert (info updatedInfo : Option AccountInfo) : AccountInfoRevert :=
  if eqInfoOption info updatedInfo then .doNothing
  else .revertTo (info.getD AccountInfo.default)

/-- The arm of `update_and_create_revert` for a transition to `Changed`. -/
def updateToChanged : Option (AccountRevert × BundleAccount) :=
  let revert : AccountRevert :=
    { account := infoRevert self.info transition.info
      storage := previousStorageFromUpdate transition.storage
      previousStatus := self.status
      wipeStorage := false }
  match self.status with
  | .changed | .loaded =>
      some (revert,
        { self with
          status := .changed
          info := transition.info
          storage := extendStorage self.storage transition.storage })
  | .loadedEmptyEip161 =>
      some (revert, { self with status := .changed, info := transition.info })
  | _ => none

/-- The arm of `update_and_create_revert` for a transition to `InMemoryChange`. -/
def updateToInMemoryChange : Option (AccountRevert × BundleAccount) :=
  let updated (account : AccountInfoRevert) (storage : StorageWithOriginalValues) :
      Option (AccountRevert × BundleAccount) :=
    some (
      { account := account
        storage := previousStorageFromUpdate transition.storage
        previousStatus := self.status
        wipeStorage := false },
      { self with status := .inMemoryChange, info := transition.info, storage := storage })
  match self.status with
  | .loaded | .inMemoryChange =>
      updated (infoRevert self.info transition.info) (extendStorage self.storage transition.storage)
  | .loadedEmptyEip161 => updated (infoRevert self.info transition.info) transition.storage
  | .loadedNotExisting => updated .deleteIt transition.storage
  | _ => none

/-- The arm of `update_and_create_revert` for a transition to `Destroyed`. -/
def updateToDestroyed : Option (Option AccountRevert × BundleAccount) :=
  match self.status with
  | .inMemoryChange | .changed | .loaded | .loadedEmptyEip161 =>
      some (some (AccountRevert.newSelfdestructed self.status
          (infoRevert self.info transition.info) self.storage),
        { self with status := .destroyed, info := none, storage := ∅ })
  | .loadedNotExisting => some (none, { self with storage := ∅ })
  | _ => none

/-- The arm of `update_and_create_revert` for a transition to `DestroyedChanged`. -/
def updateToDestroyedChanged : Option (AccountRevert × BundleAccount) :=
  match AccountRevert.newSelfdestructedFromBundle (infoRevert self.info transition.info) self
      transition.storage with
  | some revertState =>
      some (revertState,
        { self with
          status := .destroyedChanged
          info := transition.info
          storage := transition.storage })
  | none =>
      let updated (revert : AccountRevert) (storage : StorageWithOriginalValues) :
          Option (AccountRevert × BundleAccount) :=
        some (revert,
          { self with
            status := .destroyedChanged
            info := transition.info
            storage := extendStorage storage transition.storage })
      match self.status with
      | .destroyed | .loadedNotExisting =>
          updated
            { account := .deleteIt
              storage := previousStorageFromUpdate transition.storage
              previousStatus := self.status
              wipeStorage := false }
            self.storage
      | .destroyedChanged =>
          if transition.storageWasDestroyed then
            updated
              { account := infoRevert self.info transition.info
                storage := AccountRevert.addDestroyed (AccountRevert.presentSlots self.storage)
                  transition.storage
                previousStatus := .destroyedChanged
                wipeStorage := false }
              ∅
          else
            updated
              { account := infoRevert self.info transition.info
                storage := previousStorageFromUpdate transition.storage
                previousStatus := .destroyedChanged
                wipeStorage := false }
              self.storage
      | .destroyedAgain =>
          updated
            (AccountRevert.newSelfdestructedAgain .destroyedAgain .deleteIt ∅ transition.storage)
            self.storage
      | _ => none

/-- The arm of `update_and_create_revert` for a transition to `DestroyedAgain`. -/
def updateToDestroyedAgain : Option (Option AccountRevert × BundleAccount) :=
  let updated (revert : Option AccountRevert) : Option (Option AccountRevert × BundleAccount) :=
    some (revert, { self with status := .destroyedAgain, info := none, storage := ∅ })
  match AccountRevert.newSelfdestructedFromBundle (infoRevert self.info transition.info) self ∅ with
  | some revertState => updated (some revertState)
  | none =>
      match self.status with
      | .destroyed | .destroyedAgain | .loadedNotExisting => updated none
      | .destroyedChanged =>
          updated (some (AccountRevert.newSelfdestructedAgain .destroyedChanged
            (.revertTo (self.info.getD AccountInfo.default)) self.storage ∅))
      | _ => none

/-- `update_and_create_revert`. The outer `none` is an `unreachable!` arm. -/
def updateAndCreateRevert : Option (Option AccountRevert × BundleAccount) :=
  let nonEmpty (revert : Option AccountRevert) : Option AccountRevert :=
    revert.bind fun acc => if acc.isEmpty then none else some acc
  match transition.status with
  | .changed => (self.updateToChanged transition).map fun r => (nonEmpty (some r.1), r.2)
  | .inMemoryChange =>
      (self.updateToInMemoryChange transition).map fun r => (nonEmpty (some r.1), r.2)
  | .loaded | .loadedNotExisting | .loadedEmptyEip161 => some (none, self)
  | .destroyed => (self.updateToDestroyed transition).map fun r => (nonEmpty r.1, r.2)
  | .destroyedChanged =>
      (self.updateToDestroyedChanged transition).map fun r => (nonEmpty (some r.1), r.2)
  | .destroyedAgain => (self.updateToDestroyedAgain transition).map fun r => (nonEmpty r.1, r.2)

end BundleAccount

namespace TransitionAccount

variable (self : TransitionAccount)

/-- `present_bundle_account`. -/
def presentBundleAccount : BundleAccount where
  info := self.info
  originalInfo := self.previousInfo
  storage := self.storage
  status := self.status

/-- `original_bundle_account`. -/
def originalBundleAccount : BundleAccount where
  info := self.previousInfo
  originalInfo := self.previousInfo
  storage := ∅
  status := self.previousStatus

/-- `create_revert`. -/
def createRevert : Option (Option AccountRevert) :=
  (self.originalBundleAccount.updateAndCreateRevert self).map Prod.fst

/-- `has_new_contract`. -/
def hasNewContract : Option (B256 × Bytecode) :=
  if self.info.map (·.codeHash) ≠ self.previousInfo.map (·.codeHash) then
    self.info.bind fun info => info.code.map fun c => (info.codeHash, c)
  else none

end TransitionAccount

end Revm
