import Mathlib.Tactic

/-!
# Status machine of cached accounts

`AccountStatus` of the database crate: what is known about an account after loads, changes and
destructions. The status decides whether a slot that is not cached is zero or must be read from the
database (`isStorageKnown`).
-/

set_option autoImplicit false

namespace Revm

/-- `AccountStatus` of cached and bundled accounts. -/
inductive AccountStatus where
  | loadedNotExisting
  | loaded
  | loadedEmptyEip161
  | inMemoryChange
  | changed
  | destroyed
  | destroyedChanged
  | destroyedAgain
  deriving DecidableEq, Repr

namespace AccountStatus

/-- `is_not_modified`: the account was only loaded from the database. -/
def isNotModified : AccountStatus → Bool
  | .loadedNotExisting | .loaded | .loadedEmptyEip161 => true
  | _ => false

/-- `was_destroyed`: full account and storage are in memory. -/
def wasDestroyed : AccountStatus → Bool
  | .destroyed | .destroyedChanged | .destroyedAgain => true
  | _ => false

/-- `is_storage_known`: a slot missing from memory is zero. -/
def isStorageKnown : AccountStatus → Bool
  | .loadedNotExisting | .inMemoryChange | .destroyed | .destroyedChanged | .destroyedAgain => true
  | _ => false

/-- `on_created`. -/
def onCreated : AccountStatus → AccountStatus
  | .destroyedAgain | .destroyed | .destroyedChanged => .destroyedChanged
  | .loadedNotExisting | .loadedEmptyEip161 | .loaded | .changed | .inMemoryChange =>
      .inMemoryChange

/-- `on_touched_empty_post_eip161`. -/
def onTouchedEmptyPostEip161 : AccountStatus → AccountStatus
  | .loadedNotExisting => .loadedNotExisting
  | .inMemoryChange | .destroyed | .loadedEmptyEip161 => .destroyed
  | .destroyedAgain | .destroyedChanged => .destroyedAgain
  -- The source replaces an `unreachable!` here, for accounts deleted after they were loaded.
  | .loaded | .changed => .loadedNotExisting

/-- `on_touched_created_pre_eip161`. The outer `none` is the `unreachable!` arm, the inner one
means that the status does not change. -/
def onTouchedCreatedPreEip161 (status : AccountStatus) (hadNoInfo : Bool) :
    Option (Option AccountStatus) :=
  match status with
  | .loadedEmptyEip161 => some none
  | .destroyedChanged => some (if hadNoInfo then none else some .destroyedChanged)
  | .destroyed | .destroyedAgain => some (some .destroyedChanged)
  | .inMemoryChange | .loadedNotExisting => some (some .inMemoryChange)
  | .loaded | .changed => none

/-- `on_changed`. -/
def onChanged (status : AccountStatus) (hadNoNonceAndCode : Bool) : AccountStatus :=
  match status with
  | .loadedNotExisting => .inMemoryChange
  | .loadedEmptyEip161 => .inMemoryChange
  | .loaded => if hadNoNonceAndCode then .inMemoryChange else .changed
  | .changed => .changed
  | .inMemoryChange => .inMemoryChange
  | .destroyedChanged => .destroyedChanged
  | .destroyed | .destroyedAgain => .destroyedChanged

/-- `on_selfdestructed`. -/
def onSelfdestructed : AccountStatus → AccountStatus
  | .loadedNotExisting => .loadedNotExisting
  | .destroyedChanged | .destroyedAgain | .destroyed => .destroyedAgain
  | .loaded | .loadedEmptyEip161 | .inMemoryChange | .changed => .destroyed

end AccountStatus

end Revm
