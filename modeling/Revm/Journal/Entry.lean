import Revm.State.Account

/-!
# Journal entries

`JournalEntry` records one change of the state, `JournalEntry.revert` takes it back. An entry about
an account that is not loaded panics in the source and answers `none` here. Balances wrap on
`+=` and `-=` as `U256` does; the nonce is decremented modulo `2^64`.

A revert acts on the accounts and on the transient storage separately:
`JournalEntry.revert_eq`.
-/

set_option autoImplicit false

namespace Revm

/-- `TransientStorage`. -/
abbrev TransientStorage := HashMap (Address × StorageKey) StorageValue

/-- `SelfdestructionRevertStatus`. -/
inductive SelfdestructionRevertStatus where
  | globallySelfdestroyed
  | locallySelfdestroyed
  | repeatedSelfdestruction
  deriving DecidableEq, Repr

/-- `JournalEntry`. -/
inductive JournalEntry where
  | accountWarmed (address : Address)
  | accountDestroyed (hadBalance : U256) (address target : Address)
      (destroyedStatus : SelfdestructionRevertStatus)
  | accountTouched (address : Address)
  | balanceChange (oldBalance : U256) (address : Address)
  | balanceTransfer (balance : U256) (src dst : Address)
  | nonceChange (address : Address)
  | accountCreated (address : Address) (isCreatedGlobally : Bool)
  | storageChanged (key : StorageKey) (hadValue : StorageValue) (address : Address)
  | storageWarmed (key : StorageKey) (address : Address)
  | transientStorageChange (key : StorageKey) (hadValue : StorageValue) (address : Address)
  | codeChange (address : Address)
  deriving DecidableEq, Repr

namespace EvmState

/-- `state.get_mut(&address).unwrap()` followed by an update of the account. -/
def modify (state : EvmState) (address : Address) (f : Account → Account) : Option EvmState :=
  (state.lookup address).map fun account => state.insert address (f account)

/-- `state.get_mut(&address).unwrap().storage.get_mut(&key).unwrap()` followed by an update of the
slot. -/
def modifySlot (state : EvmState) (address : Address) (key : StorageKey)
    (f : EvmStorageSlot → EvmStorageSlot) : Option EvmState := do
  let account ← state.lookup address
  let slot ← account.storage.lookup key
  return state.insert address { account with storage := account.storage.insert key (f slot) }

end EvmState

namespace Account

/-- The flags that a reverted selfdestruct of the given status takes back. -/
def undestroy (a : Account) : SelfdestructionRevertStatus → Account
  | .globallySelfdestroyed => a.unmarkSelfdestruct.unmarkSelfdestructedLocally
  | .locallySelfdestroyed => a.unmarkSelfdestructedLocally
  | .repeatedSelfdestruction => a

/-- The revert of an account creation. -/
def uncreate (a : Account) (isCreatedGlobally : Bool) : Account :=
  let a := a.unmarkCreatedLocally
  let a := if isCreatedGlobally then a.unmarkCreated else a
  a.setNonce 0

/-- The revert of a code change. The previous code is not recorded. -/
def resetCode (a : Account) : Account :=
  { a with info := { a.info with codeHash := keccakEmpty, code := none } }

end Account

namespace JournalEntry

variable (self : JournalEntry)

/-- `JournalEntry::revert`. -/
def revert (state : EvmState) (transientStorage : Option TransientStorage)
    (isSpuriousDragonEnabled : Bool) : Option (EvmState × Option TransientStorage) :=
  match self with
  | accountWarmed address =>
      (state.modify address Account.markCold).map (·, transientStorage)
  | accountTouched address =>
      if isSpuriousDragonEnabled && address == precompile3 then some (state, transientStorage)
      else (state.modify address Account.unmarkTouch).map (·, transientStorage)
  | accountDestroyed hadBalance address target destroyedStatus => do
      let state ← state.modify address fun account =>
        let account := account.undestroy destroyedStatus
        account.setBalance (account.info.balance + hadBalance)
      if address ≠ target then
        let state ← state.modify target fun t => t.setBalance (t.info.balance - hadBalance)
        return (state, transientStorage)
      else return (state, transientStorage)
  | balanceChange oldBalance address =>
      (state.modify address fun a => a.setBalance oldBalance).map (·, transientStorage)
  | balanceTransfer balance src dst => do
      let state ← state.modify src fun a => a.setBalance (a.info.balance + balance)
      let state ← state.modify dst fun a => a.setBalance (a.info.balance - balance)
      return (state, transientStorage)
  | nonceChange address =>
      (state.modify address fun a => a.setNonce (a.info.nonce - 1)).map (·, transientStorage)
  | accountCreated address isCreatedGlobally =>
      (state.modify address fun a => a.uncreate isCreatedGlobally).map (·, transientStorage)
  | storageWarmed key address =>
      (state.modifySlot address key EvmStorageSlot.markCold).map (·, transientStorage)
  | storageChanged key hadValue address =>
      (state.modifySlot address key fun s => { s with presentValue := hadValue }).map
        (·, transientStorage)
  | transientStorageChange key hadValue address =>
      match transientStorage with
      | none => some (state, none)
      | some transientStorage =>
          let tkey := (address, key)
          if hadValue = 0 then some (state, some (transientStorage.erase tkey))
          else some (state, some (transientStorage.insert tkey hadValue))
  | codeChange address =>
      (state.modify address Account.resetCode).map (·, transientStorage)

/-! ## The two halves of a revert -/

/-- What a revert does to the accounts. -/
def revertState (sd : Bool) (state : EvmState) : Option EvmState :=
  match self with
  | accountWarmed address => state.modify address Account.markCold
  | accountTouched address =>
      if sd && address == precompile3 then some state else state.modify address Account.unmarkTouch
  | accountDestroyed hadBalance address target destroyedStatus =>
      (state.modify address fun account =>
        (account.undestroy destroyedStatus).setBalance
          ((account.undestroy destroyedStatus).info.balance + hadBalance)).bind fun state =>
        if address ≠ target then
          state.modify target fun t => t.setBalance (t.info.balance - hadBalance)
        else some state
  | balanceChange oldBalance address => state.modify address fun a => a.setBalance oldBalance
  | balanceTransfer balance src dst =>
      (state.modify src fun a => a.setBalance (a.info.balance + balance)).bind fun state =>
        state.modify dst fun a => a.setBalance (a.info.balance - balance)
  | nonceChange address => state.modify address fun a => a.setNonce (a.info.nonce - 1)
  | accountCreated address isCreatedGlobally =>
      state.modify address fun a => a.uncreate isCreatedGlobally
  | storageWarmed key address => state.modifySlot address key EvmStorageSlot.markCold
  | storageChanged key hadValue address =>
      state.modifySlot address key fun s => { s with presentValue := hadValue }
  | transientStorageChange .. => some state
  | codeChange address => state.modify address Account.resetCode

/-- What a revert does to the transient storage. -/
def revertTransient (t : TransientStorage) : TransientStorage :=
  match self with
  | transientStorageChange key hadValue address =>
      if hadValue = 0 then t.erase (address, key) else t.insert (address, key) hadValue
  | _ => t

/-- A revert acts on accounts and transient storage separately. -/
theorem revert_eq (e : JournalEntry) (state : EvmState) (t : Option TransientStorage) (sd : Bool) :
    e.revert state t sd = (e.revertState sd state).map (·, t.map e.revertTransient) := by
  cases e with
  | transientStorageChange key hadValue address =>
    cases t with
    | none => rfl
    | some t =>
      by_cases h : hadValue = 0#256
      · simp [revert, revertState, revertTransient, h]
      · simp [revert, revertState, revertTransient, h]
  | accountTouched address =>
    by_cases h : (sd && address == precompile3) = true
    · cases t <;> simp [revert, revertState, revertTransient, h]
    · cases t <;> simp [revert, revertState, revertTransient, h]
  | accountDestroyed hadBalance address target status =>
    simp only [revert, revertState]
    cases EvmState.modify state address _ with
    | none => rfl
    | some s =>
      by_cases h : address = target
      · cases t <;> simp [h, revertTransient]
      · cases hm : EvmState.modify s target fun t => t.setBalance (t.info.balance - hadBalance) <;>
          cases t <;> simp [h, hm, revertTransient]
  | balanceTransfer balance src dst =>
    simp only [revert, revertState]
    cases EvmState.modify state src _ with
    | none => rfl
    | some s =>
      cases hm : EvmState.modify s dst fun a => a.setBalance (a.info.balance - balance) <;>
        cases t <;> simp [hm, revertTransient]
  | accountWarmed | balanceChange | nonceChange | accountCreated | storageWarmed | storageChanged
  | codeChange =>
    cases t <;> rfl

end JournalEntry

end Revm
