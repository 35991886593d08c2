import Revm.Database.State

/-!
# Extending bundles

`BundleState.extendState` puts the accounts of another state on top of a bundle,
`BundleState.extend` a whole bundle with its reverts. A revert of the other bundle that wipes the
storage gets the slots of this bundle first, and the account here loses them.
`BundleState.prependState` puts a bundle underneath.
-/

set_option autoImplicit false

namespace Revm

/-- `AccountStatus::transition`. -/
def AccountStatus.transition (self other : AccountStatus) : AccountStatus :=
  match self.wasDestroyed, other.wasDestroyed with
  | true, false => .destroyedChanged
  | false, false => if self = .inMemoryChange then .inMemoryChange else other
  | _, _ => other

/-- The entry of `extend_state` for an account that both states have. -/
def BundleAccount.extend (self other : BundleAccount) : BundleAccount :=
  { self with
    storage := if other.wasDestroyed then other.storage else extendStorage self.storage
      other.storage
    info := other.info
    status := self.status.transition other.status }

/-- `entry(key).or_insert(Some(present_value))` for every slot that is drained. -/
def AccountRevert.addPresent (reverted : HashMap StorageKey RevertToSlot)
    (drained : StorageWithOriginalValues) : HashMap StorageKey RevertToSlot :=
  drained.foldl (fun acc key value =>
    if (acc.lookup key).isSome then acc else acc.insert key (.some value.presentValue)) reverted

namespace BundleState

variable (self : BundleState)

/-- One account of `extend_state`. -/
def extendAccount (address : Address) (otherAccount : BundleAccount) : BundleState :=
  match self.state.lookup address with
  | some this =>
      { self with
        stateSize := self.stateSize - this.sizeHint + (this.extend otherAccount).sizeHint
        state := self.state.insert address (this.extend otherAccount) }
  | none =>
      { self with
        stateSize := self.stateSize + otherAccount.sizeHint
        state := self.state.insert address otherAccount }

/-- `extend_state`. -/
def extendState (otherState : HashMap Address BundleAccount) : BundleState :=
  otherState.foldl extendAccount self

/-- One revert of the other bundle in `extend`: what it becomes, and the bundle without the slots
that went into it. -/
def extendRevert (address : Address) (revert : AccountRevert) : BundleState × AccountRevert :=
  let extended : BundleState × AccountRevert :=
    if revert.wipeStorage then
      match self.state.lookup address with
      | some thisAccount =>
          ({ self with state := self.state.insert address { thisAccount with storage := ∅ } },
            { revert with
              storage := AccountRevert.addPresent revert.storage thisAccount.storage
              wipeStorage := !thisAccount.wasDestroyed })
      | none => (self, revert)
    else (self, revert)
  ({ extended.1 with revertsSize := extended.1.revertsSize + extended.2.sizeHint }, extended.2)

/-- The reverts of one block of the other bundle. -/
def extendBlock (self : BundleState) : BlockReverts →
    BundleState × BlockReverts
  | [] => (self, [])
  | (address, revert) :: rest =>
      let extended := self.extendRevert address revert
      let others := extended.1.extendBlock rest
      (others.1, (address, extended.2) :: others.2)

/-- All reverts of the other bundle. -/
def extendReverts (self : BundleState) : List BlockReverts →
    BundleState × List BlockReverts
  | [] => (self, [])
  | block :: rest =>
      let extended := self.extendBlock block
      let others := extended.1.extendReverts rest
      (others.1, extended.2 :: others.2)

/-- `contracts.extend`. -/
def extendContracts (contracts other : HashMap B256 Bytecode) : HashMap B256 Bytecode :=
  other.foldl (fun acc hash code => acc.insert hash code) contracts

/-- `BundleState::extend`. -/
def extend (self other : BundleState) : BundleState :=
  let extended := self.extendReverts other.reverts
  let this := extended.1.extendState other.state
  { this with
    contracts := extendContracts this.contracts other.contracts
    reverts := this.reverts ++ extended.2 }

/-- `prepend_state`. The reverts of this bundle are gone. -/
def prependState (self other : BundleState) : BundleState :=
  let extended := other.extendState self.state
  { extended with contracts := extendContracts extended.contracts self.contracts }

/-- The size of the reverts of some blocks. -/
def sizeOfReverts (reverts : List BlockReverts) : Nat :=
  (reverts.flatten.map fun r => r.2.sizeHint).sum

/-- `take_all_reverts`, with the reverts that are taken. -/
def takeAllReverts : BundleState × List BlockReverts :=
  ({ self with revertsSize := 0, reverts := [] }, self.reverts)

/-- `take_n_reverts`, with the reverts that are taken. -/
def takeNReverts (revertsToTake : Nat) : BundleState × List BlockReverts :=
  if revertsToTake > self.reverts.length then self.takeAllReverts
  else
    ({ self with
        revertsSize := sizeOfReverts (self.reverts.drop revertsToTake)
        reverts := self.reverts.drop revertsToTake },
      self.reverts.take revertsToTake)

end BundleState

end Revm
