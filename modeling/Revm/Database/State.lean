import Revm.Database.BundleAccount

/-!
# The `State` database

`State` answers account and storage reads from a cache over a database, applies the output of the
EVM to the cache (`State.commit`), collects the transitions of a block and merges them into the
bundle (`State.mergeTransitions`). Panics of the source are the result `none`.
-/

set_option autoImplicit false

namespace Revm

open CacheAccount

/-- The read interface `Database`. Answers depend on the query only; each may be an error. -/
structure Database (ε : Type) where
  basic : Address → Except ε (Option AccountInfo)
  codeByHash : B256 → Except ε Bytecode
  storage : Address → StorageKey → Except ε StorageValue

/-! ## Bundle state -/

/-- The reverts of one block. -/
abbrev BlockReverts := List (Address × AccountRevert)

/-- `BundleState`. -/
structure BundleState where
  state : HashMap Address BundleAccount
  contracts : HashMap B256 Bytecode
  reverts : List BlockReverts
  stateSize : Nat
  revertsSize : Nat

/-- `BundleRetention`. -/
inductive BundleRetention where
  | plainState
  | reverts
  deriving DecidableEq, Repr

/-- `OriginalValuesKnown`. -/
inductive OriginalValuesKnown where
  | yes
  | no
  deriving DecidableEq, Repr

/-- `PlainStorageChangeset`. -/
structure PlainStorageChangeset where
  address : Address
  wipeStorage : Bool
  storage : List (StorageKey × StorageValue)

/-- `StateChangeset`. -/
structure StateChangeset where
  accounts : List (Address × Option AccountInfo)
  storage : List PlainStorageChangeset
  contracts : List (B256 × Bytecode)

/-- The transitions that a step returns. -/
abbrev Transitions := List (Address × TransitionAccount)

abbrev TransitionState := HashMap Address TransitionAccount

/-- `TransitionState::add_transitions`. -/
def TransitionState.addTransitions (self : TransitionState)
    (transitions : Transitions) : TransitionState :=
  transitions.foldl
    (fun acc t =>
      match acc.lookup t.1 with
      | some entry => acc.insert t.1 (entry.update t.2)
      | none => acc.insert t.1 t.2)
    self

namespace BundleState

variable (self : BundleState)

/-- `BundleState::default()`. -/
def empty : BundleState := ⟨∅, ∅, [], 0, 0⟩

/-- One account of `apply_transitions_and_create_reverts`: the updated bundle and the revert. -/
def applyTransition (address : Address) (transition : TransitionAccount) :
    Option (Option AccountRevert × BundleState) :=
  let contracts :=
    match transition.hasNewContract with
    | some (hash, newBytecode) => self.contracts.insert hash newBytecode
    | none => self.contracts
  match self.state.lookup address with
  | some entry =>
      (entry.updateAndCreateRevert transition).map fun r =>
        (r.1,
          { self with
            contracts := contracts
            state := self.state.insert address r.2
            stateSize := self.stateSize - entry.sizeHint + r.2.sizeHint })
  | none =>
      transition.createRevert.map fun revert =>
        (revert,
          if revert.isSome then
            { self with
              contracts := contracts
              state := self.state.insert address transition.presentBundleAccount
              stateSize := self.stateSize + transition.presentBundleAccount.sizeHint }
          else { self with contracts := contracts })

/-- The loop body of `apply_transitions_and_create_reverts`, with the reverts of the block in
progress. -/
def applyTransitionStep (includeReverts : Bool) (acc : BundleState × BlockReverts)
    (address : Address) (transition : TransitionAccount) : Option (BundleState × BlockReverts) :=
  (acc.1.applyTransition address transition).map fun r =>
    match r.1 with
    | some revert =>
        if includeReverts then
          ({ r.2 with revertsSize := r.2.revertsSize + revert.sizeHint },
            acc.2 ++ [(address, revert)])
        else (r.2, acc.2)
    | none => (r.2, acc.2)

/-- `apply_transitions_and_create_reverts`. -/
def applyTransitionsAndCreateReverts (transitions : TransitionState)
    (retention : BundleRetention) : Option BundleState :=
  (HashMap.foldlM transitions (applyTransitionStep (retention = .reverts)) (self, [])).map
    fun r => { r.1 with reverts := r.1.reverts ++ [r.2] }

/-- Storage slots of `to_plain_state` for one account. -/
def plainStorageChanges (account : BundleAccount) (isValueKnown : OriginalValuesKnown) :
    List (StorageKey × StorageValue) :=
  account.storage.entries.filterMap fun e =>
    let destroyedAndNotZero := account.wasDestroyed && e.2.presentValue != 0
    let notDestroyedAndChanged := !account.wasDestroyed && e.2.isChanged
    if isValueKnown = .no || destroyedAndNotZero || notDestroyedAndChanged then
      some (e.1, e.2.presentValue)
    else none

/-- `to_plain_state`. -/
def toPlainState (isValueKnown : OriginalValuesKnown) : StateChangeset where
  accounts := self.state.entries.filterMap fun e =>
    if isValueKnown = .no || e.2.isInfoChanged then
      some (e.1, e.2.info.map AccountInfo.copyWithoutCode)
    else none
  storage := self.state.entries.filterMap fun e =>
    let changes := plainStorageChanges e.2 isValueKnown
    if !changes.isEmpty || e.2.wasDestroyed then
      some { address := e.1, wipeStorage := e.2.wasDestroyed, storage := changes }
    else none
  contracts := self.contracts.entries.filterMap fun e =>
    if e.1 ≠ keccakEmpty then some (e.1, e.2) else none

/-- One account of `revert_latest`. -/
def revertAccount (address : Address) (revertAccount : AccountRevert) : BundleState :=
  let revertsSize := self.revertsSize - revertAccount.sizeHint
  match self.state.lookup address with
  | some account =>
      let r := account.revert revertAccount
      let stateSize := self.stateSize - account.sizeHint
      if r.2 then
        { self with
          revertsSize := revertsSize, stateSize := stateSize, state := self.state.erase address }
      else
        { self with
          revertsSize := revertsSize
          stateSize := stateSize + r.1.sizeHint
          state := self.state.insert address r.1 }
  | none =>
      let r := (BundleAccount.mk none none ∅ .loadedNotExisting).revert revertAccount
      if r.2 then { self with revertsSize := revertsSize }
      else
        { self with
          revertsSize := revertsSize
          stateSize := self.stateSize + r.1.sizeHint
          state := self.state.insert address r.1 }

/-- `revert_latest`, with the Boolean saying that a block was reverted. -/
def revertLatest : BundleState × Bool :=
  match self.reverts.getLast? with
  | some reverts =>
      (reverts.foldl (fun acc r => acc.revertAccount r.1 r.2)
        { self with reverts := self.reverts.dropLast }, true)
  | none => (self, false)

/-- `revert`: the loop runs `revert_latest` until `n` blocks are reverted or none is left. -/
def revert (self : BundleState) : Nat → BundleState
  | 0 => self
  | n + 1 =>
      let r := self.revertLatest
      if r.2 then r.1.revert n else r.1

end BundleState

/-! ## Cache and state -/

/-- `CacheState`. -/
structure CacheState where
  accounts : HashMap Address CacheAccount
  hasStateClear : Bool

/-- `changed_storage` of `apply_account_state`. -/
def changedStorage (storage : EvmStorage) : StorageWithOriginalValues :=
  storage.filterMapValues fun slot =>
    if slot.isChanged then some (StorageSlot.ofEvm slot) else none

/-- The dispatch of `apply_account_state` on a touched account. -/
def CacheAccount.applyTouched (thisAccount : CacheAccount) (hasStateClear : Bool)
    (account : Account) : Option (Option TransitionAccount × CacheAccount) :=
  if account.isSelfdestructed then some thisAccount.selfdestruct
  else if account.isCreated then
    let r := thisAccount.newlyCreated account.info (changedStorage account.storage)
    some (some r.1, r.2)
  else if account.isEmpty then
    if hasStateClear then some thisAccount.touchEmptyEip161
    else thisAccount.touchCreatePreEip161 (changedStorage account.storage)
  else
    let r := thisAccount.change account.info (changedStorage account.storage)
    some (some r.1, r.2)

/-- `apply_account_state`. `none` is a panic: the account of a touched address is not cached. -/
def CacheState.applyAccountState (self : CacheState) (address : Address) (account : Account) :
    Option (Option TransitionAccount × CacheState) :=
  if !account.isTouched then some (none, self)
  else
    (self.accounts.lookup address).bind fun thisAccount =>
      (thisAccount.applyTouched self.hasStateClear account).map fun r =>
        (r.1, { self with accounts := self.accounts.insert address r.2 })

/-- `State`. Block hashes and cached contracts are left out: only `block_hash` and `code_by_hash`
read them. -/
structure State (ε : Type) where
  cache : CacheState
  database : Database ε
  transitionState : Option TransitionState
  bundleState : BundleState
  usePreloadedBundle : Bool

/-- `From<&BundleAccount> for CacheAccount`. -/
def CacheAccount.ofBundle (account : BundleAccount) : CacheAccount where
  account := account.info.map fun info => ⟨info, presentValues account.storage⟩
  status := account.status

namespace State

variable {ε : Type} (self : State ε) (address : Address)

/-- `load_cache_account`. -/
def loadCacheAccount : Except ε (CacheAccount × State ε) :=
  match self.cache.accounts.lookup address with
  | some account => .ok (account, self)
  | none =>
      let insert (account : CacheAccount) : CacheAccount × State ε :=
        (account, { self with
          cache := { self.cache with accounts := self.cache.accounts.insert address account } })
      match (if self.usePreloadedBundle then self.bundleState.state.lookup address else none) with
      | some account => .ok (insert (ofBundle account))
      | none =>
          match self.database.basic address with
          | .error e => .error e
          | .ok none => .ok (insert newLoadedNotExisting)
          | .ok (some acc) =>
              if acc.isEmpty then .ok (insert (newLoadedEmptyEip161 ∅))
              else .ok (insert (newLoaded acc ∅))

/-- `Database::basic` of `State`. -/
def basic : Except ε (Option AccountInfo × State ε) :=
  match self.loadCacheAccount address with
  | .error e => .error e
  | .ok r => .ok (r.1.accountInfo, r.2)

/-- `Database::storage` of `State`. `none` is the `unreachable!` for an account that was not
loaded. -/
def storage (index : StorageKey) : Option (Except ε (StorageValue × State ε)) :=
  (self.cache.accounts.lookup address).map fun account =>
    match account.account with
    | none => .ok (0, self)
    | some plain =>
        match plain.storage.lookup index with
        | some value => .ok (value, self)
        | none =>
            let insert (value : StorageValue) : StorageValue × State ε :=
              (value, { self with
                cache := { self.cache with
                  accounts := self.cache.accounts.insert address
                    { account with
                      account := some { plain with storage := plain.storage.insert index value } } }
                        })
            if account.status.isStorageKnown then .ok (insert 0)
            else
              match self.database.storage address index with
              | .error e => .error e
              | .ok value => .ok (insert value)

/-- `apply_transition`. -/
def applyTransition (transitions : Transitions) : State ε :=
  { self with
    transitionState := self.transitionState.map fun s =>
      TransitionState.addTransitions s transitions }

/-- The loop body of `commit`, with the transitions collected so far. -/
def commitStep (acc : CacheState × Transitions) (address : Address)
    (account : Account) : Option (CacheState × Transitions) :=
  (acc.1.applyAccountState address account).map fun r =>
    match r.1 with
    | some transition => (r.2, acc.2 ++ [(address, transition)])
    | none => (r.2, acc.2)

/-- `DatabaseCommit::commit` of `State`. -/
def commit (evmState : EvmState) : Option (State ε) :=
  (HashMap.foldlM evmState commitStep (self.cache, [])).map fun r =>
    { self with cache := r.1 }.applyTransition r.2

/-- The loop body of `increment_balances`. -/
def incrementBalanceStep (acc : State ε × Transitions) (entry : Address × BitVec 128) :
    Except ε (Option (State ε × Transitions)) :=
  if entry.2 = 0 then .ok (some acc)
  else
    match acc.1.loadCacheAccount entry.1 with
    | .error e => .error e
    | .ok (account, s) =>
        let r := account.incrementBalance entry.2
        .ok (r.1.map fun transition =>
          ({ s with cache := { s.cache with accounts := s.cache.accounts.insert entry.1 r.2 } },
            acc.2 ++ [(entry.1, transition)]))

/-- The loop of `increment_balances`. A database error ends it, a `none` is the
`expect("Balance is not zero")`. -/
def incrementBalancesLoop :
    List (Address × BitVec 128) → State ε × Transitions →
      Except ε (Option (State ε × Transitions))
  | [], acc => .ok (some acc)
  | entry :: rest, acc =>
      match incrementBalanceStep acc entry with
      | .error e => .error e
      | .ok none => .ok none
      | .ok (some acc') => incrementBalancesLoop rest acc'

/-- `increment_balances`. -/
def incrementBalances (balances : List (Address × BitVec 128)) : Except ε (Option (State ε)) :=
  match incrementBalancesLoop balances (self, []) with
  | .error e => .error e
  | .ok none => .ok none
  | .ok (some r) => .ok (some (r.1.applyTransition r.2))

/-- `merge_transitions`. -/
def mergeTransitions (retention : BundleRetention) : Option (State ε) :=
  match self.transitionState with
  | none => some self
  | some transitions =>
      (self.bundleState.applyTransitionsAndCreateReverts transitions retention).map fun b =>
        { self with transitionState := some ∅, bundleState := b }

end State

end Revm
