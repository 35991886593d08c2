import Revm.Database.State
import Revm.Journal.Entry
import Revm.Journal.WarmAddresses

/-!
# The journal

`JournalInner` is the state of the running transaction with the journal of its changes. Its
functions are translated one by one: loading accounts and slots, the frame operations that change
accounts, and checkpoints. `unwrap` on an account that is not loaded is the result `none`. A
function that may fail with an error of the database answers the error together with the journal it
leaves behind, since what it did before the error stays done.

`JournaledAccount` is the handle that the source uses to change one account and the journal
together.
-/

set_option autoImplicit false

namespace Revm

/-! ## Results of the journal functions -/

/-- `JournalLoadError`. -/
inductive JournalLoadError (ε : Type) where
  | dbError (error : ε)
  | coldLoadSkipped
  deriving DecidableEq, Repr

/-- `TransferError`. -/
inductive TransferError where
  | outOfFunds
  | overflowPayment
  | createCollision
  deriving DecidableEq, Repr

/-- `StateLoad`. -/
structure StateLoad (α : Type) where
  data : α
  isCold : Bool
  deriving DecidableEq, Repr

/-- The result of a load. -/
abbrev LoadAnswer (ε α : Type) := Except (JournalLoadError ε) (StateLoad α)

/-- `JournalCheckpoint`. -/
structure JournalCheckpoint where
  logI : Nat
  journalI : Nat
  deriving DecidableEq, Repr

/-- `AccountLoad`. -/
structure AccountLoad where
  isDelegateAccountCold : Option Bool
  isEmpty : Bool
  deriving DecidableEq, Repr

/-- `SStoreResult`. -/
structure SStoreResult where
  originalValue : StorageValue
  presentValue : StorageValue
  newValue : StorageValue
  deriving DecidableEq, Repr

/-- `SelfDestructResult`. -/
structure SelfDestructResult where
  hadValue : Bool
  targetExists : Bool
  previouslyDestroyed : Bool
  deriving DecidableEq, Repr

/-- `Log`. -/
structure Log where
  address : Address
  topics : List B256
  data : List UInt8
  deriving DecidableEq, Repr

/-! ## Journaled accounts -/

/-- `JournaledAccount`: an account of the state with the journal it writes to. -/
structure JournaledAccount where
  address : Address
  account : Account
  journalEntries : List JournalEntry

namespace JournaledAccount

variable (self : JournaledAccount)

/-- `JournaledAccount::touch`. -/
def touch : JournaledAccount :=
  if !self.account.isTouched then
    { self with
      account := self.account.markTouch
      journalEntries := self.journalEntries ++ [.accountTouched self.address] }
  else self

variable (balance : U256)

/-- `JournaledAccount::set_balance`. -/
def setBalance : JournaledAccount :=
  let self := self.touch
  if self.account.info.balance ≠ balance then
    { self with
      journalEntries :=
        self.journalEntries ++ [.balanceChange self.account.info.balance self.address]
      account := self.account.setBalance balance }
  else self

/-- `JournaledAccount::incr_balance`. -/
def incrBalance : Bool × JournaledAccount :=
  let self := self.touch
  match checkedAdd self.account.info.balance balance with
  | none => (false, self)
  | some balance => (true, self.setBalance balance)

/-- `JournaledAccount::decr_balance`. -/
def decrBalance : Bool × JournaledAccount :=
  let self := self.touch
  match checkedSub self.account.info.balance balance with
  | none => (false, self)
  | some balance => (true, self.setBalance balance)

/-- `JournaledAccount::bump_nonce`. -/
def bumpNonce : Bool × JournaledAccount :=
  let self := self.touch
  match checkedAdd self.account.info.nonce 1 with
  | none => (false, self)
  | some nonce =>
      (true,
        { self with
          account := self.account.setNonce nonce
          journalEntries := self.journalEntries ++ [.nonceChange self.address] })

/-- `JournaledAccount::set_code`. -/
def setCode (codeHash : B256) (code : Bytecode) : JournaledAccount :=
  let self := self.touch
  { self with
    account := self.account.setCode codeHash code
    journalEntries := self.journalEntries ++ [.codeChange self.address] }

/-- `JournaledAccount::delegate` (EIP-7702). -/
def delegate [Keccak256] (address : Address) : JournaledAccount :=
  let (bytecode, hash) :=
    if address = 0 then (Bytecode.default, keccakEmpty)
    else (Bytecode.newEip7702 address, (Bytecode.newEip7702 address).hashSlow)
  let self := self.touch
  let self := self.setCode hash bytecode
  self.bumpNonce.2

end JournaledAccount

/-! ## The journal and its checkpoints -/

/-- `JournalInner`. -/
structure JournalInner where
  state : EvmState
  transientStorage : TransientStorage
  logs : List Log
  depth : Nat
  journal : List JournalEntry
  transactionId : Nat
  spec : SpecId
  warmAddresses : WarmAddresses

namespace JournalInner

variable (self : JournalInner) (address : Address)

/-- `JournalInner::new`, with the spec and the warm addresses that the handler sets next. -/
def new (spec : SpecId) (warmAddresses : WarmAddresses) : JournalInner where
  state := ∅
  transientStorage := ∅
  logs := []
  depth := 0
  journal := []
  transactionId := 0
  spec := spec
  warmAddresses := warmAddresses

/-- `self.journal.push(entry)`. -/
def push (entry : JournalEntry) : JournalInner :=
  { self with journal := self.journal ++ [entry] }

variable (account : Account)

/-- The account at `address` was changed in place. -/
def setAccount : JournalInner :=
  { self with state := self.state.insert address account }

/-- `self.state.get_mut(&address).unwrap()` followed by an update of the account. -/
def modify (f : Account → Account) : Option JournalInner :=
  (self.state.lookup address).map fun account => self.setAccount address (f account)

/-- `commit_tx`. -/
def commitTx : JournalInner :=
  { self with
    transientStorage := ∅
    depth := 0
    journal := []
    warmAddresses := self.warmAddresses.clearCoinbaseAndAccessList
    transactionId := self.transactionId + 1
    logs := [] }

/-- `discard_tx`. -/
def discardTx : Option JournalInner := do
  let isSpuriousDragonEnabled := self.spec.isEnabledIn .spuriousDragon
  let r ← self.journal.reverse.foldlM
    (fun acc entry => entry.revert acc.1 acc.2 isSpuriousDragonEnabled) (self.state, none)
  return { self with
    state := r.1
    journal := []
    transientStorage := ∅
    depth := 0
    logs := []
    transactionId := self.transactionId + 1
    warmAddresses := self.warmAddresses.clearCoinbaseAndAccessList }

/-- `checkpoint`. -/
def checkpoint : JournalCheckpoint × JournalInner :=
  (⟨self.logs.length, self.journal.length⟩, { self with depth := self.depth + 1 })

/-- `checkpoint_commit`. -/
def checkpointCommit : JournalInner :=
  { self with depth := self.depth - 1 }

/-- `checkpoint_revert`. -/
def checkpointRevert (checkpoint : JournalCheckpoint) : Option JournalInner := do
  let isSpuriousDragonEnabled := self.spec.isEnabledIn .spuriousDragon
  let r ← (self.journal.drop checkpoint.journalI).reverse.foldlM
    (fun acc entry => entry.revert acc.1 acc.2 isSpuriousDragonEnabled)
    (self.state, some self.transientStorage)
  return { self with
    depth := self.depth - 1
    logs := self.logs.take checkpoint.logI
    journal := self.journal.take checkpoint.journalI
    state := r.1
    transientStorage := r.2.getD self.transientStorage }

/-! ## Loading accounts -/

/-- What the first load of an account in a transaction does to it: an account that was destroyed in
an earlier transaction is cleared, and the present info becomes the original one. -/
def warmUp (transactionId : Nat) : Account :=
  let account := account.markWarmWithTransactionId transactionId
  let account :=
    if account.isSelfdestructedLocally then account.selfdestruct.unmarkSelfdestructedLocally
    else account
  let account := { account with originalInfo := account.info }
  account.unmarkCreatedLocally

section Load

variable {ε : Type} (db : Database ε) (self : JournalInner) (address : Address)

/-- The match on `self.state.entry(address)` of `load_account_mut_optional_code`. -/
def loadEntry (skipColdLoad : Bool) : LoadAnswer ε Account :=
  match self.state.lookup address with
  | some account =>
      if account.isColdTransactionId self.transactionId then
        let shouldBeCold := self.warmAddresses.isCold address
        if shouldBeCold && skipColdLoad then .error .coldLoadSkipped
        else .ok ⟨warmUp account self.transactionId, shouldBeCold⟩
      else .ok ⟨account, false⟩
  | none =>
      let isCold := self.warmAddresses.isCold address
      if isCold && skipColdLoad then .error .coldLoadSkipped
      else
        match db.basic address with
        | .error e => .error (.dbError e)
        | .ok (some info) => .ok ⟨Account.ofInfo info, isCold⟩
        | .ok none => .ok ⟨Account.newNotExisting self.transactionId, isCold⟩

/-- `load_account_mut_optional_code`. -/
def loadAccountMutOptionalCode (loadCode skipColdLoad : Bool) :
    LoadAnswer ε Account × JournalInner :=
  match self.loadEntry db address skipColdLoad with
  | .error e => (.error e, self)
  | .ok load =>
      let self := self.setAccount address load.data
      -- journal loading of cold account
      let self := if load.isCold then self.push (.accountWarmed address) else self
      let info := load.data.info
      if loadCode && info.code.isNone then
        let code :=
          if info.codeHash = keccakEmpty then .ok Bytecode.default else db.codeByHash info.codeHash
        match code with
        | .error e => (.error (.dbError e), self)
        | .ok code =>
            let account := load.data.cacheCode code
            (.ok ⟨account, load.isCold⟩, self.setAccount address account)
      else (.ok load, self)

/-- `load_account_optional`. -/
def loadAccountOptional (loadCode skipColdLoad : Bool) : LoadAnswer ε Account × JournalInner :=
  self.loadAccountMutOptionalCode db address loadCode skipColdLoad

/-- `load_account`. The load is asked not to skip, so `unwrap_db_error` of the source never meets
another error; the wrapped error is kept. -/
def loadAccount : LoadAnswer ε Account × JournalInner :=
  self.loadAccountOptional db address false false

/-- `load_code`. -/
def loadCode : LoadAnswer ε Account × JournalInner :=
  self.loadAccountOptional db address true false

/-- `load_account_delegated`. -/
def loadAccountDelegated : LoadAnswer ε AccountLoad × JournalInner :=
  match self.loadAccountOptional db address (self.spec.isEnabledIn .prague) false with
  | (.error e, self) => (.error e, self)
  | (.ok account, self) =>
      let isEmpty := account.data.stateClearAwareIsEmpty self.spec
      match account.data.info.code with
      | some (.eip7702 delegated _ _) =>
          match self.loadAccountOptional db delegated true false with
          | (.error e, self) => (.error e, self)
          | (.ok delegateAccount, self) =>
              (.ok ⟨⟨some delegateAccount.isCold, isEmpty⟩, account.isCold⟩, self)
      | _ => (.ok ⟨⟨none, isEmpty⟩, account.isCold⟩, self)

/-- Use of the `JournaledAccount` that `load_account_mut_optional_code` answers: the account and the
journal are written back. -/
def withJournaledAccount {α : Type} (loadCode : Bool)
    (f : JournaledAccount → α × JournaledAccount) : Except (JournalLoadError ε) α × JournalInner :=
  match self.loadAccountMutOptionalCode db address loadCode false with
  | (.error e, self) => (.error e, self)
  | (.ok load, self) =>
      let r := f ⟨address, load.data, self.journal⟩
      (.ok r.1, { self.setAccount address r.2.account with journal := r.2.journalEntries })

/-! ## Storage -/

/-- The match on `account.storage.entry(key)` of `sload`: the slot to store and whether it is
cold. -/
def loadSlot (account : Account) (key : StorageKey)
    (skipColdLoad : Bool) : Except (JournalLoadError ε) (EvmStorageSlot × Bool) :=
  match account.storage.lookup key with
  | some slot =>
      let isCold := slot.isColdTransactionId self.transactionId
      if skipColdLoad && isCold then .error .coldLoadSkipped
      else .ok (slot.markWarmWithTransactionId self.transactionId, isCold)
  | none =>
      if skipColdLoad then .error .coldLoadSkipped
      else
        -- if storage was cleared, we don't need to ping db
        let value := if account.isCreated then .ok 0 else db.storage address key
        match value with
        | .error e => .error (.dbError e)
        | .ok value =>
            .ok (EvmStorageSlot.new value self.transactionId,
              !self.warmAddresses.isStorageWarm address key)

/-- `sload`. -/
def sload (key : StorageKey) (skipColdLoad : Bool) :
    Option (LoadAnswer ε StorageValue × JournalInner) := do
  let account ← self.state.lookup address
  match self.loadSlot db address account key skipColdLoad with
  | .error e => return (.error e, self)
  | .ok (slot, isCold) =>
      let self := self.setAccount address
        { account with storage := account.storage.insert key slot }
      let self := if isCold then self.push (.storageWarmed key address) else self
      return (.ok ⟨slot.presentValue, isCold⟩, self)

/-- `sstore`. -/
def sstore (key : StorageKey) (new : StorageValue) (skipColdLoad : Bool) :
    Option (LoadAnswer ε SStoreResult × JournalInner) := do
  match ← self.sload db address key skipColdLoad with
  | (.error e, self) => return (.error e, self)
  | (.ok present, self) =>
      let acc ← self.state.lookup address
      let slot ← acc.storage.lookup key
      let result := ⟨⟨slot.originalValue, present.data, new⟩, present.isCold⟩
      if slot.presentValue = new then return (.ok result, self)
      else
        let self := self.push (.storageChanged key present.data address)
        let storage := acc.storage.insert key { slot with presentValue := new }
        return (.ok result, self.setAccount address { acc with storage := storage })

end Load

/-- `tload`. -/
def tload (key : StorageKey) : StorageValue :=
  (self.transientStorage.lookup (address, key)).getD 0

/-- `tstore`. -/
def tstore (key : StorageKey) (new : StorageValue) : JournalInner :=
  let previous := self.transientStorage.lookup (address, key)
  if new = 0 then
    let self := { self with transientStorage := self.transientStorage.erase (address, key) }
    match previous with
    | some hadValue => self.push (.transientStorageChange key hadValue address)
    | none => self
  else
    let self := { self with transientStorage := self.transientStorage.insert (address, key) new }
    if previous.getD 0 ≠ new then
      self.push (.transientStorageChange key (previous.getD 0) address)
    else self

/-- `log`. -/
def log (log : Log) : JournalInner := { self with logs := self.logs ++ [log] }

/-! ## Changing accounts -/

/-- `touch_account`. -/
def touchAccount : JournalInner :=
  if !account.isTouched then
    (self.push (.accountTouched address)).setAccount address account.markTouch
  else self.setAccount address account

/-- `touch`. -/
def touch : JournalInner :=
  match self.state.lookup address with
  | some account => self.touchAccount address account
  | none => self

/-- `set_code_with_hash`. -/
def setCodeWithHash (code : Bytecode) (hash : B256) : Option JournalInner := do
  let account ← self.state.lookup address
  let self := self.touchAccount address account
  let self := self.push (.codeChange address)
  self.modify address fun a => a.setCode hash code

/-- `set_code`. A delegation to the zero address erases the code. -/
def setCode [Keccak256] (code : Bytecode) : Option JournalInner :=
  match code with
  | .eip7702 delegated _ _ =>
      if delegated = 0 then self.setCodeWithHash address Bytecode.default keccakEmpty
      else self.setCodeWithHash address code code.hashSlow
  | _ => self.setCodeWithHash address code code.hashSlow

/-- `transfer_loaded`. -/
def transferLoaded (src dst : Address) (balance : U256) :
    Option (Option TransferError × JournalInner) :=
  if src = dst then do
    let account ← self.state.lookup dst
    if account.info.balance < balance then return (some .outOfFunds, self)
    else return (none, self)
  else if balance = 0 then do
    let toAccount ← self.state.lookup dst
    return (none, self.touchAccount dst toAccount)
  else do
    let fromAccount ← self.state.lookup src
    let self := self.touchAccount src fromAccount
    match checkedSub fromAccount.info.balance balance with
    | none => return (some .outOfFunds, self)
    | some fromBalanceDecr =>
        let self ← self.modify src fun a => a.setBalance fromBalanceDecr
        let toAccount ← self.state.lookup dst
        let self := self.touchAccount dst toAccount
        match checkedAdd toAccount.info.balance balance with
        | none => return (some .overflowPayment, self)
        | some toBalanceIncr =>
            let self ← self.modify dst fun a => a.setBalance toBalanceIncr
            return (none, self.push (.balanceTransfer balance src dst))

/-- The account that `create_account_checkpoint` makes of the target before it adds the balance. -/
def createdAccount (target : Account) (specId : SpecId) : Account :=
  let account := target.markCreatedLocally.1
  let account := { account with info := { account.info with code := none } }
  if specId.isEnabledIn .spuriousDragon then account.setNonce 1 else account

/-- `create_account_checkpoint`. -/
def createAccountCheckpoint (caller targetAddress : Address) (balance : U256)
    (specId : SpecId) : Option (Except TransferError JournalCheckpoint × JournalInner) := do
  let (checkpoint, self) := self.checkpoint
  let targetAcc ← self.state.lookup targetAddress
  if targetAcc.info.codeHash ≠ keccakEmpty ∨ targetAcc.info.nonce ≠ 0 then
    let self ← self.checkpointRevert checkpoint
    return (.error .createCollision, self)
  else
    let isCreatedGlobally := targetAcc.markCreatedLocally.2
    let self := self.push (.accountCreated targetAddress isCreatedGlobally)
    let self := self.touchAccount targetAddress (createdAccount targetAcc specId)
    match checkedAdd targetAcc.info.balance balance with
    | none =>
        let self ← self.checkpointRevert checkpoint
        return (.error .overflowPayment, self)
    | some newBalance =>
        let self ← self.modify targetAddress fun a => a.setBalance newBalance
        let self ← self.modify caller fun a => a.setBalance (a.info.balance - balance)
        return (.ok checkpoint, self.push (.balanceTransfer balance caller targetAddress))

/-- The status a selfdestruct of the account records. -/
def destroyedStatus (acc : Account) : SelfdestructionRevertStatus :=
  if !acc.isSelfdestructed then .globallySelfdestroyed
  else if !acc.isSelfdestructedLocally then .locallySelfdestroyed
  else .repeatedSelfdestruction

/-- The transfer of the balance at the start of `selfdestruct`. -/
def creditTarget (address target : Address) : Option JournalInner :=
  if address ≠ target then do
    let acc ← self.state.lookup address
    let targetAccount ← self.state.lookup target
    let self := self.touchAccount target targetAccount
    self.modify target fun t => t.setBalance (t.info.balance + acc.info.balance)
  else some self

/-- The second half of `selfdestruct`: EIP-6780 destroys only an account created in the same
transaction. -/
def destroyAccount (address target : Address) (acc : Account) : JournalInner :=
  if acc.isCreatedLocally || !self.spec.isEnabledIn .cancun then
    (self.setAccount address (acc.markSelfdestructedLocally.setBalance 0)).push
      (.accountDestroyed acc.info.balance address target (destroyedStatus acc))
  else if address ≠ target then
    (self.setAccount address (acc.setBalance 0)).push
      (.balanceTransfer acc.info.balance address target)
  else self

/-- `selfdestruct`. -/
def selfdestruct {ε : Type} (db : Database ε) (self : JournalInner) (address target : Address) :
    Option (LoadAnswer ε SelfDestructResult × JournalInner) :=
  match self.loadAccount db target with
  | (.error e, self) => some (.error e, self)
  | (.ok accountLoad, self) => do
      let isEmpty := accountLoad.data.stateClearAwareIsEmpty self.spec
      let self ← self.creditTarget address target
      let acc ← self.state.lookup address
      let result : SelfDestructResult :=
        { hadValue := acc.info.balance != 0
          targetExists := !isEmpty
          previouslyDestroyed := destroyedStatus acc == .repeatedSelfdestruction }
      return (.ok ⟨result, accountLoad.isCold⟩, self.destroyAccount address target acc)

end JournalInner

end Revm
