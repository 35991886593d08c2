import Revm.Foundations.HashMap
import Revm.Primitives.Basic

/-!
# Accounts and storage slots

The account record shared by the journal and the databases: `AccountInfo`, `EvmStorageSlot`,
`AccountStatus` and `Account`, with the flag operations of the source. The bit flags of
`AccountStatus` are one Boolean each.

`AccountInfo` has its own equality in the source, which compares balance, nonce and code hash and
ignores the cached code and the storage id. It is `AccountInfo.eqInfo` here.
-/

set_option autoImplicit false

namespace Revm

/-- `AccountInfo`. -/
structure AccountInfo where
  balance : U256
  nonce : U64
  codeHash : B256
  storageId : Option Nat
  code : Option Bytecode
  deriving DecidableEq, Repr

variable (info : AccountInfo)

namespace AccountInfo

/-- `AccountInfo::default()`. -/
def default : AccountInfo where
  balance := 0
  nonce := 0
  codeHash := keccakEmpty
  storageId := none
  code := some Bytecode.default

/-- `PartialEq` of `AccountInfo`. -/
def eqInfo (x y : AccountInfo) : Bool :=
  x.balance == y.balance && x.nonce == y.nonce && x.codeHash == y.codeHash

def isEmptyCodeHash : Bool := info.codeHash == keccakEmpty

/-- `is_empty`: no balance, no nonce, and a code hash that is zero or the empty hash. -/
def isEmpty : Bool :=
  (info.isEmptyCodeHash || info.codeHash == 0) && info.balance == 0 && info.nonce == 0

def hasNoCodeAndNonce : Bool := info.isEmptyCodeHash && info.nonce == 0

/-- `copy_without_code`. -/
def copyWithoutCode : AccountInfo := { info with code := none }

theorem eqInfo_iff {x y : AccountInfo} :
    x.eqInfo y = true ↔ x.balance = y.balance ∧ x.nonce = y.nonce ∧ x.codeHash = y.codeHash := by
  simp [eqInfo, and_assoc]

@[simp] theorem eqInfo_refl (x : AccountInfo) : x.eqInfo x = true := by simp [eqInfo]

@[simp] theorem isEmpty_default : default.isEmpty = true := by decide

@[simp] theorem eqInfo_copyWithoutCode (x : AccountInfo) : x.copyWithoutCode.eqInfo x = true := by
  simp [eqInfo, copyWithoutCode]

theorem isEmpty_congr {x y : AccountInfo} (h : x.eqInfo y = true) : x.isEmpty = y.isEmpty := by
  obtain ⟨hb, hn, hc⟩ := eqInfo_iff.1 h
  simp only [isEmpty, isEmptyCodeHash, hb, hn, hc]

end AccountInfo

/-! ## Storage slots -/

/-- `EvmStorageSlot`. -/
structure EvmStorageSlot where
  originalValue : StorageValue
  presentValue : StorageValue
  transactionId : Nat
  isCold : Bool
  deriving DecidableEq, Repr

namespace EvmStorageSlot

variable (slot : EvmStorageSlot)

/-- `EvmStorageSlot::new`: an unchanged slot. -/
def new (original : StorageValue) (transactionId : Nat) : EvmStorageSlot where
  originalValue := original
  presentValue := original
  transactionId := transactionId
  isCold := false

def isChanged : Bool := slot.originalValue != slot.presentValue

def markCold : EvmStorageSlot := { slot with isCold := true }

def isColdTransactionId (transactionId : Nat) : Bool :=
  slot.transactionId != transactionId || slot.isCold

/-- `mark_warm_with_transaction_id`. A slot that was cold starts a new transaction with its present
value as the original one. -/
def markWarmWithTransactionId (transactionId : Nat) : EvmStorageSlot :=
  { slot with
    originalValue :=
      if slot.isColdTransactionId transactionId then slot.presentValue else slot.originalValue
    transactionId := transactionId
    isCold := false }

end EvmStorageSlot

/-- `EvmStorage`. -/
abbrev EvmStorage := HashMap StorageKey EvmStorageSlot

/-! ## Account status -/

/-- `AccountStatus` of the EVM state, one field per flag. -/
structure AccountFlags where
  created : Bool
  createdLocal : Bool
  selfDestructed : Bool
  selfDestructedLocal : Bool
  touched : Bool
  loadedAsNotExisting : Bool
  cold : Bool
  deriving DecidableEq, Repr

/-- `AccountStatus::empty()`. -/
def AccountFlags.empty : AccountFlags := ⟨false, false, false, false, false, false, false⟩

/-! ## Accounts -/

/-- `Account`. -/
structure Account where
  info : AccountInfo
  originalInfo : AccountInfo
  transactionId : Nat
  storage : EvmStorage
  status : AccountFlags

namespace Account

variable (a : Account) (transactionId : Nat)

/-- `Account::new_not_existing`. -/
def newNotExisting : Account where
  info := AccountInfo.default
  originalInfo := AccountInfo.default
  transactionId := transactionId
  storage := ∅
  status := { AccountFlags.empty with loadedAsNotExisting := true }

/-- `From<AccountInfo> for Account`. The transaction id is zero whatever transaction is running. -/
def ofInfo : Account where
  info := info
  originalInfo := info
  transactionId := 0
  storage := ∅
  status := AccountFlags.empty

def isSelfdestructed : Bool := a.status.selfDestructed

def isTouched : Bool := a.status.touched

def isCreated : Bool := a.status.created

def isCreatedLocally : Bool := a.status.createdLocal

def isSelfdestructedLocally : Bool := a.status.selfDestructedLocal

def isEmpty : Bool := a.info.isEmpty

def isLoadedAsNotExistingNotTouched : Bool :=
  a.status.loadedAsNotExisting && !a.isTouched

/-- `state_clear_aware_is_empty`. -/
def stateClearAwareIsEmpty (spec : SpecId) : Bool :=
  if spec.isEnabledIn .spuriousDragon then a.isEmpty else a.isLoadedAsNotExistingNotTouched

def unmarkSelfdestruct : Account :=
  { a with status := { a.status with selfDestructed := false } }

def markTouch : Account := { a with status := { a.status with touched := true } }

def unmarkTouch : Account := { a with status := { a.status with touched := false } }

def unmarkCreated : Account := { a with status := { a.status with created := false } }

def markCold : Account := { a with status := { a.status with cold := true } }

def isColdTransactionId : Bool :=
  a.transactionId != transactionId || a.status.cold

def markWarmWithTransactionId : Account :=
  { a with status := { a.status with cold := false }, transactionId := transactionId }

/-- `Account::selfdestruct`: clears storage and info. -/
def selfdestruct : Account := { a with storage := ∅, info := AccountInfo.default }

/-- `mark_created_locally`, with the Boolean saying that the global flag was not set before. -/
def markCreatedLocally : Account × Bool :=
  ({ a with status := { a.status with createdLocal := true, created := true } },
    !a.status.created)

def unmarkCreatedLocally : Account :=
  { a with status := { a.status with createdLocal := false } }

def markSelfdestructedLocally : Account :=
  { a with status := { a.status with selfDestructedLocal := true, selfDestructed := true } }

def unmarkSelfdestructedLocally : Account :=
  { a with status := { a.status with selfDestructedLocal := false } }

def setBalance (balance : U256) : Account :=
  { a with info := { a.info with balance := balance } }

def setNonce (nonce : U64) : Account :=
  { a with info := { a.info with nonce := nonce } }

/-- `info.code = Some(code)`: the code is cached, the hash stays. -/
def cacheCode (code : Bytecode) : Account :=
  { a with info := { a.info with code := some code } }

def setCode (codeHash : B256) (code : Bytecode) : Account :=
  { a with info := { a.info with codeHash := codeHash, code := some code } }

end Account

/-- `EvmState`. -/
abbrev EvmState := HashMap Address Account

end Revm
