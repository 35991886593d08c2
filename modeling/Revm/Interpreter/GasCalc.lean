import Revm.Interpreter.Gas
import Revm.Journal.Inner

/-!
# Gas schedule

The gas constants and the functions that compute the cost and the refund of the instructions whose
price is not in the instruction table, with the intrinsic gas of a transaction.

`Option` is the `Option` of the source where the source checks for overflow. The intrinsic gas and
the cost of initcode are computed without checks; there `none` is an overflow.
-/

set_option autoImplicit false

namespace Revm

variable (spec : SpecId)

/-! ## Constants -/

namespace GasConst

def verylow : Nat := 3
def selfdestructRefund : Int := 24000
def create : Nat := 32000
def callvalue : Nat := 9000
def newaccount : Nat := 25000
def exp : Nat := 10
def log : Nat := 375
def logdata : Nat := 8
def logtopic : Nat := 375
def keccak256 : Nat := 30
def keccak256word : Nat := 6
def copy : Nat := 3
def codedeposit : Nat := 200
def istanbulSloadGas : Nat := 800
def sstoreSet : Nat := 20000
def sstoreReset : Nat := 5000
def refundSstoreClears : Int := 15000
def standardTokenCost : Nat := 4
def nonZeroByteMultiplier : Nat := 68 / standardTokenCost
def nonZeroByteMultiplierIstanbul : Nat := 16 / standardTokenCost
def totalCostFloorPerToken : Nat := 10
def accessListAddress : Nat := 2400
def accessListStorageKey : Nat := 1900
def coldSloadCost : Nat := 2100
def coldAccountAccessCost : Nat := 2600
def warmStorageReadCost : Nat := 100
def coldAccountAccessCostAdditional : Nat := coldAccountAccessCost - warmStorageReadCost
def coldSloadCostAdditional : Nat := coldSloadCost - warmStorageReadCost
def warmSstoreReset : Nat := sstoreReset - coldSloadCost
def initcodeWordCost : Nat := 2
def callStipend : Nat := 2300

/-- `eip7702::PER_EMPTY_ACCOUNT_COST`. -/
def perEmptyAccountCost : Nat := 25000

end GasConst

/-! ## Storage -/

namespace SStoreResult

variable (vals : SStoreResult)

def isNewEqPresent : Bool := vals.newValue == vals.presentValue

def isOriginalEqPresent : Bool := vals.originalValue == vals.presentValue

def isOriginalEqNew : Bool := vals.originalValue == vals.newValue

def isOriginalZero : Bool := vals.originalValue == 0

def isPresentZero : Bool := vals.presentValue == 0

def isNewZero : Bool := vals.newValue == 0

end SStoreResult

/-- `sload_cost`. -/
def sloadCost (isCold : Bool) : Nat :=
  if spec.isEnabledIn .berlin then
    if isCold then GasConst.coldSloadCost else GasConst.warmStorageReadCost
  else if spec.isEnabledIn .istanbul then GasConst.istanbulSloadGas
  else if spec.isEnabledIn .tangerine then 200
  else 50

/-- `sstore_clears_schedule` of `sstore_refund`. -/
def sstoreClearsSchedule : Int :=
  if spec.isEnabledIn .london then
    ((GasConst.sstoreReset - GasConst.coldSloadCost + GasConst.accessListStorageKey : Nat) : Int)
  else GasConst.refundSstoreClears

/-- The refund for a slot that gets its original value back. -/
def sstoreRestoreRefund (vals : SStoreResult) : Int :=
  if vals.isOriginalEqNew then
    let gasSstoreReset :=
      if spec.isEnabledIn .berlin then GasConst.sstoreReset - GasConst.coldSloadCost
      else GasConst.sstoreReset
    let gasSload :=
      if spec.isEnabledIn .berlin then GasConst.warmStorageReadCost else sloadCost spec false
    if vals.isOriginalZero then ((GasConst.sstoreSet - gasSload : Nat) : Int)
    else ((gasSstoreReset - gasSload : Nat) : Int)
  else 0

/-- `sstore_refund`. -/
def sstoreRefund (vals : SStoreResult) : Int :=
  if spec.isEnabledIn .istanbul then
    if vals.isNewEqPresent then 0
    else if vals.isOriginalEqPresent && vals.isNewZero then sstoreClearsSchedule spec
    else
      (if !vals.isOriginalZero then
        if vals.isPresentZero then -sstoreClearsSchedule spec
        else if vals.isNewZero then sstoreClearsSchedule spec
        else 0
      else 0) + sstoreRestoreRefund spec vals
  else if !vals.isPresentZero && vals.isNewZero then GasConst.refundSstoreClears
  else 0

/-- `static_sstore_cost`. -/
def staticSstoreCost : Nat :=
  if spec.isEnabledIn .berlin then GasConst.warmStorageReadCost
  else if spec.isEnabledIn .istanbul then GasConst.istanbulSloadGas
  else GasConst.sstoreReset

/-- `istanbul_sstore_cost`. -/
def istanbulSstoreCost (sloadGas sstoreResetGas : Nat) (vals : SStoreResult) : Nat :=
  if vals.isNewEqPresent then sloadGas
  else if vals.isOriginalEqPresent && vals.isOriginalZero then GasConst.sstoreSet
  else if vals.isOriginalEqPresent then sstoreResetGas
  else sloadGas

/-- `frontier_sstore_cost`. -/
def frontierSstoreCost (vals : SStoreResult) : Nat :=
  if vals.isPresentZero && !vals.isNewZero then GasConst.sstoreSet else GasConst.sstoreReset

/-- `sstore_cost`. -/
def sstoreCost (vals : SStoreResult) (isCold : Bool) : Nat :=
  if spec.isEnabledIn .berlin then
    istanbulSstoreCost GasConst.warmStorageReadCost GasConst.warmSstoreReset vals +
      if isCold then GasConst.coldSloadCost else 0
  else if spec.isEnabledIn .istanbul then
    istanbulSstoreCost GasConst.istanbulSloadGas GasConst.sstoreReset vals
  else frontierSstoreCost vals

/-- `dyn_sstore_cost`. -/
def dynSstoreCost (vals : SStoreResult) (isCold : Bool) : Option Nat :=
  subU64 (sstoreCost spec vals isCold) (staticSstoreCost spec)

/-! ## Words and copies -/

/-- `checked_add` of `u64`. -/
def checkedAddU64 (x y : Nat) : Option Nat := addU64 x y

/-- `checked_mul` of `u64`. -/
def checkedMulU64 (x y : Nat) : Option Nat := mulU64 x y

/-- `cost_per_word`. -/
def costPerWord (len multiple : Nat) : Option Nat := checkedMulU64 multiple (numWords len)

variable (len : Nat)

/-- `create2_cost`. -/
def create2Cost : Option Nat :=
  (costPerWord len GasConst.keccak256word).bind (checkedAddU64 GasConst.create)

/-- `copy_cost`. -/
def copyCost (baseCost len : Nat) : Option Nat :=
  (costPerWord len GasConst.copy).bind (checkedAddU64 baseCost)

/-- `copy_cost_verylow`. -/
def copyCostVerylow : Option Nat := copyCost GasConst.verylow len

/-- `log_cost`. -/
def logCost (n len : Nat) : Option Nat := do
  let data ← checkedMulU64 GasConst.logdata len
  let base ← checkedAddU64 GasConst.log data
  checkedAddU64 base (GasConst.logtopic * n)

/-- `keccak256_cost`. -/
def keccak256Cost : Option Nat :=
  (costPerWord len GasConst.keccak256word).bind (checkedAddU64 GasConst.keccak256)

/-- `initcode_cost`, which panics on overflow. -/
def initcodeCost : Option Nat := costPerWord len GasConst.initcodeWordCost

/-! ## Exponentiation -/

/-- The loop of `log2floor` over the limbs below `i`. -/
def log2floorLoop (value : U256) : Nat → Nat → Nat
  | 0, l => l
  | i + 1, l =>
      let limb := value.toNat / 2 ^ (64 * i) % 2 ^ 64
      if limb = 0 then log2floorLoop value i (l - 64)
      else
        let leadingZeros := 63 - limb.log2
        let l := l - leadingZeros
        if l = 0 then l else l - 1

/-- `log2floor`. -/
def log2floor (value : U256) : Nat := log2floorLoop value 4 256

/-- `exp_cost`. The sum is at most `10 + 50 * 33`, so neither the checked operations on `U256` nor
the conversion to `u64` fail. -/
def expCost (power : U256) : Option Nat :=
  if power = 0 then some GasConst.exp
  else
    let gasByte := if spec.isEnabledIn .spuriousDragon then 50 else 10
    some (GasConst.exp + gasByte * (log2floor power / 8 + 1))

/-! ## Accounts -/

/-- `static_selfdestruct_cost`. -/
def staticSelfdestructCost : Nat := if spec.isEnabledIn .tangerine then 5000 else 0

/-- `dyn_selfdestruct_cost`. -/
def dynSelfdestructCost (res : StateLoad SelfDestructResult) : Nat :=
  let shouldChargeTopup :=
    if spec.isEnabledIn .spuriousDragon then res.data.hadValue && !res.data.targetExists
    else !res.data.targetExists
  (if spec.isEnabledIn .tangerine && shouldChargeTopup then GasConst.newaccount else 0) +
    if spec.isEnabledIn .berlin && res.isCold then GasConst.coldAccountAccessCost else 0

/-- `calc_call_static_gas`. -/
def calcCallStaticGas (hasTransfer : Bool) : Nat :=
  (if spec.isEnabledIn .berlin then GasConst.warmStorageReadCost
    else if spec.isEnabledIn .tangerine then 700
    else 40) +
    if hasTransfer then GasConst.callvalue else 0

/-- `new_account_cost`. -/
def newAccountCost (isSpuriousDragon transfersValue : Bool) : Nat :=
  if !isSpuriousDragon || transfersValue then GasConst.newaccount else 0

/-! ## Intrinsic gas -/

/-- `InitialAndFloorGas`. -/
structure InitialAndFloorGas where
  initialGas : Nat
  floorGas : Nat
  deriving DecidableEq, Repr

/-- `get_tokens_in_calldata`. -/
def getTokensInCalldata (input : List UInt8) (isIstanbul : Bool) : Option Nat := do
  let zeroDataLen := input.countP (· == 0)
  let nonZeroDataLen := input.length - zeroDataLen
  let multiplier :=
    if isIstanbul then GasConst.nonZeroByteMultiplierIstanbul else GasConst.nonZeroByteMultiplier
  addU64 zeroDataLen (← mulU64 nonZeroDataLen multiplier)

/-- `calc_tx_floor_cost`. -/
def calcTxFloorCost (tokensInCalldata : Nat) : Option Nat := do
  addU64 (← mulU64 tokensInCalldata GasConst.totalCostFloorPerToken) 21000

/-- `calculate_initial_tx_gas`. -/
def calculateInitialTxGas (input : List UInt8) (isCreate : Bool)
    (accessListAccounts accessListStorages authorizationListNum : Nat) :
    Option InitialAndFloorGas := do
  let tokensInCalldata ← getTokensInCalldata input (spec.isEnabledIn .istanbul)
  let gas ← mulU64 tokensInCalldata GasConst.standardTokenCost
  let gas ← addU64 gas (← mulU64 accessListAccounts GasConst.accessListAddress)
  let gas ← addU64 gas (← mulU64 accessListStorages GasConst.accessListStorageKey)
  let gas ← addU64 gas (if isCreate && spec.isEnabledIn .homestead then 53000 else 21000)
  let gas ←
    if spec.isEnabledIn .shanghai && isCreate then do addU64 gas (← initcodeCost input.length)
    else some gas
  if spec.isEnabledIn .prague then
    let gas ← addU64 gas (← mulU64 authorizationListNum GasConst.perEmptyAccountCost)
    let floor ← calcTxFloorCost tokensInCalldata
    return ⟨gas, floor⟩
  else return ⟨gas, 0⟩

end Revm
