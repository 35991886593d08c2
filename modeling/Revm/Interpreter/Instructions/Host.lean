import Revm.Interpreter.Machine

/-!
# Instructions on the state of the host

Accounts, storage, transient storage, logs and block hashes. From Berlin on a cold access costs
more, and the host is asked to skip a cold load that the remaining gas does not cover.
-/

set_option autoImplicit false

namespace Revm

open GasConst

/-- `BLOCK_HASH_HISTORY`. -/
def blockHashHistory : Nat := 256

namespace Instructions

variable {ε : Type} {ctx : InstructionContext ε} {w : Bool}

open Program

variable (address : Address) (loadCode : Bool)

/-- `berlin_load_account!`. -/
def berlinLoadAccount : Program ctx w AccountInfoLoad := do
  gas warmStorageReadCost
  let skipColdLoad := (← remainingGas) < coldAccountAccessCostAdditional
  match ← loadAccountInfo address loadCode skipColdLoad with
  | .ok account =>
      if account.isCold then gas coldAccountAccessCostAdditional
      return account
  | .error .coldLoadSkipped => haltOog
  | .error .dbError => haltFatal

/-- The load of an account for a price that does not depend on its warmth, before Berlin. -/
def flatLoadAccount (cost : Nat) : Program ctx w AccountInfoLoad := do
  gas cost
  match ← loadAccountInfo address loadCode false with
  | .ok account => return account
  | .error _ => haltFatal

/-- The load of `BALANCE`, `EXTCODESIZE`, `EXTCODEHASH` and `EXTCODECOPY`. -/
def loadAccountFor (cost : SpecId → Nat) : Program ctx w AccountInfoLoad :=
  if ctx.runtimeFlag.specId.isEnabledIn .berlin then berlinLoadAccount address loadCode
  else flatLoadAccount address loadCode (cost ctx.runtimeFlag.specId)

variable (spec : SpecId)

/-- The price of `BALANCE` before Berlin. -/
def balanceCost : Nat :=
  if spec.isEnabledIn .istanbul then 700 else if spec.isEnabledIn .tangerine then 400 else 20

/-- The price of `EXTCODESIZE` and `EXTCODECOPY` before Berlin. -/
def extcodeCost : Nat := if spec.isEnabledIn .tangerine then 700 else 20

/-- The price of `EXTCODEHASH` before Berlin. -/
def extcodehashCost : Nat := if spec.isEnabledIn .istanbul then 700 else 400

def balance : Program ctx w Unit := do
  let (_, top) ← popnTop 0
  let account ← loadAccountFor (intoAddress top) false balanceCost
  setTop account.account.balance

def selfbalance : Program ctx w Unit := do
  check .istanbul
  match ← loadAccountInfo ctx.input.targetAddress false false with
  | .ok account => push account.account.balance
  | .error _ => haltFatal

def extcodesize : Program ctx w Unit := do
  let (_, top) ← popnTop 0
  let account ← loadAccountFor (intoAddress top) true extcodeCost
  match account.account.code with
  | some code => setTop (BitVec.ofNat 256 code.originalByteSlice.length)
  | none => panic

def extcodehash : Program ctx w Unit := do
  check .constantinople
  let (_, top) ← popnTop 0
  let account ← loadAccountFor (intoAddress top) true extcodehashCost
  setTop (if account.account.isEmpty then 0 else account.account.codeHash)

/-- The code that `EXTCODECOPY` copies. Before Berlin an account without cached code would be empty
code, from Berlin on it would be a panic. -/
def extcodecopySource (codeOffset : U256) : Program ctx w (Nat × List UInt8) := do
  let account ← loadAccountFor address true extcodeCost
  match account.account.code with
  | some code =>
      let code := code.originalByteSlice
      return (min (asUsizeSaturated codeOffset) code.length, code)
  | none =>
      if ctx.runtimeFlag.specId.isEnabledIn .berlin then panic else return (0, [])

/-- The memory is resized before the account is loaded, and written after it. -/
def extcodecopy : Program ctx w Unit := do
  let x ← popn 4
  let len ← asUsize (x 3)
  gas ((copyCost 0 len).getD u64Max)
  if len ≠ 0 then
    let memoryOffset ← asUsize (x 1)
    memorySetData memoryOffset len (extcodecopySource (intoAddress (x 0)) (x 2))
  else
    -- `set_data` does nothing for the length zero
    let _ ← extcodecopySource (intoAddress (x 0)) (x 2)

def blockhash : Program ctx w Unit := do
  let (_, number) ← popnTop 0
  match checkedSub ctx.env.block.number number with
  | none => setTop 0
  | some diff =>
      let diff := asUsizeSaturated diff
      if diff = 0 then setTop 0
      else if diff ≤ blockHashHistory then
        match ← hostBlockHash (asUsizeSaturated number) with
        | some hash => setTop hash
        | none => haltFatal
      else setTop 0

/-- The price of `SLOAD` without the one of a cold slot. -/
def sloadStaticCost : Nat :=
  if spec.isEnabledIn .berlin then warmStorageReadCost
  else if spec.isEnabledIn .istanbul then istanbulSloadGas
  else if spec.isEnabledIn .tangerine then 200
  else 50

def sload : Program ctx w Unit := do
  let (_, index) ← popnTop 0
  let target := ctx.input.targetAddress
  gas (sloadStaticCost ctx.runtimeFlag.specId)
  if ctx.runtimeFlag.specId.isEnabledIn .berlin then
    let skipCold := (← remainingGas) < coldSloadCostAdditional
    match ← hostSload target index skipCold with
    | .ok storage =>
        if storage.isCold then gas coldSloadCostAdditional
        setTop storage.data
    | .error .coldLoadSkipped => haltOog
    | .error .dbError => haltFatal
  else
    match ← hostSload target index false with
    | .ok storage => setTop storage.data
    | .error _ => haltFatal

/-- The load of `SSTORE`. -/
def sstoreLoad (index value : U256) : Program ctx true (StateLoad SStoreResult) := do
  let target := ctx.input.targetAddress
  if ctx.runtimeFlag.specId.isEnabledIn .berlin then
    let skipCold := (← remainingGas) < coldSloadCostAdditional
    match ← hostSstore target index value skipCold with
    | .ok load => return load
    | .error .coldLoadSkipped => haltOog
    | .error .dbError => haltFatal
  else
    match ← hostSstore target index value false with
    | .ok load => return load
    | .error _ => haltFatal

def sstore : Program ctx w Unit := nonStatic do
  let x ← popn 2
  let spec := ctx.runtimeFlag.specId
  -- no store with the gas of a call stipend only
  if spec.isEnabledIn .istanbul ∧ (← remainingGas) ≤ callStipend then
    halt .reentrancySentryOOG
  gas (staticSstoreCost spec)
  let stateLoad ← sstoreLoad (x 0) (x 1)
  match dynSstoreCost spec stateLoad.data stateLoad.isCold with
  | none => panic
  | some cost =>
      gas cost
      recordRefund (sstoreRefund spec stateLoad.data)

def tstore : Program ctx w Unit := do
  check .cancun
  nonStatic do
    let x ← popn 2
    hostTstore ctx.input.targetAddress (x 0) (x 1)

def tload : Program ctx w Unit := do
  check .cancun
  let (_, index) ← popnTop 0
  setTop ((← getMachine).host.journal.tload ctx.input.targetAddress index)

/-- `log::<N>`. -/
def log (n : Nat) : Program ctx w Unit := nonStatic do
  let x ← popn 2
  let len ← asUsize (x 1)
  gasOrFail (logCost n len)
  let data ←
    if len = 0 then pure []
    else do
      let offset ← asUsize (x 0)
      memorySlice offset len
  let topics ← popn n
  hostLog ⟨ctx.input.targetAddress, List.ofFn topics, data⟩

def selfdestruct : Program ctx w Unit := nonStatic do
  let x ← popn 1
  let spec := ctx.runtimeFlag.specId
  gas (staticSelfdestructCost spec)
  match ← hostSelfdestruct ctx.input.targetAddress (intoAddress (x 0)) with
  | .error _ => haltFatal
  | .ok res =>
      gas (dynSelfdestructCost spec res)
      if !spec.isEnabledIn .london ∧ !res.data.previouslyDestroyed then
        recordRefund selfdestructRefund
      halt .selfDestruct

end Instructions

end Revm
