import Revm.Interpreter.Machine

/-!
# Calls and contract creation

The instructions that ask for a new frame. Each of them answers the input of the frame; the
interpreter sets the action afterwards.
-/

set_option autoImplicit false

namespace Revm

namespace Instructions

variable {ε : Type} {ctx : InstructionContext ε} {w : Bool}

open Program

/-! ## Helpers of the call instructions -/

/-- `resize_memory` of the call instructions. The empty range is far outside of the memory. -/
def callRange (offset len : U256) : Program ctx w ByteRange := do
  let len ← asUsize len
  if len ≠ 0 then
    let offset ← asUsize offset
    resizeRange offset len
  else return ⟨u64Max, u64Max⟩

/-- `get_memory_input_and_out_ranges`. The input range is a range of the whole buffer, the output
range one of the memory of the frame. -/
def getMemoryInputAndOutRanges : Program ctx w (ByteRange × ByteRange) := do
  let x ← popn 4
  let inRange ← callRange (x 0) (x 1)
  let inRange :=
    if !inRange.isEmpty then
      let offset := ctx.memory.myCheckpoint
      ⟨saturatingAddU64 inRange.start offset, saturatingAddU64 inRange.stop offset⟩
    else inRange
  let retRange ← callRange (x 2) (x 3)
  return (inRange, retRange)

/-- The answer of `load_account_delegated`: the cost, the code and its hash. -/
structure DelegatedLoad where
  cost : Nat
  bytecode : Bytecode
  codeHash : B256

/-- `load_account_delegated` and `load_account_delegated_handle_error`. The cost is at most
`2 * 2500 + 100 + 25000`, its sums do not overflow. -/
def loadAccountDelegated (address : Address) (transfersValue createEmptyAccount : Bool) :
    Program ctx w DelegatedLoad := do
  let spec := ctx.runtimeFlag.specId
  let remainingGas ← remainingGas
  let isBerlin := spec.isEnabledIn .berlin
  let skipColdLoad := isBerlin && remainingGas < GasConst.coldAccountAccessCostAdditional
  match ← loadAccountInfo address true skipColdLoad with
  | .error .coldLoadSkipped => haltOog
  | .error .dbError => haltFatal
  | .ok account =>
      let cost := if isBerlin && account.isCold then GasConst.coldAccountAccessCostAdditional else 0
      let bytecode := account.account.code.getD .default
      let codeHash := account.account.codeHash
      -- an empty account has no delegation
      if createEmptyAccount && account.isEmpty then
        return ⟨cost + newAccountCost (spec.isEnabledIn .spuriousDragon) transfersValue, bytecode,
          codeHash⟩
      match account.account.code with
      | some (.eip7702 delegated _ _) =>
          let cost := cost + GasConst.warmStorageReadCost
          if cost > remainingGas then haltOog
          let skipColdLoad :=
            remainingGas < cost + GasConst.coldAccountAccessCostAdditional
          match ← loadAccountInfo delegated true skipColdLoad with
          | .error .coldLoadSkipped => haltOog
          | .error .dbError => haltFatal
          | .ok delegateAccount =>
              let additional :=
                if delegateAccount.isCold then GasConst.coldAccountAccessCostAdditional else 0
              let cost := cost + additional
              return ⟨cost, delegateAccount.account.code.getD .default,
                delegateAccount.account.codeHash⟩
      | _ => return ⟨cost, bytecode, codeHash⟩

/-- `load_acc_and_calc_gas`: the gas limit of the new frame, its code and the hash of it. -/
def loadAccAndCalcGas (target : Address) (transfersValue createEmptyAccount : Bool)
    (stackGasLimit : Nat) : Program ctx w (Nat × Bytecode × B256) := do
  let spec := ctx.runtimeFlag.specId
  gas (calcCallStaticGas spec transfersValue)
  let load ← loadAccountDelegated target transfersValue createEmptyAccount
  gas load.cost
  let remaining63Of64Parts := (← getMachine).gas.remaining63Of64Parts
  let gasLimit :=
    if spec.isEnabledIn .tangerine then min remaining63Of64Parts stackGasLimit else stackGasLimit
  gas gasLimit
  let gasLimit :=
    if transfersValue then saturatingAddU64 gasLimit GasConst.callStipend else gasLimit
  return (gasLimit, load.bytecode, load.codeHash)

/-! ## Calls -/

def call : Program ctx w FrameInput := do
  let x ← popn 3
  let target := intoAddress (x 1)
  let localGasLimit := asUsizeSaturated (x 0)
  let hasTransfer := x 2 ≠ 0
  if ctx.runtimeFlag.isStatic ∧ hasTransfer then halt .callNotAllowedInsideStatic
  let (input, returnMemoryOffset) ← getMemoryInputAndOutRanges
  let (gasLimit, bytecode, bytecodeHash) ←
    loadAccAndCalcGas target hasTransfer true localGasLimit
  return .call
    { input := .sharedBuffer input
      gasLimit := gasLimit
      targetAddress := target
      caller := ctx.input.targetAddress
      bytecodeAddress := target
      knownBytecode := some (bytecodeHash, bytecode)
      value := .transfer (x 2)
      scheme := .call
      isStatic := ctx.runtimeFlag.isStatic
      returnMemoryOffset := returnMemoryOffset }

def callCode : Program ctx w FrameInput := do
  let x ← popn 3
  let target := intoAddress (x 1)
  let localGasLimit := asUsizeSaturated (x 0)
  let hasTransfer := x 2 ≠ 0
  let (input, returnMemoryOffset) ← getMemoryInputAndOutRanges
  let (gasLimit, bytecode, bytecodeHash) ←
    loadAccAndCalcGas target hasTransfer false localGasLimit
  return .call
    { input := .sharedBuffer input
      gasLimit := gasLimit
      targetAddress := ctx.input.targetAddress
      caller := ctx.input.targetAddress
      bytecodeAddress := target
      knownBytecode := some (bytecodeHash, bytecode)
      value := .transfer (x 2)
      scheme := .callCode
      isStatic := ctx.runtimeFlag.isStatic
      returnMemoryOffset := returnMemoryOffset }

def delegateCall : Program ctx w FrameInput := do
  check .homestead
  let x ← popn 2
  let target := intoAddress (x 1)
  let localGasLimit := asUsizeSaturated (x 0)
  let (input, returnMemoryOffset) ← getMemoryInputAndOutRanges
  let (gasLimit, bytecode, bytecodeHash) ← loadAccAndCalcGas target false false localGasLimit
  return .call
    { input := .sharedBuffer input
      gasLimit := gasLimit
      targetAddress := ctx.input.targetAddress
      caller := ctx.input.callerAddress
      bytecodeAddress := target
      knownBytecode := some (bytecodeHash, bytecode)
      value := .apparent ctx.input.callValue
      scheme := .delegateCall
      isStatic := ctx.runtimeFlag.isStatic
      returnMemoryOffset := returnMemoryOffset }

def staticCall : Program ctx w FrameInput := do
  check .byzantium
  let x ← popn 2
  let target := intoAddress (x 1)
  let localGasLimit := asUsizeSaturated (x 0)
  let (input, returnMemoryOffset) ← getMemoryInputAndOutRanges
  let (gasLimit, bytecode, bytecodeHash) ← loadAccAndCalcGas target false false localGasLimit
  return .call
    { input := .sharedBuffer input
      gasLimit := gasLimit
      targetAddress := target
      caller := ctx.input.targetAddress
      bytecodeAddress := target
      knownBytecode := some (bytecodeHash, bytecode)
      value := .transfer 0
      scheme := .staticCall
      isStatic := true
      returnMemoryOffset := returnMemoryOffset }

/-! ## Creation -/

/-- The init code of `CREATE`. EIP-3860 limits and meters it. -/
def createCode (codeOffset : U256) (len : Nat) : Program ctx w (List UInt8) := do
  if len ≠ 0 then
    if ctx.runtimeFlag.specId.isEnabledIn .shanghai then
      if len > ctx.env.cfg.maxInitcodeSize then halt .createInitCodeSizeLimit
      match initcodeCost len with
      | none => panic
      | some cost => gas cost
    let codeOffset ← asUsize codeOffset
    memorySlice codeOffset len
  else return []

/-- The scheme of the creation, with its price. -/
def createScheme (isCreate2 : Bool) (len : Nat) : Program ctx w CreateScheme := do
  if isCreate2 then
    let x ← popn 1
    gasOrFail (create2Cost len)
    return .create2 (x 0)
  else
    gas GasConst.create
    return .create

/-- `create::<IS_CREATE2>`. -/
def create (isCreate2 : Bool) : Program ctx w FrameInput := nonStatic do
  if isCreate2 then check .petersburg
  let x ← popn 3
  let len ← asUsize (x 2)
  let code ← createCode (x 1) len
  let scheme ← createScheme isCreate2 len
  let remaining ← remainingGas
  let gasLimit :=
    if ctx.runtimeFlag.specId.isEnabledIn .tangerine then remaining - remaining / 64 else remaining
  gas gasLimit
  return .create
    { caller := ctx.input.targetAddress
      scheme := scheme
      value := x 0
      initCode := code
      gasLimit := gasLimit }

end Instructions

end Revm
