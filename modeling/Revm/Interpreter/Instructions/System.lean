import Revm.Interpreter.Machine

/-!
# Stack, memory, control flow and environment

The instructions that need nothing from the journal. The jump instructions answer the checked
target; the interpreter moves the program counter afterwards.
-/

set_option autoImplicit false

namespace Revm

/-- A position that the jump table of the running code allows. -/
def JumpTarget {ε : Type} (ctx : InstructionContext ε) : Type :=
  { target : Nat // (ctx.bytecode.legacyJumpTable.map (·.isValid target)) = some true }

namespace Instructions

variable {ε : Type} {ctx : InstructionContext ε} {w : Bool}

open Program

/-! ## Stack -/

def pop : Program ctx w Unit := do
  let _ ← popn 1

def push0 : Program ctx w Unit := do
  check .shanghai
  push 0

/-- `dup::<N>`. -/
def dup (n : Nat) : Program ctx w Unit := do
  match (← getMachine).stack.dup n with
  | none => halt .stackOverflow
  | some stack => setStack stack

/-- `swap::<N>`. -/
def swap (n : Nat) : Program ctx w Unit := do
  match (← getMachine).stack.exchange 0 n with
  | none => halt .stackOverflow
  | some stack => setStack stack

/-! ## Memory -/

def mload : Program ctx w Unit := do
  let (_, top) ← popnTop 0
  let offset ← asUsize top
  let bytes ← memorySlice offset 32
  setTop (ofBigEndian bytes)

def mstore : Program ctx w Unit := do
  let x ← popn 2
  let offset ← asUsize (x 0)
  memorySet offset (toBigEndian (x 1))

def mstore8 : Program ctx w Unit := do
  let x ← popn 2
  let offset ← asUsize (x 0)
  memorySet offset [UInt8.ofNat (x 1).toNat]

def msize : Program ctx w Unit := do
  let size ← memorySize
  push (BitVec.ofNat 256 size)

def mcopy : Program ctx w Unit := do
  check .cancun
  let x ← popn 3
  let len ← asUsize (x 2)
  gasOrFail (copyCostVerylow len)
  if len = 0 then return ()
  let dst ← asUsize (x 0)
  let src ← asUsize (x 1)
  memoryCopy dst src len

/-! ## Control flow -/

/-- `jump_inner`, without the move of the program counter. -/
def jumpInner (target : U256) : Program ctx w (JumpTarget ctx) := do
  let target ← asUsizeOrFail target .invalidJump
  match h : ctx.bytecode.legacyJumpTable.map (·.isValid target) with
  | none => panic
  | some false => halt .invalidJump
  | some true => return ⟨target, h⟩

def jump : Program ctx w (Option (JumpTarget ctx)) := do
  let x ← popn 1
  return some (← jumpInner (x 0))

def jumpi : Program ctx w (Option (JumpTarget ctx)) := do
  let x ← popn 2
  if x 1 ≠ 0 then return some (← jumpInner (x 0)) else return none

def jumpdest : Program ctx w Unit := pure ()

def pc : Program ctx w Unit := push (BitVec.ofNat 256 (ctx.pc - 1))

/-- `return_inner`. The offset is ignored if the length is zero. -/
def returnInner (result : InstructionResult) : Program ctx w Unit := do
  let x ← popn 2
  let len ← asUsize (x 1)
  if len ≠ 0 then
    let offset ← asUsize (x 0)
    let output ← memorySlice offset len
    returnWith result output
  else returnWith result []

def ret : Program ctx w Unit := returnInner .return

def revert : Program ctx w Unit := do
  check .byzantium
  returnInner .revert

def stop : Program ctx w Unit := halt .stop

def invalid : Program ctx w Unit := halt .invalidFEOpcode

def unknown : Program ctx w Unit := halt .opcodeNotFound

/-! ## System -/

def keccak256 [Keccak256] : Program ctx w Unit := do
  let (x, top) ← popnTop 1
  let len ← asUsize top
  gasOrFail (keccak256Cost len)
  if len = 0 then setTop keccakEmpty
  else
    let offset ← asUsize (x 0)
    let bytes ← memorySlice offset len
    setTop (Keccak256.keccak256 bytes)

def address : Program ctx w Unit := push (intoWord ctx.input.targetAddress)

def caller : Program ctx w Unit := push (intoWord ctx.input.callerAddress)

def codesize : Program ctx w Unit :=
  push (BitVec.ofNat 256 ctx.bytecode.originalByteSlice.length)

def calldatasize : Program ctx w Unit := push (BitVec.ofNat 256 ctx.input.input.len)

def callvalue : Program ctx w Unit := push ctx.input.callValue

def returndatasize : Program ctx w Unit := do
  check .byzantium
  push (BitVec.ofNat 256 ctx.returnData.length)

def gas : Program ctx w Unit := do
  push (BitVec.ofNat 256 (← remainingGas))

/-- `memory_resize` in front of the write to the memory. Nothing is written for the length zero. -/
def memoryResize (memoryOffset : U256) (len : Nat) (write : Nat → Program ctx w Unit) :
    Program ctx w Unit := do
  gasOrFail (copyCostVerylow len)
  if len = 0 then return ()
  let memoryOffset ← asUsize memoryOffset
  write memoryOffset

def codecopy : Program ctx w Unit := do
  let x ← popn 3
  let len ← asUsize (x 2)
  memoryResize (x 0) len fun memoryOffset =>
    memorySetData memoryOffset len
      (pure (asUsizeSaturated (x 1), ctx.bytecode.originalByteSlice))

/-- The word is filled with zeros behind the end of the input. -/
def calldataload : Program ctx w Unit := do
  let (_, offsetPtr) ← popnTop 0
  let offset := asUsizeSaturated offsetPtr
  if h : offset < ctx.input.input.len then
    let count := min 32 (ctx.input.input.len - offset)
    let input ← inputSlice (by omega)
    setTop (ofBigEndian ((input.drop offset).take count ++ List.replicate (32 - count) 0))
  else setTop 0

def calldatacopy : Program ctx w Unit := do
  let x ← popn 3
  let len ← asUsize (x 2)
  memoryResize (x 0) len fun memoryOffset =>
    memorySetInput memoryOffset (asUsizeSaturated (x 1)) len

def returndatacopy : Program ctx w Unit := do
  check .byzantium
  let x ← popn 3
  let len ← asUsize (x 2)
  let dataOffset := asUsizeSaturated (x 1)
  let dataEnd := saturatingAddU64 dataOffset len
  if dataEnd > ctx.returnData.length then halt .outOfOffset
  memoryResize (x 0) len fun memoryOffset =>
    memorySetData memoryOffset len (pure (dataOffset, ctx.returnData))

/-! ## Transaction and block -/

def gasprice : Program ctx w Unit :=
  push (BitVec.ofNat 256 (ctx.env.tx.effectiveGasPrice ctx.env.block.basefee.toNat))

def origin : Program ctx w Unit := push (intoWord ctx.env.tx.caller)

def blobHash : Program ctx w Unit := do
  check .cancun
  let (_, index) ← popnTop 0
  let hash :=
    if ctx.env.tx.txType ≠ .eip4844 then none
    else ctx.env.tx.blobHashes[asUsizeSaturated index]?
  setTop (hash.getD 0)

def chainid : Program ctx w Unit := do
  check .istanbul
  push (BitVec.ofNat 256 ctx.env.cfg.chainId.toNat)

def coinbase : Program ctx w Unit := push (intoWord ctx.env.block.beneficiary)

def timestamp : Program ctx w Unit := push ctx.env.block.timestamp

def blockNumber : Program ctx w Unit := push ctx.env.block.number

def difficulty : Program ctx w Unit :=
  if ctx.runtimeFlag.specId.isEnabledIn .merge then
    match ctx.env.block.prevrandao with
    | some prevrandao => push prevrandao
    | none => panic
  else push ctx.env.block.difficulty

def gaslimit : Program ctx w Unit := push (BitVec.ofNat 256 ctx.env.block.gasLimit.toNat)

def basefee : Program ctx w Unit := do
  check .london
  push (BitVec.ofNat 256 ctx.env.block.basefee.toNat)

def blobBasefee : Program ctx w Unit := do
  check .cancun
  push (BitVec.ofNat 256 ctx.env.block.blobGasprice)

end Instructions

end Revm
