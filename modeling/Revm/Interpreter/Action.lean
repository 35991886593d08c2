import Revm.Handler.Env
import Revm.Interpreter.Gas

/-!
# Actions of the interpreter

An instruction that ends the loop of the interpreter leaves an `InterpreterAction` behind: the
result of the frame or the input of a new frame. The calldata of a call is a range of the shared
memory buffer, in absolute positions, or a byte string.
-/

set_option autoImplicit false

namespace Revm

/-- `Range<usize>`. -/
structure ByteRange where
  start : Nat
  stop : Nat
  deriving DecidableEq, Repr

/-- `Range::len`. -/
def ByteRange.len (range : ByteRange) : Nat := range.stop - range.start

/-- `Range::is_empty`. -/
def ByteRange.isEmpty (range : ByteRange) : Bool := range.stop ≤ range.start

/-- `CallInput`. -/
inductive CallInput where
  | sharedBuffer (range : ByteRange)
  | bytes (data : List UInt8)
  deriving DecidableEq, Repr

/-- `CallInput::len`. -/
def CallInput.len : CallInput → Nat
  | .sharedBuffer range => range.len
  | .bytes data => data.length

/-- `CallScheme`. -/
inductive CallScheme where
  | call
  | callCode
  | delegateCall
  | staticCall
  deriving DecidableEq, Repr

/-- `CallValue`. -/
inductive CallValue where
  | transfer (value : U256)
  | apparent (value : U256)
  deriving DecidableEq, Repr

/-- `CallValue::get`. -/
def CallValue.get : CallValue → U256
  | .transfer value | .apparent value => value

/-- `CallInputs`. -/
structure CallInputs where
  input : CallInput
  returnMemoryOffset : ByteRange
  gasLimit : Nat
  bytecodeAddress : Address
  knownBytecode : Option (B256 × Bytecode)
  targetAddress : Address
  caller : Address
  value : CallValue
  scheme : CallScheme
  isStatic : Bool
  deriving DecidableEq, Repr

/-- `CreateScheme`. -/
inductive CreateScheme where
  | create
  | create2 (salt : U256)
  | custom (address : Address)
  deriving DecidableEq, Repr

/-- `CreateInputs`. -/
structure CreateInputs where
  caller : Address
  scheme : CreateScheme
  value : U256
  initCode : List UInt8
  gasLimit : Nat
  deriving DecidableEq, Repr

/-- `FrameInput`. No modelled function makes the value `Empty`. -/
inductive FrameInput where
  | call (inputs : CallInputs)
  | create (inputs : CreateInputs)
  deriving DecidableEq, Repr

/-- The gas limit of the frame that the input asks for. -/
def FrameInput.gasLimit : FrameInput → Nat
  | .call inputs => inputs.gasLimit
  | .create inputs => inputs.gasLimit

/-- `InterpreterResult`. -/
structure InterpreterResult where
  result : InstructionResult
  output : List UInt8
  gas : Gas
  deriving DecidableEq, Repr

/-- `InterpreterAction`. -/
inductive InterpreterAction where
  | newFrame (input : FrameInput)
  | return (result : InterpreterResult)
  deriving DecidableEq, Repr

/-- `InputsImpl`. -/
structure InputsImpl where
  targetAddress : Address
  bytecodeAddress : Option Address
  callerAddress : Address
  input : CallInput
  callValue : U256
  deriving DecidableEq, Repr

/-- `RuntimeFlags`. -/
structure RuntimeFlags where
  isStatic : Bool
  specId : SpecId
  deriving DecidableEq, Repr

end Revm
