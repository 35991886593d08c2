import Revm.Journal.Inner

/-!
# Results of instructions

`InstructionResult` says how a frame ended. Its values fall into successes, reverts and errors: a
success keeps the changes of the frame, a revert gives the remaining gas back, an error takes all
gas.
-/

set_option autoImplicit false

namespace Revm

/-- `InstructionResult`. -/
inductive InstructionResult where
  | stop
  | return
  | selfDestruct
  | revert
  | callTooDeep
  | outOfFunds
  | createInitCodeStartingEF00
  | invalidEOFInitCode
  | invalidExtDelegateCallTarget
  | outOfGas
  | memoryOOG
  | memoryLimitOOG
  | precompileOOG
  | invalidOperandOOG
  | reentrancySentryOOG
  | opcodeNotFound
  | callNotAllowedInsideStatic
  | stateChangeDuringStaticCall
  | invalidFEOpcode
  | invalidJump
  | notActivated
  | stackUnderflow
  | stackOverflow
  | outOfOffset
  | createCollision
  | overflowPayment
  | precompileError
  | nonceOverflow
  | createContractSizeLimit
  | createContractStartingWithEF
  | createInitCodeSizeLimit
  | fatalExternalError
  deriving DecidableEq, Repr

namespace InstructionResult

/-- `From<TransferError>`. -/
def ofTransferError : TransferError → InstructionResult
  | .outOfFunds => .outOfFunds
  | .overflowPayment => .overflowPayment
  | .createCollision => .createCollision

/-- `is_ok`, the macro `return_ok!`. -/
def isOk : InstructionResult → Bool
  | .stop | .return | .selfDestruct => true
  | _ => false

/-- `is_revert`, the macro `return_revert!`. -/
def isRevert : InstructionResult → Bool
  | .revert | .callTooDeep | .outOfFunds | .invalidEOFInitCode | .createInitCodeStartingEF00
  | .invalidExtDelegateCallTarget => true
  | _ => false

/-- `is_ok_or_revert`. -/
def isOkOrRevert (self : InstructionResult) : Bool := self.isOk || self.isRevert

end InstructionResult

end Revm
