import Revm.Foundations.Simulation
import Revm.Handler.Frame
import Revm.Handler.Settlement

/-!
# The inspected run

`inspect_run` is a second copy of `run`: the loop over the frames, the start of a frame, the run of
a frame and the loop of the interpreter are written again with calls of an inspector in between.
Both copies are modelled here. The stages around the loop (`Handler`) are shared; `mainnetHandler`
are those of mainnet.

An inspector is given the interpreter, the context, the inputs and the outcomes by mutable
reference, so each hook answers what it leaves of them together with its own state. The loop of the
interpreter ends when an action is set, which a hook may do as well: `Inspected.action` is the
action that is set between two instructions. A panic of the inspection layer is a fault of its own.
-/

set_option autoImplicit false

namespace Revm

/-! ## Inspectors -/

/-- An interpreter between two instructions, as the hooks see it. -/
structure Inspected where
  interpreter : Interpreter
  action : Option InterpreterAction

/-- `CallOutcome`. -/
abbrev CallOutcome := InterpreterResult × ByteRange

/-- `CreateOutcome`. -/
abbrev CreateOutcome := InterpreterResult × Option Address

/-- `Inspector`. `ι` is its own state. -/
structure Inspector (ε ι : Type) where
  initializeInterp : Inspected → Shared ε → ι → Inspected × Shared ε × ι
  step : Inspected → Shared ε → ι → Inspected × Shared ε × ι
  stepEnd : Inspected → Shared ε → ι → Inspected × Shared ε × ι
  log : Log → Inspected → Shared ε → ι → Inspected × Shared ε × ι
  call : CallInputs → Shared ε → ι → (Option CallOutcome × CallInputs) × Shared ε × ι
  callEnd : CallInputs → CallOutcome → Shared ε → ι → CallOutcome × Shared ε × ι
  create : CreateInputs → Shared ε → ι → (Option CreateOutcome × CreateInputs) × Shared ε × ι
  createEnd : CreateInputs → CreateOutcome → Shared ε → ι → CreateOutcome × Shared ε × ι
  selfdestruct : Address → Address → U256 → ι → ι

/-- The hooks return nothing and change nothing but the inspector. -/
structure Inspector.Transparent {ε ι : Type} (insp : Inspector ε ι) : Prop where
  initializeInterp : ∀ x s i, ∃ i', insp.initializeInterp x s i = (x, s, i')
  step : ∀ x s i, ∃ i', insp.step x s i = (x, s, i')
  stepEnd : ∀ x s i, ∃ i', insp.stepEnd x s i = (x, s, i')
  log : ∀ entry x s i, ∃ i', insp.log entry x s i = (x, s, i')
  call : ∀ inputs s i, ∃ i', insp.call inputs s i = ((none, inputs), s, i')
  callEnd : ∀ inputs outcome s i, ∃ i', insp.callEnd inputs outcome s i = (outcome, s, i')
  create : ∀ inputs s i, ∃ i', insp.create inputs s i = ((none, inputs), s, i')
  createEnd : ∀ inputs outcome s i, ∃ i', insp.createEnd inputs outcome s i = (outcome, s, i')

/-- The faults of an inspected run. -/
inductive InspectFault where
  /-- a fault of the code that is inspected -/
  | run (e : Fault)
  /-- an `unwrap` or a `panic!` of the inspection layer -/
  | inspection
  deriving DecidableEq, Repr

/-- Computations with an inspector. -/
abbrev InspectM (ε ι α : Type) : Type := Exec (Shared ε × ι) (EvmError ε) InspectFault α

namespace InspectM

variable {ε ι α : Type}

/-- A function of the handler that is not inspected. -/
def lift (x : EvmM ε α) : InspectM ε ι α := Exec.lift .run x

/-- A call of a hook. -/
def hook (f : Shared ε → ι → α × Shared ε × ι) : InspectM ε ι α := fun p =>
  .next (f p.1 p.2).1 (f p.1 p.2).2

/-- A call of a hook that is not given the context. -/
def update (f : ι → ι) : InspectM ε ι Unit := fun p => .next () (p.1, f p.2)

/-- An `unwrap` or a `panic!` of the inspection layer. -/
def panic : InspectM ε ι α := fun _ => .fault .inspection

/-- The journal that the inspection layer looks at. -/
def journal : InspectM ε ι JournalInner := fun p => .next p.1.host.journal p

end InspectM

/-! ## Frames -/

/-- An `EthFrame` with its input, and with the action that `initialize_interp` may have set. -/
structure InspectedFrame where
  frame : EthFrame
  input : FrameInput
  action : Option InterpreterAction

section Frames

variable {ε ι : Type} (insp : Inspector ε ι)

/-- `frame_start`. The inputs that the hook has left are answered too. -/
def frameStart (input : FrameInput) : InspectM ε ι (Option FrameResult × FrameInput) :=
  match input with
  | .call inputs => do
      let (outcome, inputs) ← InspectM.hook (insp.call inputs)
      return (outcome.map fun o => .call o.1 o.2, .call inputs)
  | .create inputs => do
      let (outcome, inputs) ← InspectM.hook (insp.create inputs)
      return (outcome.map fun o => .create o.1 o.2, .create inputs)

/-- `frame_end`. -/
def frameEnd (input : FrameInput) (output : FrameResult) : InspectM ε ι FrameResult :=
  match output, input with
  | .call result memoryOffset, .call inputs => do
      let outcome ← InspectM.hook (insp.callEnd inputs (result, memoryOffset))
      return .call outcome.1 outcome.2
  | .create result address, .create inputs => do
      let outcome ← InspectM.hook (insp.createEnd inputs (result, address))
      return .create outcome.1 outcome.2
  | .call _ _, .create _ => InspectM.panic
  | .create _ _, .call _ => InspectM.panic

/-- `inspect_frame_init`. -/
def inspectFrameInit [Keccak256] (env : EvmEnv ε) (init : FrameInit) :
    InspectM ε ι (ItemOrResult InspectedFrame FrameResult) := do
  let (output, frameInput) ← frameStart insp init.frameInput
  match output with
  | some output => return .result (← frameEnd insp frameInput output)
  | none =>
      match ← InspectM.lift (frameInit env { init with frameInput := frameInput }) with
      | .result output => return .result (← frameEnd insp frameInput output)
      | .item frame =>
          -- a new frame: initialize the interpreter
          let x ← InspectM.hook (insp.initializeInterp ⟨frame.interpreter, none⟩)
          return .item ⟨{ frame with interpreter := x.interpreter }, frameInput, x.action⟩

end Frames

/-! ## The loop of the interpreter -/

section Interpreter

variable {ε ι : Type} [Keccak256] (insp : Inspector ε ι) (env : EvmEnv ε)

/-- `opcode::LOG0..=opcode::LOG4`. -/
def isLog (opcode : UInt8) : Bool := 0xa0 ≤ opcode.toNat && opcode.toNat ≤ 0xa4

/-- `inspect_log`. -/
def inspectLog (x : Inspected) : InspectM ε ι Inspected :=
  match x.action with
  -- the instruction reverted
  | some (.return _) => return x
  | _ => do
      match (← InspectM.journal).logs.getLast? with
      | none => InspectM.panic
      | some entry => InspectM.hook (insp.log entry x)

/-- `inspect_selfdestruct`. -/
def inspectSelfdestruct : InspectM ε ι Unit := do
  match (← InspectM.journal).journal.getLast? with
  | some (.accountDestroyed balance contract target _) =>
      InspectM.update (insp.selfdestruct contract target balance)
  | some (.balanceTransfer balance contract target) =>
      InspectM.update (insp.selfdestruct contract target balance)
  | _ => return ()

/-- `Interpreter::step`, with the action it has set. -/
def inspectedStep (interpreter : Interpreter) : InspectM ε ι Inspected := fun p =>
  match interpreter.step env.toHostEnv p.1 with
  | .next _ (interpreter, s) => .next ⟨interpreter, none⟩ (s, p.2)
  | .stop action (interpreter, s) => .next ⟨interpreter, some action⟩ (s, p.2)
  | .fault e => .fault (.run e)

/-- The body of the loop of `inspect_instructions`: the loop ends if an action is set. -/
def inspectInstruction (x : Inspected) : InspectM ε ι Inspected := do
  let x ← InspectM.hook (insp.step x)
  match x.action with
  | some _ => return x
  | none =>
      match x.interpreter.bytecode.bytesRef[x.interpreter.pc]? with
      | none => fun _ => .fault (.run .code)
      | some opcode =>
          let x ← inspectedStep env x.interpreter
          let x ← (if isLog opcode then inspectLog insp x else pure x)
          InspectM.hook (insp.stepEnd x)

/-- The hook for a selfdestruct, after the loop. -/
def inspectAction (action : InterpreterAction) : InspectM ε ι Unit :=
  match action with
  | .return result => if result.result = .selfDestruct then inspectSelfdestruct insp else return ()
  | .newFrame _ => return ()

/-- One instruction of `inspect_frame_run`, and what follows the loop if it was the last one. -/
def inspectFrameStep (self : InspectedFrame) :
    InspectM ε ι (Option (ItemOrResult FrameInit FrameResult) × InspectedFrame) := do
  let x ← inspectInstruction insp env ⟨self.frame.interpreter, self.action⟩
  let frame := { self.frame with interpreter := x.interpreter }
  match x.action with
  | none => return (none, ⟨frame, self.input, none⟩)
  | some action =>
      inspectAction insp action
      let (answer, frame) ← InspectM.lift (processNextAction env frame action)
      match answer with
      | .item init => return (some (.item init), ⟨frame, self.input, none⟩)
      | .result result =>
          let result ← frameEnd insp self.input result
          return (some (.result result), ⟨frame, self.input, none⟩)

end Interpreter

/-! ## The loop over the frames -/

/-- The open frames, the innermost first, or the result of the first one. -/
inductive InspectedState where
  | running (frames : List InspectedFrame)
  | done (result : FrameResult)

section Loop

variable {ε ι : Type} [Keccak256] (insp : Inspector ε ι) (env : EvmEnv ε)

/-- `frame_return_result`. -/
def inspectedReturnResult (frames : List InspectedFrame) (result : FrameResult) :
    InspectM ε ι InspectedState :=
  let frames :=
    match frames with
    | [] => []
    | top :: rest => if top.frame.isFinished then rest else top :: rest
  match frames with
  | [] => return .done result
  | top :: rest => do
      let frame ← InspectM.lift (returnResult top.frame result)
      return .running ({ top with frame := frame } :: rest)

/-- One instruction of the innermost frame, and everything that `inspect_run_exec_loop` does before
the next one. -/
def inspectLoopStep : List InspectedFrame → InspectM ε ι InspectedState
  | [] => InspectM.lift (EvmM.fault .panic)
  | frame :: rest => do
      match ← inspectFrameStep insp env frame with
      | (none, frame) => return .running (frame :: rest)
      | (some (.item init), frame) =>
          match ← inspectFrameInit insp env init with
          | .item new => return .running (new :: frame :: rest)
          | .result result => inspectedReturnResult (frame :: rest) result
      | (some (.result result), frame) => inspectedReturnResult (frame :: rest) result

/-- At most `n` instructions. -/
def inspectRunLoop : Nat → List InspectedFrame → InspectM ε ι InspectedState
  | 0, frames => return .running frames
  | n + 1, frames => do
      match ← inspectLoopStep insp env frames with
      | .running frames => inspectRunLoop n frames
      | .done result => return .done result

/-- `inspect_run_exec_loop`, for at most `n` instructions. -/
def inspectRunExecLoop (n : Nat) (init : FrameInit) : InspectM ε ι InspectedState := do
  match ← inspectFrameInit insp env init with
  | .item frame => inspectRunLoop insp env n [frame]
  | .result result => return .done result

end Loop

/-! ## The run of a transaction -/

/-- The functions of `Handler` around the execution. They work on the context and answer or fail
with `η`; `catch_error` and `execution_result` clear the frame stack and the local context. -/
structure Handler (ε η ρ : Type) where
  validate : Exec (Shared ε) η Fault InitialAndFloorGas
  preExecution : Exec (Shared ε) η Fault Nat
  lastFrameResult : FrameResult → Exec (Shared ε) η Fault FrameResult
  postExecution : FrameResult → InitialAndFloorGas → Nat → Exec (Shared ε) η Fault FrameResult
  executionResult : FrameResult → Exec (Shared ε) η Fault ρ
  catchError : η → Exec (Shared ε) η Fault ρ
  /-- `From<ContextError>` -/
  ofContextError : EvmError ε → η

namespace Handler

variable {ε η ρ ι : Type} [Keccak256] (self : Handler ε η ρ) (env : EvmEnv ε)

/-- The input of the first frame: what is left of the gas limit after the intrinsic gas. -/
def firstFrame (gas : InitialAndFloorGas) : EvmM ε FrameInit :=
  if gas.initialGas ≤ env.tx.gasLimit.toNat then
    firstFrameInput env (env.tx.gasLimit.toNat - gas.initialGas)
  else EvmM.fault .gas

/-- `run_without_catch_error`, with at most `n` instructions: nothing if that was not enough. -/
def runWithoutCatchError (n : Nat) : Exec (Shared ε) η Fault (Option ρ) := do
  let gas ← self.validate
  let refund ← self.preExecution
  let init ← (firstFrame env gas).mapStop self.ofContextError
  match ← (runExecLoop env n init).mapStop self.ofContextError with
  | .running _ => return none
  | .done result =>
      let result ← self.lastFrameResult result
      let result ← self.postExecution result gas refund
      return some (← self.executionResult result)

/-- `run`. -/
def run (n : Nat) : Exec (Shared ε) η Fault (Option ρ) :=
  (self.runWithoutCatchError env n).catchStop fun e => do return some (← self.catchError e)

variable (insp : Inspector ε ι)

/-- `inspect_run_without_catch_error`. -/
def inspectRunWithoutCatchError (n : Nat) : Exec (Shared ε × ι) η InspectFault (Option ρ) := do
  let gas ← self.validate.lift .run
  let refund ← self.preExecution.lift .run
  let init ← ((firstFrame env gas).lift .run).mapStop self.ofContextError
  match ← (inspectRunExecLoop insp env n init).mapStop self.ofContextError with
  | .running _ => return none
  | .done result =>
      let result ← (self.lastFrameResult result).lift .run
      let result ← (self.postExecution result gas refund).lift .run
      return some (← (self.executionResult result).lift .run)

/-- `inspect_run`. -/
def inspectRun (n : Nat) : Exec (Shared ε × ι) η InspectFault (Option ρ) :=
  (self.inspectRunWithoutCatchError env insp n).catchStop fun e => do
    return some (← (self.catchError e).lift .run)

end Handler

/-! ## The stages of mainnet -/

/-- `EVMError`. -/
abbrev MainnetError (ε : Type) : Type := EvmError ε ⊕ (InvalidHeader ⊕ InvalidTransaction)

/-- Computations of the stages. -/
abbrev MainnetM (ε α : Type) : Type := Exec (Shared ε) (MainnetError ε) Fault α

variable {ε : Type}

/-- An operation on the journal that may panic, fail or refuse the transaction. -/
def MainnetM.onJournal {α : Type} (f : JournalInner →
    Option (Except (JournalLoadError ε ⊕ InvalidTransaction) α × JournalInner)) : MainnetM ε α :=
  fun s =>
    let set (j : JournalInner) : Shared ε := { s with host := { s.host with journal := j } }
    match f s.host.journal with
    | some (.ok a, j) => .next a (set j)
    | some (.error (.inl (.dbError e)), j) => .stop (.inl (.db e)) (set j)
    | some (.error (.inr e), j) => .stop (.inr (.inr e)) (set j)
    | _ => .fault .panic

/-- `gas_mut`. -/
def FrameResult.setGas (gas : Gas) : FrameResult → FrameResult
  | .call result memoryOffset => .call { result with gas := gas } memoryOffset
  | .create result address => .create { result with gas := gas } address

/-- The map that `load_accounts` makes of an access list. -/
def accessListMap (accessList : List AccessListItem) : HashMap Address (HashSet StorageKey) :=
  accessList.foldl (fun map item => map.insert item.address
    (item.storageKeys.foldl (fun keys key => keys.insert key ())
      ((map.lookup item.address).getD ∅))) ∅

section Mainnet

variable (env : EvmEnv ε) (precompiles : HashSet Address) (precompilesChanged : Bool)

/-- `load_accounts`. The addresses of the precompiles are set again if they have changed. -/
def loadAccounts (j : JournalInner) : JournalInner :=
  let warm := j.warmAddresses
  let warm := if precompilesChanged || warm.precompileSet.entries.isEmpty then
    warm.setPrecompileAddresses precompiles else warm
  let warm := if env.cfg.spec.isEnabledIn .shanghai then
    warm.setCoinbase env.block.beneficiary else warm
  let warm := if env.tx.txType ≠ .legacy then
    warm.setAccessList (accessListMap env.tx.accessList) else warm
  { j with spec := env.cfg.spec, warmAddresses := warm }

/-- The stages of `MainnetHandler`, without the recovery of EIP-7702 authorities: `authList` is
`apply_eip7702_auth_list`. A result is answered with its logs. -/
def mainnetHandler (authList : MainnetM ε Nat) :
    Handler ε (MainnetError ε) (InterpreterResult × List Log) where
  validate := do
    fun s => match validateEnv env.tx env.block env.cfg with
      | .ok _ => .next () s
      | .error e => .stop (.inr e) s
    MainnetM.onJournal fun j =>
      (validateInitialTxGas env.tx env.cfg.spec env.cfg.disableEip7623).map fun r =>
        (r.mapError .inr, j)
  preExecution := do
    MainnetM.onJournal (validateAgainstStateAndDeductCaller env.db env.tx env.block env.cfg)
    MainnetM.onJournal fun j => some (.ok (), loadAccounts env precompiles precompilesChanged j)
    if env.tx.txType = .eip7702 then authList else return 0
  lastFrameResult result :=
    let r := result.interpreterResult
    MainnetM.onJournal fun j => (lastFrameResult env.tx.gasLimit.toNat r.result r.gas).map
      fun gas => (.ok (result.setGas gas), j)
  postExecution result init eip7702Refund := MainnetM.onJournal fun j => do
    let gas ← refund env.cfg.spec result.interpreterResult.gas eip7702Refund
    let gas ← eip7623CheckGasFloor gas init
    let (r, j) ← settleBalances env.db env.tx env.block env.cfg gas j
    return ((r.map fun _ => result.setGas gas).mapError .inl, j)
  executionResult result := do
    takeError.mapStop .inl
    MainnetM.onJournal fun j => some (.ok (result.interpreterResult, j.logs), j.commitTx)
  catchError e s :=
    match s.host.journal.discardTx with
    | none => .fault .panic
    | some j => .stop e { s with host := { s.host with journal := j } }
  ofContextError := .inl

end Mainnet

end Revm
