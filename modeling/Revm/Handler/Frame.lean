import Revm.Interpreter.MemoryRun
import Revm.Interpreter.Step

/-!
# Call frames

`EthFrame` is a frame of a transaction: an interpreter with the checkpoint of the journal at which
it started. The functions make a frame for a call or a creation, process the action that an
interpreter leaves behind and hand the result of a frame to its caller. `frameStep` is one
instruction of a frame; `loopStep` is one of the innermost frame with everything that
`run_exec_loop` does before the next instruction, and `runLoop` repeats it.

The addresses of new contracts and the precompiled contracts are not part of these crates. They are
parameters.
-/

set_option autoImplicit false

namespace Revm

variable {ε : Type}

/-! ## Frames and their results -/

/-- `FrameData`. -/
inductive FrameData where
  | call (returnMemoryRange : ByteRange)
  | create (createdAddress : Address)
  deriving DecidableEq, Repr

/-- `EthFrame`. -/
structure EthFrame where
  data : FrameData
  depth : Nat
  checkpoint : JournalCheckpoint
  interpreter : Interpreter
  isFinished : Bool

/-- `FrameResult`: a `CallOutcome` or a `CreateOutcome`. -/
inductive FrameResult where
  | call (result : InterpreterResult) (memoryOffset : ByteRange)
  | create (result : InterpreterResult) (address : Option Address)
  deriving DecidableEq, Repr

/-- `FrameResult::interpreter_result`. -/
def FrameResult.interpreterResult : FrameResult → InterpreterResult
  | .call result _ => result
  | .create result _ => result

/-- `FrameInit`. -/
structure FrameInit where
  depth : Nat
  memory : SharedMemory
  frameInput : FrameInput

/-- `ItemOrResult`. -/
inductive ItemOrResult (α β : Type) where
  | item (a : α)
  | result (b : β)

/-- The errors that end a transaction. -/
inductive EvmError (ε : Type) where
  | db (error : ε)
  | custom (message : String)

/-- `PrecompileProvider::run`. The input is read from the shared buffer; nothing is a panic. -/
structure PrecompileProvider (ε : Type) where
  run : Host ε → CallInputs → List UInt8 →
    Option (Except String (Option InterpreterResult) × Host ε)

/-- What the frames of a transaction only read. -/
structure EvmEnv (ε : Type) extends HostEnv ε where
  precompiles : PrecompileProvider ε
  /-- `Address::create` -/
  createAddress : Address → U64 → Address
  /-- `Address::create2` -/
  create2Address : Address → U256 → B256 → Address

/-- `PrecompileOutput`. -/
structure PrecompileOutput where
  gasUsed : Nat
  bytes : List UInt8
  reverted : Bool
  deriving DecidableEq, Repr

/-- `PrecompileError`, as far as the provider looks at it. -/
inductive PrecompileError where
  | outOfGas
  | fatal (message : String)
  | other
  deriving DecidableEq, Repr

/-- `EthPrecompiles::run`, over the precompiled contracts by address. -/
def ethPrecompiles
    (precompiles : Address → Option (List UInt8 → Nat → Except PrecompileError PrecompileOutput)) :
    PrecompileProvider ε where
  run host inputs input :=
    match precompiles inputs.bytecodeAddress with
    | none => some (.ok none, host)
    | some execute =>
        let gas := Gas.new inputs.gasLimit
        match execute input inputs.gasLimit with
        | .ok output =>
            match gas.recordCost output.gasUsed with
            | (true, gas) =>
                some (.ok (some ⟨if output.reverted then .revert else .return, output.bytes, gas⟩),
                  host)
            | (false, _) => none
        | .error (.fatal message) => some (.error message, host)
        | .error .outOfGas => some (.ok (some ⟨.precompileOOG, [], gas⟩), host)
        | .error .other => some (.ok (some ⟨.precompileError, [], gas⟩), host)

/-- The default environment over a database, without precompiled contracts and with new contracts
behind the address of their creator. -/
def EvmEnv.default (db : Database ε) (spec : SpecId) : EvmEnv ε :=
  { HostEnv.default db spec with
    precompiles := ethPrecompiles fun _ => none
    createAddress := fun caller _ => caller + 1
    create2Address := fun caller _ _ => caller + 1 }

/-- Computations of the frame functions. They stop with an error. -/
abbrev EvmM (ε α : Type) : Type := Exec (Shared ε) (EvmError ε) Fault α

/-- `CallInput::bytes`. A range that is not in the buffer is read as empty. -/
def CallInput.read (input : CallInput) (buffer : Buffer) : List UInt8 :=
  match input with
  | .bytes data => data
  | .sharedBuffer range => (Buffer.slice buffer range.start range.stop).getD []

/-! ## Operations on the journal -/

namespace EvmM

variable {α : Type}

def fault (e : Fault) : EvmM ε α := fun _ => .fault e

/-- An operation on the journal that does not fail. -/
def onJournal (f : JournalInner → α × JournalInner) : EvmM ε α := fun s =>
  let r := f s.host.journal
  .next r.1 { s with host := { s.host with journal := r.2 } }

/-- An operation on the journal that may panic. -/
def onJournal? (f : JournalInner → Option (α × JournalInner)) : EvmM ε α := fun s =>
  match f s.host.journal with
  | none => .fault .panic
  | some r => .next r.1 { s with host := { s.host with journal := r.2 } }

/-- An operation on the journal that may fail with an error of the database. -/
def onJournalDb (f : JournalInner → Except (JournalLoadError ε) α × JournalInner) : EvmM ε α :=
  fun s =>
    match f s.host.journal with
    | (.ok a, journal) => .next a { s with host := { s.host with journal := journal } }
    | (.error (.dbError e), journal) =>
        .stop (.db e) { s with host := { s.host with journal := journal } }
    | (.error .coldLoadSkipped, _) => .fault .panic

def checkpoint : EvmM ε JournalCheckpoint := onJournal (·.checkpoint)

def checkpointCommit : EvmM ε Unit := onJournal fun journal => ((), journal.checkpointCommit)

def checkpointRevert (checkpoint : JournalCheckpoint) : EvmM ε Unit :=
  onJournal? fun journal => (journal.checkpointRevert checkpoint).map ((), ·)

/-- The commit or the revert at the end of a frame. -/
def checkpointClose (isOk : Bool) (checkpoint : JournalCheckpoint) : EvmM ε Unit :=
  if isOk then checkpointCommit else checkpointRevert checkpoint

/-- A change of the buffer. -/
def onBuffer (f : Buffer → Option (α × Buffer)) : EvmM ε α := fun s =>
  match f s.buffer with
  | none => .fault .memory
  | some r => .next r.1 { s with buffer := r.2 }

/-- A value that is there, or a fault. -/
def ofOption (e : Fault) (a : Option α) : EvmM ε α :=
  match a with
  | none => fault e
  | some a => pure a

end EvmM

/-! ## Making frames -/

/-- `EthFrame::clear`: a frame before its first instruction. -/
def EthFrame.fresh (data : FrameData) (depth : Nat) (memory : SharedMemory) (bytecode : Bytecode)
    (inputs : InputsImpl) (isStatic : Bool) (spec : SpecId) (gasLimit : Nat)
    (checkpoint : JournalCheckpoint) : EthFrame where
  data := data
  depth := depth
  checkpoint := checkpoint
  interpreter :=
    { bytecode := bytecode
      pc := 0
      gas := .new gasLimit
      stack := .new
      returnData := []
      memory := memory
      input := inputs
      runtimeFlag := ⟨isStatic, spec⟩ }
  isFinished := false

section Make

variable (env : EvmEnv ε) (inputs : CallInputs)

/-- The transfer at the start of a call. -/
def transferCallValue : EvmM ε (Option TransferError) :=
  match inputs.value with
  | .transfer value => EvmM.onJournal? fun journal =>
      journal.transferLoaded inputs.caller inputs.targetAddress value
  | .apparent _ => pure none

/-- The call of a precompiled contract. -/
def runPrecompile : EvmM ε (Option InterpreterResult) := fun s =>
  match env.precompiles.run s.host inputs (inputs.input.read s.buffer) with
  | none => .fault .panic
  | some (.ok result, host) => .next result { s with host := host }
  | some (.error message, host) => .stop (.custom message) { s with host := host }

/-- The code that a call executes. -/
def callBytecode : EvmM ε Bytecode :=
  match inputs.knownBytecode with
  | some (_, code) => pure code
  | none => do
      let account ← EvmM.onJournalDb fun journal => journal.loadCode env.db inputs.bytecodeAddress
      return account.data.info.code.getD .default

/-- `make_call_frame`. -/
def makeCallFrame (depth : Nat) (memory : SharedMemory) (inputs : CallInputs) :
    EvmM ε (ItemOrResult EthFrame FrameResult) := do
  let returnResult (result : InstructionResult) : ItemOrResult EthFrame FrameResult :=
    .result (.call ⟨result, [], .new inputs.gasLimit⟩ inputs.returnMemoryOffset)
  if depth > callStackLimit then return returnResult .callTooDeep
  let checkpoint ← EvmM.checkpoint
  match ← transferCallValue inputs with
  | some error =>
      EvmM.checkpointRevert checkpoint
      return returnResult (.ofTransferError error)
  | none =>
      match ← runPrecompile env inputs with
      | some result =>
          EvmM.checkpointClose result.result.isOk checkpoint
          return .result (.call result inputs.returnMemoryOffset)
      | none =>
          let bytecode ← callBytecode env inputs
          if bytecode.isEmpty then
            EvmM.checkpointCommit
            return returnResult .stop
          return .item
            (.fresh (.call inputs.returnMemoryOffset) depth memory bytecode
              ⟨inputs.targetAddress, some inputs.bytecodeAddress, inputs.caller, inputs.input,
                inputs.value.get⟩
              inputs.isStatic env.cfg.spec inputs.gasLimit checkpoint)

/-- The checks of `make_create_frame` on the account of the caller: the old nonce, or the result
that the creation ends with. -/
def bumpCallerNonce (value : U256) (caller : JournaledAccount) :
    Except InstructionResult U64 × JournaledAccount :=
  if caller.account.info.balance < value then (.error .outOfFunds, caller)
  else
    match caller.bumpNonce with
    | (false, caller') => (.error .return, caller')
    | (true, caller') => (.ok caller.account.info.nonce, caller')

/-- The address of the new contract. -/
def createdAddress [Keccak256] (inputs : CreateInputs) (oldNonce : U64) : Address :=
  match inputs.scheme with
  | .create => env.createAddress inputs.caller oldNonce
  | .create2 salt => env.create2Address inputs.caller salt (Keccak256.keccak256 inputs.initCode)
  | .custom address => address

/-- `make_create_frame`. -/
def makeCreateFrame [Keccak256] (depth : Nat) (memory : SharedMemory) (inputs : CreateInputs) :
    EvmM ε (ItemOrResult EthFrame FrameResult) := do
  let spec := env.cfg.spec
  let returnError (result : InstructionResult) : ItemOrResult EthFrame FrameResult :=
    .result (.create ⟨result, [], .new inputs.gasLimit⟩ none)
  if depth > callStackLimit then return returnError .callTooDeep
  match ← EvmM.onJournalDb fun journal =>
      journal.withJournaledAccount env.db inputs.caller false (bumpCallerNonce inputs.value) with
  | .error result => return returnError result
  | .ok oldNonce =>
      let createdAddress := createdAddress env inputs oldNonce
      let _ ← EvmM.onJournalDb fun journal => journal.loadAccount env.db createdAddress
      match ← EvmM.onJournal? fun journal =>
          journal.createAccountCheckpoint inputs.caller createdAddress inputs.value spec with
      | .error error => return returnError (.ofTransferError error)
      | .ok checkpoint =>
          return .item
            (.fresh (.create createdAddress) depth memory (.legacyAnalyzed inputs.initCode)
              ⟨createdAddress, none, inputs.caller, .bytes [], inputs.value⟩ false spec
              inputs.gasLimit checkpoint)

/-- `init_with_context`. -/
def frameInit [Keccak256] (init : FrameInit) : EvmM ε (ItemOrResult EthFrame FrameResult) :=
  match init.frameInput with
  | .call inputs => makeCallFrame env init.depth init.memory inputs
  | .create inputs => makeCreateFrame env init.depth init.memory inputs

/-- `create_init_frame`. -/
def createInitFrame (tx : TxEnv) (bytecode : Option (Bytecode × B256)) (gasLimit : Nat) :
    FrameInput :=
  match tx.kind with
  | .call target =>
      .call
        { input := .bytes tx.data
          gasLimit := gasLimit
          targetAddress := target
          bytecodeAddress := target
          knownBytecode := bytecode.map fun (code, hash) => (hash, code)
          caller := tx.caller
          value := .transfer tx.value
          scheme := .call
          isStatic := false
          returnMemoryOffset := ⟨0, 0⟩ }
  | .create =>
      .create
        { caller := tx.caller
          scheme := .create
          value := tx.value
          initCode := tx.data
          gasLimit := gasLimit }

/-- `first_frame_input`. -/
def firstFrameInput (gasLimit : Nat) : EvmM ε FrameInit := do
  let loadCode (address : Address) : EvmM ε AccountInfo := do
    let account ← EvmM.onJournalDb fun journal => journal.loadCode env.db address
    return account.data.info
  let bytecode ←
    match env.tx.kind with
    | .create => pure none
    | .call target => do
        let info ← loadCode target
        let info ←
          match info.code with
          | some (.eip7702 delegated _ _) => loadCode delegated
          | _ => pure info
        pure (some (info.code.getD .default, info.codeHash))
  return ⟨0, .new, createInitFrame env.tx bytecode gasLimit⟩

/-! ## Ending frames -/

/-- `return_create`. -/
def returnCreate [Keccak256] (checkpoint : JournalCheckpoint) (result : InterpreterResult)
    (address : Address) : EvmM ε InterpreterResult := do
  let spec := env.cfg.spec
  if !result.result.isOk then
    EvmM.checkpointRevert checkpoint
    return result
  -- EIP-3541
  if !env.cfg.disableEip3541 && spec.isEnabledIn .london && result.output.head? == some 0xef then
    EvmM.checkpointRevert checkpoint
    return { result with result := .createContractStartingWithEF }
  -- EIP-170
  if spec.isEnabledIn .spuriousDragon && result.output.length > env.cfg.maxCodeSize then
    EvmM.checkpointRevert checkpoint
    return { result with result := .createContractSizeLimit }
  let gasForCode ← EvmM.ofOption .panic (mulU64 result.output.length GasConst.codedeposit)
  match result.gas.recordCost gasForCode with
  | (false, gas) =>
      if spec.isEnabledIn .homestead then
        EvmM.checkpointRevert checkpoint
        return { result with result := .outOfGas, gas := gas }
      else
        -- before Homestead the contract is created without code
        EvmM.checkpointCommit
        EvmM.onJournal? fun journal => (journal.setCode address (.legacyAnalyzed [])).map ((), ·)
        return { result with result := .return, output := [], gas := gas }
  | (true, gas) =>
      EvmM.checkpointCommit
      EvmM.onJournal? fun journal =>
        (journal.setCode address (.legacyAnalyzed result.output)).map ((), ·)
      return { result with result := .return, gas := gas }

/-- `process_next_action`, with the frame it leaves. -/
def processNextAction [Keccak256] (self : EthFrame) (action : InterpreterAction) :
    EvmM ε (ItemOrResult FrameInit FrameResult × EthFrame) :=
  match action with
  | .newFrame frameInput => do
      let (memory, child) ← EvmM.onBuffer fun buffer =>
        (self.interpreter.memory.newChildContext buffer).map (·, buffer)
      return (.item ⟨self.depth + 1, child, frameInput⟩,
        { self with interpreter := { self.interpreter with memory := memory } })
  | .return result =>
      match self.data with
      | .call returnMemoryRange => do
          EvmM.checkpointClose result.result.isOk self.checkpoint
          return (.result (.call result returnMemoryRange), { self with isFinished := true })
      | .create createdAddress => do
          let result ← returnCreate env self.checkpoint result createdAddress
          return (.result (.create result (some createdAddress)), { self with isFinished := true })

end Make

section Return

/-- A fatal error is a panic. -/
def assertNotFatal (result : InterpreterResult) : EvmM ε Unit :=
  if result.result = .fatalExternalError then EvmM.fault .panic else pure ()

/-- The error that a host operation has left, if any, ends the transaction. -/
def takeError : EvmM ε Unit := fun s =>
  match s.host.error with
  | some e => .stop (.db e) { s with host := { s.host with error := none } }
  | none => .next () s

/-- The gas of the caller with what remains of the result, after a success or a revert. -/
def eraseReturned (gas : Gas) (result : InterpreterResult) : EvmM ε Gas :=
  if result.result.isOkOrRevert then EvmM.ofOption .gas (gas.eraseCost result.gas.remaining)
  else pure gas

/-- The gas of the caller with the refund of the result, after a success. -/
def recordReturned (gas : Gas) (result : InterpreterResult) : EvmM ε Gas :=
  if result.result.isOk then EvmM.ofOption .refund (gas.recordRefund result.gas.refunded)
  else pure gas

/-- The gas that comes back to the caller. -/
def returnGas (gas : Gas) (result : InterpreterResult) : EvmM ε Gas := do
  let gas ← eraseReturned gas result
  recordReturned gas result

/-- The word that the result leaves on the stack of the caller. -/
def FrameResult.item : FrameResult → U256
  | .call result _ => ofBool result.result.isOk
  | .create result address => if result.result.isOk then intoWord (address.getD 0) else 0

/-- The return data that the result leaves to the caller. -/
def FrameResult.returnData : FrameResult → List UInt8
  | .call result _ => result.output
  | .create result _ => if result.result = .revert then result.output else []

/-- The part of the output that is copied to the memory of the caller. -/
def FrameResult.copied : FrameResult → Nat × List UInt8
  | .call result memoryOffset =>
      (memoryOffset.start,
        if result.result.isOkOrRevert then
          result.output.take (min memoryOffset.len result.output.length)
        else [])
  | .create _ _ => (0, [])

/-- The caller after the result has been handed to it. -/
def EthFrame.resume (self : EthFrame) (result : FrameResult) (gas : Gas) (memory : SharedMemory) :
    EthFrame :=
  { self with
    interpreter :=
      { self.interpreter with
        returnData := result.returnData
        stack := (self.interpreter.stack.push result.item).getD self.interpreter.stack
        gas := gas
        memory := memory } }

/-- `return_result`. -/
def returnResult (self : EthFrame) (result : FrameResult) : EvmM ε EthFrame := do
  let memory ← EvmM.onBuffer fun buffer => self.interpreter.memory.freeChildContext buffer
  takeError
  assertNotFatal result.interpreterResult
  let gas ← returnGas self.interpreter.gas result.interpreterResult
  EvmM.onBuffer fun buffer => (memory.set buffer result.copied.1 result.copied.2).map ((), ·)
  return self.resume result gas memory

end Return

/-! ## The loop -/

/-- The open frames, the innermost first, or the result of the first one. -/
inductive LoopState where
  | running (frames : List EthFrame)
  | done (result : FrameResult)

section Loop

variable [Keccak256] (env : EvmEnv ε)

/-- `frame_return_result`. -/
def frameReturnResult (frames : List EthFrame) (result : FrameResult) : EvmM ε LoopState :=
  let frames :=
    match frames with
    | [] => []
    | top :: rest => if top.isFinished then rest else top :: rest
  match frames with
  | [] => return .done result
  | top :: rest => do
      let top ← returnResult top result
      return .running (top :: rest)

/-- One instruction of `frame_run`: nothing if the frame goes on, else what `process_next_action`
makes of its action. -/
def frameStep (frame : EthFrame) :
    EvmM ε (Option (ItemOrResult FrameInit FrameResult) × EthFrame) := fun s =>
  match frame.interpreter.step env.toHostEnv s with
  | .next _ (interpreter, s) => .next (none, { frame with interpreter := interpreter }) s
  | .stop action (interpreter, s) =>
      (do
        let (answer, frame) ←
          processNextAction env { frame with interpreter := interpreter } action
        return (some answer, frame)) s
  | .fault e => .fault e

/-- One instruction of the innermost frame, and everything that `run_exec_loop` does before the next
one. -/
def loopStep : List EthFrame → EvmM ε LoopState
  | [] => EvmM.fault .panic
  | frame :: rest => do
      match ← frameStep env frame with
      | (none, frame) => return .running (frame :: rest)
      | (some (.item init), frame) =>
          match ← frameInit env init with
          | .item new => return .running (new :: frame :: rest)
          | .result result => frameReturnResult (frame :: rest) result
      | (some (.result result), frame) => frameReturnResult (frame :: rest) result

/-- At most `n` instructions. -/
def runLoop : Nat → List EthFrame → EvmM ε LoopState
  | 0, frames => return .running frames
  | n + 1, frames => do
      match ← loopStep env frames with
      | .running frames => runLoop n frames
      | .done result => return .done result

/-- `run_exec_loop`, for at most `n` instructions. -/
def runExecLoop (n : Nat) (init : FrameInit) : EvmM ε LoopState := do
  match ← frameInit env init with
  | .item frame => runLoop env n [frame]
  | .result result => return .done result

end Loop

end Revm
