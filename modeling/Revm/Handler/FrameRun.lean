import Revm.Handler.Frame
import Revm.Interpreter.Refund
import Revm.Interpreter.StepCost

/-!
# Runs of frames

What the frame functions do to the frames and to the shared buffer, said once: which frame is opened
for an input, which result an input gets without a frame, and what a caller looks like after it has
got a result. The machines of `MemoryRun` and `Refund` follow: a frame is opened and a result handed
back as they say (`Opened.memoryStep`, `Resumed.memoryRun`, `Resumed.refundStep`). `ExecRun` is
every run of `run_exec_loop` from its first frame on, with the number of executed instructions and
of opened frames.
-/

set_option autoImplicit false

namespace Revm

open EvmM

variable {ε : Type} {self parent : SharedMemory} {buffer : Buffer} {e : Fault} {i f n : Nat}
  {frames : List EthFrame} {state : LoopState} {S : EvmError ε → Shared ε → Prop} {init : FrameInit}
  {s s' : Shared ε} {env : EvmEnv ε} {caller frame : EthFrame} {result : FrameResult}
  {F : Fault → Prop}

/-! ## Operations on the journal -/

section Journal

variable {α : Type}

/-- The buffer stays, and a fault is a panic. -/
def bufferDiscipline : Discipline (Shared ε) Fault where
  Inv _ := True
  Step s s' := s'.buffer = s.buffer
  Stop s s' := s'.buffer = s.buffer
  Fault e := e = .panic
  refl _ := rfl
  trans h h' := h'.trans h
  stop_of_step h h' := h'.trans h

namespace EvmM

theorem onJournal_obeys (f : JournalInner → α × JournalInner) :
    (onJournal f : EvmM ε α).Obeys bufferDiscipline := fun _ _ => ⟨trivial, rfl, trivial⟩

theorem onJournal?_obeys (f : JournalInner → Option (α × JournalInner)) :
    (onJournal? f : EvmM ε α).Obeys bufferDiscipline := by
  intro s _
  unfold onJournal?
  cases f s.host.journal with
  | none => exact rfl
  | some r => exact ⟨trivial, rfl, trivial⟩

theorem onJournalDb_obeys (f : JournalInner → Except (JournalLoadError ε) α × JournalInner) :
    (onJournalDb f : EvmM ε α).Obeys bufferDiscipline := by
  intro s _
  unfold onJournalDb
  rcases f s.host.journal with ⟨result, journal⟩
  cases result with
  | ok a => exact ⟨trivial, rfl, trivial⟩
  | error error =>
    cases error with
    | dbError e => exact rfl
    | coldLoadSkipped => exact rfl

theorem checkpoint_obeys : (checkpoint : EvmM ε JournalCheckpoint).Obeys bufferDiscipline :=
  onJournal_obeys _

theorem checkpointCommit_obeys : (checkpointCommit : EvmM ε Unit).Obeys bufferDiscipline :=
  onJournal_obeys _

theorem checkpointRevert_obeys (checkpoint : JournalCheckpoint) :
    (checkpointRevert checkpoint : EvmM ε Unit).Obeys bufferDiscipline := onJournal?_obeys _

theorem checkpointClose_obeys (isOk : Bool) (checkpoint : JournalCheckpoint) :
    (checkpointClose isOk checkpoint : EvmM ε Unit).Obeys bufferDiscipline := by
  cases isOk with
  | true => exact checkpointCommit_obeys
  | false => exact checkpointRevert_obeys checkpoint

theorem ofOption_obeys (a : Option α) : (ofOption .panic a : EvmM ε α).Obeys bufferDiscipline := by
  cases a with
  | none => exact fun _ _ => rfl
  | some a => exact .pure a

end EvmM

end Journal

/-! ## Opening frames -/

/-- The calldata of the frame that is opened for the input. -/
def FrameInput.calldata : FrameInput → CallInput
  | .call inputs => inputs.input
  | .create _ => .bytes []

/-- Whether the frame that is opened for the input is static. -/
def FrameInput.isStatic : FrameInput → Bool
  | .call inputs => inputs.isStatic
  | .create _ => false

/-- Where the caller wants the output. -/
def FrameData.returnRange : FrameData → Option ByteRange
  | .call returnMemoryRange => some returnMemoryRange
  | .create _ => none

@[inherit_doc FrameData.returnRange]
def FrameInput.returnRange : FrameInput → Option ByteRange
  | .call inputs => some inputs.returnMemoryOffset
  | .create _ => none

@[inherit_doc FrameData.returnRange]
def FrameResult.returnRange : FrameResult → Option ByteRange
  | .call _ memoryOffset => some memoryOffset
  | .create _ _ => none

/-- The frame that is opened for `init`. -/
structure Opened (init : FrameInit) (frame : EthFrame) : Prop where
  depth : frame.depth = init.depth
  depth_le : init.depth ≤ callStackLimit
  unfinished : frame.isFinished = false
  gas : frame.interpreter.gas = .new init.frameInput.gasLimit
  memory : frame.interpreter.memory = init.memory
  input : frame.interpreter.input.input = init.frameInput.calldata
  isStatic : frame.interpreter.runtimeFlag.isStatic = init.frameInput.isStatic
  returnRange : frame.data.returnRange = init.frameInput.returnRange

/-- A frame that is opened is a fresh one of the memory machine. -/
theorem Opened.memoryStep {frame : EthFrame} (h : Opened init frame)
    {f : MemoryFrame} {rest : List MemoryFrame} {memory : SharedMemory} (hlive : f.halted = false)
    (hchild : f.memory.newChildContext buffer = some (memory, init.memory))
    (hdepth : init.depth = rest.length + 1) :
    MemoryState.step ⟨buffer, f :: rest⟩ (.openChild init.frameInput.gasLimit) =
      some ⟨buffer, ⟨frame.interpreter.gas, frame.interpreter.memory, [], 0, false⟩ ::
        { f with memory := memory } :: rest⟩ := by
  have hroom : rest.length < callStackLimit := by
    have := h.depth_le
    omega
  simp [MemoryState.step, MemoryFrame.step, hlive, hroom, hchild, h.gas, h.memory,
    MemoryFrame.fresh]

/-- The result of `init` without a frame. -/
structure Refused (init : FrameInit) (result : FrameResult) : Prop where
  gas : result.interpreterResult.gas.remaining ≤ init.frameInput.gasLimit
  returnRange : result.returnRange = init.frameInput.returnRange

/-- The runs of the precompiled contracts do not return more gas than they were given. -/
def PrecompileProvider.Bounded (precompiles : PrecompileProvider ε) : Prop :=
  ∀ host inputs input result host',
    precompiles.run host inputs input = some (.ok (some result), host') →
      result.gas.remaining ≤ inputs.gasLimit

/-- The provider starts from the gas it was given. -/
theorem ethPrecompiles_bounded
    (precompiles : Address → Option (List UInt8 → Nat → Except PrecompileError PrecompileOutput)) :
    (ethPrecompiles precompiles : PrecompileProvider ε).Bounded := by
  intro host inputs input result host' h
  simp only [ethPrecompiles] at h
  cases hp : precompiles inputs.bytecodeAddress with
  | none =>
    rw [hp] at h
    cases h
  | some execute =>
    rw [hp] at h
    dsimp only at h
    rcases hx : execute input inputs.gasLimit with error | output
    · rw [hx] at h
      cases error <;> cases h <;> exact le_rfl
    · rw [hx] at h
      dsimp only at h
      by_cases hle : output.gasUsed ≤ (Gas.new inputs.gasLimit).remaining
      · rw [Gas.recordCost_of_le hle] at h
        cases h
        exact Nat.sub_le _ _
      · rw [Gas.recordCost_of_lt (Nat.not_le.1 hle)] at h
        cases h

section Init

/-- What the answer of `frameInit` is. -/
def FrameAnswer (init : FrameInit) : ItemOrResult EthFrame FrameResult → Prop
  | .item frame => Opened init frame
  | .result result => Refused init result

theorem transferCallValue_obeys (inputs : CallInputs) :
    (transferCallValue inputs : EvmM ε _).Obeys bufferDiscipline := by
  unfold transferCallValue
  cases inputs.value with
  | transfer value => exact onJournal?_obeys _
  | apparent value => exact .pure _

theorem callBytecode_obeys (inputs : CallInputs) :
    (callBytecode env inputs).Obeys bufferDiscipline := by
  unfold callBytecode
  cases inputs.knownBytecode with
  | some known => exact .pure _
  | none => exact .bind (onJournalDb_obeys _) fun _ => .pure _

theorem runPrecompile_gives (hbounded : env.precompiles.Bounded) (inputs : CallInputs) :
    (runPrecompile env inputs).Gives bufferDiscipline
      fun r _ => ∀ result ∈ r, result.gas.remaining ≤ inputs.gasLimit := by
  intro s _
  unfold runPrecompile
  rcases hrun : env.precompiles.run s.host inputs (inputs.input.read s.buffer) with
    _ | ⟨message | result, host⟩
  · exact rfl
  · exact rfl
  · refine ⟨trivial, rfl, ?_⟩
    rintro result rfl
    exact hbounded _ _ _ _ _ hrun

theorem makeCallFrame_gives (hbounded : env.precompiles.Bounded) (depth : Nat)
    (memory : SharedMemory) (inputs : CallInputs) :
    (makeCallFrame env depth memory inputs).Gives bufferDiscipline
      fun r _ => FrameAnswer ⟨depth, memory, .call inputs⟩ r := by
  have hrefused : ∀ r : InterpreterResult, r.gas.remaining ≤ inputs.gasLimit →
      FrameAnswer ⟨depth, memory, .call inputs⟩ (.result (.call r inputs.returnMemoryOffset)) := by
    intro r hgas
    exact ⟨hgas, rfl⟩
  unfold makeCallFrame
  split_ifs with hdepth
  · exact .pure fun _ _ => hrefused _ le_rfl
  · apply checkpoint_obeys.bind_gives
    intro checkpoint
    apply (transferCallValue_obeys inputs).bind_gives
    rintro (_ | error)
    · apply (runPrecompile_gives hbounded inputs).bind_value
      rintro (_ | result) hresult
      · apply (callBytecode_obeys inputs).bind_gives
        intro bytecode
        split_ifs
        · apply checkpointCommit_obeys.bind_gives
          intro _
          exact .pure fun _ _ => hrefused _ le_rfl
        · exact .pure fun _ _ => ⟨rfl, Nat.not_lt.1 hdepth, rfl, rfl, rfl, rfl, rfl, rfl⟩
      · apply (checkpointClose_obeys _ _).bind_gives
        intro _
        exact .pure fun _ _ => hrefused _ (hresult _ rfl)
    · apply (checkpointRevert_obeys _).bind_gives
      intro _
      exact .pure fun _ _ => hrefused _ le_rfl

theorem makeCreateFrame_gives [Keccak256] (depth : Nat) (memory : SharedMemory)
    (inputs : CreateInputs) : (makeCreateFrame env depth memory inputs).Gives bufferDiscipline
      fun r _ => FrameAnswer ⟨depth, memory, .create inputs⟩ r := by
  have hrefused : ∀ result, FrameAnswer ⟨depth, memory, .create inputs⟩
      (.result (.create ⟨result, [], .new inputs.gasLimit⟩ none)) := by
    intro result
    exact ⟨le_rfl, rfl⟩
  unfold makeCreateFrame
  split_ifs with hdepth
  · exact .pure fun _ _ => hrefused _
  · apply (onJournalDb_obeys _).bind_gives
    rintro (result | oldNonce)
    · exact .pure fun _ _ => hrefused _
    · apply (onJournalDb_obeys _).bind_gives
      intro _
      apply (onJournal?_obeys _).bind_gives
      rintro (error | checkpoint)
      · exact .pure fun _ _ => hrefused _
      · exact .pure fun _ _ => ⟨rfl, Nat.not_lt.1 hdepth, rfl, rfl, rfl, rfl, rfl, rfl⟩

/-- `frameInit` opens the frame of its input or answers a result for it. -/
theorem frameInit_gives [Keccak256] (hbounded : env.precompiles.Bounded) (init : FrameInit) :
    (frameInit env init).Gives bufferDiscipline fun r _ => FrameAnswer init r := by
  obtain ⟨depth, memory, frameInput⟩ := init
  cases frameInput with
  | call inputs => exact makeCallFrame_gives hbounded depth memory inputs
  | create inputs => exact makeCreateFrame_gives depth memory inputs

end Init

/-! ## Ending frames -/

section Return

/-- What the caller gets of the gas of the result. -/
def FrameResult.returnedGas (result : FrameResult) : Nat :=
  if result.interpreterResult.result.isOkOrRevert then result.interpreterResult.gas.remaining else 0

theorem FrameResult.returnedGas_le (result : FrameResult) :
    result.returnedGas ≤ result.interpreterResult.gas.remaining := by
  unfold returnedGas
  split_ifs
  · exact le_rfl
  · exact Nat.zero_le _

/-- The result of a frame that ends with `r`. -/
structure Answered (data : FrameData) (r : InterpreterResult) (result : FrameResult) : Prop where
  gas : result.interpreterResult.gas.remaining ≤ r.gas.remaining
  returnRange : result.returnRange = data.returnRange

theorem recordCost_remaining_le (gas : Gas) (cost : Nat) :
    (gas.recordCost cost).2.remaining ≤ gas.remaining := by
  unfold Gas.recordCost
  split_ifs
  · exact Nat.sub_le _ _
  · exact le_rfl

theorem returnCreate_gives [Keccak256] (env : EvmEnv ε) (checkpoint : JournalCheckpoint)
    (r : InterpreterResult) (address : Address) :
    (returnCreate env checkpoint r address).Gives bufferDiscipline
      fun r' _ => r'.gas.remaining ≤ r.gas.remaining := by
  have hrevert : ∀ r' : InterpreterResult, r'.gas.remaining ≤ r.gas.remaining →
      (do checkpointRevert checkpoint; return r' : EvmM ε InterpreterResult).Gives
        bufferDiscipline fun r' _ => r'.gas.remaining ≤ r.gas.remaining := by
    intro r' hr'
    apply (checkpointRevert_obeys _).bind_gives
    intro _
    exact .pure fun _ _ => hr'
  have hcommit : ∀ (code : List UInt8) (r' : InterpreterResult),
      r'.gas.remaining ≤ r.gas.remaining →
      (do
        checkpointCommit
        onJournal? fun journal => (journal.setCode address (.legacyAnalyzed code)).map ((), ·)
        return r' : EvmM ε InterpreterResult).Gives
          bufferDiscipline fun r' _ => r'.gas.remaining ≤ r.gas.remaining := by
    intro code r' hr'
    apply checkpointCommit_obeys.bind_gives
    intro _
    apply (onJournal?_obeys _).bind_gives
    intro _
    exact .pure fun _ _ => hr'
  unfold returnCreate
  dsimp only
  split
  · exact hrevert _ le_rfl
  split
  · exact hrevert _ le_rfl
  split
  · exact hrevert _ le_rfl
  apply (ofOption_obeys _).bind_gives
  intro gasForCode
  have hle := recordCost_remaining_le r.gas gasForCode
  rcases hcost : r.gas.recordCost gasForCode with ⟨_ | _, gas⟩
  · -- the deposit is not paid for
    rw [hcost] at hle
    dsimp only
    split
    · exact hrevert _ hle
    · exact hcommit _ _ hle
  · rw [hcost] at hle
    exact hcommit _ _ hle

theorem processNextAction_return_gives [Keccak256] (env : EvmEnv ε) (frame : EthFrame)
    (r : InterpreterResult) :
    (processNextAction env frame (.return r)).Gives bufferDiscipline fun a _ =>
      ∃ result, a = (.result result, { frame with isFinished := true }) ∧
        Answered frame.data r result := by
  unfold processNextAction
  cases hdata : frame.data with
  | call range =>
    apply (checkpointClose_obeys _ _).bind_gives
    intro _
    exact .pure fun _ _ => ⟨_, rfl, le_rfl, rfl⟩
  | create address =>
    apply (returnCreate_gives env _ _ _).bind_value
    intro r' hr'
    exact .pure fun _ _ => ⟨_, rfl, hr', rfl⟩

/-- The caller after it has got the result. -/
structure Resumed (caller : EthFrame) (result : FrameResult) (s : Shared ε) (frame : EthFrame)
    (s' : Shared ε) : Prop where
  frame_eq : frame = caller.resume result frame.interpreter.gas frame.interpreter.memory
  limit : frame.interpreter.gas.limit = caller.interpreter.gas.limit
  memoryGas : frame.interpreter.gas.memory = caller.interpreter.gas.memory
  remaining : frame.interpreter.gas.remaining =
    caller.interpreter.gas.remaining + result.returnedGas
  refunded : (if result.interpreterResult.result.isOk then
      addI64 caller.interpreter.gas.refunded result.interpreterResult.gas.refunded
    else some caller.interpreter.gas.refunded) = some frame.interpreter.gas.refunded
  memory : ∃ buffer,
    caller.interpreter.memory.freeChildContext s.buffer = some (frame.interpreter.memory, buffer) ∧
      frame.interpreter.memory.set buffer result.copied.1 result.copied.2 = some s'.buffer
  host : s'.host = s.host

namespace Resumed

section

variable (h : Resumed caller result s frame s')

include h

theorem depth : frame.depth = caller.depth := by
  rw [h.frame_eq]
  rfl

theorem isFinished : frame.isFinished = caller.isFinished := by
  rw [h.frame_eq]
  rfl

/-- The memory machine closes the child, gets its gas back and writes its output. -/
theorem memoryRun {child f : MemoryFrame}
    {rest : List MemoryFrame} (hgas : f.gas = caller.interpreter.gas)
    (hmemory : f.memory = caller.interpreter.memory) (hlive : f.halted = false)
    (hothers : result.returnedGas ≤ f.others) (hfits : frame.interpreter.gas.remaining ≤ u64Max) :
    ∃ gas : Gas, gas.remaining = frame.interpreter.gas.remaining ∧
      gas.memory = frame.interpreter.gas.memory ∧
      MemoryState.run ⟨s.buffer, child :: f :: rest⟩
          [.freeChild, .eraseCost result.returnedGas, .write result.copied.1 result.copied.2] =
        some ⟨s'.buffer,
          { f with
            gas := gas
            memory := frame.interpreter.memory
            others := f.others - result.returnedGas } :: rest⟩ := by
  obtain ⟨buffer, hfree, hset⟩ := h.memory
  rw [h.remaining] at hfits
  refine ⟨{ f.gas with remaining := f.gas.remaining + result.returnedGas }, ?_, ?_, ?_⟩
  · rw [h.remaining, hgas]
  · rw [h.memoryGas, hgas]
  · simp [MemoryState.run, MemoryState.step, closeFrame, MemoryFrame.step, hlive, hmemory, hfree,
      hset, subU64_eq_some hothers, Gas.eraseCost, hgas, addU64_eq_some hfits]

/-- The refund counter of the caller takes the step of `Refund` for the result. -/
theorem refundStep {σ : Type} [DecidableEq σ] (spec : SpecId)
    (original present found storage : σ → StorageValue) (rest : List (RefundFrame σ)) :
    ∃ gas : Gas, gas.refunded = frame.interpreter.gas.refunded ∧
      RefundState.step spec original ⟨present, ⟨result.interpreterResult.gas, found⟩ ::
          ⟨caller.interpreter.gas, storage⟩ :: rest⟩
          (if result.interpreterResult.result.isOk then .returnOk else .returnFailed) =
        some ⟨if result.interpreterResult.result.isOk then present else found,
          ⟨gas, storage⟩ :: rest⟩ := by
  have hrefunded := h.refunded
  by_cases hok : result.interpreterResult.result.isOk = true
  · rw [if_pos hok] at hrefunded
    exact ⟨{ caller.interpreter.gas with refunded := frame.interpreter.gas.refunded }, rfl,
      by simp [hok, RefundState.step, RefundState.record, Gas.recordRefund, hrefunded]⟩
  · rw [if_neg hok] at hrefunded
    exact ⟨caller.interpreter.gas, Option.some.inj hrefunded, by simp [hok, RefundState.step]⟩

end

end Resumed

theorem eraseReturned_meets (gas : Gas) (result : FrameResult) (s : Shared ε)
    (hgas : gas.remaining + result.returnedGas ≤ u64Max ∨ F .gas) :
    (eraseReturned gas result.interpreterResult s).Meets
      (fun gas' s' => s' = s ∧
        gas' = { gas with remaining := gas.remaining + result.returnedGas }) S F := by
  unfold FrameResult.returnedGas at hgas ⊢
  unfold eraseReturned
  by_cases hok : result.interpreterResult.result.isOkOrRevert = true
  · rw [if_pos hok] at hgas ⊢
    rw [if_pos hok]
    unfold Gas.eraseCost addU64
    by_cases hle : gas.remaining + result.interpreterResult.gas.remaining ≤ u64Max
    · rw [if_pos hle]
      exact ⟨rfl, rfl⟩
    · rw [if_neg hle]
      exact hgas.resolve_left hle
  · rw [if_neg hok, if_neg hok]
    exact ⟨rfl, rfl⟩

theorem recordReturned_meets (gas : Gas) (result : FrameResult) (s : Shared ε)
    (hrefund : F .refund) : (recordReturned gas result.interpreterResult s).Meets
      (fun gas' s' => s' = s ∧ gas'.limit = gas.limit ∧ gas'.memory = gas.memory ∧
        gas'.remaining = gas.remaining ∧ (if result.interpreterResult.result.isOk then
          addI64 gas.refunded result.interpreterResult.gas.refunded
        else some gas.refunded) = some gas'.refunded) S F := by
  unfold recordReturned
  split_ifs
  · unfold Gas.recordRefund
    cases addI64 gas.refunded result.interpreterResult.gas.refunded with
    | none => exact hrefund
    | some refunded => exact ⟨rfl, rfl, rfl, rfl, rfl⟩
  · exact ⟨rfl, rfl, rfl, rfl, rfl⟩

theorem takeError_meets (s : Shared ε)
    (hstop : ∀ e s', s'.buffer = s.buffer → s'.host.journal = s.host.journal → S e s') :
    (takeError s).Meets (fun _ s' => s' = s) S F := by
  unfold takeError
  cases s.host.error with
  | some e => exact hstop _ _ rfl rfl
  | none => exact rfl

/-- The memory of the caller can take the result. -/
def EthFrame.CanTake (self : EthFrame) (result : FrameResult) (buffer : Buffer) : Prop :=
  ∃ memory freed written, self.interpreter.memory.freeChildContext buffer = some (memory, freed) ∧
    memory.set freed result.copied.1 result.copied.2 = some written

theorem returnResult_meets (self : EthFrame) (result : FrameResult) (s : Shared ε)
    (hstop : ∀ e s', s'.host.journal = s.host.journal → S e s')
    (hpanic : F .panic) (hrefund : F .refund)
    (hgas : self.interpreter.gas.remaining + result.returnedGas ≤ u64Max ∨ F .gas)
    (hmemory : self.CanTake result s.buffer ∨ F .memory) :
    (returnResult self result s).Meets (fun frame s' => Resumed self result s frame s') S F := by
  apply Outcome.Meets.bind
  unfold onBuffer
  dsimp only
  cases hfree : self.interpreter.memory.freeChildContext s.buffer with
  | none =>
    refine hmemory.resolve_left ?_
    rintro ⟨memory, freed, written, h, -⟩
    rw [hfree] at h
    cases h
  | some r =>
    obtain ⟨memory, freed⟩ := r
    apply Outcome.Meets.bind
    refine (takeError_meets ⟨freed, s.host⟩ fun e s' _ hjournal => hstop e s' hjournal).mono_next ?_
    rintro _ _ rfl
    apply Outcome.Meets.bind
    unfold assertNotFatal
    split_ifs
    · exact hpanic
    · apply Outcome.Meets.bind
      apply Outcome.Meets.bind
      refine (eraseReturned_meets _ result _ hgas).mono_next ?_
      rintro gas _ ⟨rfl, rfl⟩
      refine (recordReturned_meets _ result _ hrefund).mono_next ?_
      rintro gas _ ⟨rfl, hlimit, hmemoryGas, hremaining, hrefunded⟩
      apply Outcome.Meets.bind
      cases hset : memory.set freed result.copied.1 result.copied.2 with
      | none =>
        refine hmemory.resolve_left ?_
        rintro ⟨memory', freed', written, h, h'⟩
        rw [hfree] at h
        cases h
        rw [hset] at h'
        cases h'
      | some written =>
        exact ⟨rfl, hlimit, hmemoryGas, hremaining, hrefunded, ⟨freed, hfree, hset⟩, rfl⟩

end Return

/-! ## The loop -/

namespace EthFrame

/-- The start of the memory of the frame. -/
abbrev base (frame : EthFrame) : Nat := frame.interpreter.memory.myCheckpoint

/-- What stays of a frame while it is open. -/
structure Keeps (frame frame' : EthFrame) : Prop where
  data : frame'.data = frame.data
  depth : frame'.depth = frame.depth
  checkpoint : frame'.checkpoint = frame.checkpoint
  input : frame'.interpreter.input = frame.interpreter.input
  runtimeFlag : frame'.interpreter.runtimeFlag = frame.interpreter.runtimeFlag
  base : frame'.base = frame.base

theorem Keeps.refl (frame : EthFrame) : frame.Keeps frame := ⟨rfl, rfl, rfl, rfl, rfl, rfl⟩

theorem Keeps.trans {frame frame' frame'' : EthFrame} (h : frame.Keeps frame')
    (h' : frame'.Keeps frame'') : frame.Keeps frame'' :=
  ⟨h'.data.trans h.data, h'.depth.trans h.depth, h'.checkpoint.trans h.checkpoint,
    h'.input.trans h.input, h'.runtimeFlag.trans h.runtimeFlag, h'.base.trans h.base⟩

end EthFrame

theorem SharedMemory.newChildContext_base {child : SharedMemory}
    (h : self.newChildContext buffer = some (parent, child)) :
    parent.myCheckpoint = self.myCheckpoint := by
  unfold newChildContext at h
  cases hself : self.childCheckpoint with
  | some _ =>
    rw [hself] at h
    cases h
  | none =>
    rw [hself] at h
    cases h
    rfl

theorem SharedMemory.freeChildContext_base {buffer' : Buffer}
    (h : self.freeChildContext buffer = some (parent, buffer')) :
    parent.myCheckpoint = self.myCheckpoint := by
  unfold freeChildContext at h
  cases hself : self.childCheckpoint with
  | none =>
    rw [hself] at h
    cases h
    rfl
  | some checkpoint =>
    rw [hself] at h
    dsimp only at h
    split_ifs at h
    cases h
    rfl

theorem Resumed.keeps (h : Resumed caller result s frame s') : caller.Keeps frame := by
  obtain ⟨buffer, hfree, -⟩ := h.memory
  have hbase := SharedMemory.freeChildContext_base hfree
  rw [h.frame_eq]
  exact ⟨rfl, rfl, rfl, rfl, rfl, hbase⟩

section Loop

variable [Keccak256]

/-- The rule for one instruction of a frame. -/
theorem frameStep_meets {frame : EthFrame} {s : Shared ε}
    {Q : Option (ItemOrResult FrameInit FrameResult) × EthFrame → Shared ε → Prop}
    (h : (frame.interpreter.step env.toHostEnv s).Meets
      (fun _ r => Q (none, { frame with interpreter := r.1 }) r.2) (fun action r =>
        (processNextAction env { frame with interpreter := r.1 } action r.2).Meets
          (fun a s' => Q (some a.1, a.2) s') S F) F) : (frameStep env frame s).Meets Q S F := by
  unfold frameStep
  revert h
  cases frame.interpreter.step env.toHostEnv s with
  | next a r =>
    intro h
    exact h
  | stop action r =>
    intro h
    apply Outcome.Meets.bind
    refine Outcome.Meets.mono_next h ?_
    rintro ⟨answer, frame'⟩ s' hQ
    exact hQ
  | fault e =>
    intro h
    exact h

/-- What an instruction does not change in its interpreter. -/
theorem Interpreter.step_update (self : Interpreter) (host : HostEnv ε) (s : Shared ε) :
    (self.step host s).Meets (fun _ r => ∃ pc m, r = self.update pc m)
      (fun _ r => ∃ pc m, r = self.update pc m) (fun _ => True) := by
  refine step_meets (fun _ => trivial) fun opcode _ => ?_
  rcases fetchExecute (self.context host (self.pc + 1)) opcode (self.machine s) with
    ⟨_ | _, m⟩ | ⟨halt, m⟩ | e
  · exact ⟨_, _, rfl⟩
  · exact ⟨_, _, rfl⟩
  · exact ⟨_, _, rfl⟩
  · exact trivial

/-- An instruction keeps what a frame has got when it was opened. -/
theorem frameStep_keeps (frame : EthFrame) (s : Shared ε) :
    (frameStep env frame s).Meets (fun r _ => frame.Keeps r.2) (fun _ _ => True)
      (fun _ => True) := by
  apply frameStep_meets
  refine (frame.interpreter.step_update env.toHostEnv s).mono ?_ ?_ (fun _ h => h)
  · rintro _ _ ⟨pc, m, rfl⟩
    exact ⟨rfl, rfl, rfl, rfl, rfl, rfl⟩
  · rintro action _ ⟨pc, m, rfl⟩
    cases action with
    | newFrame input =>
      apply Outcome.Meets.bind
      unfold onBuffer
      dsimp only
      cases hchild : (frame.interpreter.update pc m).1.memory.newChildContext
          (frame.interpreter.update pc m).2.buffer with
      | none => exact trivial
      | some memories => exact ⟨rfl, rfl, rfl, rfl, rfl, SharedMemory.newChildContext_base hchild⟩
    | «return» result =>
      refine (processNextAction_return_gives env _ result _ trivial).mono ?_
        (fun _ _ _ => trivial) (fun _ _ => trivial)
      rintro a s' ⟨-, -, _, rfl, -⟩
      exact ⟨rfl, rfl, rfl, rfl, rfl, rfl⟩

/-- How `loopStep` goes on after the instruction of the innermost frame. -/
def AfterStep (env : EvmEnv ε) (rest : List EthFrame) (Q : LoopState → Shared ε → Prop)
    (S : EvmError ε → Shared ε → Prop) (F : Fault → Prop) :
    Option (ItemOrResult FrameInit FrameResult) × EthFrame → Shared ε → Prop
  | (none, frame), s => Q (.running (frame :: rest)) s
  | (some (.item init), frame), s =>
      (frameInit env init s).Meets
        (fun answer s' =>
          match answer with
          | .item new => Q (.running (new :: frame :: rest)) s'
          | .result result =>
              (returnResult frame result s').Meets
                (fun caller s'' => Q (.running (caller :: rest)) s'') S F) S F
  | (some (.result result), _), s =>
      match rest with
      | [] => Q (.done result) s
      | caller :: rest =>
          (returnResult caller result s).Meets
            (fun caller s' => Q (.running (caller :: rest)) s') S F

/-- A frame is finished once it has answered a result. -/
theorem frameStep_isFinished (frame : EthFrame) (s : Shared ε) : (frameStep env frame s).Meets
      (fun r _ => r.2.isFinished =
        match r.1 with
        | some (.result _) => true
        | _ => frame.isFinished) (fun _ _ => True) (fun _ => True) := by
  apply frameStep_meets
  cases frame.interpreter.step env.toHostEnv s with
  | next a r => exact rfl
  | stop action r =>
    cases action with
    | newFrame input =>
      apply Outcome.Meets.bind
      unfold onBuffer
      dsimp only
      cases r.1.memory.newChildContext r.2.buffer with
      | none => exact trivial
      | some m => exact rfl
    | «return» result =>
      refine (processNextAction_return_gives env _ result r.2 trivial).mono ?_
        (fun _ _ _ => trivial) (fun _ _ => trivial)
      rintro a s' ⟨-, -, _, rfl, -⟩
      exact rfl
  | fault e => exact trivial

/-- The rule for one step of the loop. -/
theorem loopStep_meets {frame : EthFrame} {rest : List EthFrame} {s : Shared ε}
    {Q : LoopState → Shared ε → Prop} (hfinished : frame.isFinished = false)
    (h : (frameStep env frame s).Meets (AfterStep env rest Q S F) S F) :
    (loopStep env (frame :: rest) s).Meets Q S F := by
  apply Outcome.Meets.bind
  refine (h.and (frameStep_isFinished frame s)).mono ?_ (fun _ _ h => h.1) (fun _ h => h.1)
  rintro ⟨answer, frame'⟩ s' ⟨hafter, hflag⟩
  match answer with
  | none => exact hafter
  | some (.item init) =>
    apply Outcome.Meets.bind
    refine Outcome.Meets.mono_next hafter ?_
    rintro (new | result) s'' hanswer
    · exact hanswer
    · -- no frame was opened, so the caller is not popped
      have hopen : frame'.isFinished = false := hflag.trans hfinished
      simp only [frameReturnResult, hopen]
      exact Outcome.Meets.bind hanswer
  | some (.result result) =>
    have hdone : frame'.isFinished = true := hflag
    cases rest with
    | nil =>
      simp only [frameReturnResult, hdone]
      exact hafter
    | cons caller rest =>
      simp only [frameReturnResult, hdone]
      exact Outcome.Meets.bind hafter

end Loop

/-! ## Runs -/

/-- The number of frames that a step has opened. -/
def LoopState.opened (frames : List EthFrame) : LoopState → Nat
  | .running frames' => frames'.length - frames.length
  | .done _ => 0

/-- The states of `run_exec_loop` between the instructions, with the number of executed instructions
and of opened frames. -/
inductive ExecRun {ε : Type} [Keccak256] (env : EvmEnv ε) (init : FrameInit) (s₀ : Shared ε) :
    Nat → Nat → LoopState → Shared ε → Prop where
  | opened {frame : EthFrame} {s : Shared ε}
      (h : frameInit env init s₀ = .next (.item frame) s) :
      ExecRun env init s₀ 0 1 (.running [frame]) s
  | refused {result : FrameResult} {s : Shared ε}
      (h : frameInit env init s₀ = .next (.result result) s) :
      ExecRun env init s₀ 0 0 (.done result) s
  | step {i f : Nat} {frames : List EthFrame} {s s' : Shared ε} {state : LoopState}
      (h : ExecRun env init s₀ i f (.running frames) s)
      (hstep : loopStep env frames s = .next state s') :
      ExecRun env init s₀ (i + 1) (f + state.opened frames) state s'

/-- The part of a run in which a frame stays open: from `frame` in the state `s` to `frame'`, with
the frames `inner` above it. The frames `callers` are below it. -/
inductive RunAbove {ε : Type} [Keccak256] (env : EvmEnv ε) (callers : List EthFrame)
    (frame : EthFrame) (s : Shared ε) : List EthFrame → EthFrame → Shared ε → Prop where
  | start : RunAbove env callers frame s [] frame s
  | step {inner inner' : List EthFrame} {frame' frame'' : EthFrame} {s' s'' : Shared ε}
      (h : RunAbove env callers frame s inner frame' s')
      (hstep : loopStep env (inner ++ frame' :: callers) s' =
        .next (.running (inner' ++ frame'' :: callers)) s'') :
      RunAbove env callers frame s inner' frame'' s''

/-- The result of a run that has ended. -/
def finalResult : Outcome (Shared ε) (EvmError ε) Fault LoopState → Option FrameResult
  | .next (.done result) _ => some result
  | _ => none

/-- The fault that a run has ended in. -/
def finalFault : Outcome (Shared ε) (EvmError ε) Fault LoopState → Option Fault
  | .fault e => some e
  | _ => none

theorem eq_fault_of_finalFault {o : Outcome (Shared ε) (EvmError ε) Fault LoopState}
    (h : finalFault o = some e) : o = .fault e := by
  cases o with
  | next state s => cases h
  | stop error s => cases h
  | fault e' =>
    cases h
    rfl

/-- The number of open frames of a run that goes on. -/
def openFrames : Outcome (Shared ε) (EvmError ε) Fault LoopState → Option Nat
  | .next (.running frames) _ => some frames.length
  | _ => none

/-- The frames below decide which of the frames above is the first one. -/
theorem callers_inj {inner callers : List EthFrame} (inner' : List EthFrame)
    {frame frame' : EthFrame} (h : inner ++ frame :: callers = inner' ++ frame' :: callers) :
    inner = inner' ∧ frame = frame' := by
  have hlength := congrArg List.length h
  rw [List.length_append, List.length_append, List.length_cons, List.length_cons] at hlength
  obtain ⟨hinner, hframe⟩ := List.append_inj h (by omega)
  exact ⟨hinner, (List.cons.inj hframe).1⟩

section Run

variable [Keccak256] {s₀ : Shared ε}

/-- What `runLoop` reaches is the state of a run. -/
theorem ExecRun.runLoop (h : ExecRun env init s₀ i f (.running frames) s)
    (hrun : runLoop env n frames s = .next state s') : ∃ i' f', ExecRun env init s₀ i' f' state s' ∧
      ∀ frames', state = .running frames' → i' = i + n := by
  induction n generalizing i f frames s with
  | zero =>
    cases hrun
    exact ⟨i, f, h, fun _ _ => rfl⟩
  | succ n ih =>
    obtain ⟨state', s₁, hstep, hrest⟩ := Exec.bind_eq_next hrun
    cases state' with
    | running frames' =>
      obtain ⟨i', f', hrun', hcount⟩ := ih (h.step hstep) hrest
      exact ⟨i', f', hrun', fun frames'' hs => by rw [hcount frames'' hs]; omega⟩
    | done result =>
      cases hrest
      exact ⟨i + 1, _, h.step hstep, nofun⟩

/-- What `runExecLoop` reaches is the state of a run. -/
theorem ExecRun.runExecLoop {s' : Shared ε} (hrun : runExecLoop env n init s₀ = .next state s') :
    ∃ i f, ExecRun env init s₀ i f state s' ∧ ∀ frames, state = .running frames → i = n := by
  obtain ⟨answer, s₁, hinit, hrest⟩ := Exec.bind_eq_next hrun
  cases answer with
  | item frame =>
    obtain ⟨i, f, h, hcount⟩ := (ExecRun.opened hinit).runLoop hrest
    exact ⟨i, f, h, fun frames hs => (hcount frames hs).trans (Nat.zero_add n)⟩
  | result result =>
    cases hrest
    exact ⟨0, 0, .refused hinit, nofun⟩

/-- A fault of `runLoop` is the fault of a step. -/
theorem ExecRun.runLoop_fault {s : Shared ε} (h : ExecRun env init s₀ i f (.running frames) s)
    (hrun : Revm.runLoop env n frames s = .fault e) :
    ∃ i' f' frames' s', ExecRun env init s₀ i' f' (.running frames') s' ∧
      loopStep env frames' s' = .fault e := by
  induction n generalizing i f frames s with
  | zero => cases hrun
  | succ n ih =>
    rcases Exec.bind_eq_fault hrun with hstep | ⟨state, s₁, hstep, hrest⟩
    · exact ⟨i, f, frames, s, h, hstep⟩
    · cases state with
      | running frames' => exact ih (h.step hstep) hrest
      | done result => cases hrest

/-- A fault of `runExecLoop` that is not a panic is the fault of a step. -/
theorem ExecRun.exists_fault (hbounded : env.precompiles.Bounded)
    (he : e ≠ .panic) (hrun : finalFault (Revm.runExecLoop env n init s₀) = some e) :
    ∃ i f frames s, ExecRun env init s₀ i f (.running frames) s ∧
      loopStep env frames s = .fault e := by
  rcases Exec.bind_eq_fault (eq_fault_of_finalFault hrun) with hinit | ⟨answer, s₁, hinit, hrest⟩
  · exact absurd hinit ((frameInit_gives hbounded init s₀ trivial).ne_fault he)
  · cases answer with
    | item frame => exact (ExecRun.opened hinit).runLoop_fault hrest
    | result result => cases hrest

/-- A run of `runExecLoop` that goes on. -/
theorem ExecRun.exists_running {k : Nat}
    (hrun : openFrames (Revm.runExecLoop env n init s₀) = some k) :
    ∃ i f frames s, ExecRun env init s₀ i f (.running frames) s ∧ frames.length = k := by
  cases hloop : Revm.runExecLoop env n init s₀ with
  | next state s =>
    rw [hloop] at hrun
    cases state with
    | running frames =>
      obtain ⟨i, f, h, -⟩ := ExecRun.runExecLoop hloop
      exact ⟨i, f, frames, s, h, Option.some.inj hrun⟩
    | done result => cases hrun
  | stop error s =>
    rw [hloop] at hrun
    cases hrun
  | fault e =>
    rw [hloop] at hrun
    cases hrun

end Run

end Revm
