import Revm.Handler.Codes
import Revm.Handler.FrameRun
import Revm.Interpreter.StepMemory
import Revm.Journal.Nested
import Revm.Journal.ReadOnly

/-!
# Static calls

A static frame opens static frames only: `asksForFrame_static` says that each of the four call
instructions hands the flag on and moves no value to another account, and that a creation stops. Its
other instructions reach the journal by loads alone. So the journal is read only as long as the
frame and the frames above it run (`RunAbove.readOnly`), and also after the checkpoint of the frame
has been committed or reverted (`FrameEnd.unchanged`).
-/

set_option autoImplicit false

namespace Revm

open List

variable {ε : Type} {input : FrameInput} {frame' : EthFrame} {inputs : CallInputs}
  {init : FrameInit} {above : List EthFrame} {ctx : InstructionContext ε} {start : JournalInner}
  {frame : EthFrame}

/-- The call moves no value from one account to another. -/
def CallInputs.MovesNoValue (inputs : CallInputs) : Prop :=
  ∀ value, inputs.value = .transfer value → value = 0 ∨ inputs.caller = inputs.targetAddress

/-- The input of a static call that moves no value. -/
def FrameInput.OnlyReads : FrameInput → Prop
  | .call inputs => inputs.isStatic = true ∧ inputs.MovesNoValue
  | .create _ => False

/-! ## The instructions of a static frame -/

namespace Instructions

variable {R : JournalInner → JournalInner → Prop} (hR : JournalRule ctx.env.db false R)

open Program

include hR

/-- The end of a call instruction, of which only the input of the frame matters. -/
theorem callTail_static {α : Type} (hstatic : ctx.runtimeFlag.isStatic = true)
    (load : Program ctx false α) {f : ByteRange × ByteRange → α → CallInputs}
    (hf : ∀ ranges a, (FrameInput.call (f ranges a)).OnlyReads) :
    (getMemoryInputAndOutRanges >>= fun ranges => load >>= fun a =>
      pure (FrameInput.call (f ranges a)) : Program ctx false FrameInput).run.Gives
      (journalDiscipline hR) fun input _ => input.OnlyReads := by
  have hobeys : ∀ {β : Type} (x : Program ctx false β), x.run.Obeys (journalDiscipline hR) :=
    fun x => x.built.obeys_journal hR (by simp) fun h => by
      rw [hstatic] at h
      cases h
  apply gives_rest (hobeys _)
  intro ranges
  apply gives_rest (hobeys _)
  intro a
  exact gives_pure fun _ _ => hf ranges a

/-- A static frame asks for static frames that move no value. -/
theorem asksForFrame_static (hstatic : ctx.runtimeFlag.isStatic = true)
    {program : Program ctx false FrameInput} (h : AsksForFrame program) :
    program.run.Gives (journalDiscipline hR) fun input _ => input.OnlyReads := by
  have hobeys : ∀ {α : Type} (x : Program ctx false α), x.run.Obeys (journalDiscipline hR) :=
    fun x => x.built.obeys_journal hR (by simp) fun h => by
      rw [hstatic] at h
      cases h
  cases h with
  | create isCreate2 =>
    intro s _
    unfold create nonStatic Prim.nonStatic
    dsimp only
    rw [if_pos hstatic]
    exact hR.refl _
  | call =>
    apply gives_rest (hobeys _)
    intro x
    dsimp only
    split_ifs with htransfer
    · exact fun s _ => hR.refl _
    · -- a transfer would have stopped
      have hzero : x 2 = 0 := by
        by_contra hne
        exact htransfer ⟨hstatic, by simpa using hne⟩
      refine callTail_static hR hstatic _ fun ranges a => ⟨hstatic, fun value hvalue => ?_⟩
      cases hvalue
      exact .inl hzero
  | callCode =>
    apply gives_rest (hobeys _)
    intro x
    -- the account pays itself
    exact callTail_static hR hstatic _ fun ranges a => ⟨hstatic, fun _ _ => .inr rfl⟩
  | delegateCall =>
    apply gives_rest (hobeys _)
    intro _
    apply gives_rest (hobeys _)
    intro x
    exact callTail_static hR hstatic _ fun ranges a => ⟨hstatic, fun _ h => by cases h⟩
  | staticCall =>
    apply gives_rest (hobeys _)
    intro _
    apply gives_rest (hobeys _)
    intro x
    refine callTail_static hR hstatic _ fun ranges a => ⟨rfl, fun value hvalue => ?_⟩
    cases hvalue
    exact .inl rfl

end Instructions

section Step

/-- A new frame of a static frame only reads. -/
theorem Behaviour.execute_static (hstatic : ctx.runtimeFlag.isStatic = true) (b : Behaviour ctx)
    (hframe : ∀ program, b = .newFrame program → AsksForFrame program) (s s' : Machine ε)
    (h : b.execute s = .next (.newFrame input) s') : input.OnlyReads := by
  have hR : JournalRule ctx.env.db false fun _ _ => True :=
    { refl := fun _ => trivial
      trans := fun _ _ => trivial
      load := fun _ _ _ _ => trivial
      sload := fun _ _ _ _ _ _ => trivial
      sstore := nofun
      tstore := nofun
      log := nofun
      selfdestruct := fun h => by cases h }
  cases b with
  | run program =>
    obtain ⟨_, _, -, hpure⟩ := Exec.bind_eq_next h
    cases hpure
  | push n =>
    simp only [Behaviour.execute, pushImmediate] at h
    split_ifs at h
    split at h
    · cases h
    · cases h
  | jump program =>
    obtain ⟨target, _, -, hpure⟩ := Exec.bind_eq_next h
    cases target with
    | none => cases hpure
    | some target => cases hpure
  | newFrame program =>
    obtain ⟨input', s₁, hprogram, hpure⟩ := Exec.bind_eq_next h
    cases hpure
    have hgives := Instructions.asksForFrame_static hR hstatic (hframe program rfl) s trivial
    exact (hgives.next hprogram).2.2

theorem Interpreter.step_static [Keccak256] {env : HostEnv ε} {self self' : Interpreter}
    (hstatic : self.runtimeFlag.isStatic = true) {shared shared' : Shared ε}
    (h : self.step env shared = .stop (.newFrame input) (self', shared')) : input.OnlyReads := by
  unfold step at h
  cases hop : self.bytecode.bytesRef[self.pc]? with
  | none =>
    rw [hop] at h
    cases h
  | some opcode =>
    rw [hop] at h
    dsimp only at h
    rcases hfetch : fetchExecute (self.context env (self.pc + 1)) opcode (self.machine shared) with
      ⟨_ | input', m⟩ | ⟨halt, m⟩ | e
    · rw [hfetch] at h
      cases h
    · rw [hfetch] at h
      cases h
      unfold fetchExecute at hfetch
      dsimp only at hfetch
      split_ifs at hfetch
      · cases hfetch
      · exact Behaviour.execute_static hstatic _
          (fun program h => asksForFrame_instructionTable _ h) _ _ hfetch
    · rw [hfetch] at h
      cases h
    · rw [hfetch] at h
      cases h

end Step

/-! ## Frames -/

/-- A static frame that was opened after `start`. -/
structure StaticFrame (start : JournalInner) (frame : EthFrame) : Prop where
  isStatic : frame.interpreter.runtimeFlag.isStatic = true
  unfinished : frame.isFinished = false
  isCall : ∃ range, frame.data = .call range
  logI : start.logs.length ≤ frame.checkpoint.logI
  journalI : start.journal.length ≤ frame.checkpoint.journalI

theorem StaticFrame.of_keeps (h : StaticFrame start frame) (hkeeps : frame.Keeps frame')
    (hfinished : frame'.isFinished = frame.isFinished) : StaticFrame start frame' where
  isStatic := by rw [hkeeps.runtimeFlag, h.isStatic]
  unfinished := hfinished.trans h.unfinished
  isCall := by
    rw [hkeeps.data]
    exact h.isCall
  logI := by rw [hkeeps.checkpoint]; exact h.logI
  journalI := by rw [hkeeps.checkpoint]; exact h.journalI

section Frames

variable {env : EvmEnv ε}
variable {callers : List EthFrame} {s : Shared ε} (db : Database ε)

/-- The computation only reads the journal. -/
abbrev KeepsContent {α : Type} (start : JournalInner) (x : EvmM ε α) : Prop :=
  x.Obeys (keepsDiscipline ε fun j => start.ReadOnly db j)

/-- The operations of the host that do not write. -/
theorem journalRule_readOnly (start : JournalInner) :
    JournalRule db false fun j j' => start.ReadOnly db j → start.ReadOnly db j' where
  refl _ h := h
  trans h h' hj := h' (h hj)
  load _ a loadCode skip h := h.loadAccountOptional a loadCode skip
  sload _ _ _ _ _ hr h := h.sload hr
  sstore h := by cases h
  tstore h := by cases h
  log h := by cases h
  selfdestruct h := by cases h

theorem checkpointClose_readOnly (isOk : Bool) {cp : JournalCheckpoint}
    (hlog : start.logs.length ≤ cp.logI) (hjournal : start.journal.length ≤ cp.journalI) :
    KeepsContent db start (EvmM.checkpointClose isOk cp : EvmM ε Unit) := by
  unfold EvmM.checkpointClose
  split_ifs
  · exact EvmM.onJournal_keeps fun j hj => hj.checkpointCommit
  · apply EvmM.onJournal?_keeps
    intro j r hj hr
    obtain ⟨j', hj', rfl⟩ := Option.map_eq_some_iff.1 hr
    exact hj.checkpointRevert hlog hjournal hj'

theorem transferCallValue_readOnly (hvalue : inputs.MovesNoValue) :
    KeepsContent env.db start (transferCallValue inputs : EvmM ε _) := by
  unfold transferCallValue
  cases hv : inputs.value with
  | transfer value =>
    exact EvmM.onJournal?_keeps fun j r hj hr => hj.transferLoaded (hvalue value hv) hr
  | apparent value => exact .pure none

theorem callBytecode_readOnly (inputs : CallInputs) :
    KeepsContent env.db start (callBytecode env inputs) := by
  unfold callBytecode
  rcases inputs.knownBytecode with _ | ⟨hash, code⟩
  · refine .bind (EvmM.onJournalDb_keeps fun j hj => ?_) fun account => .pure _
    exact hj.loadAccountOptional inputs.bytecodeAddress true false
  · exact .pure code

/-- A checkpoint that is made after the start lies behind it. -/
theorem checkpoint_readOnly : (EvmM.checkpoint : EvmM ε JournalCheckpoint).Gives
      (keepsDiscipline ε fun j => start.ReadOnly env.db j)
      fun cp _ => start.logs.length ≤ cp.logI ∧ start.journal.length ≤ cp.journalI := by
  intro s hs
  refine ⟨JournalInner.ReadOnly.checkpoint hs, trivial, ?_, ?_⟩
  · exact (congrArg length hs.logs).ge
  · obtain ⟨entries, hjournal, -⟩ := hs.entries
    show start.journal.length ≤ s.host.journal.journal.length
    rw [hjournal, length_append]
    exact Nat.le_add_right _ _

/-- What is known of the answer to the input of a static call. -/
def StaticAnswer (start : JournalInner) : ItemOrResult EthFrame FrameResult → Prop
  | .item frame => StaticFrame start frame
  | .result _ => True

theorem makeCallFrame_static (hpre : env.precompiles.LeavesJournal) (depth : Nat)
    (memory : SharedMemory) (hstatic : inputs.isStatic = true)
    (hvalue : inputs.MovesNoValue) : (makeCallFrame env depth memory inputs).Gives
      (keepsDiscipline ε fun j => start.ReadOnly env.db j)
      fun answer _ => StaticAnswer start answer := by
  unfold makeCallFrame
  split_ifs
  · exact .pure fun _ _ => trivial
  · apply checkpoint_readOnly.bind_value
    rintro checkpoint ⟨hlog, hjournal⟩
    apply (transferCallValue_readOnly hvalue).bind_gives
    rintro (_ | error)
    · apply (runPrecompile_keeps hpre inputs).bind_gives
      rintro (_ | result)
      · apply (callBytecode_readOnly inputs).bind_gives
        intro bytecode
        split_ifs
        · apply (checkpointClose_readOnly env.db true hlog hjournal).bind_gives
          intro _
          exact .pure fun _ _ => trivial
        · exact .pure fun _ _ => ⟨hstatic, rfl, ⟨_, rfl⟩, hlog, hjournal⟩
      · apply (checkpointClose_readOnly env.db _ hlog hjournal).bind_gives
        intro _
        exact .pure fun _ _ => trivial
    · apply (checkpointClose_readOnly env.db false hlog hjournal).bind_gives
      intro _
      exact .pure fun _ _ => trivial

variable [Keccak256]

theorem frameInit_static (hpre : env.precompiles.LeavesJournal)
    (hinput : init.frameInput.OnlyReads) :
    (frameInit env init).Gives (keepsDiscipline ε fun j => start.ReadOnly env.db j)
      fun answer _ => StaticAnswer start answer := by
  unfold frameInit
  cases hframe : init.frameInput with
  | call inputs =>
    rw [hframe] at hinput
    exact makeCallFrame_static hpre _ _ hinput.1 hinput.2
  | create inputs =>
    rw [hframe] at hinput
    exact hinput.elim

/-- What an instruction of a static frame leads to. -/
def StaticStep (start : JournalInner) :
    Option (ItemOrResult FrameInit FrameResult) × EthFrame → Prop
  | (none, frame) => StaticFrame start frame
  | (some (.item init), frame) => init.frameInput.OnlyReads ∧ StaticFrame start frame
  | (some (.result _), _) => True

theorem processNextAction_static (hframe : StaticFrame start frame) {action : InterpreterAction}
    (haction : ∀ input, action = .newFrame input → input.OnlyReads) :
    (processNextAction env frame action).Gives
      (keepsDiscipline ε fun j => start.ReadOnly env.db j)
      fun r _ => StaticStep start (some r.1, r.2) := by
  unfold processNextAction
  cases action with
  | newFrame input =>
    apply (EvmM.onBuffer_keeps _).bind_gives
    rintro ⟨memory, child⟩
    exact .pure fun _ _ => ⟨haction input rfl, hframe.isStatic, hframe.unfinished, hframe.isCall,
      hframe.logI, hframe.journalI⟩
  | «return» result =>
    obtain ⟨range, hdata⟩ := hframe.isCall
    rw [hdata]
    apply (checkpointClose_readOnly env.db _ hframe.logI hframe.journalI).bind_gives
    intro _
    exact .pure fun _ _ => trivial

/-- One instruction of a static frame. -/
theorem frameStep_static (hframe : StaticFrame start frame) :
    (frameStep env frame).Gives (keepsDiscipline ε fun j => start.ReadOnly env.db j)
      fun r _ => StaticStep start r := by
  intro s hs
  have hjournal := frame.interpreter.step_journal (journalRule_readOnly env.db start)
    (fun h => by rw [hframe.isStatic] at h; cases h) s
  have hupdate := frame.interpreter.step_update env.toHostEnv s
  unfold frameStep
  revert hjournal hupdate
  rcases hstep : frame.interpreter.step env.toHostEnv s with
    ⟨_, interpreter, s'⟩ | ⟨action, interpreter, s'⟩ | e
  · rintro hjournal ⟨pc, m, hr⟩
    cases hr
    exact ⟨hjournal hs, trivial, hframe.of_keeps ⟨rfl, rfl, rfl, rfl, rfl, rfl⟩ rfl⟩
  · rintro hjournal ⟨pc, m, hr⟩
    cases hr
    have hframe' : StaticFrame start
        { frame with interpreter := (frame.interpreter.update pc m).1 } :=
      hframe.of_keeps ⟨rfl, rfl, rfl, rfl, rfl, rfl⟩ rfl
    have haction : ∀ input, action = .newFrame input → input.OnlyReads := by
      rintro input rfl
      exact Interpreter.step_static hframe.isStatic hstep
    exact Exec.gives_map (processNextAction_static hframe' haction _ (hjournal hs))
      fun _ _ _ _ h => h
  · intro _ _
    trivial

/-! ## The loop -/

/-- The state of the loop above the frames `callers`: as long as the static frame is open, all
frames above `callers` are static. -/
def StaticAbove (start : JournalInner) (callers : List EthFrame) (state : LoopState) : Prop :=
  ∀ above, above ≠ [] → state = .running (above ++ callers) → ∀ frame ∈ above,
    StaticFrame start frame

omit [Keccak256] in
theorem StaticAbove.running (above : List EthFrame) (h : ∀ frame ∈ above, StaticFrame start frame) :
    StaticAbove start callers (.running (above ++ callers)) := by
  intro above' _ heq
  rw [← append_cancel_right (LoopState.running.inj heq)]
  exact h

omit [Keccak256] in
/-- A static frame that gets a result goes on as a static frame. -/
theorem returnResult_static {db : Database ε}
    (hframe : StaticFrame start frame) (habove : ∀ f ∈ above, StaticFrame start f)
    (result : FrameResult) (hs : start.ReadOnly db s.host.journal) :
    (returnResult frame result s).Meets
      (fun caller s' => start.ReadOnly db s'.host.journal ∧
        StaticAbove start callers (.running (caller :: above ++ callers)))
      (fun _ s' => start.ReadOnly db s'.host.journal) fun _ => True := by
  refine (returnResult_resumes frame result s hs).mono_next ?_
  rintro caller s' ⟨hs', -, gas, memory, rfl⟩
  refine ⟨hs', .running (_ :: above) ?_⟩
  rw [forall_mem_cons]
  exact ⟨⟨hframe.isStatic, hframe.unfinished, hframe.isCall, hframe.logI, hframe.journalI⟩, habove⟩

/-- One step of the loop with static frames above `callers`. -/
theorem loopStep_static (hpre : env.precompiles.LeavesJournal) (callers : List EthFrame)
    (habove : ∀ f ∈ above, StaticFrame start f) (hne : above ≠ [])
    (hs : start.ReadOnly env.db s.host.journal) : (loopStep env (above ++ callers) s).Meets
      (fun state s' => start.ReadOnly env.db s'.host.journal ∧ StaticAbove start callers state)
      (fun _ s' => start.ReadOnly env.db s'.host.journal) fun _ => True := by
  cases above with
  | nil => exact absurd rfl hne
  | cons top above =>
    rw [forall_mem_cons] at habove
    obtain ⟨htop, habove⟩ := habove
    apply loopStep_meets htop.unfinished
    refine (frameStep_static htop s hs).mono_next ?_
    rintro ⟨answer, frame⟩ s' ⟨hs', -, hstep⟩
    match answer with
    | none =>
      refine ⟨hs', .running (frame :: above) ?_⟩
      rw [forall_mem_cons]
      exact ⟨hstep, habove⟩
    | some (.item init) =>
      refine (frameInit_static hpre hstep.1 s' hs').mono_next ?_
      rintro (new | result) s'' ⟨hs'', -, hanswer⟩
      · refine ⟨hs'', .running (new :: frame :: above) ?_⟩
        rw [forall_mem_cons, forall_mem_cons]
        exact ⟨hanswer, hstep.2, habove⟩
      · exact returnResult_static hstep.2 habove result hs''
    | some (.result result) =>
      cases above with
      | cons caller above =>
        rw [forall_mem_cons] at habove
        exact returnResult_static habove.1 habove.2 result hs'
      | nil =>
        cases callers with
        | nil => exact ⟨hs', nofun⟩
        | cons caller callers =>
          -- the static frame has ended
          refine (returnResult_resumes caller result s' hs').mono_next ?_
          rintro caller' s'' ⟨hs'', -, -⟩
          refine ⟨hs'', fun above hne heq => ?_⟩
          have hlength := congrArg length (LoopState.running.inj heq)
          simp only [length_append, length_cons] at hlength
          exact absurd (length_eq_zero_iff.1 (by omega)) hne

/-- As long as a static frame is open, the journal is only read. -/
theorem RunAbove.readOnly (hpre : env.precompiles.LeavesJournal) {inner : List EthFrame}
    {s' : Shared ε} (hframe : StaticFrame start frame) (hs : start.ReadOnly env.db s.host.journal)
    (h : RunAbove env callers frame s inner frame' s') :
    start.ReadOnly env.db s'.host.journal ∧ ∀ f ∈ inner ++ [frame'], StaticFrame start f := by
  induction h with
  | start => exact ⟨hs, forall_mem_singleton.2 hframe⟩
  | @step inner inner' frame' frame'' s' s'' _ hstep ih =>
    obtain ⟨hs', hstatic⟩ := ih
    have hloop := loopStep_static hpre callers hstatic (by simp) hs'
    rw [append_assoc] at hloop
    obtain ⟨hs'', habove⟩ := hloop.next hstep
    refine ⟨hs'', habove (inner' ++ [frame'']) (by simp) ?_⟩
    rw [append_assoc]
    rfl

/-! ## The end of a static call -/

/-- A call ends with a result: at once, or after the frame that it opens has run. The frames
`callers` wait below it. -/
inductive FrameEnd (env : EvmEnv ε) (callers : List EthFrame) (init : FrameInit) (s₀ : Shared ε) :
    FrameResult → Shared ε → Prop where
  | refused {result : FrameResult} {s : Shared ε}
      (h : frameInit env init s₀ = .next (.result result) s) : FrameEnd env callers init s₀ result s
  | finished {frame frame' frame'' : EthFrame} {result : FrameResult} {s s' s'' : Shared ε}
      (hopen : frameInit env init s₀ = .next (.item frame) s)
      (hrun : RunAbove env callers frame s [] frame' s')
      (hend : frameStep env frame' s' = .next (some (.result result), frame'') s'') :
      FrameEnd env callers init s₀ result s''

/-- What a step of the loop leaves: open frames, or the result of the only frame. -/
def StepEnds (env : EvmEnv ε) (frame : EthFrame) (rest : List EthFrame) (s : Shared ε) :
    LoopState → Shared ε → Prop
  | .running frames, _ => frames ≠ []
  | .done result, s' =>
      rest = [] ∧ ∃ frame', frameStep env frame s = .next (some (.result result), frame') s'

theorem loopStep_ends (rest : List EthFrame) (s : Shared ε) (hfinished : frame.isFinished = false) :
    (loopStep env (frame :: rest) s).Meets (StepEnds env frame rest s) (fun _ _ => True)
      fun _ => True := by
  have hreturn : ∀ (caller : EthFrame) (rest' : List EthFrame) (result : FrameResult)
      (s₁ : Shared ε), (returnResult caller result s₁).Meets
        (fun caller' s₂ => StepEnds env frame rest s (.running (caller' :: rest')) s₂)
        (fun _ _ => True) fun _ => True := by
    intro caller rest' result s₁
    exact (returnResult_resumes (I := fun _ => True) caller result s₁ trivial).mono
      (fun _ _ _ => cons_ne_nil _ _) (fun _ _ _ => trivial) fun _ _ => trivial
  apply loopStep_meets hfinished
  rcases hstep : frameStep env frame s with ⟨⟨answer, frame'⟩, s₁⟩ | ⟨error, s₁⟩ | e
  · match answer with
    | none => exact cons_ne_nil _ _
    | some (.item init) =>
      show (frameInit env init s₁).Meets _ _ _
      rcases frameInit env init s₁ with ⟨new | result, s₂⟩ | ⟨error, s₂⟩ | e
      · exact cons_ne_nil _ _
      · exact hreturn _ _ _ _
      · trivial
      · trivial
    | some (.result result) =>
      cases rest with
      | nil => exact ⟨rfl, frame', hstep⟩
      | cons caller rest => exact hreturn _ _ _ _
  · trivial
  · trivial

/-- The end of a static call that runs alone. -/
theorem FrameEnd.of_runExecLoop (hpre : env.precompiles.LeavesJournal)
    (hinput : init.frameInput.OnlyReads) {s₀ : Shared ε} {n : Nat} {result : FrameResult}
    (h : runExecLoop env n init s₀ = .next (.done result) s) :
    FrameEnd env [] init s₀ result s := by
  obtain ⟨answer, s₁, hinit, hrest⟩ := Exec.bind_eq_next h
  cases answer with
  | result result' =>
    cases hrest
    exact .refused hinit
  | item frame =>
    have hstart : s₀.host.journal.ReadOnly env.db s₀.host.journal := .refl env.db _
    have hopened := (frameInit_static hpre hinput s₀ hstart).next hinit
    -- by induction on the steps that are left, from every state in which the frame is open
    have hrun : ∀ n inner frame' s', RunAbove env [] frame s₁ inner frame' s' →
        runLoop env n (inner ++ [frame']) s' = .next (.done result) s →
          FrameEnd env [] init s₀ result s := by
      intro n
      induction n with
      | zero =>
        intro inner frame' s' _ hloop
        cases hloop
      | succ n ih =>
        intro inner frame' s' habove hloop
        obtain ⟨state, s₂, hstep, hrest⟩ := Exec.bind_eq_next hloop
        obtain ⟨-, hstatic⟩ := habove.readOnly hpre hopened.2.2 hopened.1
        cases state with
        | running frames =>
          have hne : frames ≠ [] := by
            cases inner with
            | nil => exact (loopStep_ends [] s' (hstatic frame' (by simp)).unfinished).next hstep
            | cons top inner =>
              exact (loopStep_ends _ s' (hstatic top (by simp)).unfinished).next hstep
          obtain ⟨inner', frame'', rfl⟩ := (eq_nil_or_concat' frames).resolve_left hne
          exact ih inner' frame'' s₂ (habove.step hstep) hrest
        | done result' =>
          cases hrest
          cases inner with
          | nil =>
            obtain ⟨-, frame'', hend⟩ :=
              (loopStep_ends [] s' (hstatic frame' (by simp)).unfinished).next hstep
            exact .finished hinit habove hend
          | cons top inner =>
            obtain ⟨hnil, -⟩ :=
              (loopStep_ends _ s' (hstatic top (by simp)).unfinished).next hstep
            exact absurd hnil (by simp)
    exact hrun n [] frame s₁ .start hrest

/-- A static call that moves no value changes nothing, whatever code it runs and whatever frames it
opens. -/
theorem staticCall_unchanged (hpre : env.precompiles.LeavesJournal) (callers : List EthFrame)
    {init : FrameInit} {inputs : CallInputs} (hinput : init.frameInput = .call inputs)
    (hstatic : inputs.isStatic = true) (hvalue : inputs.MovesNoValue) {s₀ s : Shared ε}
    {result : FrameResult} (hend : FrameEnd env callers init s₀ result s) :
    s₀.host.journal.Unchanged env.db s.host.journal := by
  have hreads : init.frameInput.OnlyReads := by
    rw [hinput]
    exact ⟨hstatic, hvalue⟩
  have hstart : s₀.host.journal.ReadOnly env.db s₀.host.journal := .refl env.db _
  have hinit := frameInit_static hpre hreads s₀ hstart
  cases hend with
  | refused h => exact (hinit.next h).1.unchanged
  | finished hopen hrun hend =>
    obtain ⟨hs, -, hframe⟩ := hinit.next hopen
    obtain ⟨hs', hstatic'⟩ := hrun.readOnly hpre hframe hs
    have hstep := frameStep_static (hstatic' _ mem_cons_self) _ hs'
    exact (hstep.next hend).1.unchanged

end Frames

/-! ## Concrete calls -/

/-- The static call of account `target` by account `1`, with code that is known. -/
def staticCallOf (target : Address) (value : U256) (code : List UInt8) : FrameInit where
  depth := 1
  memory := .new
  frameInput := .call
    { input := .bytes []
      returnMemoryOffset := ⟨0, 0⟩
      gasLimit := 100000
      bytecodeAddress := target
      knownBytecode := some (0, .legacyAnalyzed code)
      targetAddress := target
      caller := 1
      value := .transfer value
      scheme := .staticCall
      isStatic := true }

/-- Account `1` calls account `2`, loads a slot and reverts. -/
theorem staticCall_unchanged_nested : letI := lengthKeccak
    let env : EvmEnv Empty := .default contractDb .prague
    let init := staticCallOf 1 0
      [0x5f, 0x5f, 0x5f, 0x5f, 0x60, 0x02, 0x5a, 0xfa, 0x60, 0x01, 0x54, 0x5f, 0x5f, 0xfd]
    let s₀ : Shared Empty := ⟨[], ⟨journalAfter .prague [.loadAccount 1], none⟩⟩
    init.frameInput.OnlyReads ∧ ∃ result s, FrameEnd env [] init s₀ result s ∧
      result.interpreterResult.result = .revert ∧
      s₀.host.journal.Unchanged contractDb s.host.journal := by
  let := lengthKeccak
  intro env init s₀
  have hpre : env.precompiles.LeavesJournal := ethPrecompiles_leavesJournal fun _ => none
  have hreads : init.frameInput.OnlyReads := ⟨rfl, fun value h => by cases h; exact .inl rfl⟩
  have hresult : (finalResult (runExecLoop env 12 init s₀)).map (·.interpreterResult.result) =
      some .revert := by decide +kernel
  refine ⟨hreads, ?_⟩
  rcases hrun : runExecLoop env 12 init s₀ with ⟨frames | result, s⟩ | ⟨error, s⟩ | e
  · rw [hrun] at hresult
    cases hresult
  · rw [hrun] at hresult
    have hend := FrameEnd.of_runExecLoop hpre hreads hrun
    exact ⟨result, s, hend, Option.some.inj hresult,
      staticCall_unchanged hpre [] rfl hreads.1 hreads.2 hend⟩
  · rw [hrun] at hresult
    cases hresult
  · rw [hrun] at hresult
    cases hresult

/-- A database that still has the storage of accounts that do not exist. -/
def leftoverDb : Database Empty where
  basic _ := .ok none
  codeByHash _ := .ok Bytecode.default
  storage _ _ := .ok 7

/-- What the journal has before a static call, which is made after `ops`, and after it. -/
def aroundStaticCall {α : Type} (db : Database Empty) (spec : SpecId) (j : JournalInner)
    (ops : List Op) (init : FrameInit) (f : JournalInner → α) : Option (α × α) :=
  letI := lengthKeccak
  match run db ops ⟨j, []⟩ with
  | none => none
  | some c =>
      match runExecLoop (.default db spec) 100 init ⟨[], ⟨c.journal, none⟩⟩ with
      | .next (.done _) s => some (f c.journal, f s.host.journal)
      | _ => none

/-- The value of a static call moves if an embedder gives it one. The first load of an account that
was destroyed clears it. A slot of a created account is zero, whatever the database has for it. -/
theorem staticCall_changes :
    aroundStaticCall contractDb .prague (.new .prague .new) [.loadAccount 1, .loadAccount 2]
        (staticCallOf 2 3 []) (fun j => (j.state.lookup 1).map (·.info.balance)) =
      some (some 5, some 2) ∧
    aroundStaticCall contractDb .shanghai
        (journalAfter .shanghai [.loadAccount 1, .selfdestruct 1 3]) [.loadAccount 2]
        (staticCallOf 2 0 [0x60, 0x01, 0x31]) (fun j => (j.state.lookup 1).map (·.info.nonce)) =
      some (some 1, some 0) ∧
    (aroundStaticCall leftoverDb .prague (.new .prague .new)
        [.loadAccount 1, .loadAccount 2, .createAccountCheckpoint 1 2 0 .prague]
        (staticCallOf 2 0 [0x60, 0x01, 0x54]) (fun j =>
          (j.state.lookup 2).bind fun account =>
            (account.storage.lookup 1).map (·.presentValue)) = some (none, some 0) ∧
      leftoverDb.storage 2 1 = .ok 7) := by
  refine ⟨by decide +kernel, by decide +kernel, by decide +kernel, rfl⟩

end Revm
