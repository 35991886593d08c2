import Revm.Inspector.Handler
import Revm.Journal.Nested

/-!
# Inspection is transparent

`Handler.inspectRun_simulates`: with hooks that return nothing and change nothing but the inspector,
an inspected transaction ends as the transaction without an inspector does, with the same result or
error and the same context, after the same number of instructions. A panic of the inspection layer
has no counterpart in the other run, so none is reached. Two invariants carry this: a frame and its
result are of the kind of its input (`frame_end` matches the two), and a `LOG` instruction that goes
on has left a log (`inspect_log` unwraps the last one).
-/

set_option autoImplicit false

namespace Revm

open InspectM

variable {ε : Type}

/-! ## Kinds -/

def FrameInput.isCall : FrameInput → Bool
  | .call _ => true
  | .create _ => false

def FrameData.isCall : FrameData → Bool
  | .call _ => true
  | .create _ => false

def FrameResult.isCall : FrameResult → Bool
  | .call _ _ => true
  | .create _ _ => false

/-- The frame or the result that an input of a kind gets. -/
def ItemOrResult.OfKind (isCall : Bool) : ItemOrResult EthFrame FrameResult → Prop
  | .item frame => frame.data.isCall = isCall
  | .result r => r.isCall = isCall

section Kinds

open Exec

variable [Keccak256] (env : EvmEnv ε)

omit [Keccak256] in
theorem makeCallFrame_ofKind (depth : Nat) (memory : SharedMemory) (inputs : CallInputs) :
    Ensures (ItemOrResult.OfKind true) (makeCallFrame env depth memory inputs) := by
  unfold makeCallFrame
  split_ifs
  · exact .pure rfl
  · refine .bind fun checkpoint => .bind fun transfer => ?_
    cases transfer with
    | some error => exact .bind fun _ => .pure rfl
    | none =>
      refine .bind fun precompile => ?_
      cases precompile with
      | some result => exact .bind fun _ => .pure rfl
      | none =>
        refine .bind fun bytecode => ?_
        split_ifs
        · exact .bind fun _ => .pure rfl
        · exact .pure rfl

theorem makeCreateFrame_ofKind (depth : Nat) (memory : SharedMemory) (inputs : CreateInputs) :
    Ensures (ItemOrResult.OfKind false) (makeCreateFrame env depth memory inputs) := by
  unfold makeCreateFrame
  split_ifs
  · exact .pure rfl
  · refine .bind fun nonce => ?_
    cases nonce with
    | error result => exact .pure rfl
    | ok oldNonce =>
      refine .bind fun _ => .bind fun created => ?_
      cases created with
      | error error => exact .pure rfl
      | ok checkpoint => exact .pure rfl

theorem frameInit_ofKind (init : FrameInit) :
    Ensures (ItemOrResult.OfKind init.frameInput.isCall) (frameInit env init) := by
  obtain ⟨depth, memory, frameInput⟩ := init
  cases frameInput with
  | call inputs => exact makeCallFrame_ofKind env depth memory inputs
  | create inputs => exact makeCreateFrame_ofKind env depth memory inputs

/-- The end of a frame answers a result of its kind, and the frame keeps its kind. -/
theorem processNextAction_ofKind (frame : EthFrame) (action : InterpreterAction) :
    Ensures (fun r => r.2.data = frame.data ∧
      ∀ result, r.1 = .result result → result.isCall = frame.data.isCall)
      (processNextAction env frame action) := by
  unfold processNextAction
  cases action with
  | newFrame input =>
    refine .bind fun _ => .pure ⟨rfl, ?_⟩
    intro result hresult
    cases hresult
  | «return» r =>
    cases hdata : frame.data with
    | call range =>
      refine .bind fun _ => .pure ⟨rfl, ?_⟩
      intro result hresult
      cases hresult
      rfl
    | create address =>
      refine .bind fun _ => .pure ⟨rfl, ?_⟩
      intro result hresult
      cases hresult
      rfl

omit [Keccak256] in
theorem returnResult_data (frame : EthFrame) (result : FrameResult) :
    Ensures (fun frame' => frame'.data = frame.data)
      (returnResult frame result : EvmM ε EthFrame) := by
  exact .bind fun _ => .bind fun _ => .bind fun _ => .bind fun _ => .bind fun _ => .pure rfl

end Kinds

/-! ## Logs -/

section Logs

variable [Keccak256]

omit [Keccak256] in
/-- The last thing that `LOG` does is to add a log. -/
theorem log_logs {ctx : InstructionContext ε} {n : Nat} {m m' : Machine ε}
    (h : (Instructions.log n : Program ctx false Unit).run m = .next () m') :
    m'.host.journal.logs ≠ [] := by
  have h' : Prim.nonStatic ctx _ m = .next () m' := h
  unfold Prim.nonStatic at h'
  split_ifs at h'
  · cases h'
  · obtain ⟨x, m₁, -, h₁⟩ := Exec.bind_eq_next h'
    obtain ⟨len, m₂, -, h₂⟩ := Exec.bind_eq_next h₁
    obtain ⟨_, m₃, -, h₃⟩ := Exec.bind_eq_next h₂
    -- both ways of reading the data end with the topics and the log
    have hend : ∀ (data : List UInt8) (m : Machine ε), (do
          let topics ← Program.popn n
          Program.hostLog ⟨ctx.input.targetAddress, List.ofFn topics, data⟩ :
            Program ctx true Unit).run m = .next () m' →
        m'.host.journal.logs ≠ [] := by
      intro data m hm
      obtain ⟨topics, m₄, -, h₄⟩ := Exec.bind_eq_next hm
      cases h₄
      exact List.append_ne_nil_of_right_ne_nil _ (List.cons_ne_nil _ _)
    split_ifs at h₃
    · exact hend [] m₃ h₃
    · obtain ⟨offset, m₄, -, h₄⟩ := Exec.bind_eq_next h₃
      obtain ⟨data, m₅, -, h₅⟩ := Exec.bind_eq_next h₄
      exact hend data m₅ h₅

/-- A `LOG` instruction that does not end the frame has left a log, and it does not ask for a
frame. -/
theorem step_log (env : HostEnv ε) {self : Interpreter} (s : Shared ε) {opcode : UInt8}
    (hopcode : self.bytecode.bytesRef[self.pc]? = some opcode) (hlog : isLog opcode = true) :
    (∀ interpreter s', self.step env s = .next () (interpreter, s') →
      s'.host.journal.logs ≠ []) ∧
    ∀ input p, self.step env s ≠ .stop (.newFrame input) p := by
  have htable : ∀ ctx : InstructionContext ε, instructionTable ctx opcode =
      ⟨.run (Instructions.log (opcode.toNat - 0xa0)), 0⟩ := by
    intro ctx
    simp only [isLog, Bool.and_eq_true, decide_eq_true_eq] at hlog
    unfold instructionTable
    rw [if_neg (by omega), if_neg (by omega), if_neg (by omega), if_pos hlog]
  have hexecute : ∀ control m',
      Interpreter.fetchExecute (self.context env (self.pc + 1)) opcode (self.machine s) =
        .next control m' →
      control = .continueAt (self.pc + 1) ∧ m'.host.journal.logs ≠ [] := by
    intro control m' h
    simp only [Interpreter.fetchExecute, htable] at h
    split_ifs at h
    · cases h
    · obtain ⟨_, m₁, hrun, hnext⟩ := Exec.bind_eq_next h
      cases hnext
      exact ⟨rfl, log_logs hrun⟩
  simp only [Interpreter.step, hopcode]
  cases hm : Interpreter.fetchExecute (self.context env (self.pc + 1)) opcode (self.machine s) with
  | next control m' =>
    obtain ⟨rfl, hlogs⟩ := hexecute control m' hm
    refine ⟨fun interpreter s' h => ?_, fun input p h => ?_⟩
    · cases h
      exact hlogs
    · cases h
  | stop halt m' => simp
  | fault e => simp

end Logs

/-! ## Hooks -/

/-- The frame of an inspected frame, whose input is of its kind; no action is set. -/
structure InspectedFrame.Follows (x : InspectedFrame) (frame : EthFrame) : Prop where
  same : x.frame = frame
  kind : x.input.isCall = frame.data.isCall
  action : x.action = none

/-- What an inspected start of a frame answers. -/
inductive SameStart : ItemOrResult InspectedFrame FrameResult → ItemOrResult EthFrame FrameResult →
    Prop where
  | item {x : InspectedFrame} {frame : EthFrame} (h : x.Follows frame) :
      SameStart (.item x) (.item frame)
  | result (result : FrameResult) : SameStart (.result result) (.result result)

section Hooks

variable {ι : Type} {insp : Inspector ε ι} (ht : insp.Transparent)
include ht

theorem frameStart_silent (input : FrameInput) (s : Shared ε) (i : ι) :
    ∃ i', frameStart insp input (s, i) = .next (none, input) (s, i') := by
  cases input with
  | call inputs =>
    obtain ⟨i', hi⟩ := ht.call inputs s i
    refine ⟨i', ?_⟩
    simp only [frameStart, Exec.bind_apply, hook, hi]
    rfl
  | create inputs =>
    obtain ⟨i', hi⟩ := ht.create inputs s i
    refine ⟨i', ?_⟩
    simp only [frameStart, Exec.bind_apply, hook, hi]
    rfl

/-- `frame_end` does not panic on an output of the kind of the input. -/
theorem frameEnd_silent {input : FrameInput} {output : FrameResult}
    (hkind : output.isCall = input.isCall) (s : Shared ε) (i : ι) :
    ∃ i', frameEnd insp input output (s, i) = .next output (s, i') := by
  cases output with
  | call result memoryOffset =>
    cases input with
    | call inputs =>
      obtain ⟨i', hi⟩ := ht.callEnd inputs (result, memoryOffset) s i
      refine ⟨i', ?_⟩
      simp only [frameEnd, Exec.bind_apply, hook, hi]
      rfl
    | create inputs => cases hkind
  | create result address =>
    cases input with
    | call inputs => cases hkind
    | create inputs =>
      obtain ⟨i', hi⟩ := ht.createEnd inputs (result, address) s i
      refine ⟨i', ?_⟩
      simp only [frameEnd, Exec.bind_apply, hook, hi]
      rfl

omit ht in
theorem inspectSelfdestruct_silent (s : Shared ε) (i : ι) :
    ∃ i', inspectSelfdestruct insp (s, i) = .next () (s, i') := by
  simp only [inspectSelfdestruct, Exec.bind_apply, journal]
  rcases s.host.journal.journal.getLast? with _ | entry
  · exact ⟨i, rfl⟩
  · cases entry <;> exact ⟨_, rfl⟩

omit ht in
theorem inspectAction_silent (action : InterpreterAction) (s : Shared ε) (i : ι) :
    ∃ i', inspectAction insp action (s, i) = .next () (s, i') := by
  unfold inspectAction
  cases action with
  | newFrame input => exact ⟨i, rfl⟩
  | «return» result =>
    dsimp only
    split_ifs
    · exact inspectSelfdestruct_silent s i
    · exact ⟨i, rfl⟩

/-- `inspect_log` does not panic where a log was left. -/
theorem inspectLog_silent (x : Inspected) {s : Shared ε} (i : ι)
    (hlogs : x.action = none → s.host.journal.logs ≠ [])
    (hframe : ∀ input, x.action ≠ some (.newFrame input)) :
    ∃ i', inspectLog insp x (s, i) = .next x (s, i') := by
  unfold inspectLog
  cases haction : x.action with
  | none =>
    have hlast := List.getLast?_eq_some_getLast (hlogs haction)
    obtain ⟨i', hi⟩ := ht.log (s.host.journal.logs.getLast (hlogs haction)) x s i
    refine ⟨i', ?_⟩
    simp only [Exec.bind_apply, journal, hlast, hook, hi]
  | some action =>
    cases action with
    | newFrame input => exact absurd haction (hframe input)
    | «return» result => exact ⟨i, rfl⟩

end Hooks

/-! ## Frames -/

section Frames

variable {ι : Type} [Keccak256] {insp : Inspector ε ι} (ht : insp.Transparent) (env : EvmEnv ε)
include ht

theorem inspectFrameInit_simulates (init : FrameInit) :
    Exec.Simulates .run SameStart (inspectFrameInit insp env init) (frameInit env init) := by
  refine .silent (none, init.frameInput) (frameStart_silent ht init.frameInput) ?_
  refine .bind_left (.lift_ensures (frameInit_ofKind env init)) ?_
  rintro answer _ ⟨rfl, hkind⟩
  cases answer with
  | result output =>
    exact .silent output (frameEnd_silent ht hkind) (.pure (.result output))
  | item frame =>
    refine .silent ⟨frame.interpreter, none⟩ (fun s i => ?_) (.pure (.item ⟨rfl, hkind.symm, rfl⟩))
    obtain ⟨i', hi⟩ := ht.initializeInterp ⟨frame.interpreter, none⟩ s i
    exact ⟨i', by simp only [hook, hi]⟩

/-- What follows the instruction in the body of the inspected loop changes nothing. -/
theorem afterInstruction_silent {interpreter : Interpreter} {s : Shared ε} {opcode : UInt8}
    (hopcode : interpreter.bytecode.bytesRef[interpreter.pc]? = some opcode) (x : Inspected)
    (s' : Shared ε) (hnext : x.action = none →
      interpreter.step env.toHostEnv s = .next () (x.interpreter, s'))
    (hstop : ∀ action, x.action = some action →
      interpreter.step env.toHostEnv s = .stop action (x.interpreter, s')) (i : ι) : ∃ i', (do
      let x ← (if isLog opcode then inspectLog insp x else pure x)
      hook (insp.stepEnd x) : InspectM ε ι Inspected) (s', i) = .next x (s', i') := by
  have hlog : ∃ i₁, (if isLog opcode then inspectLog insp x else pure x : InspectM ε ι Inspected)
      (s', i) = .next x (s', i₁) := by
    split_ifs with hisLog
    · obtain ⟨hlogs, hframe⟩ := step_log env.toHostEnv s hopcode hisLog
      refine inspectLog_silent ht x i (fun hnone => hlogs _ _ (hnext hnone)) fun input haction => ?_
      exact hframe input _ (hstop _ haction)
    · exact ⟨i, rfl⟩
  obtain ⟨i₁, hi₁⟩ := hlog
  obtain ⟨i₂, hi₂⟩ := ht.stepEnd x s' i₁
  refine ⟨i₂, ?_⟩
  rw [Exec.bind_apply, hi₁]
  simp only [hook, hi₂]

/-- The hook in front changes nothing, so the loop does not end there. -/
theorem inspectInstruction_head (interpreter : Interpreter) (s : Shared ε) (i : ι) :
    ∃ i', inspectInstruction insp env ⟨interpreter, none⟩ (s, i) =
      (match interpreter.bytecode.bytesRef[interpreter.pc]? with
      | none => fun _ => .fault (.run .code)
      | some opcode => do
          let x ← inspectedStep env interpreter
          let x ← (if isLog opcode then inspectLog insp x else pure x)
          hook (insp.stepEnd x) : InspectM ε ι Inspected) (s, i') := by
  obtain ⟨i', hi'⟩ := ht.step ⟨interpreter, none⟩ s i
  have hstep : hook (insp.step ⟨interpreter, none⟩) (s, i) =
      .next ⟨interpreter, none⟩ (s, i') := by
    unfold hook
    rw [hi']
  exact ⟨i', Exec.bind_of_next _ hstep⟩

/-- The body of the inspected loop executes one instruction. -/
theorem inspectInstruction_eq (interpreter : Interpreter) (s : Shared ε) (i : ι) :
    match interpreter.step env.toHostEnv s with
    | .next _ (interpreter', s') =>
        ∃ i', inspectInstruction insp env ⟨interpreter, none⟩ (s, i) =
          .next ⟨interpreter', none⟩ (s', i')
    | .stop action (interpreter', s') =>
        ∃ i', inspectInstruction insp env ⟨interpreter, none⟩ (s, i) =
          .next ⟨interpreter', some action⟩ (s', i')
    | .fault e => inspectInstruction insp env ⟨interpreter, none⟩ (s, i) = .fault (.run e) := by
  obtain ⟨i₁, hhead⟩ := inspectInstruction_head ht env interpreter s i
  rw [hhead]
  cases hopcode : interpreter.bytecode.bytesRef[interpreter.pc]? with
  | none =>
    simp only [Interpreter.step, hopcode]
  | some opcode =>
    have hbody := afterInstruction_silent ht env (s := s) hopcode
    dsimp only
    rw [Exec.bind_apply]
    unfold inspectedStep
    rcases hstep : interpreter.step env.toHostEnv s with
      ⟨_, interpreter', s'⟩ | ⟨action, interpreter', s'⟩ | e
    · exact hbody ⟨interpreter', none⟩ s' (fun _ => hstep) (by simp) i₁
    · exact hbody ⟨interpreter', some action⟩ s' (by simp)
        (fun action' h => by cases h; exact hstep) i₁
    · rfl

/-- The end of the loop of the interpreter, and what `inspect_frame_run` does with the action. -/
theorem inspectEnd_simulates (frame : EthFrame) (input : FrameInput)
    (hkind : input.isCall = frame.data.isCall) (action : InterpreterAction) :
    Exec.Simulates .run (fun a b => a.1 = b.1 ∧ a.2.Follows b.2) (do
        inspectAction insp action
        let (answer, frame) ← lift (processNextAction env frame action)
        match answer with
        | .item init => return (some (.item init), ⟨frame, input, none⟩)
        | .result result =>
            let result ← frameEnd insp input result
            return (some (.result result), ⟨frame, input, none⟩) :
        InspectM ε ι (Option (ItemOrResult FrameInit FrameResult) × InspectedFrame)) (do
        let (answer, frame) ← processNextAction env frame action
        return (some answer, frame)) := by
  refine .silent () (inspectAction_silent action) ?_
  refine .bind (.lift_ensures (processNextAction_ofKind env frame action)) ?_
  rintro ⟨answer, frame'⟩ _ ⟨rfl, hdata, hresult⟩
  have hfollows : InspectedFrame.Follows ⟨frame', input, none⟩ frame' := by
    refine ⟨rfl, ?_, rfl⟩
    rw [hkind, ← hdata]
  cases answer with
  | item init => exact .pure ⟨rfl, hfollows⟩
  | result result =>
    refine .silent result (frameEnd_silent ht ?_) (.pure ⟨rfl, hfollows⟩)
    rw [hresult result rfl, hkind]

theorem inspectFrameStep_simulates {x : InspectedFrame} {frame : EthFrame} (h : x.Follows frame) :
    Exec.Simulates .run (fun a b => a.1 = b.1 ∧ a.2.Follows b.2)
      (inspectFrameStep insp env x) (frameStep env frame) := by
  obtain ⟨self, input, action⟩ := x
  obtain ⟨rfl, hkind, rfl⟩ := h
  intro s i
  have hinstruction := inspectInstruction_eq ht env self.interpreter s i
  unfold inspectFrameStep frameStep
  rw [Exec.bind_apply]
  -- one instruction: the frame goes on, its loop ends, or a fault
  rcases hstep : self.interpreter.step env.toHostEnv s with
    ⟨_, interpreter, s'⟩ | ⟨action, interpreter, s'⟩ | e <;> rw [hstep] at hinstruction
  · obtain ⟨i', hi⟩ := hinstruction
    rw [hi]
    exact .next s' i' ⟨rfl, rfl, hkind, rfl⟩
  · obtain ⟨i', hi⟩ := hinstruction
    rw [hi]
    exact inspectEnd_simulates ht env { self with interpreter := interpreter } input hkind action
      s' i'
  · rw [hinstruction]
    exact .fault e

end Frames

/-! ## The loop -/

/-- The open frames of the two loops. -/
inductive SameLoop : InspectedState → LoopState → Prop where
  | running {xs : List InspectedFrame} {frames : List EthFrame}
      (h : List.Forall₂ InspectedFrame.Follows xs frames) :
      SameLoop (.running xs) (.running frames)
  | done (result : FrameResult) : SameLoop (.done result) (.done result)

section Loop

variable {ι : Type} [Keccak256] {insp : Inspector ε ι} (ht : insp.Transparent) (env : EvmEnv ε)
variable {xs : List InspectedFrame} {frames : List EthFrame}

omit [Keccak256] in
/-- The result goes to the frame on top, if there is one. -/
theorem returnToTop_simulates (result : FrameResult) :
    List.Forall₂ InspectedFrame.Follows xs frames → Exec.Simulates .run SameLoop
      (match xs with
      | [] => return .done result
      | top :: rest => do
          let frame ← lift (returnResult top.frame result)
          return .running ({ top with frame := frame } :: rest) : InspectM ε ι InspectedState)
      (match frames with
      | [] => return .done result
      | top :: rest => do
          let top ← returnResult top result
          return .running (top :: rest)) := by
  intro h
  cases h with
  | nil => exact .pure (.done result)
  | @cons x frame xs frames hx hrest =>
    obtain ⟨self, input, action⟩ := x
    obtain ⟨rfl, hkind, rfl⟩ := hx
    refine .bind (.lift_ensures (returnResult_data self result)) ?_
    rintro frame' _ ⟨rfl, hdata⟩
    exact .pure (.running (.cons ⟨rfl, by rw [hkind, ← hdata], rfl⟩ hrest))

omit [Keccak256] in
theorem inspectedReturnResult_simulates
    (h : List.Forall₂ InspectedFrame.Follows xs frames) (result : FrameResult) :
    Exec.Simulates .run SameLoop (inspectedReturnResult xs result : InspectM ε ι InspectedState)
      (frameReturnResult frames result) := by
  unfold inspectedReturnResult frameReturnResult
  cases h with
  | nil => exact returnToTop_simulates result .nil
  | @cons x frame xs frames hx hrest =>
    dsimp only
    rw [hx.same]
    -- a finished frame is popped
    split_ifs
    · exact returnToTop_simulates result hrest
    · exact returnToTop_simulates result (.cons hx hrest)

include ht

theorem inspectLoopStep_simulates (h : List.Forall₂ InspectedFrame.Follows xs frames) :
    Exec.Simulates .run SameLoop (inspectLoopStep insp env xs) (loopStep env frames) := by
  cases h with
  | nil => exact fun _ _ => .fault Fault.panic
  | @cons x frame xs frames hx hrest =>
    refine .bind (inspectFrameStep_simulates ht env hx) ?_
    rintro ⟨answer, x'⟩ ⟨_, frame'⟩ ⟨rfl, hx'⟩
    rcases answer with _ | init | result
    · exact .pure (.running (.cons hx' hrest))
    · refine .bind (inspectFrameInit_simulates ht env init) ?_
      rintro _ _ (hnew | result)
      · exact .pure (.running (.cons hnew (.cons hx' hrest)))
      · exact inspectedReturnResult_simulates (.cons hx' hrest) result
    · exact inspectedReturnResult_simulates (.cons hx' hrest) result

/-- The two loops stay together for any number of instructions. -/
theorem inspectRunLoop_simulates (n : Nat) (h : List.Forall₂ InspectedFrame.Follows xs frames) :
    Exec.Simulates .run SameLoop (inspectRunLoop insp env n xs) (runLoop env n frames) := by
  induction n generalizing xs frames with
  | zero => exact .pure (.running h)
  | succ n ih =>
    refine .bind (inspectLoopStep_simulates ht env h) ?_
    rintro _ _ (h' | result)
    · exact ih h'
    · exact .pure (.done result)

theorem inspectRunExecLoop_simulates (n : Nat) (init : FrameInit) :
    Exec.Simulates .run SameLoop (inspectRunExecLoop insp env n init) (runExecLoop env n init) := by
  refine .bind (inspectFrameInit_simulates ht env init) ?_
  rintro _ _ (hnew | result)
  · exact inspectRunLoop_simulates ht env n (.cons hnew .nil)
  · exact .pure (.done result)

end Loop

/-! ## The run of a transaction -/

namespace Handler

variable {η ρ ι : Type} [Keccak256] {insp : Inspector ε ι}

/-- An inspected transaction ends as the transaction without an inspector does. -/
theorem inspectRun_simulates (self : Handler ε η ρ) (env : EvmEnv ε) (ht : insp.Transparent)
    (n : Nat) : Exec.Simulates .run Eq (self.inspectRun env insp n) (self.run env n) := by
  have hrun : Exec.Simulates .run Eq (self.inspectRunWithoutCatchError env insp n)
      (self.runWithoutCatchError env n) := by
    refine .bind (.lift self.validate) ?_
    rintro gas _ rfl
    refine .bind (.lift self.preExecution) ?_
    rintro refund _ rfl
    refine .bind (.mapStop _ (.lift (firstFrame env gas))) ?_
    rintro init _ rfl
    refine .bind (.mapStop _ (inspectRunExecLoop_simulates ht env n init)) ?_
    rintro _ _ (_ | result)
    · exact .pure rfl
    · refine .bind (.lift (self.lastFrameResult result)) ?_
      rintro result _ rfl
      refine .bind (.lift (self.postExecution result gas refund)) ?_
      rintro result _ rfl
      refine .bind (.lift (self.executionResult result)) ?_
      rintro output _ rfl
      exact .pure rfl
  refine .catchStop hrun fun e => .bind (.lift (self.catchError e)) ?_
  rintro output _ rfl
  exact .pure rfl

end Handler

/-! ## A counting inspector -/

/-- Counts the instructions and the logs. -/
def countInspector (ε : Type) : Inspector ε (Nat × Nat) where
  initializeInterp x s i := (x, s, i)
  step x s i := (x, s, (i.1 + 1, i.2))
  stepEnd x s i := (x, s, i)
  log _ x s i := (x, s, (i.1, i.2 + 1))
  call inputs s i := ((none, inputs), s, i)
  callEnd _ outcome s i := (outcome, s, i)
  create inputs s i := ((none, inputs), s, i)
  createEnd _ outcome s i := (outcome, s, i)
  selfdestruct _ _ _ i := i

theorem countInspector_transparent (ε : Type) : (countInspector ε).Transparent where
  initializeInterp _ _ i := ⟨i, rfl⟩
  step _ _ i := ⟨(i.1 + 1, i.2), rfl⟩
  stepEnd _ _ i := ⟨i, rfl⟩
  log _ _ _ i := ⟨(i.1, i.2 + 1), rfl⟩
  call _ _ i := ⟨i, rfl⟩
  callEnd _ _ _ i := ⟨i, rfl⟩
  create _ _ i := ⟨i, rfl⟩
  createEnd _ _ _ i := ⟨i, rfl⟩

/-- Account `0` logs an empty string, and account `1` has funds. -/
def loggerDb : Database Empty where
  basic a := .ok (if a = 0 then some { AccountInfo.default with codeHash := 9, code := none }
    else if a = 1 then some { AccountInfo.default with balance := 100000 } else none)
  codeByHash _ := .ok (.legacyAnalyzed [0x60, 0x00, 0x60, 0x00, 0xa0, 0x00])
  storage _ _ := .ok 0

/-- A transaction from the account `1` to the account `0`. -/
def loggerEnv : EvmEnv Empty :=
  { EvmEnv.default loggerDb .prague with
    tx := { TxEnv.default with caller := 1, gasLimit := 40000, gasPrice := 2 } }

/-- The counting inspector sees four instructions and a log of a transaction of mainnet, and does
not change the run: the caller has paid for the gas. -/
theorem Handler.inspectRun_simulates_logger : letI := lengthKeccak
    let handler := mainnetHandler loggerEnv ((∅ : HashSet Address).insert 2 ()) false (pure 0)
    let s : Shared Empty := ⟨[], ⟨.new .prague .new, none⟩⟩
    (countInspector Empty).Transparent ∧
      Exec.Simulates .run Eq (handler.inspectRun loggerEnv (countInspector Empty) 4)
        (handler.run loggerEnv 4) ∧
      (match handler.inspectRun loggerEnv (countInspector Empty) 4 (s, (0, 0)) with
        | .next (some output) (s, i) => some (output.1.result, output.2.length,
            (s.host.journal.state.lookup 1).map (·.info.balance), i)
        | _ => none) = some (.stop, 1, some 57238, (4, 1)) := by
  let := lengthKeccak
  intro handler s
  have ht := countInspector_transparent Empty
  exact ⟨ht, Handler.inspectRun_simulates handler loggerEnv ht 4, by decide +kernel⟩

end Revm
