import Revm.Handler.Codes
import Revm.Handler.MemoryIsolation

/-!
# The loop as a run of journal operations

Whatever the frames of a transaction do, the journal sees a run of its own operations, and the open
checkpoints of that run are those of the open frames (`execRun_journaled`). So a frame closes its
own checkpoint, and only after every checkpoint taken above it.
-/

set_option autoImplicit false

namespace Revm

open JournalInner

variable {cps : List JournalCheckpoint}

section

variable {ε α β : Type} [Keccak256]

/-- The operations of frames: they write no balance as such, and they set no delegation. -/
def Op.byFrame : Op → Bool
  | .loadAccountDelegated _ | .touch _ | .setCode _ (.eip7702 ..) => false
  | .account _ loadCode change => !loadCode && change = .bumpNonce
  | _ => true

/-- Operations of frames lead from `c` to `c'`. -/
def LeadsTo (db : Database ε) (c c' : Config) : Prop :=
  ∃ ops, (∀ op ∈ ops, op.byFrame = true) ∧ run db ops c = some c'

namespace LeadsTo

variable {db : Database ε} {c c' : Config} {j : JournalInner}

theorem step (h : LeadsTo db c c') (op : Op) (hop : op.byFrame = true) {r : Output ε × Config}
    (hstep : Revm.step db op c' = some r) : LeadsTo db c r.2 := by
  obtain ⟨ops, hops, hrun⟩ := h
  refine ⟨ops ++ [op], List.forall_mem_append.2 ⟨hops, by simpa using hop⟩, ?_⟩
  rw [run_append, hrun]
  simp [run, hstep]

/-- An operation that may panic. -/
theorem step? (h : LeadsTo db c c') (op : Op) (hop : op.byFrame = true) {o : Option α} {r : α}
    {f : α → Output ε × Config} (hr : o = some r) (hstep : Revm.step db op c' = o.map f) :
    LeadsTo db c (f r).2 :=
  h.step op hop (by rw [hstep, hr]; rfl)

/-- What an instruction does to the journal is a run. -/
theorem journalRule (db : Database ε) (c : Config) (cps : List JournalCheckpoint) :
    JournalRule db true fun j j' => LeadsTo db c ⟨j, cps⟩ → LeadsTo db c ⟨j', cps⟩ where
  refl _ h := h
  trans h h' hj := h' (h hj)
  load _ a loadCode skip h := h.step (.loadAccountOptional a loadCode skip) rfl rfl
  sload _ a k skip _ hr h := h.step? (.sload a k skip) rfl hr rfl
  sstore _ _ a k value skip _ hr h := h.step? (.sstore a k value skip) rfl hr rfl
  tstore _ _ a k value h := h.step (.tstore a k value) rfl rfl
  log _ _ entry h := h.step (.log entry) rfl rfl
  selfdestruct _ _ a target _ hr h := h.step? (.selfdestruct a target) rfl hr rfl

/-- A creation bumps the nonce of the caller, or only loads a caller that cannot pay. -/
theorem bumpCallerNonce (h : LeadsTo db c ⟨j, cps⟩) (a : Address) (value : U256) :
    LeadsTo db c ⟨(j.withJournaledAccount db a false (Revm.bumpCallerNonce value)).2, cps⟩ := by
  have hload : LeadsTo db c ⟨(j.loadAccountMutOptionalCode db a false false).2, cps⟩ :=
    h.step (.loadAccount a) rfl rfl
  have hbump : LeadsTo db c ⟨(j.withJournaledAccount db a false (·.bumpNonce)).2, cps⟩ :=
    h.step (.account a false .bumpNonce) rfl rfl
  simp only [withJournaledAccount] at hbump ⊢
  rcases hr : j.loadAccountMutOptionalCode db a false false with ⟨e | load, j'⟩
  · simpa only [hr] using hload
  rw [hr] at hload hbump
  simp only [Revm.bumpCallerNonce]
  split_ifs
  · -- the handle is written back as it was loaded
    have hself : j'.setAccount a load.data = j' := by
      cases loadOutcome hr with
      | code => simp [setAccount]
      | loaded => simp [setAccount, found_eq]
    simp only [hself]
    exact hload
  · rcases hb : (JournaledAccount.mk a load.data j'.journal).bumpNonce with ⟨_ | _, handle⟩ <;>
      simpa only [hb] using hbump

end LeadsTo

/-! ## Frames -/

/-- Unless it ends with an error, the computation is a run of operations after which the checkpoints
`after a` are open. -/
def Takes (env : EvmEnv ε) (c : Config) (cps : List JournalCheckpoint) (x : EvmM ε α)
    (after : α → List JournalCheckpoint) : Prop :=
  ∀ s, LeadsTo env.db c ⟨s.host.journal, cps⟩ →
    (x s).Meets (fun a s' => LeadsTo env.db c ⟨s'.host.journal, after a⟩) (fun _ _ => True)
      fun _ => True

/-- The checkpoints of the open frames, the innermost first. -/
def LoopState.checkpoints : LoopState → List JournalCheckpoint
  | .running frames => frames.map (·.checkpoint)
  | .done _ => []

/-- The checkpoint of a frame that was opened. -/
def ItemOrResult.opened : ItemOrResult EthFrame FrameResult → List JournalCheckpoint
  | .item frame => [frame.checkpoint]
  | .result _ => []

/-- The checkpoint of a frame is open until it answers its result. -/
def stepOpened : Option (ItemOrResult FrameInit FrameResult) × EthFrame → List JournalCheckpoint
  | (some (.result _), _) => []
  | (_, frame) => [frame.checkpoint]

section Takes

variable {env : EvmEnv ε} {c : Config} {cp : JournalCheckpoint} {x : EvmM ε α}
  {after : β → List JournalCheckpoint} {depth : Nat} {memory : SharedMemory}

namespace Takes

theorem bind {m : α → List JournalCheckpoint} {f : α → EvmM ε β} (hx : Takes env c cps x m)
    (hf : ∀ a, Takes env c (m a) (f a) after) : Takes env c cps (x >>= f) after :=
  fun s h => .bind ((hx s h).mono_next fun a s' h' => hf a s' h')

/-- What keeps the runs that lead here keeps the checkpoints. -/
theorem keeps (hx : x.Obeys (keepsDiscipline ε fun j => LeadsTo env.db c ⟨j, cps⟩)) :
    Takes env c cps x fun _ => cps :=
  fun s h => (hx s h).mono (fun _ _ h' => h'.1) (fun _ _ _ => trivial) fun _ _ => trivial

theorem onJournal? {f : JournalInner → Option (β × JournalInner)}
    (h : ∀ j r, LeadsTo env.db c ⟨j, cps⟩ → f j = some r →
      LeadsTo env.db c ⟨r.2, after r.1⟩) : Takes env c cps (EvmM.onJournal? f) after := by
  intro s hs
  unfold EvmM.onJournal?
  cases hr : f s.host.journal with
  | none => trivial
  | some r => exact h _ r hs hr

theorem commit : Takes env c (cp :: cps) EvmM.checkpointCommit fun _ => cps :=
  fun _ h => h.step .checkpointCommit rfl rfl

theorem revert : Takes env c (cp :: cps) (EvmM.checkpointRevert cp) fun _ => cps := by
  apply onJournal?
  intro j r h hr
  obtain ⟨j', hj', rfl⟩ := Option.map_eq_some_iff.1 hr
  exact h.step? .checkpointRevert rfl hj' rfl

/-- Commit or revert, the innermost checkpoint is gone. -/
theorem close (isOk : Bool) :
    Takes env c (cp :: cps) (EvmM.checkpointClose isOk cp) fun _ => cps := by
  cases isOk with
  | true => exact commit
  | false => exact revert

theorem setCode (a : Address) (code : List UInt8) : Takes env c (cp :: cps) (do
      EvmM.checkpointCommit
      EvmM.onJournal? fun journal => (journal.setCode a (.legacyAnalyzed code)).map ((), ·))
    fun _ => cps := by
  refine .bind commit fun _ => onJournal? fun j r h hr => ?_
  obtain ⟨j', hj', rfl⟩ := Option.map_eq_some_iff.1 hr
  exact h.step? (.setCode a (.legacyAnalyzed code)) rfl hj' rfl

end Takes

/-- Every exit of `return_create` closes the checkpoint of the frame. -/
theorem returnCreate_takes (result : InterpreterResult) (a : Address) :
    Takes env c (cp :: cps) (returnCreate env cp result a) fun _ => cps := by
  unfold returnCreate
  dsimp only
  iterate 3
    split
    · exact .bind .revert fun _ _ h => h
  refine .bind (.keeps (EvmM.ofOption_keeps _ _)) fun gasForCode => ?_
  rcases result.gas.recordCost gasForCode with ⟨_ | _, gas⟩
  · dsimp only
    split
    · exact .bind .revert fun _ _ h => h
    · exact (Takes.setCode a _).bind fun _ _ h => h
  · exact (Takes.setCode a _).bind fun _ _ h => h

/-- A checkpoint is left open exactly for a frame that is opened. -/
theorem makeCallFrame_takes (hpre : env.precompiles.LeavesJournal) (inputs : CallInputs) :
    Takes env c cps (makeCallFrame env depth memory inputs) (·.opened ++ cps) := by
  unfold makeCallFrame
  split_ifs
  · exact fun _ h => h
  refine .bind (m := (· :: cps)) (fun _ h => h.step .checkpoint rfl rfl) fun cp =>
    .bind (m := fun _ => cp :: cps) ?_ fun error => ?_
  · unfold transferCallValue
    cases inputs.value with
    | transfer value =>
      exact .onJournal? fun _ _ h hr => h.step? (.transferLoaded _ _ value) rfl hr rfl
    | apparent value => exact fun _ h => h
  cases error with
  | some error => exact .bind .revert fun _ _ h => h
  | none =>
    refine .bind (.keeps (runPrecompile_keeps hpre inputs)) fun result => ?_
    cases result with
    | some result => exact .bind (.close _) fun _ _ h => h
    | none =>
      refine .bind (m := fun _ => cp :: cps) ?_ fun bytecode => ?_
      · unfold callBytecode
        cases inputs.knownBytecode with
        | some known => exact fun _ h => h
        | none =>
          refine .bind (.keeps (EvmM.onJournalDb_keeps fun j h => ?_)) fun _ _ h => h
          exact h.step (.loadCode inputs.bytecodeAddress) rfl rfl
      · split_ifs
        · exact .bind .commit fun _ _ h => h
        · exact fun _ h => h

theorem makeCreateFrame_takes (inputs : CreateInputs) :
    Takes env c cps (makeCreateFrame env depth memory inputs) (·.opened ++ cps) := by
  unfold makeCreateFrame
  split_ifs
  · exact fun _ h => h
  refine .bind (.keeps (EvmM.onJournalDb_keeps fun j h => ?_)) fun nonce => ?_
  · exact h.bumpCallerNonce inputs.caller inputs.value
  cases nonce with
  | error result => exact fun _ h => h
  | ok oldNonce =>
    refine .bind (.keeps (EvmM.onJournalDb_keeps fun _ h => h.step (.loadAccount _) rfl rfl))
      fun _ => .bind (m := (·.toOption.toList ++ cps)) ?_ fun created => ?_
    · apply Takes.onJournal?
      rintro j ⟨_ | cp, j'⟩ h hr <;> exact h.step? (.createAccountCheckpoint _ _ _ _) rfl hr rfl
    · cases created <;> exact fun _ h => h

theorem frameInit_takes (hpre : env.precompiles.LeavesJournal) (init : FrameInit) :
    Takes env c cps (frameInit env init) (·.opened ++ cps) := by
  unfold frameInit
  cases init.frameInput with
  | call inputs => exact makeCallFrame_takes hpre inputs
  | create inputs => exact makeCreateFrame_takes inputs

variable (frame : EthFrame)

theorem processNextAction_takes (action : InterpreterAction) :
    Takes env c (frame.checkpoint :: cps) (processNextAction env frame action)
      fun a => stepOpened (some a.1, a.2) ++ cps := by
  unfold processNextAction
  cases action with
  | newFrame input => exact .bind (.keeps (EvmM.onBuffer_keeps _)) fun _ _ h => h
  | «return» result =>
    cases frame.data with
    | call range => exact .bind (.close _) fun _ _ h => h
    | create a => exact .bind (returnCreate_takes _ a) fun _ _ h => h

theorem frameStep_takes :
    Takes env c (frame.checkpoint :: cps) (frameStep env frame) (stepOpened · ++ cps) := by
  intro s h
  have hrule := LeadsTo.journalRule env.db c (frame.checkpoint :: cps)
  apply frameStep_meets
  refine (frame.interpreter.step_journal hrule (fun _ => rfl) s).mono (fun _ r hr => hr h)
    (fun action r hr => ?_) fun _ h' => h'
  exact processNextAction_takes { frame with interpreter := r.1 } action r.2 (hr h)

/-- No checkpoint is opened or closed when a caller resumes. -/
theorem returnResult_takes (result : FrameResult) :
    Takes env c (frame.checkpoint :: cps) (returnResult frame result)
      fun caller => caller.checkpoint :: cps := by
  intro s h
  have hresumes := returnResult_resumes (I := fun j => LeadsTo env.db c ⟨j, _⟩) frame result s h
  refine hresumes.mono ?_ (fun _ _ _ => trivial) fun _ h' => h'
  rintro caller s' ⟨h', -, gas, memory, rfl⟩
  exact h'

theorem loopStep_takes (hpre : env.precompiles.LeavesJournal) {frame : EthFrame}
    {rest : List EthFrame} (hfinished : frame.isFinished = false) :
    Takes env c (LoopState.running (frame :: rest)).checkpoints (loopStep env (frame :: rest))
      (·.checkpoints) := by
  intro s h
  refine loopStep_meets hfinished ((frameStep_takes frame s h).mono_next ?_)
  rintro ⟨_ | init | result, frame'⟩ s₁ h₁
  · exact h₁
  · refine (frameInit_takes hpre init s₁ h₁).mono_next ?_
    rintro (new | result) s₂ h₂
    · exact h₂
    · exact returnResult_takes frame' result s₂ h₂
  · -- the frame has closed its checkpoint, the caller goes on
    cases rest with
    | nil => exact h₁
    | cons caller rest => exact returnResult_takes caller result s₁ h₁

end Takes

/-- In every state of a run of a transaction, the journal is where operations of frames lead, and
the open checkpoints are those of the open frames. -/
theorem execRun_journaled {env : EvmEnv ε} (hpre : env.precompiles.LeavesJournal)
    (hbounded : env.precompiles.Bounded) {init : FrameInit} (hdepth : init.depth = 0)
    (hgas : init.frameInput.gasLimit ≤ u64Max) {s₀ s : Shared ε} {i f : Nat} {state : LoopState}
    (h : ExecRun env init s₀ i f state s) :
    LeadsTo env.db ⟨s₀.host.journal, []⟩ ⟨s.host.journal, state.checkpoints⟩ := by
  have hstart : LeadsTo env.db ⟨s₀.host.journal, []⟩ ⟨s₀.host.journal, []⟩ := ⟨[], by simp, rfl⟩
  induction h with
  | opened hinit | refused hinit => exact (frameInit_takes hpre init s₀ hstart).next hinit
  | @step i f frames s s' state hrun hstep ih =>
    obtain ⟨hstack, -, -⟩ := hrun.gasInv hbounded hdepth hgas
    cases hstack with
    | intro hopen => exact (loopStep_takes hpre hopen s ih).next hstep

end

/-- The checkpoints of two nested creations. -/
theorem execRun_journaled_nestedCreation : letI := lengthKeccak
    let env : EvmEnv Empty := .default contractDb .prague
    let s₀ : Shared Empty := ⟨[], ⟨.new .prague .new, none⟩⟩
    ∃ i f frames s,
      ExecRun env ⟨0, .new, createInitFrame nestedCreation none 100000⟩ s₀ i f (.running frames) s ∧
      frames.length = 2 ∧
      LeadsTo env.db ⟨s₀.host.journal, []⟩ ⟨s.host.journal, frames.map (·.checkpoint)⟩ := by
  let := lengthKeccak
  intro env s₀
  have hrun : openFrames (runExecLoop env 7
      ⟨0, .new, createInitFrame nestedCreation none 100000⟩ s₀) = some 2 := by decide +kernel
  obtain ⟨i, f, frames, s, h, hlength⟩ := ExecRun.exists_running hrun
  exact ⟨i, f, frames, s, h, hlength, execRun_journaled (ethPrecompiles_leavesJournal fun _ => none)
    (ethPrecompiles_bounded fun _ => none) rfl (by decide) h⟩

end Revm
