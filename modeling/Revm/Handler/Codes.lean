import Revm.Handler.Frame
import Revm.Interpreter.StepJournal
import Revm.Journal.Codes

/-!
# Code in frames

A frame installs code only where a creation succeeds: `returnCreate_ends` lists the exits of
`return_create` from London on, which either revert the checkpoint of the frame or set code that has
passed every check. So a rule about the codes of the state that allows such code is kept by the
functions that make, run and end frames (`frameInit_codes`, `frameStep_codes`) and by the loop over
all frames (`runExecLoop_codes`).
-/

set_option autoImplicit false

namespace Revm

open EvmM

variable {ε : Type} {env : EvmEnv ε} {I : JournalInner → Prop}

/-- The precompiled contracts do not use the journal. -/
def PrecompileProvider.LeavesJournal (precompiles : PrecompileProvider ε) : Prop :=
  ∀ host inputs input r, precompiles.run host inputs input = some r → r.2.journal = host.journal

theorem ethPrecompiles_leavesJournal
    (precompiles : Address → Option (List UInt8 → Nat → Except PrecompileError PrecompileOutput)) :
    (ethPrecompiles precompiles : PrecompileProvider ε).LeavesJournal := by
  intro host inputs input r hr
  unfold ethPrecompiles at hr
  dsimp only at hr
  split at hr
  · cases hr
    rfl
  · split at hr
    · split at hr
      · cases hr
        rfl
      · cases hr
    · cases hr
      rfl
    · cases hr
      rfl
    · cases hr
      rfl

/-! ## Computations that keep an invariant of the journal -/

/-- A computation of the frames keeps an invariant of the journal, also if it ends with an error. -/
def keepsDiscipline (ε : Type) (I : JournalInner → Prop) : Discipline (Shared ε) Fault where
  Inv s := I s.host.journal
  Step _ _ := True
  Stop _ s' := I s'.host.journal
  Fault _ := True
  refl _ := trivial
  trans _ _ := trivial
  stop_of_step _ h := h

namespace EvmM

variable {α : Type}

theorem onJournal_keeps {f : JournalInner → α × JournalInner} (h : ∀ j, I j → I (f j).2) :
    (onJournal f : EvmM ε α).Obeys (keepsDiscipline ε I) := by
  intro s hs
  exact ⟨h _ hs, trivial, trivial⟩

theorem onJournal?_keeps {f : JournalInner → Option (α × JournalInner)}
    (h : ∀ j r, I j → f j = some r → I r.2) :
    (onJournal? f : EvmM ε α).Obeys (keepsDiscipline ε I) := by
  intro s hs
  unfold onJournal?
  cases hf : f s.host.journal with
  | none => trivial
  | some r => exact ⟨h _ r hs hf, trivial, trivial⟩

theorem onJournalDb_keeps {f : JournalInner → Except (JournalLoadError ε) α × JournalInner}
    (h : ∀ j, I j → I (f j).2) : (onJournalDb f : EvmM ε α).Obeys (keepsDiscipline ε I) := by
  intro s hs
  have hj := h _ hs
  unfold onJournalDb
  rcases hf : f s.host.journal with ⟨(e | _) | a, journal⟩
  · rw [hf] at hj
    exact hj
  · trivial
  · rw [hf] at hj
    exact ⟨hj, trivial, trivial⟩

theorem onBuffer_keeps (f : Buffer → Option (α × Buffer)) :
    (onBuffer f : EvmM ε α).Obeys (keepsDiscipline ε I) := by
  intro s hs
  unfold onBuffer
  cases f s.buffer with
  | none => trivial
  | some r => exact ⟨hs, trivial, trivial⟩

theorem ofOption_keeps (e : Fault) (a : Option α) :
    (ofOption e a : EvmM ε α).Obeys (keepsDiscipline ε I) := by
  cases a with
  | none => exact fun s _ => trivial
  | some a => exact .pure a

end EvmM

/-! ## Computations that do not use the journal -/

section NoJournal

theorem runPrecompile_keeps (hpre : env.precompiles.LeavesJournal)
    (inputs : CallInputs) : (runPrecompile env inputs).Obeys (keepsDiscipline ε I) := by
  intro s hs
  unfold runPrecompile
  rcases hrun : env.precompiles.run s.host inputs (inputs.input.read s.buffer) with
    _ | ⟨message | result, host⟩
  · trivial
  · have hhost : host.journal = s.host.journal := hpre _ _ _ _ hrun
    show I host.journal
    rw [hhost]
    exact hs
  · have hhost : host.journal = s.host.journal := hpre _ _ _ _ hrun
    refine ⟨?_, trivial, trivial⟩
    show I host.journal
    rw [hhost]
    exact hs

theorem takeError_keeps : (takeError : EvmM ε Unit).Obeys (keepsDiscipline ε I) := by
  intro s hs
  unfold takeError
  cases s.host.error with
  | none => exact ⟨hs, trivial, trivial⟩
  | some e => exact hs

/-- The caller goes on with its own frame. -/
theorem returnResult_resumes (frame : EthFrame) (result : FrameResult) :
    (returnResult frame result : EvmM ε EthFrame).Gives (keepsDiscipline ε I)
      fun caller _ => ∃ gas memory, caller = frame.resume result gas memory := by
  unfold returnResult assertNotFatal
  apply (onBuffer_keeps _).bind_gives
  intro memory
  apply takeError_keeps.bind_gives
  intro _
  refine Exec.Obeys.bind_gives ?_ fun _ => Exec.Obeys.bind_gives ?_ fun gas =>
    (onBuffer_keeps _).bind_gives fun _ => .pure fun _ _ => ⟨gas, memory, rfl⟩
  · split_ifs
    · exact fun s _ => trivial
    · exact .pure ()
  · unfold returnGas eraseReturned recordReturned
    refine .bind ?_ fun gas => ?_
    · split_ifs
      · exact ofOption_keeps _ _
      · exact .pure _
    · split_ifs
      · exact ofOption_keeps _ _
      · exact .pure _

theorem frameReturnResult_keeps (frames : List EthFrame) (result : FrameResult) :
    (frameReturnResult frames result : EvmM ε LoopState).Obeys (keepsDiscipline ε I) := by
  unfold frameReturnResult
  dsimp only
  split
  · exact .pure _
  · exact .bind (returnResult_resumes _ result).obeys fun _ => .pure _

end NoJournal

/-! ## The exits of a create frame -/

section Create

variable [Keccak256]

/-- How `return_create` ends: the frame is reverted, or the code passed every check and is set. -/
structure CreateEnd (env : EvmEnv ε) (checkpoint : JournalCheckpoint) (address : Address)
    (s : Shared ε) (r : InterpreterResult) (s' : Shared ε) : Prop where
  reverted : r.result.isOk = false → s.host.journal.checkpointRevert checkpoint =
    some s'.host.journal
  installed : r.result.isOk = true →
    r.output.head? ≠ some 0xef ∧ r.output.length ≤ env.cfg.maxCodeSize ∧
      s.host.journal.checkpointCommit.setCode address (.legacyAnalyzed r.output) =
        some s'.host.journal

/-- The computation ends as `return_create` does. -/
def EndsCreate (env : EvmEnv ε) (checkpoint : JournalCheckpoint) (address : Address)
    (x : EvmM ε InterpreterResult) : Prop :=
  ∀ s, (x s).Meets (CreateEnd env checkpoint address s) (fun _ _ => False) fun _ => True

variable (checkpoint : JournalCheckpoint)

/-- Every refusal reverts the checkpoint and answers a result that is not ok. -/
theorem endsCreate_revert (address : Address)
    (r : InterpreterResult) (hr : r.result.isOk = false) : EndsCreate env checkpoint address (do
      checkpointRevert checkpoint
      return r) := by
  intro s
  apply Outcome.Meets.bind
  unfold checkpointRevert onJournal?
  dsimp only
  cases hj : s.host.journal.checkpointRevert checkpoint with
  | none => trivial
  | some j' =>
    refine ⟨fun _ => hj, fun hok => ?_⟩
    rw [hr] at hok
    cases hok

/-- Code that has passed the checks is set. -/
theorem endsCreate_install (address : Address)
    (r : InterpreterResult) (hok : r.result.isOk = true) (hef : r.output.head? ≠ some 0xef)
    (hsize : r.output.length ≤ env.cfg.maxCodeSize) : EndsCreate env checkpoint address (do
      checkpointCommit
      onJournal? fun journal =>
        (journal.setCode address (.legacyAnalyzed r.output)).map ((), ·)
      return r) := by
  intro s
  apply Outcome.Meets.bind
  apply Outcome.Meets.bind
  unfold onJournal?
  dsimp only
  cases hj : s.host.journal.checkpointCommit.setCode address (.legacyAnalyzed r.output) with
  | none => trivial
  | some j' =>
    refine ⟨fun h => ?_, fun _ => ⟨hef, hsize, hj⟩⟩
    rw [hok] at h
    cases h

/-- What `return_create` does from London on. -/
theorem returnCreate_ends (hlondon : env.cfg.spec.isEnabledIn .london = true)
    (heip3541 : env.cfg.disableEip3541 = false) (checkpoint : JournalCheckpoint)
    (result : InterpreterResult) (address : Address) :
    EndsCreate env checkpoint address (returnCreate env checkpoint result address) := by
  have hspec : ∀ other : SpecId, other.toNat ≤ 12 → env.cfg.spec.isEnabledIn other = true := by
    intro other hle
    have h : SpecId.london.toNat ≤ env.cfg.spec.toNat := of_decide_eq_true hlondon
    exact decide_eq_true (hle.trans h)
  unfold returnCreate
  dsimp only
  split
  · rename_i hok
    exact endsCreate_revert _ _ _ (by simpa using hok)
  split
  · exact endsCreate_revert _ _ _ rfl
  rename_i hef
  split
  · exact endsCreate_revert _ _ _ rfl
  rename_i hsize
  rw [heip3541, hlondon] at hef
  rw [hspec .spuriousDragon (by decide)] at hsize
  intro s
  apply Outcome.Meets.bind
  cases mulU64 result.output.length GasConst.codedeposit with
  | none => trivial
  | some gasForCode =>
    revert s
    show EndsCreate env checkpoint address _
    rcases result.gas.recordCost gasForCode with ⟨_ | _, gas⟩
    · -- the deposit is not paid for
      dsimp only
      rw [if_pos (hspec .homestead (by decide))]
      exact endsCreate_revert _ _ _ rfl
    · exact endsCreate_install _ _ { result with result := .return, gas := gas } rfl
        (by simpa using hef) (by simpa using hsize)

end Create

/-! ## Frames keep the rule -/

/-- The rule allows the code that a create frame installs. -/
def CreatesIn [Keccak256] (maxCodeSize : Nat) (P : Address → Bytecode → B256 → Prop) : Prop :=
  ∀ a bytes, bytes.head? ≠ some 0xef → bytes.length ≤ maxCodeSize →
    P a (.legacyAnalyzed bytes) (Bytecode.legacyAnalyzed bytes).hashSlow

section Frames

variable {P : Address → Bytecode → B256 → Prop} (hP : CodeRule env.db P)

/-- The computation keeps the rule about codes. -/
abbrev KeepsCodes {α : Type} (db : Database ε) (P : Address → Bytecode → B256 → Prop)
    (x : EvmM ε α) : Prop :=
  x.Obeys (keepsDiscipline ε fun j => j.CodesIn db P)

include hP

theorem checkpointRevert_codes (cp : JournalCheckpoint) :
    KeepsCodes env.db P (checkpointRevert cp : EvmM ε Unit) := by
  apply onJournal?_keeps
  intro j r hj hr
  obtain ⟨j', hj', rfl⟩ := Option.map_eq_some_iff.1 hr
  exact hj.checkpointRevert hP hj'

theorem checkpointClose_codes (isOk : Bool) (cp : JournalCheckpoint) :
    KeepsCodes env.db P (checkpointClose isOk cp : EvmM ε Unit) := by
  unfold checkpointClose
  split_ifs
  · exact onJournal_keeps fun j hj => hj
  · exact checkpointRevert_codes hP cp

omit hP in
theorem transferCallValue_codes (inputs : CallInputs) :
    KeepsCodes env.db P (transferCallValue inputs : EvmM ε _) := by
  unfold transferCallValue
  cases inputs.value with
  | transfer value => exact onJournal?_keeps fun j r hj hr => hj.transferLoaded hr
  | apparent value => exact .pure none

theorem callBytecode_codes (inputs : CallInputs) :
    KeepsCodes env.db P (callBytecode env inputs) := by
  unfold callBytecode
  rcases inputs.knownBytecode with _ | ⟨hash, code⟩
  · refine .bind (onJournalDb_keeps fun j hj => ?_) fun account => .pure _
    exact hj.loadAccountOptional hP inputs.bytecodeAddress true false
  · exact .pure code

theorem makeCallFrame_codes (hpre : env.precompiles.LeavesJournal) (depth : Nat)
    (memory : SharedMemory) (inputs : CallInputs) :
    KeepsCodes env.db P (makeCallFrame env depth memory inputs) := by
  unfold makeCallFrame
  split_ifs
  · exact .pure _
  · refine .bind (onJournal_keeps fun j hj => hj) fun checkpoint =>
      .bind (transferCallValue_codes inputs) fun transfer => ?_
    cases transfer with
    | some error => exact .bind (checkpointRevert_codes hP checkpoint) fun _ => .pure _
    | none =>
      refine .bind (runPrecompile_keeps hpre inputs) fun precompile => ?_
      cases precompile with
      | some result => exact .bind (checkpointClose_codes hP _ checkpoint) fun _ => .pure _
      | none =>
        refine .bind (callBytecode_codes hP inputs) fun bytecode => ?_
        split_ifs
        · exact .bind (onJournal_keeps fun j hj => hj) fun _ => .pure _
        · exact .pure _

omit hP in
theorem bumpCallerNonce_sameCode (value : U256) (caller : JournaledAccount) :
    JournaledAccount.SameCode caller (bumpCallerNonce value caller).2 := by
  have hbump := caller.sameCode_bumpNonce
  unfold bumpCallerNonce
  split_ifs
  · exact ⟨rfl, rfl⟩
  · rcases hr : caller.bumpNonce with ⟨_ | _, caller'⟩
    · rw [hr] at hbump
      exact hbump
    · rw [hr] at hbump
      exact hbump

variable [Keccak256]

theorem makeCreateFrame_codes (depth : Nat) (memory : SharedMemory) (inputs : CreateInputs) :
    KeepsCodes env.db P (makeCreateFrame env depth memory inputs) := by
  unfold makeCreateFrame
  split_ifs
  · exact .pure _
  · refine .bind (onJournalDb_keeps fun j hj => ?_) fun nonce => ?_
    · refine hj.withJournaledAccount hP inputs.caller false fun x hx => ?_
      have hsame := bumpCallerNonce_sameCode inputs.value x
      exact hx.congr hsame.code hsame.hash
    · cases nonce with
      | error result => exact .pure _
      | ok oldNonce =>
        refine .bind (onJournalDb_keeps fun j hj => ?_) fun _ =>
          .bind (onJournal?_keeps fun j r hj hr => ?_) fun created => ?_
        · exact hj.loadAccountOptional hP _ false false
        · exact hj.createAccountCheckpoint hP hr
        · cases created with
          | error error => exact .pure _
          | ok checkpoint => exact .pure _

theorem frameInit_codes (hpre : env.precompiles.LeavesJournal) (init : FrameInit) :
    KeepsCodes env.db P (frameInit env init) := by
  unfold frameInit
  cases init.frameInput with
  | call inputs => exact makeCallFrame_codes hP hpre _ _ inputs
  | create inputs => exact makeCreateFrame_codes hP _ _ inputs

variable (hlondon : env.cfg.spec.isEnabledIn .london = true)
  (heip3541 : env.cfg.disableEip3541 = false) (hcreates : CreatesIn env.cfg.maxCodeSize P)

include hlondon heip3541 hcreates

/-- Both exits of a create frame keep the rule. -/
theorem returnCreate_codes (checkpoint : JournalCheckpoint) (result : InterpreterResult)
    (address : Address) : KeepsCodes env.db P (returnCreate env checkpoint result address) := by
  intro s hs
  refine (returnCreate_ends hlondon heip3541 checkpoint result address s).mono
    (fun r s' hend => ⟨?_, trivial, trivial⟩) (fun _ _ h => h.elim) fun _ h => h
  cases hok : r.result.isOk with
  | false => exact JournalInner.CodesIn.checkpointRevert hP hs (hend.reverted hok)
  | true =>
    obtain ⟨hef, hsize, hset⟩ := hend.installed hok
    have hcommit : s.host.journal.checkpointCommit.CodesIn env.db P := hs
    exact hcommit.setCode hP (hcreates address r.output hef hsize) hset

theorem processNextAction_codes (frame : EthFrame) (action : InterpreterAction) :
    KeepsCodes env.db P (processNextAction env frame action) := by
  unfold processNextAction
  cases action with
  | newFrame input => exact .bind (onBuffer_keeps _) fun _ => .pure _
  | «return» result =>
    cases frame.data with
    | call range => exact .bind (checkpointClose_codes hP _ _) fun _ => .pure _
    | create address =>
      exact .bind (returnCreate_codes hP hlondon heip3541 hcreates _ _ _) fun _ => .pure _

omit hlondon heip3541 hcreates [Keccak256] in
/-- The operations of the host keep the rule. -/
theorem journalRule_codes :
    JournalRule env.db true fun j j' => j.CodesIn env.db P → j'.CodesIn env.db P where
  refl _ h := h
  trans h h' hj := h' (h hj)
  load _ a loadCode skip h := h.loadAccountOptional hP a loadCode skip
  sload _ _ _ _ _ hr h := h.sload hr
  sstore _ _ _ _ _ _ _ hr h := h.sstore hr
  tstore _ _ a k value h := h.tstore a k value
  log _ _ _ h := h
  selfdestruct _ _ _ _ _ hr h := h.selfdestruct hP hr

/-- One instruction with what follows from it. -/
theorem frameStep_codes (frame : EthFrame) : KeepsCodes env.db P (frameStep env frame) := by
  intro s hs
  have hstep := frame.interpreter.step_journal (journalRule_codes hP) (fun _ => rfl) s
  unfold frameStep
  revert hstep
  rcases frame.interpreter.step env.toHostEnv s with
    ⟨_, interpreter, s'⟩ | ⟨action, interpreter, s'⟩ | e
  · intro hstep
    exact ⟨hstep hs, trivial, trivial⟩
  · intro hstep
    have hprocess := processNextAction_codes hP hlondon heip3541 hcreates
      { frame with interpreter := interpreter } action
    -- the rule holds after the instruction, so it holds after the processing of its action
    exact (hprocess.bind (fun _ => .pure _) s' (hstep hs)).mono_next (fun _ _ h => h)
  · intro _
    trivial

section

variable (hpre : env.precompiles.LeavesJournal)

include hpre

/-- One turn of the loop. -/
theorem loopStep_codes (frames : List EthFrame) : KeepsCodes env.db P (loopStep env frames) := by
  cases frames with
  | nil => exact fun s _ => trivial
  | cons frame rest =>
    refine .bind (frameStep_codes hP hlondon heip3541 hcreates frame) fun answer => ?_
    rcases answer with ⟨_ | init | result, frame'⟩
    · exact .pure _
    · refine .bind (frameInit_codes hP hpre init) fun new => ?_
      cases new with
      | item new => exact .pure _
      | result result => exact frameReturnResult_keeps _ result
    · exact frameReturnResult_keeps _ result

/-- The loop, by induction on the number of instructions. -/
theorem runLoop_codes (n : Nat) (frames : List EthFrame) :
    KeepsCodes env.db P (runLoop env n frames) := by
  induction n generalizing frames with
  | zero => exact .pure _
  | succ n ih =>
    refine .bind (loopStep_codes hP hlondon heip3541 hcreates hpre frames) fun state => ?_
    cases state with
    | running frames => exact ih frames
    | done result => exact .pure _

theorem runExecLoop_codes (n : Nat) (init : FrameInit) :
    KeepsCodes env.db P (runExecLoop env n init) := by
  refine .bind (frameInit_codes hP hpre init) fun new => ?_
  cases new with
  | item frame => exact runLoop_codes hP hlondon heip3541 hcreates hpre n [frame]
  | result result => exact .pure _

end

end Frames

end Revm
