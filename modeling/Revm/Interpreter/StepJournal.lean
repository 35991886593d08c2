import Revm.Interpreter.Step

/-!
# Instructions and the journal

An instruction reaches the journal only through the operations of the host. `JournalRule` collects
what these operations do: a relation between the journal before and after that composes and that
holds for each of them. The operations that write count only where the frame is not static. What
holds for the operations holds for every program (`Built.obeys_journal`) and for every step of the
interpreter (`Interpreter.step_journal`).
-/

set_option autoImplicit false

namespace Revm

open Prim

variable {R : JournalInner → JournalInner → Prop}

/-- A relation on journals that the operations of the host respect, those that write included if
`writes` is set. -/
structure JournalRule {ε : Type} (db : Database ε) (writes : Bool)
    (R : JournalInner → JournalInner → Prop) : Prop where
  refl : ∀ j, R j j
  trans : ∀ {j j' j''}, R j j' → R j' j'' → R j j''
  load : ∀ j a loadCode skip, R j (j.loadAccountOptional db a loadCode skip).2
  sload : ∀ j a k skip r, j.sload db a k skip = some r → R j r.2
  sstore : writes = true → ∀ j a k value skip r, j.sstore db a k value skip = some r → R j r.2
  tstore : writes = true → ∀ j a k value, R j (j.tstore a k value)
  log : writes = true → ∀ j entry, R j (j.log entry)
  selfdestruct : writes = true → ∀ j a target r, j.selfdestruct db a target = some r → R j r.2

/-- A computation of instructions relates the journals before and after it. -/
def journalDiscipline {ε : Type} {db : Database ε} {writes : Bool} (hR : JournalRule db writes R) :
    Discipline (Machine ε) Fault where
  Inv _ := True
  Step s s' := R s.host.journal s'.host.journal
  Stop s s' := R s.host.journal s'.host.journal
  Fault _ := True
  refl _ := hR.refl _
  trans h h' := hR.trans h h'
  stop_of_step h h' := hR.trans h h'

/-- The journal of the machine stays as it is. -/
def KeepsJournal {ε α : Type} (x : Instr ε α) : Prop :=
  ∀ s, (x s).Meets (fun _ s' => s'.host.journal = s.host.journal)
    (fun _ s' => s'.host.journal = s.host.journal) fun _ => True

namespace Prim

variable {ε α : Type} {ctx : InstructionContext ε}

theorem readBuffer_keepsJournal (f : Buffer → Option α) :
    KeepsJournal (readBuffer f : Instr ε α) := by
  intro s
  unfold readBuffer
  cases f s.buffer with
  | none => trivial
  | some a => rfl

theorem writeBuffer_keepsJournal (f : Buffer → Option Buffer) :
    KeepsJournal (writeBuffer f : Instr ε Unit) := by
  intro s
  unfold writeBuffer
  cases f s.buffer with
  | none => trivial
  | some buffer => rfl

theorem resize_keepsJournal (offset len : Nat) : KeepsJournal (resize ctx offset len) := by
  intro s
  unfold resize
  rcases resizeMemory s.gas ctx.memory s.buffer offset len with _ | ⟨_ | _, gas, buffer⟩
  · trivial
  · rfl
  · rfl

theorem recordRefund_keepsJournal (refund : Int) :
    KeepsJournal (recordRefund refund : Instr ε Unit) := by
  intro s
  unfold recordRefund
  cases s.gas.recordRefund refund with
  | none => trivial
  | some gas => rfl

theorem blockHash_keepsJournal (number : Nat) : KeepsJournal (blockHash ctx number) := by
  intro s
  unfold blockHash
  cases ctx.env.blockHash number with
  | ok hash => rfl
  | error e => rfl

/-- The answer of the host leaves the journal that the operation has left. -/
theorem ofJournal_journal {β : Type} (r : Except (JournalLoadError ε) β × JournalInner)
    (s : Machine ε) :
    (ofJournal r s).Meets (fun _ s' => s'.host.journal = r.2) (fun _ _ => False)
      fun _ => False := by
  obtain ⟨(_ | _) | _, journal⟩ := r <;> rfl

end Prim

section Programs

variable {ε : Type} {ctx : InstructionContext ε} {writes : Bool}
  (hR : JournalRule ctx.env.db writes R)

theorem KeepsJournal.obeys {α : Type} {x : Instr ε α} (h : KeepsJournal x) :
    x.Obeys (journalDiscipline hR) := by
  intro s _
  refine (h s).mono (fun _ s' heq => ⟨trivial, ?_, trivial⟩) (fun _ s' heq => ?_) fun _ h => h
  · show R s.host.journal s'.host.journal
    rw [heq]
    exact hR.refl _
  · show R s.host.journal s'.host.journal
    rw [heq]
    exact hR.refl _

/-- An operation of the host. -/
theorem Prim.ofJournal_gives {β : Type} {r : Except (JournalLoadError ε) β × JournalInner}
    {s : Machine ε} (h : R s.host.journal r.2) :
    (ofJournal r s).Gives (journalDiscipline hR) s fun _ _ => True := by
  refine (ofJournal_journal r s).mono (fun _ s' heq => ⟨trivial, ?_, trivial⟩) (fun _ _ h => h.elim)
    fun _ h => h.elim
  show R s.host.journal s'.host.journal
  rw [heq]
  exact h

/-- Programs relate the journals before and after them. -/
theorem Built.obeys_journal {w : Bool} {α : Type} {x : Instr ε α} (h : Built ctx w x)
    (hw : w = true → writes = true) (hstatic : ctx.runtimeFlag.isStatic = false → writes = true) :
    x.Obeys (journalDiscipline hR) := by
  induction h with
  | pure a => exact .pure a
  | bind _ _ ihx ihf => exact .bind (ihx hw) fun a => ihf a hw
  | halt result output => exact KeepsJournal.obeys hR fun s => rfl
  | haltOog => exact KeepsJournal.obeys hR fun s => rfl
  | panic => exact KeepsJournal.obeys hR fun s => trivial
  | getMachine => exact KeepsJournal.obeys hR fun s => rfl
  | setStack stack => exact KeepsJournal.obeys hR fun s => rfl
  | recordCost cost => exact KeepsJournal.obeys hR fun s => rfl
  | recordRefund refund => exact (recordRefund_keepsJournal refund).obeys hR
  | memorySize => exact (readBuffer_keepsJournal _).obeys hR
  | memorySlice offset len =>
    exact .bind ((resize_keepsJournal _ _).obeys hR) fun _ =>
      (readBuffer_keepsJournal _).obeys hR
  | memorySet offset value =>
    exact .bind ((resize_keepsJournal _ _).obeys hR) fun _ =>
      (writeBuffer_keepsJournal _).obeys hR
  | memoryCopy dst src len =>
    exact .bind ((resize_keepsJournal _ _).obeys hR) fun _ =>
      (writeBuffer_keepsJournal _).obeys hR
  | memorySetData offset len _ ih =>
    exact .bind ((resize_keepsJournal _ _).obeys hR) fun _ =>
      .bind (ih hw) fun _ => (writeBuffer_keepsJournal _).obeys hR
  | memorySetGlobal offset dataOffset len _ =>
    exact .bind ((resize_keepsJournal _ _).obeys hR) fun _ =>
      (writeBuffer_keepsJournal _).obeys hR
  | inputSlice _ =>
    unfold Prim.inputSlice
    cases ctx.input.input with
    | bytes data => exact .pure data
    | sharedBuffer range => exact (readBuffer_keepsJournal _).obeys hR
  | resizeRange offset len =>
    exact .bind ((resize_keepsJournal _ _).obeys hR) fun _ =>
      (readBuffer_keepsJournal _).obeys hR
  | loadAccountInfo address loadCode skipColdLoad =>
    intro s _
    exact ofJournal_gives hR (hR.load _ _ _ _)
  | sload address key skipColdLoad =>
    intro s _
    unfold Prim.sload
    cases hr : s.host.journal.sload ctx.env.db address key skipColdLoad with
    | none => trivial
    | some r => exact ofJournal_gives hR (hR.sload _ _ _ _ r hr)
  | blockHash number => exact (blockHash_keepsJournal number).obeys hR
  | sstore address key value skipColdLoad =>
    intro s _
    unfold Prim.sstore
    cases hr : s.host.journal.sstore ctx.env.db address key value skipColdLoad with
    | none => trivial
    | some r => exact ofJournal_gives hR (hR.sstore (hw rfl) _ _ _ _ _ r hr)
  | tstore address key value =>
    intro s _
    exact ⟨trivial, hR.tstore (hw rfl) _ _ _ _, trivial⟩
  | log entry =>
    intro s _
    exact ⟨trivial, hR.log (hw rfl) _ _, trivial⟩
  | selfdestruct address target =>
    intro s _
    unfold Prim.selfdestruct
    cases hr : s.host.journal.selfdestruct ctx.env.db address target with
    | none => trivial
    | some r => exact ofJournal_gives hR (hR.selfdestruct (hw rfl) _ _ _ r hr)
  | @nonStatic _ _ body _ ih =>
    -- a static frame does not reach the body
    unfold Prim.nonStatic
    cases hs : ctx.runtimeFlag.isStatic with
    | true => exact KeepsJournal.obeys hR fun s => rfl
    | false => exact ih fun _ => hstatic hs

theorem Behaviour.execute_journal (b : Behaviour ctx)
    (hstatic : ctx.runtimeFlag.isStatic = false → writes = true) :
    b.execute.Obeys (journalDiscipline hR) := by
  have hprogram : ∀ {α : Type} (program : Program ctx false α),
      program.run.Obeys (journalDiscipline hR) :=
    fun program => program.built.obeys_journal hR (by simp) hstatic
  cases b with
  | run program => exact .bind (hprogram program) fun _ => .pure _
  | push n =>
    apply KeepsJournal.obeys hR
    intro s
    simp only [Behaviour.execute, pushImmediate]
    split_ifs
    · split
      · rfl
      · rfl
    · trivial
  | jump program =>
    apply Exec.Obeys.bind (hprogram program)
    rintro (_ | target)
    · exact .pure _
    · exact .pure _
  | newFrame program => exact .bind (hprogram program) fun _ => .pure _

/-- A step of the interpreter relates the journals before and after it. -/
theorem Interpreter.step_journal [Keccak256] {env : HostEnv ε} {self : Interpreter}
    (hR : JournalRule env.db writes R)
    (hstatic : self.runtimeFlag.isStatic = false → writes = true) (shared : Shared ε) :
    (self.step env shared).Meets (fun _ r => R shared.host.journal r.2.host.journal)
      (fun _ r => R shared.host.journal r.2.host.journal) fun _ => True := by
  refine step_meets (fun _ => trivial) fun opcode _ => ?_
  have hfetch : (fetchExecute (self.context env (self.pc + 1)) opcode (self.machine shared)).Gives
      (journalDiscipline hR) (self.machine shared) fun _ _ => True := by
    unfold fetchExecute
    dsimp only
    split_ifs
    · exact hR.refl _
    · -- the static gas does not concern the journal
      exact Behaviour.execute_journal hR
        (instructionTable (self.context env (self.pc + 1)) opcode).fn hstatic _ trivial
  refine hfetch.mono_next ?_
  rintro (_ | _) m h
  · exact h.2.1
  · exact h.2.1

end Programs

end Revm
