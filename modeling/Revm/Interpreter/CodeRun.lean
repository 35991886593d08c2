import Revm.Interpreter.StepCost
import Revm.Journal.Nested

/-!
# Execution stays inside the code

The program counter of the interpreter is a pointer that is never compared with the end of the code.
`CodeRun` is every run over an analysed byte string: it starts at position zero with any stack and
any memory, goes from step to step, and is interrupted by calls, after which everything but the code
and the program counter may be different. `analyzeLegacy_run` says that the counter stands on an
instruction of the padded code before every step, so that the opcode and its immediate bytes are
there.
-/

set_option autoImplicit false

namespace Revm

open Prim List

variable {ε : Type} {α : Type} {code : List UInt8}

/-! ## Reads of the code -/

section Code

/-- No fault by a read outside of the code. -/
def codeDiscipline : Discipline (Machine ε) Fault where
  Inv _ := True
  Step _ _ := True
  Stop _ _ := True
  Fault e := e ≠ .code
  refl _ := trivial
  trans _ _ := trivial
  stop_of_step _ _ := trivial

variable {x : Instr ε α}

namespace Prim

variable (ctx : InstructionContext ε)

theorem obeys_code (h : ∀ s, x s ≠ .fault .code) : x.Obeys codeDiscipline := by
  intro s _
  cases hx : x s with
  | next a s' => exact ⟨trivial, trivial, trivial⟩
  | stop t s' => exact trivial
  | fault e =>
    intro he
    exact h s (by rw [hx, he])

theorem readBuffer_code (f : Buffer → Option α) : (readBuffer f : Instr ε α).Obeys codeDiscipline :=
  obeys_code fun s h => by
    unfold readBuffer at h
    cases hf : f s.buffer <;> rw [hf] at h <;> cases h

theorem writeBuffer_code (f : Buffer → Option Buffer) :
    (writeBuffer f : Instr ε Unit).Obeys codeDiscipline :=
  obeys_code fun s h => by
    unfold writeBuffer at h
    cases hf : f s.buffer <;> rw [hf] at h <;> cases h

theorem resize_code (offset len : Nat) : (resize ctx offset len).Obeys codeDiscipline :=
  obeys_code fun s h => by
    unfold resize at h
    rcases hr : resizeMemory s.gas ctx.memory s.buffer offset len with _ | ⟨_ | _, _, _⟩ <;>
      rw [hr] at h <;> cases h

end Prim

theorem HostOnly.obeys_code (h : HostOnly x) : x.Obeys codeDiscipline :=
  Prim.obeys_code fun s => (h s).ne_fault nofun

/-- Programs do not read the code. -/
theorem Built.obeys_code {ctx : InstructionContext ε} {w : Bool}
    (h : Built ctx w x) : x.Obeys codeDiscipline := by
  induction h with
  | pure a => exact .pure a
  | bind _ _ ihx ihf => exact .bind ihx ihf
  | halt | haltOog | panic | getMachine | setStack | recordCost | tstore | log =>
    exact Prim.obeys_code fun s h => by cases h
  | recordRefund refund =>
    refine Prim.obeys_code fun s h => ?_
    unfold Prim.recordRefund at h
    cases hr : s.gas.recordRefund refund <;> rw [hr] at h <;> cases h
  | memorySize => exact readBuffer_code _
  | memorySlice offset len => exact .bind (resize_code _ _ _) fun _ => readBuffer_code _
  | memorySet offset value => exact .bind (resize_code _ _ _) fun _ => writeBuffer_code _
  | memoryCopy dst src len => exact .bind (resize_code _ _ _) fun _ => writeBuffer_code _
  | memorySetData offset len _ ih =>
    exact .bind (resize_code _ _ _) fun _ => .bind ih fun _ => writeBuffer_code _
  | memorySetGlobal offset dataOffset len _ =>
    exact .bind (resize_code _ _ _) fun _ => writeBuffer_code _
  | inputSlice _ =>
    unfold Prim.inputSlice
    cases ctx.input.input with
    | bytes data => exact .pure data
    | sharedBuffer range => exact readBuffer_code _
  | resizeRange offset len =>
    exact .bind (resize_code _ _ _) fun _ => readBuffer_code _
  | loadAccountInfo address loadCode skipColdLoad =>
    exact (hostOnly_loadAccountInfo ctx address loadCode skipColdLoad).obeys_code
  | sload address key skipColdLoad =>
    exact (hostOnly_sload ctx address key skipColdLoad).obeys_code
  | blockHash number => exact (hostOnly_blockHash ctx number).obeys_code
  | sstore address key value skipColdLoad =>
    exact (hostOnly_sstore ctx address key value skipColdLoad).obeys_code
  | selfdestruct address target =>
    exact (hostOnly_selfdestruct ctx address target).obeys_code
  | @nonStatic _ _ body _ ih =>
    unfold Prim.nonStatic
    split_ifs
    · exact Prim.obeys_code fun s h => by cases h
    · exact ih

end Code

/-! ## The instruction table -/

/-- The immediate bytes that the behaviour reads. -/
def Behaviour.immediates {ctx : InstructionContext ε} : Behaviour ctx → Nat
  | .push n => n
  | _ => 0

theorem pushLen_eq (opcode : UInt8) : pushLen opcode =
      if 0x60 ≤ opcode.toNat ∧ opcode.toNat ≤ 0x7f then opcode.toNat - 0x5f else 0 := by
  have key : ∀ n < 256,
      pushLen (UInt8.ofNat n) = if 0x60 ≤ n ∧ n ≤ 0x7f then n - 0x5f else 0 := by decide +kernel
  have h := key opcode.toNat opcode.toNat_lt
  rwa [UInt8.ofNat_toNat] at h

section Table

variable [Keccak256] {ctx : InstructionContext ε}

theorem immediates_instructionList : ∀ entry ∈ instructionList ctx, entry.2.fn.immediates = 0 := by
  simp only [instructionList, forall_mem_cons, Behaviour.immediates]
  simp

/-- The table reads as many immediate bytes as the analysis skips. -/
theorem immediates_instructionTable (opcode : UInt8) :
    (instructionTable ctx opcode).fn.immediates = pushLen opcode := by
  rw [pushLen_eq]
  unfold instructionTable
  dsimp only
  split_ifs
  · rfl
  · rfl
  · rfl
  · rfl
  · cases h : (instructionList ctx).lookup opcode.toNat with
    | none => rfl
    | some instruction => exact immediates_instructionList _ (mem_instructionList ctx h)

end Table

/-! ## One step -/

/-- Where an instruction with this many immediate bytes goes on: behind them or on a valid jump
destination. An instruction that asks for a frame has none. -/
def Control.Behind (ctx : InstructionContext ε) (immediates : Nat) : Control → Prop
  | .continueAt pc =>
      pc = ctx.pc + immediates ∨ ctx.bytecode.legacyJumpTable.map (·.isValid pc) = some true
  | .newFrame _ => immediates = 0

section Step

variable {ctx : InstructionContext ε}

/-- An instruction with its immediate bytes in the code does not read outside of it. -/
theorem Behaviour.execute_code (b : Behaviour ctx) (s : Machine ε) :
    (b.execute s).Meets (fun control _ => control.Behind ctx b.immediates) (fun _ _ => True)
      fun e => ctx.pc + b.immediates ≤ ctx.bytecode.bytesRef.length → e ≠ .code := by
  have hprogram : ∀ {α : Type} (p : Program ctx false α), (p.run s).Meets (fun _ _ => True)
      (fun _ _ => True) fun e => ctx.pc + b.immediates ≤ ctx.bytecode.bytesRef.length → e ≠ .code :=
    fun p => (p.built.obeys_code s trivial).mono (fun _ _ _ => trivial) (fun _ _ h => h)
      fun _ h _ => h
  cases b with
  | run program =>
    exact .bind ((hprogram program).mono_next (fun _ _ _ => .inl rfl))
  | push n =>
    simp only [execute, pushImmediate]
    split_ifs with hfits
    · split
      · exact trivial
      · exact .inl rfl
    · exact fun h => absurd h hfits
  | jump program =>
    refine .bind ((hprogram program).mono_next ?_)
    rintro (_ | target) s' -
    · exact .inl rfl
    · exact .inr target.2
  | newFrame program =>
    exact .bind ((hprogram program).mono_next (fun _ _ _ => rfl))

variable [Keccak256]

/-- An instruction that goes on is not a `STOP`. -/
theorem Interpreter.fetchExecute_code (ctx : InstructionContext ε) (opcode : UInt8)
    (s : Machine ε) :
    (fetchExecute ctx opcode s).Meets
      (fun control _ => opcode ≠ Opcode.stop ∧ control.Behind ctx (pushLen opcode))
        (fun _ _ => True)
      fun e => ctx.pc + pushLen opcode ≤ ctx.bytecode.bytesRef.length → e ≠ .code := by
  unfold fetchExecute
  dsimp only
  split_ifs
  · exact trivial
  · by_cases hstop : opcode = Opcode.stop
    · subst hstop
      exact trivial
    · rw [← @immediates_instructionTable _ _ ctx opcode]
      exact (Behaviour.execute_code _ _).mono_next (fun _ _ h => ⟨hstop, h⟩)

end Step

/-! ## Runs -/

/-- The states before the steps of a run over the analysed `code`. While a call runs the interpreter
is suspended, and what the call does to it is not restricted. -/
inductive CodeRun [Keccak256] (code : List UInt8) : Interpreter → Prop where
  | start {self : Interpreter} (hcode : self.bytecode = .legacyAnalyzed code) (hpc : self.pc = 0) :
      CodeRun code self
  | next {ε : Type} {env : HostEnv ε} {shared shared' : Shared ε} {self self' : Interpreter}
      (h : CodeRun code self) (hstep : self.step env shared = .next () (self', shared')) :
      CodeRun code self'
  | resume {ε : Type} {env : HostEnv ε} {shared shared' : Shared ε}
      {self self' self'' : Interpreter}
      {input : FrameInput} (h : CodeRun code self)
      (hstep : self.step env shared = .stop (.newFrame input) (self', shared'))
      (hcode : self''.bytecode = self'.bytecode) (hpc : self''.pc = self'.pc) :
      CodeRun code self''

/-- The program counter stands on an instruction of the padded code. -/
structure OnInstruction (code : List UInt8) (interpreter : Interpreter) : Prop where
  bytecode : interpreter.bytecode = .legacyAnalyzed code
  start : InstructionStart (paddedCode code) interpreter.pc
  lt : interpreter.pc < (paddedCode code).length

section Run

/-- The position behind an instruction that is not a `STOP`. -/
theorem OnInstruction.behind {self self' : Interpreter} {opcode : UInt8}
    (h : OnInstruction code self) (hop : (paddedCode code)[self.pc]? = some opcode)
    (hstop : opcode ≠ Opcode.stop) (hcode : self'.bytecode = self.bytecode)
    (hpc : self'.pc = self.pc + 1 + pushLen opcode) : OnInstruction code self' := by
  refine ⟨hcode.trans h.bytecode, ?_, ?_⟩
  · rw [hpc]
    exact h.start.next hop
  · rw [hpc]
    exact (padded_fits h.start hop).2 hstop

/-- A step keeps the counter on an instruction, by the table or by the padding, and reads nothing
outside of the code. -/
theorem OnInstruction.step [Keccak256] {self : Interpreter} (h : OnInstruction code self)
    (env : HostEnv ε) (shared : Shared ε) : (self.step env shared).Meets
      (fun _ r => OnInstruction code r.1)
      (fun action r => ∀ input, action = .newFrame input → OnInstruction code r.1) (· ≠ .code) := by
  have hbytes : self.bytecode.bytesRef = paddedCode code := by rw [h.bytecode]; rfl
  refine Interpreter.step_meets (fun hnone => ?_) fun opcode hop => ?_
  · rw [hbytes, getElem?_eq_getElem h.lt] at hnone
    cases hnone
  · rw [hbytes] at hop
    refine (Interpreter.fetchExecute_code _ opcode _).mono ?_ (fun _ _ _ _ h => by cases h)
      fun e he => ?_
    · rintro (pc | input) m ⟨hstop, hpc⟩
      · rcases hpc with hpc | hvalid
        · exact h.behind hop hstop rfl hpc
        · change self.bytecode.legacyJumpTable.map (·.isValid pc) = some true at hvalid
          rw [h.bytecode] at hvalid
          obtain ⟨hstart, hlt⟩ := isValid_padded (Option.some.inj hvalid)
          exact ⟨h.bytecode, hstart, hlt⟩
      · rintro _ -
        exact h.behind hop hstop rfl (by rw [show pushLen opcode = 0 from hpc]; rfl)
    · refine he ?_
      show self.pc + 1 + _ ≤ self.bytecode.bytesRef.length
      rw [hbytes]
      exact (padded_fits h.start hop).1

theorem CodeRun.onInstruction [Keccak256] {self : Interpreter} (h : CodeRun code self) :
    OnInstruction code self := by
  induction h with
  | start hcode hpc =>
    refine ⟨hcode, ?_, ?_⟩
    · rw [hpc]
      exact .refl 0
    · rw [hpc]
      exact paddedCode_ne_nil code
  | @next ε env shared _ _ _ _ hstep ih => exact (ih.step env shared).next hstep
  | @resume ε env shared _ _ _ _ input _ hstep hcode hpc ih =>
    have hsuspended := ih.step env shared
    rw [hstep] at hsuspended
    obtain ⟨hcode', hstart, hlt⟩ := hsuspended input rfl
    exact ⟨hcode.trans hcode', hpc ▸ hstart, hpc ▸ hlt⟩

end Run

/-- The bytes of `code` from position `i` on, extended with zeros. -/
def codeBytes (code : List UInt8) (i n : Nat) : List UInt8 :=
  (range n).map fun k => code.getD (i + k) 0

theorem take_drop_paddedCode {i n : Nat} (h : i + n ≤ (paddedCode code).length) :
    ((paddedCode code).drop i).take n = codeBytes code i n := by
  unfold codeBytes
  apply ext_getElem
  · simp only [length_take, length_drop, length_map, length_range]
    omega
  · intro k hk hk'
    rw [getElem_take, getElem_drop, getElem_map, getElem_range,
      ← getD_paddedCode, getD_eq_getElem]

/-- The jump table of `analyze_legacy` marks exactly the `JUMPDEST`s that start an instruction.
Before every step of every run over the padded code the program counter stands on an instruction of
it, the opcode and the immediate bytes are inside of it and are those of the code extended with
zeros, and the step reads nothing else. -/
theorem analyzeLegacy_run [Keccak256] (code : List UInt8) :
    (∀ i, (analyzeLegacy code).1.isValid i = true ↔
      i < code.length ∧ code[i]? = some Opcode.jumpdest ∧ InstructionStart code i) ∧
    ∀ self, CodeRun code self →
      self.bytecode.bytesRef = (analyzeLegacy code).2 ∧
      InstructionStart (analyzeLegacy code).2 self.pc ∧
      self.pc < (analyzeLegacy code).2.length ∧
      (∃ opcode, (analyzeLegacy code).2[self.pc]? = some opcode ∧ opcode = code.getD self.pc 0 ∧
        self.pc + 1 + pushLen opcode ≤ (analyzeLegacy code).2.length ∧
        ((analyzeLegacy code).2.drop (self.pc + 1)).take (pushLen opcode) =
          codeBytes code (self.pc + 1) (pushLen opcode)) ∧
      ∀ {ε : Type} (env : HostEnv ε) (shared : Shared ε), self.step env shared ≠ .fault .code := by
  refine ⟨isValid_jumpTable code, fun self hrun => ?_⟩
  obtain ⟨hcode, hstart, hlt⟩ := hrun.onInstruction
  have hbytes : self.bytecode.bytesRef = paddedCode code := by rw [hcode]; rfl
  have hop := getElem?_eq_getElem hlt
  have hfits := (padded_fits hstart hop).1
  refine ⟨hbytes, hstart, hlt, ⟨_, hop, ?_, hfits, take_drop_paddedCode hfits⟩, ?_⟩
  · rw [← getD_paddedCode, getD_eq_getElem _ _ hlt]
  · intro ε env shared
    exact (hrun.onInstruction.step env shared).ne_fault fun h => h rfl

/-- The start of a frame with a `PUSH2` that has one of its two immediate bytes. -/
def truncatedPush : Interpreter where
  bytecode := .legacyAnalyzed [0x61, 0x5b]
  pc := 0
  gas := .new 100
  stack := .new
  returnData := []
  memory := .new
  input := ⟨1, none, 0, .bytes [], 0⟩
  runtimeFlag := ⟨false, .prague⟩

/-- The padding completes a truncated `PUSH2` and puts a `STOP` behind it. -/
theorem analyzeLegacy_run_truncatedPush : letI := lengthKeccak
    ∃ self, CodeRun [0x61, 0x5b] self ∧ self.pc = 3 ∧
      self.pc < (analyzeLegacy [0x61, 0x5b]).2.length ∧
      (analyzeLegacy [0x61, 0x5b]).1.isValid 1 = false := by
  let := lengthKeccak
  let shared : Shared Empty := ⟨[], ⟨.new .prague .new, none⟩⟩
  have hstep : truncatedPush.step (.default contractDb .prague) shared =
      .next () (truncatedPush.update 3
        ⟨⟨100, 97, 0, .new⟩, ⟨[0x5b00], by decide⟩, shared.buffer, shared.host⟩) := rfl
  have hrun := CodeRun.next (.start rfl rfl) hstep
  have h := analyzeLegacy_run [0x61, 0x5b]
  refine ⟨_, hrun, rfl, (h.2 _ hrun).2.2.1, ?_⟩
  rw [Bool.eq_false_iff, ne_eq, h.1]
  -- the byte `0x5b` is an immediate byte, the walk steps over it
  rintro ⟨-, -, hstart⟩
  cases hstart with
  | step hop hrest =>
    cases hop
    have hle : 3 ≤ 1 := hrest.le
    omega

end Revm
