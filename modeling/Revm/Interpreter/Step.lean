import Revm.Interpreter.Instructions.Arithmetic
import Revm.Interpreter.Instructions.Contract
import Revm.Interpreter.Instructions.Host
import Revm.Interpreter.Instructions.System

/-!
# The interpreter

The instruction table and one step of the interpreter: it reads the opcode under the program
counter, moves the counter, charges the static gas and executes the instruction. An instruction that
moves the program counter further or asks for a new frame does so at its end; `Behaviour` keeps
these apart from the programs that do neither.
-/

set_option autoImplicit false

namespace Revm

variable {ε : Type}

/-! ## The instruction table -/

/-- What an instruction does besides running a program. -/
inductive Behaviour {ε : Type} (ctx : InstructionContext ε) where
  | run (program : Program ctx false Unit)
  /-- `push::<N>` -/
  | push (n : Nat)
  /-- jumps to the target that the program answers -/
  | jump (program : Program ctx false (Option (JumpTarget ctx)))
  /-- asks for the frame that the program answers -/
  | newFrame (program : Program ctx false FrameInput)

/-- `Instruction`. -/
structure Instruction {ε : Type} (ctx : InstructionContext ε) where
  fn : Behaviour ctx
  staticGas : Nat

section Table

variable [Keccak256] (ctx : InstructionContext ε)

open Instructions

/-- The entries of the instruction table for the opcodes that are not part of a numbered family. -/
def instructionList : List (Nat × Instruction ctx) :=
  [(0x00, ⟨.run stop, 0⟩),
    (0x01, ⟨.run add, 3⟩),
    (0x02, ⟨.run mul, 5⟩),
    (0x03, ⟨.run sub, 3⟩),
    (0x04, ⟨.run div, 5⟩),
    (0x05, ⟨.run sdiv, 5⟩),
    (0x06, ⟨.run rem, 5⟩),
    (0x07, ⟨.run smod, 5⟩),
    (0x08, ⟨.run addmod, 8⟩),
    (0x09, ⟨.run mulmod, 8⟩),
    (0x0a, ⟨.run exp, 0⟩),
    (0x0b, ⟨.run signextend, 5⟩),
    (0x10, ⟨.run lt, 3⟩),
    (0x11, ⟨.run gt, 3⟩),
    (0x12, ⟨.run slt, 3⟩),
    (0x13, ⟨.run sgt, 3⟩),
    (0x14, ⟨.run eq, 3⟩),
    (0x15, ⟨.run iszero, 3⟩),
    (0x16, ⟨.run bitand, 3⟩),
    (0x17, ⟨.run bitor, 3⟩),
    (0x18, ⟨.run bitxor, 3⟩),
    (0x19, ⟨.run not, 3⟩),
    (0x1a, ⟨.run byte, 3⟩),
    (0x1b, ⟨.run shl, 3⟩),
    (0x1c, ⟨.run shr, 3⟩),
    (0x1d, ⟨.run sar, 3⟩),
    (0x1e, ⟨.run clz, 5⟩),
    (0x20, ⟨.run keccak256, 0⟩),
    (0x30, ⟨.run address, 2⟩),
    (0x31, ⟨.run balance, 0⟩),
    (0x32, ⟨.run origin, 2⟩),
    (0x33, ⟨.run caller, 2⟩),
    (0x34, ⟨.run callvalue, 2⟩),
    (0x35, ⟨.run calldataload, 3⟩),
    (0x36, ⟨.run calldatasize, 2⟩),
    (0x37, ⟨.run calldatacopy, 0⟩),
    (0x38, ⟨.run codesize, 2⟩),
    (0x39, ⟨.run codecopy, 0⟩),
    (0x3a, ⟨.run gasprice, 2⟩),
    (0x3b, ⟨.run extcodesize, 0⟩),
    (0x3c, ⟨.run extcodecopy, 0⟩),
    (0x3d, ⟨.run returndatasize, 2⟩),
    (0x3e, ⟨.run returndatacopy, 0⟩),
    (0x3f, ⟨.run extcodehash, 0⟩),
    (0x40, ⟨.run blockhash, 20⟩),
    (0x41, ⟨.run coinbase, 2⟩),
    (0x42, ⟨.run timestamp, 2⟩),
    (0x43, ⟨.run blockNumber, 2⟩),
    (0x44, ⟨.run difficulty, 2⟩),
    (0x45, ⟨.run gaslimit, 2⟩),
    (0x46, ⟨.run chainid, 2⟩),
    (0x47, ⟨.run selfbalance, 5⟩),
    (0x48, ⟨.run basefee, 2⟩),
    (0x49, ⟨.run blobHash, 3⟩),
    (0x4a, ⟨.run blobBasefee, 2⟩),
    (0x50, ⟨.run pop, 2⟩),
    (0x51, ⟨.run mload, 3⟩),
    (0x52, ⟨.run mstore, 3⟩),
    (0x53, ⟨.run mstore8, 3⟩),
    (0x54, ⟨.run sload, 0⟩),
    (0x55, ⟨.run sstore, 0⟩),
    (0x56, ⟨.jump jump, 8⟩),
    (0x57, ⟨.jump jumpi, 10⟩),
    (0x58, ⟨.run pc, 2⟩),
    (0x59, ⟨.run msize, 2⟩),
    (0x5a, ⟨.run gas, 2⟩),
    (0x5b, ⟨.run jumpdest, 1⟩),
    (0x5c, ⟨.run tload, 100⟩),
    (0x5d, ⟨.run tstore, 100⟩),
    (0x5e, ⟨.run mcopy, 0⟩),
    (0x5f, ⟨.run push0, 2⟩),
    (0xf0, ⟨.newFrame (create false), 0⟩),
    (0xf1, ⟨.newFrame call, 0⟩),
    (0xf2, ⟨.newFrame callCode, 0⟩),
    (0xf3, ⟨.run ret, 0⟩),
    (0xf4, ⟨.newFrame delegateCall, 0⟩),
    (0xf5, ⟨.newFrame (create true), 0⟩),
    (0xfa, ⟨.newFrame staticCall, 0⟩),
    (0xfd, ⟨.run revert, 0⟩),
    (0xfe, ⟨.run invalid, 0⟩),
    (0xff, ⟨.run selfdestruct, 0⟩)]

/-- `instruction_table`. The families `PUSH1..32`, `DUP1..16`, `SWAP1..16` and `LOG0..4` are
numbered; an opcode without an entry is unknown. -/
def instructionTable (opcode : UInt8) : Instruction ctx :=
  let n := opcode.toNat
  if 0x60 ≤ n ∧ n ≤ 0x7f then ⟨.push (n - 0x5f), 3⟩
  else if 0x80 ≤ n ∧ n ≤ 0x8f then ⟨.run (dup (n - 0x7f)), 3⟩
  else if 0x90 ≤ n ∧ n ≤ 0x9f then ⟨.run (swap (n - 0x8f)), 3⟩
  else if 0xa0 ≤ n ∧ n ≤ 0xa4 then ⟨.run (log (n - 0xa0)), 0⟩
  else ((instructionList ctx).lookup n).getD ⟨.run unknown, 0⟩

theorem mem_instructionList {opcode : Nat} {instruction : Instruction ctx}
    (h : (instructionList ctx).lookup opcode = some instruction) :
    (opcode, instruction) ∈ instructionList ctx := by
  obtain ⟨l₁, l₂, heq, -⟩ := List.lookup_eq_some_iff.1 h
  rw [heq]
  exact List.mem_append_right l₁ List.mem_cons_self

/-- The programs that ask for a new frame. -/
inductive AsksForFrame {ctx : InstructionContext ε} : Program ctx false FrameInput → Prop where
  | create (isCreate2 : Bool) : AsksForFrame (create isCreate2)
  | call : AsksForFrame call
  | callCode : AsksForFrame callCode
  | delegateCall : AsksForFrame delegateCall
  | staticCall : AsksForFrame staticCall

theorem asksForFrame_instructionList : ∀ entry ∈ instructionList ctx, ∀ program,
    entry.2.fn = .newFrame program → AsksForFrame program := by
  simp only [instructionList, List.forall_mem_cons, reduceCtorEq, false_implies, implies_true,
    true_and, Behaviour.newFrame.injEq, forall_eq']
  exact ⟨.create false, .call, .callCode, .delegateCall, .create true, .staticCall,
    List.forall_mem_nil _⟩

theorem asksForFrame_instructionTable {opcode : UInt8} {program : Program ctx false FrameInput}
    (h : (instructionTable ctx opcode).fn = .newFrame program) : AsksForFrame program := by
  unfold instructionTable at h
  dsimp only at h
  split_ifs at h
  cases hlookup : (instructionList ctx).lookup opcode.toNat with
  | none =>
    rw [hlookup] at h
    cases h
  | some instruction =>
    rw [hlookup] at h
    exact asksForFrame_instructionList ctx _ (mem_instructionList ctx hlookup) program h

end Table

/-! ## Execution -/

/-- How the interpreter goes on after an instruction that did not end the frame. -/
inductive Control where
  | continueAt (pc : Nat)
  | newFrame (input : FrameInput)

/-- `push::<N>`: the immediate bytes are read behind the opcode. -/
def pushImmediate (ctx : InstructionContext ε) (n : Nat) : Instr ε Control := fun s =>
  if ctx.pc + n ≤ ctx.bytecode.bytesRef.length then
    match s.stack.push (ofBigEndian ((ctx.bytecode.bytesRef.drop ctx.pc).take n)) with
    | none => .stop ⟨.stackOverflow, []⟩ s
    | some stack => .next (.continueAt (ctx.pc + n)) { s with stack := stack }
  else .fault .code

/-- `Instruction::execute`. -/
def Behaviour.execute {ctx : InstructionContext ε} : Behaviour ctx → Instr ε Control
  | .run program => do
      program.run
      return .continueAt ctx.pc
  | .push n => pushImmediate ctx n
  | .jump program => do
      match ← program.run with
      | none => return .continueAt ctx.pc
      | some target => return .continueAt target.1
  | .newFrame program => do
      let input ← program.run
      return .newFrame input

/-- `Interpreter`, with the pointer of `ExtBytecode` as a position in the bytecode. -/
structure Interpreter where
  bytecode : Bytecode
  pc : Nat
  gas : Gas
  stack : Stack
  returnData : List UInt8
  memory : SharedMemory
  input : InputsImpl
  runtimeFlag : RuntimeFlags

/-- What all frames share: the memory buffer and the host. -/
structure Shared (ε : Type) where
  buffer : Buffer
  host : Host ε

namespace Interpreter

variable (self : Interpreter)

/-- What the instruction behind `pc` reads. -/
def context (env : HostEnv ε) (pc : Nat) : InstructionContext ε where
  bytecode := self.bytecode
  pc := pc
  memory := self.memory
  input := self.input
  returnData := self.returnData
  runtimeFlag := self.runtimeFlag
  env := env

/-- The state that the instruction works on. -/
def machine (shared : Shared ε) : Machine ε :=
  ⟨self.gas, self.stack, shared.buffer, shared.host⟩

/-- The interpreter after an instruction. -/
def update (pc : Nat) (m : Machine ε) : Interpreter × Shared ε :=
  ({ self with pc := pc, gas := m.gas, stack := m.stack }, ⟨m.buffer, m.host⟩)

/-- The instruction at `pc`, with its static gas. -/
def fetchExecute [Keccak256] (ctx : InstructionContext ε) (opcode : UInt8) : Instr ε Control :=
  fun s =>
    let instruction := instructionTable ctx opcode
    let r := s.gas.recordCostUnsafe instruction.staticGas
    let s := { s with gas := r.2 }
    if r.1 then Prim.haltOog s else instruction.fn.execute s

/-- `Interpreter::step`. The action that ends the loop is the value it stops with. -/
def step [Keccak256] (env : HostEnv ε) (self : Interpreter) (shared : Shared ε) :
    Outcome (Interpreter × Shared ε) InterpreterAction Fault Unit :=
  match self.bytecode.bytesRef[self.pc]? with
  | none => .fault .code
  | some opcode =>
      let pc := self.pc + 1
      match fetchExecute (self.context env pc) opcode (self.machine shared) with
      | .next (.continueAt pc) m => .next () (self.update pc m)
      | .next (.newFrame input) m => .stop (.newFrame input) (self.update pc m)
      | .stop halt m => .stop (.return ⟨halt.result, halt.output, m.gas⟩) (self.update pc m)
      | .fault e => .fault e

/-- The rule of a step: its ends are those of its instruction. -/
theorem step_meets [Keccak256] {env : HostEnv ε} {self : Interpreter} {shared : Shared ε}
    {Q : Unit → Interpreter × Shared ε → Prop} {S : InterpreterAction →
      Interpreter × Shared ε → Prop} {F : Fault → Prop}
    (hcode : self.bytecode.bytesRef[self.pc]? = none → F .code)
    (h : ∀ opcode, self.bytecode.bytesRef[self.pc]? = some opcode →
      (fetchExecute (self.context env (self.pc + 1)) opcode (self.machine shared)).Meets
        (fun control m =>
          match control with
          | .continueAt pc => Q () (self.update pc m)
          | .newFrame input => S (.newFrame input) (self.update (self.pc + 1) m))
        (fun halt m => S (.return ⟨halt.result, halt.output, m.gas⟩) (self.update (self.pc + 1) m))
          F) : (self.step env shared).Meets Q S F := by
  unfold step
  cases hop : self.bytecode.bytesRef[self.pc]? with
  | none => exact hcode hop
  | some opcode =>
    have hends := h opcode hop
    dsimp only
    generalize fetchExecute (self.context env (self.pc + 1)) opcode (self.machine shared) =
      o at hends
    rcases o with ⟨_ | _, m⟩ | ⟨halt, m⟩ | e <;> exact hends

end Interpreter

end Revm
