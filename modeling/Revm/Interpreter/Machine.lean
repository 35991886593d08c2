import Revm.Bytecode.Analysis
import Revm.Foundations.Exec
import Revm.Interpreter.Action
import Revm.Interpreter.GasCalc
import Revm.Interpreter.SharedMemory
import Revm.Interpreter.Stack

/-!
# Programs of instructions

An instruction works on the gas and the stack of its frame, on the buffer that all frames share and
on the host. `Machine` is that state; what an instruction only reads is the `InstructionContext`. To
set the action of the interpreter and to return is to stop with a `Halt`: the gas of the result is
the gas of the machine at that time.

The instructions are written over the primitive operations of this file. `Built` says that a
computation is made of them, `Program` is a computation with that fact. So whatever the primitive
operations respect, every instruction respects. An access to memory and the resize in front of it
are one primitive operation. The operations that write to the state of the host are only for
programs that stand behind `nonStatic`.
-/

set_option autoImplicit false

namespace Revm

/-! ## State -/

/-- The part of the host that instructions change: the journal and the slot for an error of the
database. -/
structure Host (ε : Type) where
  journal : JournalInner
  error : Option ε

/-- The part of the host that instructions only read. -/
structure HostEnv (ε : Type) where
  db : Database ε
  blockHash : Nat → Except ε B256
  block : BlockEnv
  tx : TxEnv
  cfg : CfgEnv

/-- The default environment over a database. -/
def HostEnv.default {ε : Type} (db : Database ε) (spec : SpecId) : HostEnv ε where
  db := db
  blockHash _ := .ok 0
  block := .default
  tx := .default
  cfg := .newWithSpec spec

/-- The state of an instruction. -/
structure Machine (ε : Type) where
  gas : Gas
  stack : Stack
  buffer : Buffer
  host : Host ε

/-- What an instruction only reads. The program counter is already behind the opcode. -/
structure InstructionContext (ε : Type) where
  bytecode : Bytecode
  pc : Nat
  memory : SharedMemory
  input : InputsImpl
  returnData : List UInt8
  runtimeFlag : RuntimeFlags
  env : HostEnv ε

/-- The result and the output of a frame that ends. -/
structure Halt where
  result : InstructionResult
  output : List UInt8
  deriving DecidableEq, Repr

/-- What goes wrong when the source panics, has undefined behaviour or leaves the range of a machine
integer. -/
inductive Fault where
  /-- an access outside of the shared memory, or a size of it that is out of range -/
  | memory
  /-- a read outside of the bytecode -/
  | code
  /-- gas out of range -/
  | gas
  /-- a refund out of range -/
  | refund
  /-- a panic -/
  | panic
  deriving DecidableEq, Repr

/-- `LoadError`. -/
inductive LoadError where
  | dbError
  | coldLoadSkipped
  deriving DecidableEq, Repr

/-- `AccountInfoLoad`. -/
structure AccountInfoLoad where
  account : AccountInfo
  isCold : Bool
  isEmpty : Bool
  deriving DecidableEq, Repr

/-- Computations of instructions. -/
abbrev Instr (ε α : Type) : Type := Exec (Machine ε) Halt Fault α

/-! ## Primitive operations -/

variable (address : Address) (result : InstructionResult)

namespace Prim

variable {ε α : Type}

/-- `halt` and `set_action` with a result. -/
def halt (output : List UInt8) : Instr ε α := fun s =>
  .stop ⟨result, output⟩ s

/-- `halt_oog`. -/
def haltOog : Instr ε α := fun s => .stop ⟨.outOfGas, []⟩ { s with gas := s.gas.spendAll }

/-- A panic, such as `unwrap` of nothing. -/
def panic : Instr ε α := fun _ => .fault .panic

/-- The state. -/
def getMachine : Instr ε (Machine ε) := fun s => .next s s

def setStack (stack : Stack) : Instr ε Unit := fun s => .next () { s with stack := stack }

/-- `gas.record_cost`. -/
def recordCost (cost : Nat) : Instr ε Bool := fun s =>
  let r := s.gas.recordCost cost
  .next r.1 { s with gas := r.2 }

/-- `gas.record_refund`. -/
def recordRefund (refund : Int) : Instr ε Unit := fun s =>
  match s.gas.recordRefund refund with
  | none => .fault .refund
  | some gas => .next () { s with gas := gas }

section Memory

variable (ctx : InstructionContext ε) (offset len : Nat)

/-- `resize_memory!`. -/
def resize : Instr ε Unit := fun s =>
  match resizeMemory s.gas ctx.memory s.buffer offset len with
  | none => .fault .memory
  | some (true, gas, buffer) => .next () { s with gas := gas, buffer := buffer }
  | some (false, gas, buffer) => .stop ⟨.memoryOOG, []⟩ { s with gas := gas, buffer := buffer }

/-- A read of the buffer. -/
def readBuffer (f : Buffer → Option α) : Instr ε α := fun s =>
  match f s.buffer with
  | none => .fault .memory
  | some a => .next a s

/-- A change of the buffer. -/
def writeBuffer (f : Buffer → Option Buffer) : Instr ε Unit := fun s =>
  match f s.buffer with
  | none => .fault .memory
  | some buffer => .next () { s with buffer := buffer }

/-- `memory.size()`. -/
def memorySize : Instr ε Nat := readBuffer ctx.memory.len

/-- `resize_memory!` and `slice_len`. -/
def memorySlice : Instr ε (List UInt8) := do
  resize ctx offset len
  readBuffer fun buffer => ctx.memory.sliceLen buffer offset len

/-- `resize_memory!` and `set`. -/
def memorySet (offset : Nat) (value : List UInt8) : Instr ε Unit := do
  resize ctx offset value.length
  writeBuffer fun buffer => ctx.memory.set buffer offset value

/-- `resize_memory!` and `copy`. -/
def memoryCopy (dst src len : Nat) : Instr ε Unit := do
  resize ctx (max dst src) len
  writeBuffer fun buffer => ctx.memory.copy buffer dst src len

/-- `resize_memory!`, what is done before the write, and `set_data` with the offset and the data it
answers. -/
def memorySetData (source : Instr ε (Nat × List UInt8)) : Instr ε Unit := do
  resize ctx offset len
  let (dataOffset, data) ← source
  writeBuffer fun buffer => ctx.memory.setData buffer offset dataOffset len data

/-- `resize_memory!` and `set_data_from_global`. -/
def memorySetGlobal (offset dataOffset len : Nat) (range : ByteRange) : Instr ε Unit := do
  resize ctx offset len
  writeBuffer fun buffer =>
    ctx.memory.globalToLocalSetData buffer offset dataOffset len range.start range.stop

/-- The input of the frame; `global_slice` for a range of the buffer. -/
def inputSlice : Instr ε (List UInt8) :=
  match ctx.input.input with
  | .bytes data => pure data
  | .sharedBuffer range => readBuffer fun buffer =>
      SharedMemory.globalSlice buffer range.start range.stop

/-- `resize_memory!` and the range `offset..offset + len`. -/
def resizeRange : Instr ε ByteRange := do
  resize ctx offset len
  readBuffer fun _ => (addU64 offset len).map fun stop => ⟨offset, stop⟩

end Memory

section HostOperations

variable (ctx : InstructionContext ε)

/-- The answer of the host to an operation of the journal that may fail. -/
def ofJournal {β : Type} (r : Except (JournalLoadError ε) β × JournalInner) :
    Instr ε (Except LoadError β) := fun s =>
  match r with
  | (.ok b, journal) => .next (.ok b) { s with host := { s.host with journal := journal } }
  | (.error .coldLoadSkipped, journal) =>
      .next (.error .coldLoadSkipped) { s with host := { s.host with journal := journal } }
  | (.error (.dbError e), journal) =>
      .next (.error .dbError) { s with host := ⟨journal, some e⟩ }

/-- `load_account_info_skip_cold_load`. -/
def loadAccountInfo (address : Address) (loadCode skipColdLoad : Bool) :
    Instr ε (Except LoadError AccountInfoLoad) := fun s =>
  let journal := s.host.journal
  let r := journal.loadAccountOptional ctx.env.db address loadCode skipColdLoad
  let info := r.1.map fun load =>
    ⟨load.data.info, load.isCold, load.data.stateClearAwareIsEmpty journal.spec⟩
  ofJournal (info, r.2) s

/-- `sload_skip_cold_load`. -/
def sload (address : Address) (key : StorageKey) (skipColdLoad : Bool) :
    Instr ε (Except LoadError (StateLoad StorageValue)) := fun s =>
  match s.host.journal.sload ctx.env.db address key skipColdLoad with
  | none => .fault .panic
  | some r => ofJournal r s

/-- `block_hash`. -/
def blockHash (number : Nat) : Instr ε (Option B256) := fun s =>
  match ctx.env.blockHash number with
  | .ok hash => .next (some hash) s
  | .error e => .next none { s with host := { s.host with error := some e } }

/-- `sstore_skip_cold_load`. -/
def sstore (address : Address) (key : StorageKey) (value : StorageValue) (skipColdLoad : Bool) :
    Instr ε (Except LoadError (StateLoad SStoreResult)) := fun s =>
  match s.host.journal.sstore ctx.env.db address key value skipColdLoad with
  | none => .fault .panic
  | some r => ofJournal r s

/-- `tstore`. -/
def tstore (key : StorageKey) (value : StorageValue) : Instr ε Unit := fun s =>
  .next () { s with host := { s.host with journal := s.host.journal.tstore address key value } }

/-- `log`. -/
def log (entry : Log) : Instr ε Unit := fun s =>
  .next () { s with host := { s.host with journal := s.host.journal.log entry } }

/-- `selfdestruct`. -/
def selfdestruct (address target : Address) :
    Instr ε (Except LoadError (StateLoad SelfDestructResult)) := fun s =>
  match s.host.journal.selfdestruct ctx.env.db address target with
  | none => .fault .panic
  | some r => ofJournal r s

end HostOperations

/-- `require_non_staticcall!` with the rest of the instruction. -/
def nonStatic (ctx : InstructionContext ε) (body : Instr ε α) : Instr ε α :=
  if ctx.runtimeFlag.isStatic then halt .stateChangeDuringStaticCall [] else body

end Prim

/-! ## Programs -/

/-- A computation made of the primitive operations. The index says whether it may write to the state
of the host. -/
inductive Built {ε : Type} (ctx : InstructionContext ε) :
    Bool → {α : Type} → Instr ε α → Prop where
  | pure {w : Bool} {α : Type} (a : α) : Built ctx w (pure a)
  | bind {w : Bool} {α β : Type} {x : Instr ε α} {f : α → Instr ε β} (hx : Built ctx w x)
      (hf : ∀ a, Built ctx w (f a)) : Built ctx w (x >>= f)
  | halt {w : Bool} {α : Type} (result : InstructionResult) (output : List UInt8) :
      Built ctx w (Prim.halt result output : Instr ε α)
  | haltOog {w : Bool} {α : Type} : Built ctx w (Prim.haltOog : Instr ε α)
  | panic {w : Bool} {α : Type} : Built ctx w (Prim.panic : Instr ε α)
  | getMachine {w : Bool} : Built ctx w Prim.getMachine
  | setStack {w : Bool} (stack : Stack) : Built ctx w (Prim.setStack stack)
  | recordCost {w : Bool} (cost : Nat) : Built ctx w (Prim.recordCost cost)
  | recordRefund {w : Bool} (refund : Int) : Built ctx w (Prim.recordRefund refund)
  | memorySize {w : Bool} : Built ctx w (Prim.memorySize ctx)
  | memorySlice {w : Bool} (offset len : Nat) : Built ctx w (Prim.memorySlice ctx offset len)
  | memorySet {w : Bool} (offset : Nat) (value : List UInt8) :
      Built ctx w (Prim.memorySet ctx offset value)
  | memoryCopy {w : Bool} (dst src len : Nat) : Built ctx w (Prim.memoryCopy ctx dst src len)
  | memorySetData {w : Bool} (offset len : Nat) {source : Instr ε (Nat × List UInt8)}
      (hsource : Built ctx w source) : Built ctx w (Prim.memorySetData ctx offset len source)
  | memorySetGlobal {w : Bool} (offset dataOffset len : Nat) {range : ByteRange}
      (hrange : ctx.input.input = .sharedBuffer range) :
      Built ctx w (Prim.memorySetGlobal ctx offset dataOffset len range)
  | inputSlice {w : Bool} (hlen : ctx.input.input.len ≠ 0) : Built ctx w (Prim.inputSlice ctx)
  | resizeRange {w : Bool} (offset len : Nat) : Built ctx w (Prim.resizeRange ctx offset len)
  | loadAccountInfo {w : Bool} (address : Address) (loadCode skipColdLoad : Bool) :
      Built ctx w (Prim.loadAccountInfo ctx address loadCode skipColdLoad)
  | sload {w : Bool} (address : Address) (key : StorageKey) (skipColdLoad : Bool) :
      Built ctx w (Prim.sload ctx address key skipColdLoad)
  | blockHash {w : Bool} (number : Nat) : Built ctx w (Prim.blockHash ctx number)
  | sstore (address : Address) (key : StorageKey) (value : StorageValue) (skipColdLoad : Bool) :
      Built ctx true (Prim.sstore ctx address key value skipColdLoad)
  | tstore (address : Address) (key : StorageKey) (value : StorageValue) :
      Built ctx true (Prim.tstore address key value)
  | log (entry : Log) : Built ctx true (Prim.log entry)
  | selfdestruct (address target : Address) : Built ctx true (Prim.selfdestruct ctx address target)
  | nonStatic {w : Bool} {α : Type} {body : Instr ε α} (hbody : Built ctx true body) :
      Built ctx w (Prim.nonStatic ctx body)

/-- A program of primitive operations. -/
structure Program {ε : Type} (ctx : InstructionContext ε) (writes : Bool) (α : Type) where
  run : Instr ε α
  built : Built ctx writes run

variable (value : U256)

namespace Program

variable {ε : Type} {ctx : InstructionContext ε} {w : Bool} {α : Type}

instance : Monad (Program ctx w) where
  pure a := ⟨pure a, .pure a⟩
  bind x f := ⟨x.run >>= fun a => (f a).run, .bind x.built fun a => (f a).built⟩

theorem run_bind {β : Type} (x : Program ctx w α) (f : α → Program ctx w β) :
    (x >>= f).run = x.run >>= fun a => (f a).run := rfl

def halt : Program ctx w α := ⟨Prim.halt result [], .halt result []⟩

/-- `set_action` with a result and its output. -/
def returnWith (output : List UInt8) : Program ctx w α :=
  ⟨Prim.halt result output, .halt result output⟩

def haltOog : Program ctx w α := ⟨Prim.haltOog, .haltOog⟩

def panic : Program ctx w α := ⟨Prim.panic, .panic⟩

/-- `halt_fatal`. -/
def haltFatal : Program ctx w α := halt .fatalExternalError

def getMachine : Program ctx w (Machine ε) := ⟨Prim.getMachine, .getMachine⟩

def setStack (stack : Stack) : Program ctx w Unit := ⟨Prim.setStack stack, .setStack stack⟩

def recordCost (cost : Nat) : Program ctx w Bool := ⟨Prim.recordCost cost, .recordCost cost⟩

def recordRefund (refund : Int) : Program ctx w Unit :=
  ⟨Prim.recordRefund refund, .recordRefund refund⟩

def memorySize : Program ctx w Nat := ⟨Prim.memorySize ctx, .memorySize⟩

variable (offset len : Nat)

def memorySlice : Program ctx w (List UInt8) :=
  ⟨Prim.memorySlice ctx offset len, .memorySlice offset len⟩

def memorySet (offset : Nat) (value : List UInt8) : Program ctx w Unit :=
  ⟨Prim.memorySet ctx offset value, .memorySet offset value⟩

def memoryCopy (dst src len : Nat) : Program ctx w Unit :=
  ⟨Prim.memoryCopy ctx dst src len, .memoryCopy dst src len⟩

def memorySetData (source : Program ctx w (Nat × List UInt8)) : Program ctx w Unit :=
  ⟨Prim.memorySetData ctx offset len source.run, .memorySetData offset len source.built⟩

def resizeRange : Program ctx w ByteRange :=
  ⟨Prim.resizeRange ctx offset len, .resizeRange offset len⟩

def loadAccountInfo (loadCode skipColdLoad : Bool) :
    Program ctx w (Except LoadError AccountInfoLoad) :=
  ⟨Prim.loadAccountInfo ctx address loadCode skipColdLoad,
    .loadAccountInfo address loadCode skipColdLoad⟩

variable (key : StorageKey)

def hostSload (skipColdLoad : Bool) : Program ctx w (Except LoadError (StateLoad StorageValue)) :=
  ⟨Prim.sload ctx address key skipColdLoad, .sload address key skipColdLoad⟩

def hostBlockHash (number : Nat) : Program ctx w (Option B256) :=
  ⟨Prim.blockHash ctx number, .blockHash number⟩

def hostSstore (value : StorageValue)
    (skipColdLoad : Bool) : Program ctx true (Except LoadError (StateLoad SStoreResult)) :=
  ⟨Prim.sstore ctx address key value skipColdLoad, .sstore address key value skipColdLoad⟩

def hostTstore (value : StorageValue) : Program ctx true Unit :=
  ⟨Prim.tstore address key value, .tstore address key value⟩

def hostLog (entry : Log) : Program ctx true Unit := ⟨Prim.log entry, .log entry⟩

def hostSelfdestruct (address target : Address) :
    Program ctx true (Except LoadError (StateLoad SelfDestructResult)) :=
  ⟨Prim.selfdestruct ctx address target, .selfdestruct address target⟩

/-- `require_non_staticcall!` with the rest of the instruction. -/
def nonStatic (body : Program ctx true α) : Program ctx w α :=
  ⟨Prim.nonStatic ctx body.run, .nonStatic body.built⟩

/-- The source of `CALLDATALOAD`, which is read only if there is an input. -/
def inputSlice (hlen : ctx.input.input.len ≠ 0) : Program ctx w (List UInt8) :=
  ⟨Prim.inputSlice ctx, .inputSlice hlen⟩

/-- `resize_memory!` with the write of `CALLDATACOPY`: `set_data` or `set_data_from_global`. -/
def memorySetInput (offset dataOffset len : Nat) : Program ctx w Unit :=
  match h : ctx.input.input with
  | .bytes data => memorySetData offset len (pure (dataOffset, data))
  | .sharedBuffer range =>
      ⟨Prim.memorySetGlobal ctx offset dataOffset len range,
        .memorySetGlobal offset dataOffset len h⟩

/-! ## Macros -/

/-- `check!`. -/
def check (min : SpecId) : Program ctx w Unit :=
  if !ctx.runtimeFlag.specId.isEnabledIn min then halt .notActivated else pure ()

/-- `gas!`. -/
def gas (cost : Nat) : Program ctx w Unit := do
  if !(← recordCost cost) then haltOog

/-- `gas_or_fail!`. -/
def gasOrFail (cost : Option Nat) : Program ctx w Unit :=
  match cost with
  | some cost => gas cost
  | none => haltOog

def remainingGas : Program ctx w Nat := do return (← getMachine).gas.remaining

/-! The indices of the popped words. -/

scoped instance neZero_one : NeZero 1 := ⟨by decide⟩

scoped instance neZero_two : NeZero 2 := ⟨by decide⟩

scoped instance neZero_three : NeZero 3 := ⟨by decide⟩

scoped instance neZero_four : NeZero 4 := ⟨by decide⟩

/-- `popn!`. -/
def popn (n : Nat) : Program ctx w (Fin n → U256) := do
  match (← getMachine).stack.popn n with
  | none => halt .stackUnderflow
  | some (values, stack) =>
      setStack stack
      return values

/-- `popn_top!`: the popped words and the top behind them. -/
def popnTop (n : Nat) : Program ctx w ((Fin n → U256) × U256) := do
  match (← getMachine).stack.popn (n + 1) with
  | none => halt .stackUnderflow
  | some (values, _) =>
      let _ ← popn n
      return (fun i => values i.castSucc, values (Fin.last n))

/-- `*top = value`. -/
def setTop : Program ctx w Unit := do
  setStack ((← getMachine).stack.setTop value)

/-- `push!`. -/
def push : Program ctx w Unit := do
  match (← getMachine).stack.push value with
  | none => halt .stackOverflow
  | some stack => setStack stack

/-- `as_usize_or_fail!`. -/
def asUsizeOrFail (reason : InstructionResult) : Program ctx w Nat :=
  if value.toNat ≤ u64Max then pure value.toNat else halt reason

/-- `as_usize_or_fail!` with its default reason. -/
def asUsize : Program ctx w Nat := asUsizeOrFail value .invalidOperandOOG

end Program

/-- `as_usize_saturated!` and `as_u64_saturated!`. -/
def asUsizeSaturated : Nat := min value.toNat u64Max

end Revm
