import Revm.Interpreter.SharedMemory
import Mathlib.Algebra.GroupWithZero.Nat
import Mathlib.Tactic.Common

/-!
# Memory and gas along a run

The length of the memory and the number of words that were paid for are kept in two structures and
are updated at different times. `resizeMemory_run` says that they agree after every successful
resize, whatever frames were opened and closed before, that the gas charged for memory depends on
the words only, and that a resize that is too expensive leaves the memory as it was.

A run is a sequence of operations on the innermost of the open frames. Besides resizing, a frame
writes to its memory, spends gas on other things and gets part of it back. A failed resize halts the
frame, which can only be closed then.
-/

set_option autoImplicit false

namespace Revm

open List Option

/-- `CALL_STACK_LIMIT`. -/
def callStackLimit : Nat := 1024

/-- A successful call of `resize_memory`, with the gas it has charged. -/
structure ResizeCall where
  offset : Nat
  len : Nat
  charged : Nat
  deriving DecidableEq, Repr

/-- A frame, as far as memory and gas are concerned. -/
structure MemoryFrame where
  gas : Gas
  memory : SharedMemory
  /-- the successful resizes, the last one first -/
  calls : List ResizeCall
  /-- gas that was spent on other things and not returned -/
  others : Nat
  halted : Bool
  deriving DecidableEq, Repr

/-- The open frames, the innermost first, and the buffer they share. -/
structure MemoryState where
  buffer : Buffer
  frames : List MemoryFrame
  deriving DecidableEq, Repr

inductive MemoryOp where
  | resize (offset len : Nat)
  | write (offset : Nat) (value : List UInt8)
  | recordCost (cost : Nat)
  | eraseCost (returned : Nat)
  | openChild (gasLimit : Nat)
  | freeChild
  deriving DecidableEq, Repr

/-- The frame before its first instruction. -/
def MemoryFrame.fresh (gasLimit : Nat) (memory : SharedMemory) : MemoryFrame :=
  ⟨Gas.new gasLimit, memory, [], 0, false⟩

/-- The first frame of a transaction. -/
def MemoryState.start (gasLimit : Nat) : MemoryState := ⟨[], [.fresh gasLimit .new]⟩

/-- One operation of the running frame `f`. -/
def MemoryFrame.step (f : MemoryFrame) (rest : List MemoryFrame) (buffer : Buffer) :
    MemoryOp → Option MemoryState
  | .resize offset len => do
      let (ok, gas, buffer) ← resizeMemory f.gas f.memory buffer offset len
      if ok then
        let call : ResizeCall := ⟨offset, len, f.gas.remaining - gas.remaining⟩
        return ⟨buffer, { f with gas := gas, calls := call :: f.calls } :: rest⟩
      else return ⟨buffer, { f with gas := gas, halted := true } :: rest⟩
  | .write offset value => do
      let buffer ← f.memory.set buffer offset value
      return ⟨buffer, f :: rest⟩
  | .recordCost cost =>
      match f.gas.recordCost cost with
      | (true, gas) => some ⟨buffer, { f with gas := gas, others := f.others + cost } :: rest⟩
      | (false, gas) => some ⟨buffer, { f with gas := gas, halted := true } :: rest⟩
  | .eraseCost returned => do
      -- only gas that was given away comes back
      let others ← subU64 f.others returned
      let gas ← f.gas.eraseCost returned
      return ⟨buffer, { f with gas := gas, others := others } :: rest⟩
  | .openChild gasLimit =>
      -- a frame that would be too deep is not opened
      if rest.length < callStackLimit then do
        let (parent, child) ← f.memory.newChildContext buffer
        return ⟨buffer, .fresh gasLimit child :: { f with memory := parent } :: rest⟩
      else some ⟨buffer, f :: rest⟩
  | .freeChild => none

/-- The innermost frame is closed. The first frame never is. -/
def closeFrame (buffer : Buffer) : List MemoryFrame → Option MemoryState
  | [] => none
  | parent :: rest => do
      let (memory, buffer) ← parent.memory.freeChildContext buffer
      return ⟨buffer, { parent with memory := memory } :: rest⟩

/-- One operation. -/
def MemoryState.step (s : MemoryState) (op : MemoryOp) : Option MemoryState :=
  match s.frames with
  | [] => none
  | f :: rest =>
      if op = .freeChild then closeFrame s.buffer rest
      else if f.halted then none
      else f.step rest s.buffer op

/-- A sequence of operations. -/
def MemoryState.run (s : MemoryState) (ops : List MemoryOp) : Option MemoryState :=
  ops.foldlM MemoryState.step s

/-- Every frame has a gas limit below `2^40`. -/
def MemoryOp.Fits : MemoryOp → Prop
  | .openChild gasLimit => gasLimit < 2 ^ 40
  | _ => True

/-! ## The invariant -/

/-- The words that a list of calls needs. -/
def wordsOf (calls : List ResizeCall) : Nat :=
  calls.foldr (fun call words => max words (wordsFor call.offset call.len)) 0

/-- The gas that a list of calls has charged. -/
def chargedBy (calls : List ResizeCall) : Nat := (calls.map ResizeCall.charged).sum

theorem chargedBy_cons (call : ResizeCall) (calls : List ResizeCall) :
    chargedBy (call :: calls) = call.charged + chargedBy calls := by
  unfold chargedBy
  rw [map_cons, sum_cons]

/-- The books of a frame that has not halted. -/
structure MemoryFrame.Balanced (f : MemoryFrame) : Prop where
  limit : f.gas.limit < 2 ^ 40
  words : f.gas.memory.wordsNum = wordsOf f.calls
  cost : f.gas.memory.expansionCost = memoryPrice f.gas.memory.wordsNum
  charged : chargedBy f.calls = memoryPrice f.gas.memory.wordsNum
  total : f.gas.remaining + f.others + chargedBy f.calls = f.gas.limit

/-- The frames divide the buffer up to `stop` among them: the memory of a frame starts at its
checkpoint, which its parent remembers. -/
def Stacked : List MemoryFrame → Nat → Prop
  | [], stop => stop = 0
  | f :: rest, stop =>
      f.memory.myCheckpoint ≤ stop ∧
      (f.halted = false → f.Balanced ∧ stop = f.memory.myCheckpoint + 32 * f.gas.memory.wordsNum) ∧
      (∀ parent ∈ rest.head?,
        parent.halted = false ∧ parent.memory.childCheckpoint = some f.memory.myCheckpoint) ∧
      Stacked rest f.memory.myCheckpoint

structure MemoryState.Inv (s : MemoryState) : Prop where
  stacked : Stacked s.frames s.buffer.length
  open_ : ∀ f ∈ s.frames.head?, f.memory.childCheckpoint = none
  depth : s.frames.length ≤ callStackLimit + 1

theorem MemoryFrame.Balanced.paid {f : MemoryFrame} (h : f.Balanced) : f.gas.MemoryPaid := by
  refine ⟨h.cost, ?_⟩
  have := h.total
  have := h.charged
  have := h.limit
  omega

theorem MemoryFrame.Balanced.fresh {gasLimit : Nat} (h : gasLimit < 2 ^ 40)
    (memory : SharedMemory) : (MemoryFrame.fresh gasLimit memory).Balanced where
  limit := h
  words := rfl
  cost := memoryPrice_zero.symm
  charged := memoryPrice_zero.symm
  total := rfl

/-- Every frame has less than `2^30` bytes. -/
theorem Stacked.bound {frames : List MemoryFrame} {stop : Nat} (h : Stacked frames stop)
    (hlive : ∀ f ∈ frames.head?, f.halted = false) : stop ≤ 2 ^ 30 * frames.length := by
  induction frames generalizing stop with
  | nil => exact h.le
  | cons f rest ih =>
    obtain ⟨-, hf, hparent, hrest⟩ := h
    obtain ⟨hbalanced, hstop⟩ := hf (hlive f rfl)
    have hrestBound := ih hrest fun parent hmem => (hparent parent hmem).1
    have hwords := lt_of_memoryPrice_lt ((Nat.le_add_right _ _).trans_lt hbalanced.paid.bound)
    rw [length_cons]
    omega

theorem MemoryState.inv_start {gasLimit : Nat} (h : gasLimit < 2 ^ 40) :
    (MemoryState.start gasLimit).Inv := by
  have hfresh : (MemoryFrame.fresh gasLimit .new).Balanced := .fresh h .new
  refine ⟨⟨le_rfl, fun _ => ⟨hfresh, rfl⟩, ?_, rfl⟩, ?_, Nat.le_add_left 1 _⟩
  · intro parent hmem
    cases hmem
  · intro f hmem
    cases hmem
    rfl

/-! ## Each operation keeps the invariant -/

section Step

variable {f : MemoryFrame} {rest : List MemoryFrame} {buffer : Buffer}

theorem MemoryState.Inv.paid (h : (MemoryState.mk buffer (f :: rest)).Inv)
    (hlive : f.halted = false) :
    f.Balanced ∧ buffer.length = f.memory.myCheckpoint + 32 * f.gas.memory.wordsNum ∧
      f.memory.myCheckpoint < 2 ^ 63 := by
  obtain ⟨-, hf, hparent, hrest⟩ := h.stacked
  obtain ⟨hbalanced, hlen⟩ := hf hlive
  have hbound := hrest.bound fun parent hmem => (hparent parent hmem).1
  have hdepth := h.depth
  rw [length_cons] at hdepth
  refine ⟨hbalanced, hlen, ?_⟩
  unfold callStackLimit at hdepth
  omega

/-- The running frame and the end of the buffer may change, as long as the frame keeps its place. -/
theorem MemoryState.Inv.replace (h : (MemoryState.mk buffer (f :: rest)).Inv) {f' : MemoryFrame}
    {buffer' : Buffer} (hmemory : f'.memory = f.memory)
    (hstart : f.memory.myCheckpoint ≤ buffer'.length) (hbalanced : f'.halted = false → f'.Balanced ∧
      buffer'.length = f.memory.myCheckpoint + 32 * f'.gas.memory.wordsNum) :
    (MemoryState.mk buffer' (f' :: rest)).Inv := by
  obtain ⟨-, -, hparent, hrest⟩ := h.stacked
  refine ⟨⟨?_, ?_, ?_, ?_⟩, ?_, h.depth⟩
  · rwa [hmemory]
  · rwa [hmemory]
  · rwa [hmemory]
  · rwa [hmemory]
  · intro g hg
    cases hg
    rw [hmemory]
    exact h.open_ f rfl

/-- The gas of a resize that succeeds. -/
theorem MemoryFrame.Balanced.resize (h : f.Balanced) {offset len : Nat}
    (henough : memoryPrice (max f.gas.memory.wordsNum (wordsFor offset len)) ≤
      memoryPrice f.gas.memory.wordsNum + f.gas.remaining) : MemoryFrame.Balanced
      { f with
        gas := f.gas.payMemory (max f.gas.memory.wordsNum (wordsFor offset len))
        calls := ⟨offset, len, f.gas.remaining -
          (f.gas.payMemory (max f.gas.memory.wordsNum (wordsFor offset len))).remaining⟩ ::
            f.calls } := by
  have hmono := memoryPrice_mono (Nat.le_max_left f.gas.memory.wordsNum (wordsFor offset len))
  have hcharged := h.charged
  have htotal := h.total
  refine ⟨h.limit, congrArg (max · (wordsFor offset len)) h.words, rfl, ?_, ?_⟩
  · rw [chargedBy_cons]
    dsimp only [Gas.payMemory]
    omega
  · rw [chargedBy_cons]
    dsimp only [Gas.payMemory]
    omega

theorem MemoryFrame.step_inv (h : (MemoryState.mk buffer (f :: rest)).Inv)
    (hlive : f.halted = false) {op : MemoryOp} (hop : op.Fits) {s : MemoryState}
    (hstep : f.step rest buffer op = some s) : s.Inv := by
  obtain ⟨hbalanced, hlen, hroom⟩ := h.paid hlive
  cases op with
  | resize offset len =>
    by_cases henough : memoryPrice (max f.gas.memory.wordsNum (wordsFor offset len)) ≤
        memoryPrice f.gas.memory.wordsNum + f.gas.remaining
    · simp only [MemoryFrame.step, resizeMemory_pays hbalanced.paid hlen hroom henough,
        bind_eq_bind, bind_some, if_true] at hstep
      cases hstep
      refine h.replace rfl ?_ fun _ => ⟨hbalanced.resize henough, ?_⟩
      · rw [length_append]
        omega
      · rw [length_append, length_replicate, hlen]
        dsimp only [Gas.payMemory]
        omega
    · obtain ⟨m, hfails⟩ : ∃ m, resizeMemory f.gas f.memory buffer offset len =
          some (false, { f.gas with memory := m }, buffer) :=
        resizeMemory_fails hbalanced.paid (Nat.not_le.1 henough)
      simp only [MemoryFrame.step, hfails, bind_eq_bind, bind_some,
        Bool.false_eq_true, if_false] at hstep
      cases hstep
      exact h.replace rfl (by omega) nofun
  | write offset value =>
    simp only [MemoryFrame.step, bind_eq_bind, bind_eq_some_iff] at hstep
    obtain ⟨buffer', hwrite, hs⟩ := hstep
    cases hs
    have hlength := SharedMemory.length_set hwrite
    exact h.replace rfl (by omega) fun _ => ⟨hbalanced, hlength.trans hlen⟩
  | recordCost cost =>
    by_cases hle : cost ≤ f.gas.remaining
    · simp only [MemoryFrame.step, Gas.recordCost_of_le hle] at hstep
      cases hstep
      refine h.replace rfl (by omega) fun _ => ⟨⟨hbalanced.limit, hbalanced.words, hbalanced.cost,
        hbalanced.charged, ?_⟩, hlen⟩
      have htotal := hbalanced.total
      dsimp only
      omega
    · simp only [MemoryFrame.step, Gas.recordCost_of_lt (Nat.not_le.1 hle)] at hstep
      cases hstep
      exact h.replace rfl (by omega) nofun
  | eraseCost returned =>
    simp only [MemoryFrame.step, bind_eq_bind, bind_eq_some_iff] at hstep
    obtain ⟨others, hothers, gas, hgas, hs⟩ := hstep
    cases hs
    cases Gas.eraseCost_eq_some hgas
    have hothers := of_subU64_eq_some hothers
    refine h.replace rfl (by omega) fun _ => ⟨⟨hbalanced.limit, hbalanced.words, hbalanced.cost,
      hbalanced.charged, ?_⟩, hlen⟩
    have htotal := hbalanced.total
    dsimp only
    omega
  | openChild gasLimit =>
    simp only [MemoryFrame.step] at hstep
    split_ifs at hstep with hdepth
    · simp only [SharedMemory.newChildContext, h.open_ f rfl, bind_eq_bind, bind_some] at hstep
      cases hstep
      obtain ⟨hstart, hf, hparent, hrest⟩ := h.stacked
      refine ⟨⟨le_rfl, fun _ => ⟨.fresh hop _, rfl⟩, ?_, hstart, ?_, hparent, hrest⟩, ?_, ?_⟩
      · intro parent hmem
        cases hmem
        exact ⟨hlive, rfl⟩
      · exact fun _ => ⟨⟨hbalanced.limit, hbalanced.words, hbalanced.cost, hbalanced.charged,
          hbalanced.total⟩, hlen⟩
      · intro child hmem
        cases hmem
        rfl
      · simp only [length_cons]
        omega
    · cases hstep
      exact h
  | freeChild => cases hstep

theorem MemoryState.Inv.freeChild {parent : MemoryFrame}
    (h : (MemoryState.mk buffer (f :: parent :: rest)).Inv) {memory : SharedMemory}
    {buffer' : Buffer} (hfree : parent.memory.freeChildContext buffer = some (memory, buffer')) :
    (MemoryState.mk buffer' ({ parent with memory := memory } :: rest)).Inv := by
  obtain ⟨hstart, -, hparent, hrest⟩ := h.stacked
  obtain ⟨hlive, hchild⟩ := hparent parent rfl
  obtain ⟨hstart', hf, hgrand, hrest'⟩ := hrest
  simp only [SharedMemory.freeChildContext, hchild, if_pos hstart] at hfree
  cases hfree
  have hlength : (buffer.take f.memory.myCheckpoint).length = f.memory.myCheckpoint := by
    rw [length_take, Nat.min_eq_left hstart]
  have hdepth := h.depth
  refine ⟨⟨?_, ?_, hgrand, hrest'⟩, ?_, ?_⟩
  · rwa [hlength]
  · intro _
    obtain ⟨hbalanced, hstop⟩ := hf hlive
    exact ⟨⟨hbalanced.limit, hbalanced.words, hbalanced.cost, hbalanced.charged,
      hbalanced.total⟩, hlength.trans hstop⟩
  · intro g hmem
    cases hmem
    rfl
  · simp only [length_cons] at hdepth ⊢
    omega

end Step

theorem MemoryState.Inv.step_inv {s s' : MemoryState} {op : MemoryOp} (h : s.Inv) (hop : op.Fits)
    (hstep : s.step op = some s') : s'.Inv := by
  obtain ⟨buffer, frames⟩ := s
  cases frames with
  | nil => cases hstep
  | cons f rest =>
    simp only [MemoryState.step] at hstep
    split_ifs at hstep with hfree hhalted
    · cases rest with
      | nil => cases hstep
      | cons parent rest =>
        simp only [closeFrame, bind_eq_bind, bind_eq_some_iff] at hstep
        obtain ⟨⟨memory, buffer'⟩, hfreed, hs⟩ := hstep
        cases hs
        exact h.freeChild hfreed
    · exact MemoryFrame.step_inv h (Bool.not_eq_true _ ▸ hhalted) hop hstep

theorem MemoryState.Inv.run_inv {s s' : MemoryState} {ops : List MemoryOp} (h : s.Inv)
    (hops : ∀ op ∈ ops, op.Fits) (hrun : s.run ops = some s') : s'.Inv := by
  induction ops generalizing s with
  | nil =>
    cases hrun
    exact h
  | cons op ops ih =>
    simp only [MemoryState.run, foldlM_cons, bind_eq_bind, bind_eq_some_iff] at hrun
    obtain ⟨s₁, hstep, hrest⟩ := hrun
    exact ih (h.step_inv (hops op mem_cons_self) hstep)
      (fun op' hmem => hops op' (mem_cons_of_mem op hmem)) hrest

/-! ## Every resize of a run -/

/-- After any run, a resize of the running frame does not overflow. It succeeds exactly if the
remaining gas covers the price. Then the memory has as many bytes as words were paid for, these are
the words that the successful calls need, their gas is the price of that many words, the accessed
range is inside the memory, and the new bytes are zero. Otherwise the memory stays as it is. -/
theorem resizeMemory_run {gasLimit : Nat} (hlimit : gasLimit < 2 ^ 40) (ops : List MemoryOp)
    (hops : ∀ op ∈ ops, op.Fits) (buffer : Buffer) (f : MemoryFrame) (rest : List MemoryFrame)
    (hrun : (MemoryState.start gasLimit).run ops = some ⟨buffer, f :: rest⟩)
    (hlive : f.halted = false) (offset len : Nat) :
    ∃ ok gas buffer', resizeMemory f.gas f.memory buffer offset len = some (ok, gas, buffer') ∧
      (ok = true ↔ memoryPrice (max f.gas.memory.wordsNum (wordsFor offset len)) -
        memoryPrice f.gas.memory.wordsNum ≤ f.gas.remaining) ∧
      (ok = true →
        f.memory.len buffer' = some (32 * gas.memory.wordsNum) ∧
        gas.memory.wordsNum = max (wordsOf f.calls) (wordsFor offset len) ∧
        chargedBy f.calls + (f.gas.remaining - gas.remaining) = memoryPrice gas.memory.wordsNum ∧
        offset + len ≤ 32 * gas.memory.wordsNum ∧
        ∃ new, buffer' = buffer ++ List.replicate new 0) ∧
      (ok = false → buffer' = buffer ∧ gas.remaining = f.gas.remaining) := by
  have hinv := (MemoryState.inv_start hlimit).run_inv hops hrun
  obtain ⟨hbalanced, hlen, hroom⟩ := hinv.paid hlive
  by_cases henough : memoryPrice (max f.gas.memory.wordsNum (wordsFor offset len)) ≤
      memoryPrice f.gas.memory.wordsNum + f.gas.remaining
  · refine ⟨_, _, _, resizeMemory_pays hbalanced.paid hlen hroom henough,
      iff_of_true rfl (by omega), fun _ => ?_, by simp⟩
    have hcharged := (hbalanced.resize henough).charged
    rw [chargedBy_cons, Nat.add_comm] at hcharged
    refine ⟨?_, congrArg (max · (wordsFor offset len)) hbalanced.words, hcharged, ?_, _, rfl⟩
    · unfold SharedMemory.len
      rw [length_append, length_replicate, hlen, subU64_eq_some (by omega)]
      dsimp only [Gas.payMemory]
      congr 1
      omega
    · dsimp only [Gas.payMemory]
      unfold wordsFor
      omega
  · obtain ⟨m, hfails⟩ : ∃ m, resizeMemory f.gas f.memory buffer offset len =
        some (false, { f.gas with memory := m }, buffer) :=
      resizeMemory_fails hbalanced.paid (Nat.not_le.1 henough)
    exact ⟨_, _, _, hfails, iff_of_false Bool.false_ne_true (by omega), by simp,
      fun _ => ⟨rfl, rfl⟩⟩

/-- A frame that has grown its memory twice around a child of its own. -/
def nestedResizes : List MemoryOp :=
  [.resize 0 33, .openChild 500, .resize 10 100, .freeChild, .resize 60 10]

set_option maxRecDepth 4096 in
theorem resizeMemory_run_nestedResizes :
    ∃ buffer f rest, (MemoryState.start 1000).run nestedResizes = some ⟨buffer, f :: rest⟩ ∧
      ∃ gas buffer', resizeMemory f.gas f.memory buffer 100 28 = some (true, gas, buffer') ∧
        f.memory.len buffer' = some 128 ∧ chargedBy f.calls + (f.gas.remaining - gas.remaining) =
          12 := by
  have hrun : (MemoryState.start 1000).run nestedResizes = some ⟨replicate 96 0,
        [⟨⟨1000, 991, 0, ⟨3, 9⟩⟩, ⟨0, none⟩, [⟨60, 10, 3⟩, ⟨0, 33, 6⟩], 0, false⟩]⟩ := rfl
  have hops : ∀ op ∈ nestedResizes, op.Fits := by
    intro op hop
    simp only [nestedResizes, mem_cons, not_mem_nil, or_false] at hop
    rcases hop with rfl | rfl | rfl | rfl | rfl
    · trivial
    · exact (by decide : 500 < 2 ^ 40)
    · trivial
    · trivial
    · trivial
  obtain ⟨ok, gas, buffer', hresize, hiff, hok, -⟩ :=
    resizeMemory_run (by decide) nestedResizes hops _ _ _ hrun rfl 100 28
  cases hiff.2 (by decide)
  obtain ⟨hlen, hwords, hcharged, -⟩ := hok rfl
  have hfour : gas.memory.wordsNum = 4 := hwords.trans (by decide)
  rw [hfour] at hlen hcharged
  exact ⟨_, _, _, hrun, gas, buffer', hresize, hlen, hcharged.trans (by decide)⟩

end Revm
