import Revm.Interpreter.Gas

/-!
# Shared memory

All frames of a transaction keep their memory in one buffer. A frame owns the part of the buffer
from its checkpoint on; while a child frame runs, the child owns the part behind the checkpoint that
the parent remembers. `SharedMemory` is the handle of one frame. The buffer itself is passed along,
since every frame of the source points to the same one.

An access outside of the buffer, an `unwrap_unchecked` of nothing and the arithmetic that would
leave `usize` are the result `none`.
-/

set_option autoImplicit false

namespace Revm

/-- The bytes that the frames share. -/
abbrev Buffer := List UInt8

/-- `Vec::resize` with zero as the new value. -/
def Buffer.resizeTo (buffer : Buffer) (newLen : Nat) : Buffer :=
  buffer.take newLen ++ List.replicate (newLen - buffer.length) 0

/-- `buffer.get(start..stop)`. -/
def Buffer.slice (buffer : Buffer) (start stop : Nat) : Option (List UInt8) :=
  if start ≤ stop ∧ stop ≤ buffer.length then some ((buffer.drop start).take (stop - start))
  else none

/-- `copy_from_slice` into `buffer[start..start + value.len()]`. -/
def Buffer.write (buffer : Buffer) (start : Nat) (value : List UInt8) : Option Buffer :=
  if start + value.length ≤ buffer.length then
    some (buffer.take start ++ value ++ buffer.drop (start + value.length))
  else none

theorem Buffer.length_write {buffer buffer' : Buffer} {start : Nat} {value : List UInt8}
    (h : buffer.write start value = some buffer') : buffer'.length = buffer.length := by
  unfold Buffer.write at h
  split_ifs at h with hle
  cases h
  simp only [List.length_append, List.length_take, List.length_drop]
  omega

/-- `SharedMemory`. -/
structure SharedMemory where
  myCheckpoint : Nat
  childCheckpoint : Option Nat
  deriving DecidableEq, Repr

namespace SharedMemory

variable (self : SharedMemory) (buffer : Buffer)

/-- `SharedMemory::new_with_buffer`. -/
def new : SharedMemory := ⟨0, none⟩

/-- `new_child_context`: the parent and its child. -/
def newChildContext : Option (SharedMemory × SharedMemory) :=
  match self.childCheckpoint with
  | some _ => none
  | none =>
      let newCheckpoint := buffer.length
      some ({ self with childCheckpoint := some newCheckpoint }, ⟨newCheckpoint, none⟩)

/-- `free_child_context`. `set_len` must not expose bytes that were never written. -/
def freeChildContext : Option (SharedMemory × Buffer) :=
  match self.childCheckpoint with
  | none => some (self, buffer)
  | some childCheckpoint =>
      if childCheckpoint ≤ buffer.length then
        some ({ self with childCheckpoint := none }, buffer.take childCheckpoint)
      else none

/-- `len`. -/
def len : Option Nat :=
  subU64 buffer.length self.myCheckpoint

/-- `resize`. -/
def resize (newSize : Nat) : Option Buffer :=
  (addU64 self.myCheckpoint newSize).map buffer.resizeTo

/-- `slice_len`: a read of the memory of the frame. -/
def sliceLen (offset size : Nat) : Option (List UInt8) :=
  buffer.slice (self.myCheckpoint + offset) (self.myCheckpoint + offset + size)

/-- `global_slice`. -/
def globalSlice (buffer : Buffer) (start stop : Nat) : Option (List UInt8) :=
  buffer.slice start stop

/-- `set`. -/
def set (offset : Nat) (value : List UInt8) : Option Buffer :=
  if value.isEmpty then some buffer else buffer.write (self.myCheckpoint + offset) value

theorem length_set {self : SharedMemory} {buffer buffer' : Buffer} {offset : Nat}
    {value : List UInt8} (h : self.set buffer offset value = some buffer') :
    buffer'.length = buffer.length := by
  unfold set at h
  split_ifs at h
  · cases h
    rfl
  · exact Buffer.length_write h

/-- The function `set_data`, on the memory that starts at `base`. -/
def setDataAt (base : Nat) (buffer : Buffer) (src : List UInt8) (dstOffset srcOffset len : Nat) :
    Option Buffer :=
  if len = 0 then some buffer
  else if src.length ≤ srcOffset then
    -- nullify all memory slots
    buffer.write (base + dstOffset) (List.replicate len 0)
  else do
    let srcEnd := min (srcOffset + len) src.length
    let srcLen := srcEnd - srcOffset
    let buffer ← buffer.write (base + dstOffset) ((src.drop srcOffset).take srcLen)
    -- nullify the rest of the memory slots
    buffer.write (base + (dstOffset + srcLen)) (List.replicate (len - srcLen) 0)

variable (memoryOffset dataOffset len : Nat)

/-- `SharedMemory::set_data`. -/
def setData (data : List UInt8) : Option Buffer :=
  if self.myCheckpoint ≤ buffer.length then
    setDataAt self.myCheckpoint buffer data memoryOffset dataOffset len
  else none

/-- `global_to_local_set_data`: the data is a range of the buffer in front of the frame. -/
def globalToLocalSetData (dataStart dataStop : Nat) : Option Buffer :=
  if self.myCheckpoint ≤ buffer.length then do
    let src ←
      if dataStop ≤ dataStart then some []
      else Buffer.slice (buffer.take self.myCheckpoint) dataStart dataStop
    setDataAt self.myCheckpoint buffer src memoryOffset dataOffset len
  else none

/-- `copy`. -/
def copy (dst src len : Nat) : Option Buffer := do
  let data ← self.sliceLen buffer src len
  buffer.write (self.myCheckpoint + dst) data

end SharedMemory

/-! ## Resizing -/

/-- `resize_memory_cold`: whether there was enough gas. -/
def resizeMemoryCold (gas : Gas) (memory : SharedMemory) (buffer : Buffer) (newNumWords : Nat) :
    Option (Bool × Gas × Buffer) := do
  let (cost, memoryGas) ← gas.memory.recordNewLen newNumWords
  let cost ← cost
  match { gas with memory := memoryGas }.recordCost cost with
  | (false, gas) => return (false, gas, buffer)
  | (true, gas) =>
      let newSize ← mulU64 newNumWords 32
      let buffer ← memory.resize buffer newSize
      return (true, gas, buffer)

/-- `resize_memory`. -/
def resizeMemory (gas : Gas) (memory : SharedMemory) (buffer : Buffer) (offset len : Nat) :
    Option (Bool × Gas × Buffer) :=
  let newNumWords := numWords (saturatingAddU64 offset len)
  if gas.memory.wordsNum < newNumWords then resizeMemoryCold gas memory buffer newNumWords
  else some (true, gas, buffer)

/-- The words that an access to `len` bytes at `offset` needs, computed without bounds. -/
def wordsFor (offset len : Nat) : Nat := (offset + len + 31) / 32

theorem numWords_saturatingAddU64 {offset len : Nat} (h : wordsFor offset len < 2 ^ 32) :
    numWords (saturatingAddU64 offset len) = wordsFor offset len := by
  unfold wordsFor at h
  unfold numWords saturatingAddU64 wordsFor u64Max
  omega

theorem le_numWords_saturatingAddU64 {offset len : Nat} (h : 2 ^ 32 ≤ wordsFor offset len) :
    2 ^ 32 ≤ numWords (saturatingAddU64 offset len) := by
  unfold wordsFor at h
  unfold numWords saturatingAddU64 u64Max
  omega

theorem Buffer.resizeTo_of_le {buffer : Buffer} {newLen : Nat} (h : buffer.length ≤ newLen) :
    buffer.resizeTo newLen = buffer ++ List.replicate (newLen - buffer.length) 0 := by
  unfold Buffer.resizeTo
  rw [List.take_of_length_le h]

/-- The memory gas of a frame that has paid for the memory it has. -/
structure Gas.MemoryPaid (gas : Gas) : Prop where
  cost : gas.memory.expansionCost = memoryPrice gas.memory.wordsNum
  bound : memoryPrice gas.memory.wordsNum + gas.remaining < 2 ^ 40

/-- The gas after paying for a memory of `need` words. -/
def Gas.payMemory (gas : Gas) (need : Nat) : Gas :=
  { gas with
    remaining := gas.remaining - (memoryPrice need - memoryPrice gas.memory.wordsNum)
    memory := ⟨need, memoryPrice need⟩ }

section Resize

variable {gas : Gas} {memory : SharedMemory} {buffer : Buffer} {offset len : Nat}

section

variable (hpaid : gas.MemoryPaid)

include hpaid

theorem resizeMemoryCold_pays {need : Nat}
    (hlen : buffer.length = memory.myCheckpoint + 32 * gas.memory.wordsNum)
    (hroom : memory.myCheckpoint < 2 ^ 63) (hgrow : gas.memory.wordsNum < need)
    (henough : memoryPrice need ≤ memoryPrice gas.memory.wordsNum + gas.remaining) :
    resizeMemoryCold gas memory buffer need =
      some (true, gas.payMemory need,
        buffer ++ List.replicate (32 * need - 32 * gas.memory.wordsNum) 0) := by
  have hneed : need < 2 ^ 25 := lt_of_memoryPrice_lt (henough.trans_lt hpaid.bound)
  have hgas : memoryGas need = memoryPrice need := memoryGas_eq_memoryPrice (by omega)
  have hmono : memoryPrice gas.memory.wordsNum ≤ memoryPrice need := memoryPrice_mono hgrow.le
  have hrecord : gas.memory.recordNewLen need =
      some (some (memoryPrice need - memoryPrice gas.memory.wordsNum),
        ⟨need, memoryPrice need⟩) := by
    unfold MemoryGas.recordNewLen
    rw [if_neg (Nat.not_le.2 hgrow), hgas, hpaid.cost]
    dsimp only
    rw [subU64_eq_some hmono]
    rfl
  have hresize : memory.resize buffer (need * 32) =
      some (buffer ++ List.replicate (32 * need - 32 * gas.memory.wordsNum) 0) := by
    unfold SharedMemory.resize
    rw [addU64_eq_some (by unfold u64Max; omega), Option.map_some,
      Buffer.resizeTo_of_le (by omega), hlen]
    congr 3
    omega
  unfold resizeMemoryCold
  rw [hrecord]
  dsimp only [Option.bind_eq_bind, Option.bind_some]
  rw [Gas.recordCost_of_le (by dsimp only; omega)]
  dsimp only
  rw [mulU64_eq_some (by unfold u64Max; omega), Option.bind_some, hresize]
  rfl

theorem resizeMemoryCold_fails {need : Nat} (hgrow : gas.memory.wordsNum < need)
    (hshort : memoryPrice gas.memory.wordsNum + gas.remaining < memoryGas need) :
    ∃ m, resizeMemoryCold gas memory buffer need =
      some (false, { gas with memory := m }, buffer) := by
  refine ⟨⟨need, memoryGas need⟩, ?_⟩
  have hrecord : gas.memory.recordNewLen need =
      some (some (memoryGas need - memoryPrice gas.memory.wordsNum), ⟨need, memoryGas need⟩) := by
    unfold MemoryGas.recordNewLen
    rw [if_neg (Nat.not_le.2 hgrow), hpaid.cost]
    dsimp only
    rw [subU64_eq_some (by omega)]
    rfl
  unfold resizeMemoryCold
  rw [hrecord]
  dsimp only [Option.bind_eq_bind, Option.bind_some]
  rw [Gas.recordCost_of_lt (by dsimp only; omega)]
  rfl

/-- A resize whose price the remaining gas covers is paid for and grows the memory with zeros. -/
theorem resizeMemory_pays (hlen : buffer.length = memory.myCheckpoint + 32 * gas.memory.wordsNum)
    (hroom : memory.myCheckpoint < 2 ^ 63)
    (henough : memoryPrice (max gas.memory.wordsNum (wordsFor offset len)) ≤
      memoryPrice gas.memory.wordsNum + gas.remaining) : resizeMemory gas memory buffer offset len =
      some (true, gas.payMemory (max gas.memory.wordsNum (wordsFor offset len)),
        buffer ++ List.replicate
          (32 * max gas.memory.wordsNum (wordsFor offset len) - 32 * gas.memory.wordsNum) 0) := by
  have hneed := lt_of_memoryPrice_lt (henough.trans_lt hpaid.bound)
  have hnum : numWords (saturatingAddU64 offset len) = wordsFor offset len :=
    numWords_saturatingAddU64 (by omega)
  unfold resizeMemory
  rw [hnum]
  by_cases hgrow : gas.memory.wordsNum < wordsFor offset len
  · rw [if_pos hgrow]
    rw [Nat.max_eq_right hgrow.le] at henough ⊢
    exact resizeMemoryCold_pays hpaid hlen hroom hgrow henough
  · -- the memory is large enough, nothing is paid
    rw [if_neg hgrow, Nat.max_eq_left (Nat.not_lt.1 hgrow), Nat.sub_self, List.replicate_zero,
      List.append_nil]
    unfold Gas.payMemory
    rw [Nat.sub_self, Nat.sub_zero, ← hpaid.cost]

/-- A resize that the remaining gas does not cover changes neither the memory nor the gas that
remains. -/
theorem resizeMemory_fails (hshort : memoryPrice gas.memory.wordsNum + gas.remaining <
      memoryPrice (max gas.memory.wordsNum (wordsFor offset len))) :
    ∃ m, resizeMemory gas memory buffer offset len =
      some (false, { gas with memory := m }, buffer) := by
  have hgrow : gas.memory.wordsNum < wordsFor offset len := by
    by_contra hle
    rw [Nat.max_eq_left (Nat.not_lt.1 hle)] at hshort
    omega
  rw [Nat.max_eq_right hgrow.le] at hshort
  have hwords := lt_of_memoryPrice_lt (lt_of_le_of_lt (Nat.le_add_right _ _) hpaid.bound)
  unfold resizeMemory
  by_cases hsmall : wordsFor offset len < 2 ^ 32
  · rw [numWords_saturatingAddU64 hsmall, if_pos hgrow]
    exact resizeMemoryCold_fails hpaid hgrow (by rwa [memoryGas_eq_memoryPrice hsmall])
  · -- the number of words may be saturated, but its price is out of reach in any case
    have hbig := le_numWords_saturatingAddU64 (Nat.not_lt.1 hsmall)
    rw [if_pos (by omega)]
    exact resizeMemoryCold_fails hpaid (by omega) (hpaid.bound.trans (lt_memoryGas hbig))

end

end Resize

end Revm
