import Revm.Interpreter.StepCost

/-!
# The memory of a step

A frame owns the shared buffer from its checkpoint to the end. As long as its gas is below a bound,
the end of its memory is in range, every access of its instructions is inside of its memory or of
the calldata in front of it, and nothing in front of its checkpoint changes.
-/

set_option autoImplicit false

namespace Revm

open List SharedMemory Buffer

variable {ε : Type} {range : ByteRange} {w : Bool} {data : List UInt8}

/-! ## Writes to the buffer -/

namespace Buffer

variable {buffer buffer' : Buffer} {base start : Nat} {value : List UInt8}

theorem write_eq_some (h : start + value.length ≤ buffer.length) : buffer.write start value =
      some (buffer.take start ++ value ++ buffer.drop (start + value.length)) := if_pos h

/-- A write behind `base` keeps what is before it. -/
theorem take_write (h : buffer.write start value = some buffer') (hbase : base ≤ start) :
    buffer'.take base = buffer.take base := by
  unfold write at h
  split_ifs at h with hle
  cases h
  rw [append_assoc, take_append_of_le_length (by rw [length_take]; omega),
    take_take, Nat.min_eq_left hbase]

/-- What a write behind `base` does to the bytes from `base` on. -/
theorem drop_write (h : buffer.write (base + start) value = some buffer') : buffer'.drop base =
      (buffer.drop base).take start ++ value ++ (buffer.drop base).drop (start + value.length) := by
  unfold write at h
  split_ifs at h with hle
  cases h
  have htake : (buffer.take (base + start)).length = base + start := by
    rw [length_take]
    omega
  rw [append_assoc, drop_append_of_le_length (by omega), drop_take,
    Nat.add_sub_cancel_left, drop_drop, append_assoc, Nat.add_assoc]

theorem take_of_take {n : Nat} (h : buffer'.take n = buffer.take n) (hle : base ≤ n) :
    buffer'.take base = buffer.take base := by
  rw [← Nat.min_eq_left hle, ← take_take, h, take_take]

/-- A write behind `base` and inside of the buffer works, and keeps what is in front of `base`. -/
theorem write_spec (buffer : Buffer) (base start : Nat) (value : List UInt8)
    (h : start + value.length ≤ buffer.length) (hbase : base ≤ start) :
    ∃ buffer', buffer.write start value = some buffer' ∧ buffer'.length = buffer.length ∧
      buffer'.take base = buffer.take base :=
  ⟨_, write_eq_some h, length_write (write_eq_some h), take_write (write_eq_some h) hbase⟩

theorem slice_eq_some {stop : Nat} (h : start ≤ stop) (hle : stop ≤ buffer.length) :
    buffer.slice start stop = some ((buffer.drop start).take (stop - start)) := if_pos ⟨h, hle⟩

/-- A range in front of `base` is read from the bytes in front of `base`. -/
theorem slice_take {stop : Nat} (hle : stop ≤ base) (hbase : base ≤ buffer.length) :
    slice (buffer.take base) start stop = buffer.slice start stop := by
  unfold slice
  by_cases h : start ≤ stop
  · rw [if_pos ⟨h, by rw [length_take]; omega⟩, if_pos ⟨h, by omega⟩, drop_take,
      take_take, Nat.min_eq_left (by omega)]
  · rw [if_neg fun hc => h hc.1, if_neg fun hc => h hc.1]

end Buffer

/-- `set_data` inside of the memory works, and keeps what is in front of it. -/
theorem SharedMemory.setDataAt_spec {base : Nat} {buffer : Buffer} (src : List UInt8)
    {dstOffset len : Nat} (srcOffset : Nat) (h : base + dstOffset + len ≤ buffer.length) :
    ∃ buffer', setDataAt base buffer src dstOffset srcOffset len = some buffer' ∧
      buffer'.length = buffer.length ∧ buffer'.take base = buffer.take base := by
  unfold setDataAt
  by_cases hlen : len = 0
  · rw [if_pos hlen]
    exact ⟨buffer, rfl, rfl, rfl⟩
  rw [if_neg hlen]
  by_cases hsrc : src.length ≤ srcOffset
  · rw [if_pos hsrc]
    exact write_spec _ _ _ _ (by rw [length_replicate]; omega) (by omega)
  · -- the bytes of the source, and zeros behind them
    rw [if_neg hsrc]
    dsimp only
    generalize hn : min (srcOffset + len) src.length - srcOffset = n
    have hcopied : ((src.drop srcOffset).take n).length = n := by
      rw [length_take, length_drop]
      omega
    obtain ⟨buffer₁, hwrite₁, hlen₁, htake₁⟩ :=
      write_spec buffer base (base + dstOffset) ((src.drop srcOffset).take n)
        (by rw [hcopied]; omega) (by omega)
    obtain ⟨buffer₂, hwrite₂, hlen₂, htake₂⟩ :=
      write_spec buffer₁ base (base + (dstOffset + n)) (replicate (len - n) 0)
        (by rw [length_replicate]; omega) (by omega)
    refine ⟨buffer₂, ?_, hlen₂.trans hlen₁, htake₂.trans htake₁⟩
    rw [hwrite₁]
    exact hwrite₂

/-! ## The bound -/

/-- The gas below which the end of the memory of every frame is in range. -/
def memoryGasBound : Nat := 3 * 2 ^ 59

theorem memoryGas_mono {w w' : Nat} (h : w ≤ w') : memoryGas w ≤ memoryGas w' := by
  have hsq : w * w ≤ w' * w' := Nat.mul_le_mul h h
  unfold memoryGas saturatingAddU64 saturatingMulU64 gasMemory u64Max
  omega

/-- Below `2 ^ 59` words the linear part does not saturate. -/
theorem three_mul_le_memoryGas {w : Nat} (h : w < 2 ^ 59) : 3 * w ≤ memoryGas w := by
  unfold memoryGas saturatingAddU64 saturatingMulU64 gasMemory u64Max
  omega

theorem numWords_lt (len : Nat) : numWords len < 2 ^ 59 := by
  unfold numWords saturatingAddU64 u64Max
  omega

theorem memoryGasBound_le_memoryGas : memoryGasBound ≤ memoryGas (2 ^ 59 - 1) := by decide

/-- The number of words is computed without saturation if its price is below the bound. -/
theorem le_numWords {offset len : Nat}
    (h : memoryGas (numWords (saturatingAddU64 offset len)) < memoryGasBound) :
    offset + len ≤ 32 * numWords (saturatingAddU64 offset len) := by
  have hlt : numWords (saturatingAddU64 offset len) < 2 ^ 59 - 1 := by
    by_contra hge
    have := memoryGas_mono (Nat.not_lt.1 hge)
    have := memoryGasBound_le_memoryGas
    omega
  unfold numWords saturatingAddU64 u64Max at *
  omega

/-! ## The memory of a frame -/

/-- The frame with this gas owns the buffer from `base` on. It has paid for its memory, and its gas
bounds how far its memory can grow. -/
structure OwnsMemory (base : Nat) (gas : Gas) (buffer : Buffer) : Prop where
  length : buffer.length = base + 32 * gas.memory.wordsNum
  words : gas.memory.wordsNum < 2 ^ 59
  cost : gas.memory.expansionCost = memoryGas gas.memory.wordsNum
  paid : memoryGas gas.memory.wordsNum + gas.remaining ≤ gas.limit
  room : 3 * base + 32 * gas.limit < 32 * memoryGasBound

namespace OwnsMemory

variable {base : Nat} {gas gas' : Gas} {buffer : Buffer}

/-- The memory of a new frame is empty. -/
theorem new {gasLimit : Nat} (hlength : buffer.length = base)
    (hroom : 3 * base + 32 * gasLimit < 32 * memoryGasBound) :
    OwnsMemory base (.new gasLimit) buffer := by
  have hzero : memoryGas 0 = 0 := by decide
  refine ⟨hlength, (by decide : 0 < 2 ^ 59), hzero.symm, ?_, hroom⟩
  change memoryGas 0 + gasLimit ≤ gasLimit
  rw [hzero, Nat.zero_add]

section

variable (h : OwnsMemory base gas buffer)

include h

theorem base_le : base ≤ buffer.length := by
  have := h.length
  omega

theorem limit_lt : gas.limit < memoryGasBound := by
  have := h.room
  omega

/-- The end of the memory is in range. -/
theorem length_le : buffer.length ≤ u64Max := by
  have hlength := h.length
  have hpaid := h.paid
  have hroom := h.room
  have hwords := three_mul_le_memoryGas h.words
  unfold memoryGasBound at hroom
  unfold u64Max
  omega

/-- Gas may be spent. -/
theorem spend (hmemory : gas'.memory = gas.memory) (hlimit : gas'.limit = gas.limit)
    (hle : gas'.remaining ≤ gas.remaining) : OwnsMemory base gas' buffer := by
  obtain ⟨hlength, hwords, hcost, hpaid, hroom⟩ := h
  refine ⟨?_, ?_, ?_, ?_, ?_⟩
  · rw [hmemory, hlength]
  · rw [hmemory]
    exact hwords
  · rw [hmemory, hcost]
  · rw [hmemory, hlimit]
    omega
  · rw [hlimit]
    exact hroom

/-- A buffer of the same length. -/
theorem write {buffer' : Buffer}
    (hlen : buffer'.length = buffer.length) : OwnsMemory base gas buffer' :=
  ⟨hlen.trans h.length, h.words, h.cost, h.paid, h.room⟩

end

end OwnsMemory

section Resize

variable {base : Nat} {child : Option Nat} {gas : Gas} {buffer : Buffer}

section

variable (h : OwnsMemory base gas buffer)

include h

theorem OwnsMemory.recordNewLen {need : Nat}
    (hgrow : gas.memory.wordsNum < need) : gas.memory.recordNewLen need =
      some (some (memoryGas need - memoryGas gas.memory.wordsNum), ⟨need, memoryGas need⟩) := by
  unfold MemoryGas.recordNewLen
  rw [if_neg (Nat.not_le.2 hgrow), h.cost]
  dsimp only
  rw [subU64_eq_some (memoryGas_mono hgrow.le)]
  rfl

/-- The memory after a resize that is paid for. -/
theorem OwnsMemory.resize {need : Nat} (hneed : need < 2 ^ 59) (hgrow : gas.memory.wordsNum < need)
    (hpaid : memoryGas need - memoryGas gas.memory.wordsNum ≤ gas.remaining) :
    ∃ buffer', resize ⟨base, child⟩ buffer (need * 32) = some buffer' ∧
      buffer'.take base = buffer.take base ∧
      OwnsMemory base
        ⟨gas.limit, gas.remaining - (memoryGas need - memoryGas gas.memory.wordsNum), gas.refunded,
          ⟨need, memoryGas need⟩⟩ buffer' := by
  have hwords := three_mul_le_memoryGas hneed
  have hlength := h.length
  have htotal := h.paid
  have hroom := h.room
  have hrange : base + need * 32 ≤ u64Max := by
    unfold memoryGasBound at hroom
    unfold u64Max
    omega
  have hlonger : buffer.length ≤ base + need * 32 := by omega
  refine ⟨buffer ++ replicate (base + need * 32 - buffer.length) 0, ?_, ?_, ?_⟩
  · unfold SharedMemory.resize
    rw [addU64_eq_some hrange, Option.map_some, resizeTo_of_le hlonger]
  · exact take_append_of_le_length h.base_le
  · refine ⟨?_, hneed, rfl, ?_, hroom⟩
    · rw [length_append, length_replicate]
      dsimp only
      omega
    · dsimp only
      omega

/-- A resize is paid for and makes room for the access, or there is not enough gas. -/
theorem resizeMemory_owns (offset len : Nat) :
    (∃ gas', resizeMemory gas ⟨base, child⟩ buffer offset len = some (false, gas', buffer)) ∨
    ∃ gas' buffer', resizeMemory gas ⟨base, child⟩ buffer offset len = some (true, gas', buffer') ∧
      OwnsMemory base gas' buffer' ∧ buffer'.take base = buffer.take base ∧
      gas'.limit = gas.limit ∧ gas.memory.wordsNum ≤ gas'.memory.wordsNum ∧
      offset + len ≤ 32 * gas'.memory.wordsNum := by
  have hlimit := h.limit_lt
  have htotal := h.paid
  have hneed := numWords_lt (saturatingAddU64 offset len)
  have henough : memoryGas (numWords (saturatingAddU64 offset len)) ≤ gas.limit →
      offset + len ≤ 32 * numWords (saturatingAddU64 offset len) :=
    fun hle => le_numWords (hle.trans_lt hlimit)
  unfold resizeMemory
  generalize numWords (saturatingAddU64 offset len) = need at *
  by_cases hgrow : gas.memory.wordsNum < need
  · rw [if_pos hgrow]
    unfold resizeMemoryCold
    rw [h.recordNewLen hgrow]
    dsimp only [Option.bind_eq_bind, Option.bind_some]
    by_cases hpaid : memoryGas need - memoryGas gas.memory.wordsNum ≤ gas.remaining
    · obtain ⟨buffer', hresize, htake, howns⟩ := h.resize hneed hgrow hpaid
      refine .inr ⟨_, buffer', ?_, howns, htake, rfl, hgrow.le, henough (by omega)⟩
      rw [Gas.recordCost_of_le (by exact hpaid)]
      dsimp only
      rw [mulU64_eq_some (by unfold u64Max; omega), Option.bind_some, hresize]
      rfl
    · refine .inl ⟨{ gas with memory := ⟨need, memoryGas need⟩ }, ?_⟩
      rw [Gas.recordCost_of_lt (by exact Nat.not_le.1 hpaid)]
      rfl
  · -- the memory is large enough
    rw [if_neg hgrow]
    have hmono := memoryGas_mono (Nat.not_lt.1 hgrow)
    exact .inr ⟨gas, buffer, rfl, h, rfl, rfl, le_rfl, by omega⟩

end

end Resize

/-! ## Programs -/

/-- A frame keeps what is in front of its checkpoint, and never gives memory back. -/
def memoryDiscipline (base : Nat) : Discipline (Machine ε) Fault where
  Inv s := OwnsMemory base s.gas s.buffer
  Step s s' := s'.buffer.take base = s.buffer.take base ∧ s'.gas.limit = s.gas.limit ∧
    s.gas.memory.wordsNum ≤ s'.gas.memory.wordsNum
  Stop s s' := s'.buffer.take base = s.buffer.take base ∧ base ≤ s'.buffer.length
  Fault e := e ≠ .memory
  refl _ := ⟨rfl, rfl, le_rfl⟩
  trans h h' := ⟨h'.1.trans h.1, h'.2.1.trans h.2.1, h.2.2.trans h'.2.2⟩
  stop_of_step h h' := ⟨h'.1.trans h.1, h'.2⟩

/-- The calldata is in front of the memory of the frame. -/
def CallInput.InFront (input : CallInput) (base : Nat) : Prop :=
  ∀ range, input = .sharedBuffer range → range.start < range.stop → range.stop ≤ base

namespace InstructionContext

variable (ctx : InstructionContext ε)

/-- The discipline of the memory of the running frame. -/
abbrev ownMemory : Discipline (Machine ε) Fault := memoryDiscipline ctx.memory.myCheckpoint

abbrev CalldataInFront : Prop := ctx.input.input.InFront ctx.memory.myCheckpoint

end InstructionContext

section Programs

variable {α : Type} {ctx : InstructionContext ε}

theorem HostOnly.obeys_memory {x : Instr ε α} (h : HostOnly x) (base : Nat) :
    x.Obeys (memoryDiscipline base) := by
  intro s hs
  refine (h s).mono ?_ (fun _ _ h => h.elim) ?_
  · intro _ s' heq
    rw [heq]
    exact ⟨hs, ⟨rfl, rfl, le_rfl⟩, trivial⟩
  · rintro _ rfl
    exact nofun

namespace Prim

theorem recordCost_memory (cost base : Nat) :
    (recordCost cost : Instr ε Bool).Obeys (memoryDiscipline base) := by
  intro s hs
  unfold recordCost
  by_cases hle : cost ≤ s.gas.remaining
  · rw [Gas.recordCost_of_le hle]
    exact ⟨hs.spend rfl rfl (Nat.sub_le _ _), ⟨rfl, rfl, le_rfl⟩, trivial⟩
  · rw [Gas.recordCost_of_lt (Nat.not_le.1 hle)]
    exact ⟨hs, ⟨rfl, rfl, le_rfl⟩, trivial⟩

theorem recordRefund_memory (refund : Int) (base : Nat) :
    (recordRefund refund : Instr ε Unit).Obeys (memoryDiscipline base) := by
  intro s hs
  unfold recordRefund Gas.recordRefund
  cases addI64 s.gas.refunded refund with
  | none => exact nofun
  | some refunded => exact ⟨hs.spend rfl rfl le_rfl, ⟨rfl, rfl, le_rfl⟩, trivial⟩

variable (offset len : Nat)

/-- A resize makes room for the access. -/
theorem resize_memory : (resize ctx offset len).Gives ctx.ownMemory
      fun _ s => offset + len ≤ 32 * s.gas.memory.wordsNum := by
  intro s hs
  unfold resize
  rcases resizeMemory_owns hs offset len with
    ⟨gas', hr⟩ | ⟨gas', buffer', hr, howns, htake, hlimit, hwords, hfits⟩
  · rw [hr]
    exact ⟨rfl, hs.base_le⟩
  · rw [hr]
    exact ⟨howns, ⟨htake, hlimit, hwords⟩, hfits⟩

theorem readBuffer_memory {base : Nat} {f : Buffer → Option α} {s : Machine ε} {a : α}
    (hs : OwnsMemory base s.gas s.buffer) (h : f s.buffer = some a) :
    (readBuffer f s).Gives (memoryDiscipline base) s fun _ _ => True := by
  unfold readBuffer
  rw [h]
  exact ⟨hs, ⟨rfl, rfl, le_rfl⟩, trivial⟩

theorem writeBuffer_memory {base : Nat} {f : Buffer → Option Buffer} {s : Machine ε}
    (hs : OwnsMemory base s.gas s.buffer)
    (h : ∃ buffer', f s.buffer = some buffer' ∧ buffer'.length = s.buffer.length ∧
      buffer'.take base = s.buffer.take base) :
    (writeBuffer f s).Gives (memoryDiscipline base) s fun _ _ => True := by
  obtain ⟨buffer', hf, hlen, htake⟩ := h
  unfold writeBuffer
  rw [hf]
  exact ⟨hs.write hlen, ⟨htake, rfl, le_rfl⟩, trivial⟩

theorem memorySize_memory : (memorySize ctx).Obeys ctx.ownMemory := by
  intro s hs
  have hlen : ctx.memory.len s.buffer = some (s.buffer.length - ctx.memory.myCheckpoint) :=
    subU64_eq_some hs.base_le
  exact readBuffer_memory hs hlen

theorem memorySlice_memory : (memorySlice ctx offset len).Obeys ctx.ownMemory := by
  apply (resize_memory offset len).bind
  intro _ s hfits hs
  have hlength := hs.length
  apply readBuffer_memory hs
  exact slice_eq_some (by omega) (by omega)

theorem memorySet_memory (offset : Nat) (value : List UInt8) :
    (memorySet ctx offset value).Obeys ctx.ownMemory := by
  apply (resize_memory offset value.length).bind
  intro _ s hfits hs
  have hlength := hs.length
  apply writeBuffer_memory hs
  unfold SharedMemory.set
  split_ifs
  · exact ⟨s.buffer, rfl, rfl, rfl⟩
  · exact write_spec _ _ _ _ (by omega) (by omega)

theorem memoryCopy_memory (dst src len : Nat) :
    (memoryCopy ctx dst src len).Obeys ctx.ownMemory := by
  apply (resize_memory (max dst src) len).bind
  intro _ s hfits hs
  have hlength := hs.length
  apply writeBuffer_memory hs
  unfold copy sliceLen
  rw [slice_eq_some (by omega) (by omega)]
  apply write_spec
  · rw [length_take, length_drop]
    omega
  · omega

theorem memorySetData_memory {source : Instr ε (Nat × List UInt8)}
    (hsource : source.Obeys ctx.ownMemory) :
    (memorySetData ctx offset len source).Obeys ctx.ownMemory := by
  apply (resize_memory offset len).bind
  intro _ s hfits hs
  -- the source may run other instructions, which do not shrink the memory
  have hroom : (source s).Gives ctx.ownMemory s
      fun _ s' => offset + len ≤ 32 * s'.gas.memory.wordsNum := by
    refine (hsource s hs).mono_next ?_
    rintro _ s' ⟨hs', hstep, -⟩
    have hwords := hstep.2.2
    exact ⟨hs', hstep, by omega⟩
  apply Exec.gives_bind hroom
  rintro ⟨dataOffset, data⟩ s' hfits' hs'
  have hlength := hs'.length
  apply writeBuffer_memory hs'
  unfold setData
  rw [if_pos hs'.base_le]
  exact setDataAt_spec data dataOffset (by omega)

/-- The calldata that `CALLDATACOPY` reads. -/
theorem globalToLocalSetData_eq {memory : SharedMemory} {buffer : Buffer}
    (hbase : memory.myCheckpoint ≤ buffer.length)
    (hrange : range.start < range.stop → range.stop ≤ memory.myCheckpoint)
    (offset dataOffset len : Nat) :
    memory.globalToLocalSetData buffer offset dataOffset len range.start range.stop =
      setDataAt memory.myCheckpoint buffer
        (if range.stop ≤ range.start then [] else
          (buffer.drop range.start).take (range.stop - range.start)) offset dataOffset len := by
  unfold globalToLocalSetData
  rw [if_pos hbase]
  by_cases hempty : range.stop ≤ range.start
  · rw [if_pos hempty, if_pos hempty]
    rfl
  · have hle := hrange (by omega)
    rw [if_neg hempty, if_neg hempty, slice_take hle hbase,
      slice_eq_some (by omega) (by omega)]
    rfl

theorem memorySetGlobal_memory (offset dataOffset len : Nat)
    (hrange : range.start < range.stop → range.stop ≤ ctx.memory.myCheckpoint) :
    (memorySetGlobal ctx offset dataOffset len range).Obeys
      ctx.ownMemory := by
  apply (resize_memory offset len).bind
  intro _ s hfits hs
  have hlength := hs.length
  apply writeBuffer_memory hs
  rw [globalToLocalSetData_eq hs.base_le hrange]
  exact setDataAt_spec _ _ (by omega)

theorem inputSlice_memory (hinput : ctx.CalldataInFront) (hlen : ctx.input.input.len ≠ 0) :
    (inputSlice ctx).Obeys ctx.ownMemory := by
  intro s hs
  unfold inputSlice
  cases hin : ctx.input.input with
  | bytes data => exact Exec.Obeys.pure data s hs
  | sharedBuffer range =>
    rw [hin] at hlen
    have hlt : range.start < range.stop := by
      unfold CallInput.len ByteRange.len at hlen
      dsimp only at hlen
      omega
    have hle := hinput range hin hlt
    have hbase := hs.base_le
    apply readBuffer_memory hs
    exact slice_eq_some hlt.le (by omega)

/-- The range of a call is in the memory. -/
theorem resizeRange_memory : (resizeRange ctx offset len).Gives ctx.ownMemory
      fun range s => range = ⟨offset, offset + len⟩ ∧
        offset + len ≤ 32 * s.gas.memory.wordsNum := by
  apply (resize_memory offset len).bind
  intro _ s hfits hs
  have hlength := hs.length
  have hrange := hs.length_le
  rw [addU64_eq_some (by omega)]
  exact ⟨hs, ⟨rfl, rfl, le_rfl⟩, rfl, hfits⟩

end Prim

/-- Every program stays in its memory. -/
theorem Built.obeys_memory {x : Instr ε α}
    (hinput : ctx.CalldataInFront) (h : Built ctx w x) : x.Obeys ctx.ownMemory := by
  induction h with
  | pure a => exact .pure a
  | bind _ _ ihx ihf => exact .bind ihx ihf
  | halt | haltOog => exact fun s hs => ⟨rfl, hs.base_le⟩
  | panic => exact nofun
  | getMachine | setStack => exact fun s hs => ⟨hs, ⟨rfl, rfl, le_rfl⟩, trivial⟩
  | recordCost cost => exact Prim.recordCost_memory cost _
  | recordRefund refund => exact Prim.recordRefund_memory refund _
  | memorySize => exact Prim.memorySize_memory
  | memorySlice offset len => exact Prim.memorySlice_memory offset len
  | memorySet offset value => exact Prim.memorySet_memory offset value
  | memoryCopy dst src len => exact Prim.memoryCopy_memory dst src len
  | memorySetData offset len _ ih => exact Prim.memorySetData_memory offset len ih
  | memorySetGlobal offset dataOffset len hrange =>
    exact Prim.memorySetGlobal_memory offset dataOffset len (hinput _ hrange)
  | inputSlice hlen => exact Prim.inputSlice_memory hinput hlen
  | resizeRange offset len => exact (Prim.resizeRange_memory offset len).obeys
  | loadAccountInfo address loadCode skipColdLoad =>
    exact (Prim.hostOnly_loadAccountInfo ctx address loadCode skipColdLoad).obeys_memory _
  | sload address key skipColdLoad =>
    exact (Prim.hostOnly_sload ctx address key skipColdLoad).obeys_memory _
  | blockHash number => exact (Prim.hostOnly_blockHash ctx number).obeys_memory _
  | sstore address key value skipColdLoad =>
    exact (Prim.hostOnly_sstore ctx address key value skipColdLoad).obeys_memory _
  | tstore address key value => exact (Prim.hostOnly_tstore address key value).obeys_memory _
  | log entry => exact (Prim.hostOnly_log entry).obeys_memory _
  | selfdestruct address target =>
    exact (Prim.hostOnly_selfdestruct ctx address target).obeys_memory _
  | nonStatic _ ih =>
    unfold Prim.nonStatic
    split_ifs
    · exact fun s hs => ⟨rfl, hs.base_le⟩
    · exact ih

end Programs

/-! ## The ranges of a call -/

/-- The ranges of the new frame are in the memory of its caller: the calldata in the whole buffer,
the output in the memory of the frame. -/
def FrameInput.InMemory (base words : Nat) : FrameInput → Prop
  | .call inputs =>
      (∀ range, inputs.input = .sharedBuffer range → range.start < range.stop →
        base ≤ range.start ∧ range.stop ≤ base + 32 * words) ∧
      (inputs.returnMemoryOffset.start < inputs.returnMemoryOffset.stop →
        inputs.returnMemoryOffset.stop ≤ 32 * words)
  | .create _ => True

theorem FrameInput.InMemory.grow {base words words' : Nat} {input : FrameInput}
    (h : input.InMemory base words) (hle : words ≤ words') : input.InMemory base words' := by
  cases input with
  | create inputs => exact trivial
  | call inputs =>
    obtain ⟨hin, hout⟩ := h
    refine ⟨?_, ?_⟩
    · intro range hrange hlt
      obtain ⟨hstart, hstop⟩ := hin range hrange hlt
      exact ⟨hstart, by omega⟩
    · intro hlt
      omega

namespace Program

variable {α β : Type} {ctx : InstructionContext ε} {D : Discipline (Machine ε) Fault}
variable {x : Program ctx w α} {f : α → Program ctx w β} {Q : β → Machine ε → Prop}

/-- The first part promises nothing about its value. -/
theorem gives_rest (hx : x.run.Obeys D) (hf : ∀ a, (f a).run.Gives D Q) : (x >>= f).run.Gives D Q :=
  hx.bind_gives hf

theorem gives_value {P : α → Prop} (hx : x.run.Gives D fun a _ => P a)
    (hf : ∀ a, P a → (f a).run.Gives D Q) : (x >>= f).run.Gives D Q :=
  hx.bind_value hf

theorem gives_bind {P : α → Machine ε → Prop} (hx : x.run.Gives D P)
    (hf : ∀ a s, P a s → D.Inv s → ((f a).run s).Gives D s Q) : (x >>= f).run.Gives D Q :=
  hx.bind hf

theorem gives_nonStatic {body : Program ctx true α} {Q : α → Machine ε → Prop}
    (hstop : ∀ s, D.Inv s → D.Stop s s) (h : body.run.Gives D Q) :
    (nonStatic body : Program ctx w α).run.Gives D Q := by
  intro s hs
  simp only [nonStatic, Prim.nonStatic]
  split_ifs
  · exact hstop s hs
  · exact h s hs

theorem gives_pure {a : α} {Q : α → Machine ε → Prop} (h : ∀ s, D.Inv s → Q a s) :
    (pure a : Program ctx w α).run.Gives D Q := .pure h

end Program

namespace Instructions

variable {ctx : InstructionContext ε}

open Program

theorem asUsize_gives (value : U256) : (asUsize value : Program ctx w Nat).run.Gives ctx.ownMemory
      fun n _ => n = value.toNat := by
  unfold asUsize asUsizeOrFail
  split_ifs
  · exact gives_pure fun _ _ => rfl
  · exact fun s hs => ⟨rfl, hs.base_le⟩

/-- A range that is not empty is in the memory. -/
theorem callRange_gives (offset len : U256) :
    (callRange offset len : Program ctx w ByteRange).run.Gives
      ctx.ownMemory
      fun range s => range.start < range.stop → range.stop ≤ 32 * s.gas.memory.wordsNum := by
  apply gives_value (asUsize_gives len)
  rintro n rfl
  split_ifs with hlen
  · apply gives_value (asUsize_gives offset)
    rintro n rfl
    refine (Prim.resizeRange_memory offset.toNat len.toNat).mono ?_
    rintro range s ⟨rfl, hfits⟩ _
    exact hfits
  · exact gives_pure fun s _ hlt => absurd hlt (lt_irrefl _)

section

variable (hinput : ctx.CalldataInFront)

include hinput

theorem getMemoryInputAndOutRanges_gives :
    (getMemoryInputAndOutRanges : Program ctx w (ByteRange × ByteRange)).run.Gives
      ctx.ownMemory
      fun ranges s =>
        (ranges.1.start < ranges.1.stop → ctx.memory.myCheckpoint ≤ ranges.1.start ∧
          ranges.1.stop ≤ ctx.memory.myCheckpoint + 32 * s.gas.memory.wordsNum) ∧
        (ranges.2.start < ranges.2.stop → ranges.2.stop ≤ 32 * s.gas.memory.wordsNum) := by
  apply gives_rest ((popn 4 : Program ctx w _).built.obeys_memory hinput)
  intro x
  apply gives_bind (callRange_gives (x 0) (x 1))
  intro inRange s hin hs
  refine Exec.gives_map (callRange_gives (x 2) (x 3) s hs) ?_
  intro outRange s' hs' hstep hout
  refine ⟨?_, hout⟩
  -- a range of the memory is shifted by the checkpoint, which cannot saturate
  have hwords := hstep.2.2
  unfold ByteRange.isEmpty
  by_cases hempty : inRange.stop ≤ inRange.start
  · simp only [hempty, decide_true, Bool.not_true, Bool.false_eq_true, if_false]
    omega
  · simp only [hempty, decide_false, Bool.not_false, if_true]
    unfold saturatingAddU64
    omega

/-- The end of a call instruction: the ranges, the load of the account and the input of the
frame. -/
theorem callTail_gives {α : Type}
    (load : Program ctx w α) {f : ByteRange × ByteRange → α → CallInputs}
    (hf : ∀ ranges a, (f ranges a).input = .sharedBuffer ranges.1 ∧
      (f ranges a).returnMemoryOffset = ranges.2) :
    (getMemoryInputAndOutRanges >>= fun ranges => load >>= fun a =>
      pure (FrameInput.call (f ranges a)) : Program ctx w FrameInput).run.Gives
      ctx.ownMemory
      fun input s => input.InMemory ctx.memory.myCheckpoint s.gas.memory.wordsNum := by
  apply gives_bind (getMemoryInputAndOutRanges_gives hinput)
  rintro ranges s ⟨hin, hout⟩ hs
  refine Exec.gives_map (load.built.obeys_memory hinput s hs) ?_
  intro a s' hs' hstep _
  obtain ⟨hfin, hfout⟩ := hf ranges a
  have hmemory : (FrameInput.call (f ranges a)).InMemory ctx.memory.myCheckpoint
      s.gas.memory.wordsNum := by
    refine ⟨?_, ?_⟩
    · intro range hrange hlt
      rw [hfin] at hrange
      cases hrange
      exact hin hlt
    · rw [hfout]
      exact hout
  exact hmemory.grow hstep.2.2

/-- The new frame that an instruction asks for has its ranges in the memory of the caller. -/
theorem asksForFrame_gives {program : Program ctx false FrameInput} (h : AsksForFrame program) :
    program.run.Gives ctx.ownMemory
      fun input s => input.InMemory ctx.memory.myCheckpoint s.gas.memory.wordsNum := by
  have hobeys : ∀ {α : Type} {w : Bool} (x : Program ctx w α), x.run.Obeys ctx.ownMemory :=
    fun x => x.built.obeys_memory hinput
  cases h with
  | create isCreate2 =>
    -- the input of a creation has no ranges
    refine gives_nonStatic (fun _ hs => ⟨rfl, hs.base_le⟩) ?_
    cases isCreate2
    all_goals
      repeat
        refine gives_rest (hobeys _) ?_
        intro _
      exact gives_pure fun _ _ => trivial
  | call =>
    apply gives_rest (hobeys _)
    intro x
    dsimp only
    split_ifs
    · exact fun s hs => ⟨rfl, hs.base_le⟩
    · exact callTail_gives hinput _ fun _ _ => ⟨rfl, rfl⟩
  | callCode =>
    apply gives_rest (hobeys _)
    intro x
    exact callTail_gives hinput _ fun _ _ => ⟨rfl, rfl⟩
  | delegateCall | staticCall =>
    apply gives_rest (hobeys _)
    intro _
    apply gives_rest (hobeys _)
    intro x
    exact callTail_gives hinput _ fun _ _ => ⟨rfl, rfl⟩

end

end Instructions

/-! ## One step -/

section Step

variable {ctx : InstructionContext ε}

/-- What an instruction does to the memory: a new frame finds its ranges in it. -/
def Control.InMemory (base words : Nat) : Control → Prop
  | .continueAt _ => True
  | .newFrame input => input.InMemory base words

theorem Behaviour.execute_gives (hinput : ctx.CalldataInFront)
    (b : Behaviour ctx) (hframe : ∀ program, b = .newFrame program → AsksForFrame program) :
    b.execute.Gives ctx.ownMemory
      fun control s => control.InMemory ctx.memory.myCheckpoint s.gas.memory.wordsNum := by
  cases b with
  | run program =>
    apply (program.built.obeys_memory hinput).bind_gives
    intro _
    exact .pure fun _ _ => trivial
  | push n =>
    intro s hs
    simp only [Behaviour.execute, pushImmediate]
    split_ifs
    · split
      · exact ⟨rfl, hs.base_le⟩
      · exact ⟨hs, ⟨rfl, rfl, le_rfl⟩, trivial⟩
    · rintro ⟨⟩
  | jump program =>
    apply (program.built.obeys_memory hinput).bind_gives
    rintro (_ | target)
    · exact .pure fun _ _ => trivial
    · exact .pure fun _ _ => trivial
  | newFrame program =>
    intro s hs
    refine Exec.gives_map (Instructions.asksForFrame_gives hinput (hframe program rfl) s hs) ?_
    intro input s' _ _ h
    exact h

variable [Keccak256]

theorem fetchExecute_gives (hinput : ctx.CalldataInFront) (opcode : UInt8) :
    (Interpreter.fetchExecute ctx opcode).Gives ctx.ownMemory
      fun control s => control.InMemory ctx.memory.myCheckpoint s.gas.memory.wordsNum := by
  intro s hs
  unfold Interpreter.fetchExecute Gas.recordCostUnsafe
  by_cases hlt : s.gas.remaining < (instructionTable ctx opcode).staticGas
  · rw [if_pos (by simpa using hlt)]
    exact ⟨rfl, hs.base_le⟩
  · rw [if_neg (by simpa using hlt), if_pos (Nat.not_lt.1 hlt)]
    have howns : OwnsMemory ctx.memory.myCheckpoint
        { s.gas with remaining := s.gas.remaining - (instructionTable ctx opcode).staticGas }
        s.buffer := hs.spend rfl rfl (Nat.sub_le _ _)
    exact Behaviour.execute_gives hinput _
      (fun program h => asksForFrame_instructionTable ctx h) _ howns

/-- A step stays in the memory of its frame and keeps what is in front of it. A new frame finds its
ranges in the memory. -/
theorem Interpreter.step_memory (env : HostEnv ε) {self : Interpreter} {shared : Shared ε}
    (hinput : self.input.input.InFront self.memory.myCheckpoint)
    (howns : OwnsMemory self.memory.myCheckpoint self.gas shared.buffer) :
    (self.step env shared).Meets
      (fun _ r => OwnsMemory self.memory.myCheckpoint r.1.gas r.2.buffer ∧
        r.2.buffer.take self.memory.myCheckpoint = shared.buffer.take self.memory.myCheckpoint)
      (fun action r =>
        r.2.buffer.take self.memory.myCheckpoint = shared.buffer.take self.memory.myCheckpoint ∧
        match action with
        | .newFrame input =>
            OwnsMemory self.memory.myCheckpoint r.1.gas r.2.buffer ∧
              input.InMemory self.memory.myCheckpoint r.1.gas.memory.wordsNum
        | .return _ => self.memory.myCheckpoint ≤ r.2.buffer.length) (· ≠ .memory) := by
  refine step_meets nofun fun opcode _ => ?_
  refine (fetchExecute_gives hinput opcode _ (by exact howns)).mono_next ?_
  rintro (pc | input) m ⟨howns', hstep, hcontrol⟩
  · exact ⟨howns', hstep.1⟩
  · exact ⟨hstep.1, howns', hcontrol⟩

end Step

/-! ## Calldata -/

/-- The context with the calldata as a byte string. -/
def InstructionContext.withCalldata (ctx : InstructionContext ε) (data : List UInt8) :
    InstructionContext ε :=
  { ctx with input := { ctx.input with input := .bytes data } }

/-- The bytes of a range of the buffer. -/
def ByteRange.bytes (range : ByteRange) (buffer : Buffer) : List UInt8 :=
  (buffer.drop range.start).take range.len

section Calldata

variable {ctx : InstructionContext ε}

theorem ByteRange.length_bytes {base : Nat} {buffer : Buffer}
    (hrange : range.start < range.stop → range.stop ≤ base) (hbase : base ≤ buffer.length) :
    (range.bytes buffer).length = range.len := by
  unfold bytes ByteRange.len
  rw [length_take, length_drop]
  omega

/-- `global_to_local_set_data` reads an empty range as no data. -/
theorem ByteRange.ite_bytes (buffer : Buffer) : (if range.stop ≤ range.start then [] else
      (buffer.drop range.start).take (range.stop - range.start)) = range.bytes buffer := by
  unfold bytes ByteRange.len
  split_ifs with hempty
  · rw [Nat.sub_eq_zero_of_le hempty, take_zero]
  · rfl

/-- The bytes in front of `base` decide what a range in front of it holds. -/
theorem ByteRange.bytes_congr {base : Nat} {buffer buffer' : Buffer}
    (hrange : range.start < range.stop → range.stop ≤ base)
    (htake : buffer'.take base = buffer.take base) : range.bytes buffer' = range.bytes buffer := by
  have htaken : ∀ b : Buffer, range.bytes b = range.bytes (b.take base) := by
    intro b
    unfold bytes ByteRange.len
    rw [drop_take, take_take]
    congr 1
    omega
  rw [htaken buffer', htake, ← htaken buffer]

/-- The calldata is a range in front of the memory, and holds `data`. -/
structure HoldsCalldata (ctx : InstructionContext ε) (range : ByteRange) (data : List UInt8)
    (s : Machine ε) : Prop where
  input : ctx.input.input = .sharedBuffer range
  front : range.start < range.stop → range.stop ≤ ctx.memory.myCheckpoint
  owns : OwnsMemory ctx.memory.myCheckpoint s.gas s.buffer
  bytes : range.bytes s.buffer = data

namespace HoldsCalldata

variable {s s' : Machine ε}

section

variable (h : HoldsCalldata ctx range data s)

include h

theorem inFront : ctx.CalldataInFront := by
  intro range' hrange'
  rw [h.input] at hrange'
  cases hrange'
  exact h.front

theorem len_eq : ctx.input.input.len = (ctx.withCalldata data).input.input.len := by
  rw [h.input]
  change range.len = data.length
  rw [← h.bytes, range.length_bytes h.front h.owns.base_le]

theorem step (howns : OwnsMemory ctx.memory.myCheckpoint s'.gas s'.buffer)
    (htake : s'.buffer.take ctx.memory.myCheckpoint = s.buffer.take ctx.memory.myCheckpoint) :
    HoldsCalldata ctx range data s' :=
  ⟨h.input, h.front, howns, (ByteRange.bytes_congr h.front htake).trans h.bytes⟩

/-- The static gas is paid. -/
theorem recordCostUnsafe {cost : Nat} (hcost : (s.gas.recordCostUnsafe cost).1 = false) :
    HoldsCalldata ctx range data { s with gas := (s.gas.recordCostUnsafe cost).2 } := by
  have hle : cost ≤ s.gas.remaining := Nat.not_lt.1 (of_decide_eq_false hcost)
  refine h.step (h.owns.spend rfl rfl ?_) rfl
  dsimp only [Gas.recordCostUnsafe]
  rw [if_pos hle]
  exact Nat.sub_le _ _

theorem inputSlice (hlen : ctx.input.input.len ≠ 0) : Prim.inputSlice ctx s = .next data s := by
  have hlt : range.start < range.stop := by
    rw [h.input] at hlen
    unfold CallInput.len ByteRange.len at hlen
    dsimp only at hlen
    omega
  have hle := h.front hlt
  have hbase := h.owns.base_le
  unfold Prim.inputSlice Prim.readBuffer globalSlice
  rw [h.input]
  dsimp only
  rw [slice_eq_some hlt.le (by omega), ← h.bytes]
  rfl

/-- A program that reads the calldata agrees with its version over a byte string, if its rest
does. -/
theorem bind_congr {α β : Type} {x x' : Instr ε α} {f f' : α → Instr ε β} (hxx' : x = x')
    (hx : x.Obeys ctx.ownMemory)
    (hrest : ∀ a s', HoldsCalldata ctx range data s' → f a s' = f' a s') :
    (x >>= f) s = (x' >>= f') s := by
  rw [← hxx']
  exact Exec.bind_congr h.owns hx fun a s' howns hstep => hrest a s' (h.step howns hstep.1)

end

end HoldsCalldata

end Calldata

/-! Programs that do not depend on the context. -/

namespace Program

variable (ctx ctx' : InstructionContext ε)

theorem popn_congr (n : Nat) :
    (popn n : Program ctx w _).run = (popn n : Program ctx' w _).run := by
  funext s
  simp only [popn, run_bind, Exec.bind_apply, getMachine, Prim.getMachine]
  cases s.stack.popn n <;> rfl

theorem popnTop_congr (n : Nat) :
    (popnTop n : Program ctx w _).run = (popnTop n : Program ctx' w _).run := by
  funext s
  simp only [popnTop, run_bind, Exec.bind_apply, getMachine, Prim.getMachine]
  cases s.stack.popn (n + 1) with
  | none => rfl
  | some r =>
    simp only [run_bind, popn_congr ctx ctx' n]
    rfl

theorem push_congr (value : U256) :
    (push value : Program ctx w _).run = (push value : Program ctx' w _).run := by
  funext s
  simp only [push, run_bind, Exec.bind_apply, getMachine, Prim.getMachine]
  cases s.stack.push value <;> rfl

theorem asUsize_congr (value : U256) :
    (asUsize value : Program ctx w _).run = (asUsize value : Program ctx' w _).run := by
  unfold asUsize asUsizeOrFail
  split_ifs <;> rfl

theorem gas_congr (cost : Nat) :
    (gas cost : Program ctx w _).run = (gas cost : Program ctx' w _).run := by
  funext s
  simp only [gas, run_bind, Exec.bind_apply, recordCost, Prim.recordCost]
  cases (s.gas.recordCost cost).1 <;> rfl

theorem gasOrFail_congr (cost : Option Nat) :
    (gasOrFail cost : Program ctx w _).run = (gasOrFail cost : Program ctx' w _).run := by
  cases cost with
  | none => rfl
  | some cost => exact gas_congr ctx ctx' cost

end Program

section Calldata

variable {ctx : InstructionContext ε}

open Program Instructions

variable {s : Machine ε}

theorem calldatasize_congr (h : HoldsCalldata ctx range data s) :
    (calldatasize : Program ctx w Unit).run s =
      (calldatasize : Program (ctx.withCalldata data) w Unit).run s := by
  unfold calldatasize
  rw [h.len_eq, push_congr]

theorem calldataload_congr (h : HoldsCalldata ctx range data s) :
    (calldataload : Program ctx w Unit).run s =
      (calldataload : Program (ctx.withCalldata data) w Unit).run s := by
  have hpop := (popnTop 0 : Program ctx w _).built.obeys_memory h.inFront
  refine h.bind_congr (popnTop_congr _ _ 0) hpop ?_
  rintro ⟨x, offsetPtr⟩ s' h'
  have hlen := h'.len_eq
  dsimp only
  by_cases hlt : asUsizeSaturated offsetPtr < ctx.input.input.len
  · have hslice := h'.inputSlice (by omega)
    rw [dif_pos hlt, dif_pos (hlen ▸ hlt)]
    simp only [run_bind, Exec.bind_apply, inputSlice, hslice, ← hlen]
    rfl
  · rw [dif_neg hlt, dif_neg (hlen ▸ hlt)]
    rfl

theorem memorySetInput_sharedBuffer (h : ctx.input.input = .sharedBuffer range)
    (offset dataOffset len : Nat) :
    (memorySetInput offset dataOffset len : Program ctx w Unit).run =
      Prim.memorySetGlobal ctx offset dataOffset len range := by
  unfold memorySetInput
  split
  · rename_i hinput
    rw [h] at hinput
    cases hinput
  · rename_i hinput
    rw [h] at hinput
    cases hinput
    rfl

theorem memorySetInput_bytes (h : ctx.input.input = .bytes data) (offset dataOffset len : Nat) :
    (memorySetInput offset dataOffset len : Program ctx w Unit).run =
      Prim.memorySetData ctx offset len (pure (dataOffset, data)) := by
  unfold memorySetInput
  split
  · rename_i hinput
    rw [h] at hinput
    cases hinput
    rfl
  · rename_i hinput
    rw [h] at hinput
    cases hinput

/-- The write of `CALLDATACOPY`. -/
theorem memorySetInput_congr (h : HoldsCalldata ctx range data s) (offset dataOffset len : Nat) :
    (memorySetInput offset dataOffset len : Program ctx w Unit).run s =
      (memorySetInput offset dataOffset len : Program (ctx.withCalldata data) w Unit).run s := by
  rw [memorySetInput_sharedBuffer h.input, memorySetInput_bytes rfl]
  refine h.bind_congr rfl (Prim.resize_memory offset len).obeys ?_
  rintro _ s' h'
  have heq : ctx.memory.globalToLocalSetData s'.buffer offset dataOffset len range.start
      range.stop =
      ctx.memory.setData s'.buffer offset dataOffset len data := by
    rw [Prim.globalToLocalSetData_eq h'.owns.base_le h'.front, setData,
      if_pos h'.owns.base_le, range.ite_bytes, h'.bytes]
  change _ = Prim.writeBuffer (fun buffer => ctx.memory.setData buffer offset dataOffset len data)
    s'
  unfold Prim.writeBuffer
  dsimp only
  rw [heq]

theorem calldatacopy_congr (h : HoldsCalldata ctx range data s) :
    (calldatacopy : Program ctx w Unit).run s =
      (calldatacopy : Program (ctx.withCalldata data) w Unit).run s := by
  refine h.bind_congr (popn_congr _ _ 3) ((popn 3 : Program ctx w _).built.obeys_memory h.inFront)
    ?_
  intro x s₁ h₁
  refine h₁.bind_congr (asUsize_congr _ _ (x 2))
    ((asUsize (x 2) : Program ctx w _).built.obeys_memory h₁.inFront) ?_
  intro len s₂ h₂
  refine h₂.bind_congr (gasOrFail_congr _ _ (copyCostVerylow len))
    ((gasOrFail (copyCostVerylow len) : Program ctx w _).built.obeys_memory h₂.inFront) ?_
  intro _ s₃ h₃
  split_ifs
  · rfl
  · refine h₃.bind_congr (asUsize_congr _ _ (x 0))
      ((asUsize (x 0) : Program ctx w _).built.obeys_memory h₃.inFront) ?_
    intro memoryOffset s₄ h₄
    exact memorySetInput_congr h₄ _ _ _

/-- `CALLDATALOAD`, `CALLDATASIZE` and `CALLDATACOPY`. -/
def calldataOpcodes : List UInt8 := [0x35, 0x36, 0x37]

/-- The instructions that read the calldata do what they do over the bytes that the range holds. -/
theorem fetchExecute_calldata [Keccak256] (h : HoldsCalldata ctx range data s)
    {opcode : UInt8} (hopcode : opcode ∈ calldataOpcodes) : Interpreter.fetchExecute ctx opcode s =
      Interpreter.fetchExecute (ctx.withCalldata data) opcode s := by
  have hrun : ∀ (gas : Nat) {x : Instr ε Unit} {x' : Instr ε Unit},
      (∀ s, HoldsCalldata ctx range data s → x s = x' s) →
      (let r := s.gas.recordCostUnsafe gas
       let s : Machine ε := { s with gas := r.2 }
       if r.1 then (Prim.haltOog s : Outcome _ _ _ Control)
       else (x >>= fun _ => pure (.continueAt ctx.pc)) s) =
      (let r := s.gas.recordCostUnsafe gas
       let s : Machine ε := { s with gas := r.2 }
       if r.1 then (Prim.haltOog s : Outcome _ _ _ Control)
       else (x' >>= fun _ => pure (.continueAt ctx.pc)) s) := by
    intro gas x x' hx
    dsimp only
    cases hcost : (s.gas.recordCostUnsafe gas).1 with
    | true => rfl
    | false =>
      have hpaid := h.recordCostUnsafe hcost
      rw [if_neg Bool.false_ne_true, if_neg Bool.false_ne_true, Exec.bind_apply, Exec.bind_apply,
        hx _ hpaid]
  simp only [calldataOpcodes, mem_cons, not_mem_nil, or_false] at hopcode
  rcases hopcode with rfl | rfl | rfl
  · exact hrun 3 fun _ => calldataload_congr
  · exact hrun 2 fun _ => calldatasize_congr
  · exact hrun 0 fun _ => calldatacopy_congr

end Calldata

end Revm
