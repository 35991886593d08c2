import Revm.Handler.GasBound
import Revm.Interpreter.StepMemory

/-!
# Frames do not touch the memory of their callers

All open frames keep their memory in one buffer, each from its checkpoint to the checkpoint of the
frame above it. `MemoryStack` is the invariant of the loop: the innermost frame owns the buffer from
its checkpoint on, and every frame below it will own the buffer again, up to the checkpoint of its
child, together with the gas it gave to that child.

`MemoryStep` says what one step of the loop does to the buffer. By induction over `RunAbove`, the
part of a run in which a child is open, nothing in front of the child changes; so the callers keep
their memory, the calldata of the child stays what it was, and the output is the only thing that
reaches the caller.
-/

set_option autoImplicit false

namespace Revm

open List EthFrame

variable {ε : Type} {frame : EthFrame} {buffer : Buffer} {result : FrameResult}
  {output : Option ByteRange} {caller : EthFrame} {rest : List EthFrame} {base limit : Nat}
  {env : EvmEnv ε}
variable {buffer' : Buffer} {child child' : EthFrame} {init : FrameInit}
  {inner callers : List EthFrame} {data : List UInt8}

/-! ## The memory of a frame -/

/-- The memory of an open frame: from its checkpoint to the one of its child. -/
def EthFrame.memoryOf (frame : EthFrame) (buffer : Buffer) : List UInt8 :=
  (buffer.take (frame.interpreter.memory.childCheckpoint.getD buffer.length)).drop frame.base

/-- The memory of the caller after the result: after a success or a revert, the output range starts
with as much of the returned data as fits in. -/
def FrameResult.patch (result : FrameResult) (memory : List UInt8) : List UInt8 :=
  match result with
  | .call r range =>
      if r.result.isOkOrRevert then
        memory.take range.start ++ r.output.take (min range.len r.output.length) ++
          memory.drop (range.start + min range.len r.output.length)
      else memory
  | .create _ _ => memory

/-- The innermost frame owns the buffer from its checkpoint on. -/
structure ActiveFrame (frame : EthFrame) (buffer : Buffer) : Prop where
  unfinished : frame.isFinished = false
  child : frame.interpreter.memory.childCheckpoint = none
  input : frame.interpreter.input.input.InFront frame.base
  owns : OwnsMemory frame.base frame.interpreter.gas buffer

/-- A frame whose child starts at `base`, has the gas limit `limit` and answers to the range
`output`. It will own the buffer up to `base` again, with at most the gas that the child may
return. -/
structure SuspendedFrame (caller : EthFrame) (base limit : Nat) (output : Option ByteRange) :
    Prop where
  unfinished : caller.isFinished = false
  child : caller.interpreter.memory.childCheckpoint = some base
  input : caller.interpreter.input.input.InFront caller.base
  owns : ∀ buffer : Buffer, buffer.length = base →
    OwnsMemory caller.base
      { caller.interpreter.gas with remaining := caller.interpreter.gas.remaining + limit } buffer
  output : ∀ range ∈ output, range.start < range.stop →
    range.stop ≤ 32 * caller.interpreter.gas.memory.wordsNum

/-- The frames below a frame that starts at `base`. -/
def OwnedBelow : Nat → Nat → Option ByteRange → List EthFrame → Prop
  | _, _, _, [] => True
  | base, limit, output, caller :: rest =>
      SuspendedFrame caller base limit output ∧
        OwnedBelow caller.base caller.limit caller.data.returnRange rest

/-- The open frames over the buffer, the innermost first. -/
inductive MemoryStack (buffer : Buffer) : List EthFrame → Prop where
  | intro {frame : EthFrame} {rest : List EthFrame} (active : ActiveFrame frame buffer)
      (below : OwnedBelow frame.base frame.limit frame.data.returnRange rest) :
      MemoryStack buffer (frame :: rest)

theorem ActiveFrame.memoryOf (h : ActiveFrame frame buffer) :
    frame.memoryOf buffer = buffer.drop frame.base := by
  unfold EthFrame.memoryOf
  rw [h.child]
  exact congrArg (drop _) (take_length)

theorem ActiveFrame.remaining_le (h : ActiveFrame frame buffer) : frame.remaining ≤ frame.limit :=
  le_trans (Nat.le_add_left _ _) h.owns.paid

namespace SuspendedFrame

section

variable (h : SuspendedFrame caller base limit output)

include h

theorem memoryOf (buffer : Buffer) :
    caller.memoryOf buffer = (buffer.take base).drop caller.base := by
  unfold EthFrame.memoryOf
  rw [h.child]
  rfl

theorem base_eq : base = caller.base + 32 * caller.interpreter.gas.memory.wordsNum := by
  have hlength := (h.owns (replicate base 0) length_replicate).length
  rw [length_replicate] at hlength
  exact hlength

theorem base_le : caller.base ≤ base := by
  have := h.base_eq
  omega

end

end SuspendedFrame

namespace OwnedBelow

theorem base_le (h : OwnedBelow base limit output rest) : ∀ frame ∈ rest, frame.base ≤ base := by
  induction rest generalizing base limit output with
  | nil => exact fun _ hmem => by cases hmem
  | cons caller rest ih =>
    obtain ⟨hcaller, hrest⟩ := h
    intro frame hmem
    rcases mem_cons.1 hmem with rfl | hmem
    · exact hcaller.base_le
    · exact (ih hrest frame hmem).trans hcaller.base_le

/-- What is in front of the innermost frame decides the memory of all others. -/
theorem memoryOf_congr {buffer : Buffer}
    (h : OwnedBelow base limit output rest) (htake : buffer'.take base = buffer.take base) :
    ∀ frame ∈ rest, frame.memoryOf buffer' = frame.memoryOf buffer := by
  induction rest generalizing base limit output with
  | nil => exact fun _ hmem => by cases hmem
  | cons caller rest ih =>
    obtain ⟨hcaller, hrest⟩ := h
    intro frame hmem
    rcases mem_cons.1 hmem with rfl | hmem
    · rw [hcaller.memoryOf, hcaller.memoryOf, htake]
    · refine ih hrest ?_ frame hmem
      exact Buffer.take_of_take htake hcaller.base_le

end OwnedBelow

/-! ## The end of a child -/

theorem FrameResult.patch_eq (result : FrameResult) (memory : List UInt8) : result.patch memory =
      memory.take result.copied.1 ++ result.copied.2 ++
        memory.drop (result.copied.1 + result.copied.2.length) := by
  cases result with
  | call r range =>
    unfold patch copied
    dsimp only
    split_ifs
    · rw [length_take, Nat.min_eq_left (Nat.min_le_right _ _)]
    · rw [append_nil]
      exact (take_append_drop _ _).symm
  | create r address => rfl

/-- The copied bytes fit in the output range. -/
theorem FrameResult.length_copied (h : result.copied.2 ≠ []) :
    ∃ range ∈ result.returnRange, range.start < range.stop ∧
      result.copied.1 + result.copied.2.length ≤ range.stop := by
  cases result with
  | create r address => exact absurd rfl h
  | call r range =>
    have hlen := length_pos_iff.2 h
    refine ⟨range, rfl, ?_⟩
    unfold copied ByteRange.len at hlen ⊢
    dsimp only at hlen ⊢
    split_ifs at hlen ⊢ with hok
    · rw [length_take] at hlen ⊢
      omega
    · exact absurd hlen (Nat.lt_irrefl 0)

/-- The caller gets its memory back, with the output in it. -/
theorem SuspendedFrame.take_result (h : SuspendedFrame caller base limit output)
    (hbase : base ≤ buffer.length) (hresult : result.returnRange = output) : ∃ written,
      caller.interpreter.memory.freeChildContext buffer =
        some (⟨caller.base, none⟩, buffer.take base) ∧
      SharedMemory.set ⟨caller.base, none⟩ (buffer.take base) result.copied.1 result.copied.2 =
        some written ∧
      written.length = base ∧ written.take caller.base = buffer.take caller.base ∧
      written.drop caller.base = result.patch (caller.memoryOf buffer) := by
  have hlength : (buffer.take base).length = base := by
    rw [length_take]
    omega
  have htake : (buffer.take base).take caller.base = buffer.take caller.base := by
    rw [take_take, Nat.min_eq_left h.base_le]
  have hfree : caller.interpreter.memory.freeChildContext buffer =
      some (⟨caller.base, none⟩, buffer.take base) := by
    unfold SharedMemory.freeChildContext
    rw [h.child]
    exact if_pos hbase
  unfold SharedMemory.set
  by_cases hempty : result.copied.2 = []
  · refine ⟨buffer.take base, hfree, by rw [hempty]; rfl, hlength, htake, ?_⟩
    rw [result.patch_eq, hempty, append_nil, h.memoryOf]
    exact (take_append_drop _ _).symm
  · -- there is output, so the output range is not empty and lies in the memory of the caller
    obtain ⟨range, hrange, hlt, hle⟩ := FrameResult.length_copied hempty
    have hin := h.output range (hresult ▸ hrange) hlt
    have hend := h.base_eq
    obtain ⟨written, hwrite, hlen, hkept⟩ :=
      Buffer.write_spec (buffer.take base) caller.base (caller.base + result.copied.1)
        result.copied.2 (by omega) (by omega)
    refine ⟨written, hfree, ?_, hlen.trans hlength, hkept.trans htake, ?_⟩
    · rw [if_neg (by simpa using hempty)]
      exact hwrite
    · rw [result.patch_eq, h.memoryOf]
      exact Buffer.drop_write hwrite

/-! ## One instruction -/

/-- What one instruction of a frame leaves in the buffer. -/
def FrameMemory (frame : EthFrame) :
    Option (ItemOrResult FrameInit FrameResult) × EthFrame → Buffer → Prop
  | (none, frame'), buffer => ActiveFrame frame' buffer
  | (some (.item init), frame'), buffer =>
      SuspendedFrame frame' buffer.length init.frameInput.gasLimit init.frameInput.returnRange ∧
        init.memory = ⟨buffer.length, none⟩ ∧
        init.frameInput.InMemory frame'.base frame'.interpreter.gas.memory.wordsNum
  | (some (.result result), _), buffer =>
      frame.base ≤ buffer.length ∧ result.returnRange = frame.data.returnRange ∧
        result.interpreterResult.gas.remaining ≤ frame.limit

/-- The gas of the new frame and the memory of its caller are paid for by the caller. -/
theorem ActiveFrame.suspend {gas : Gas} {n : Nat} (h : ActiveFrame frame buffer)
    (howns : OwnsMemory frame.base gas buffer') (hpays : frame.interpreter.gas.Pays n gas) :
    ∀ buffer'' : Buffer, buffer''.length = buffer'.length →
      OwnsMemory frame.base { gas with remaining := gas.remaining + n } buffer'' := by
  intro buffer'' hlength
  have hmemory := hpays.memory
  have hpaid := h.owns.paid
  rw [howns.cost, h.owns.cost] at hmemory
  refine ⟨hlength.trans howns.length, howns.words, howns.cost, ?_, howns.room⟩
  dsimp only
  rw [hpays.limit]
  omega

/-- A new frame starts behind the memory of its caller, with an empty memory. -/
theorem SuspendedFrame.opened
    (h : SuspendedFrame caller buffer.length init.frameInput.gasLimit output)
    (hmemory : init.memory = ⟨buffer.length, none⟩)
    (hin : init.frameInput.InMemory caller.base caller.interpreter.gas.memory.wordsNum)
    (hopened : Opened init child) : ActiveFrame child buffer := by
  have hbase : child.base = buffer.length := by
    rw [base, hopened.memory, hmemory]
  have howns := h.owns buffer rfl
  have hend := h.base_eq
  refine ⟨hopened.unfinished, by rw [hopened.memory, hmemory], ?_, ?_⟩
  · intro range hrange hlt
    rw [hopened.input] at hrange
    cases hinput : init.frameInput with
    | create inputs =>
      rw [hinput] at hrange
      cases hrange
    | call inputs =>
      rw [hinput] at hrange hin
      have := (hin.1 range hrange hlt).2
      omega
  · rw [hopened.gas, hbase]
    -- the memory of the caller is paid for, so it leaves less gas to the child
    have hpaid := howns.paid
    have hroom := howns.room
    have hwords := three_mul_le_memoryGas howns.words
    refine .new rfl ?_
    dsimp only at hpaid hroom hwords
    omega

variable {s : Shared ε}

section Step

variable [Keccak256]

theorem frameStep_memory {frame : EthFrame} (h : ActiveFrame frame s.buffer) :
    (frameStep env frame s).Meets
      (fun r s' => s'.buffer.take frame.base = s.buffer.take frame.base ∧
        FrameMemory frame r s'.buffer) (fun _ _ => True) (· ≠ .memory) := by
  apply frameStep_meets
  refine ((Interpreter.step_memory env.toHostEnv h.input h.owns).and
    ((frame.interpreter.step_pays env.toHostEnv s).and
      (frame.interpreter.step_update env.toHostEnv s))).mono ?_ ?_ (fun _ he => he.1)
  · rintro _ _ ⟨⟨howns, htake⟩, -, pc, m, rfl⟩
    exact ⟨htake, h.unfinished, h.child, h.input, howns⟩
  · rintro action _ ⟨⟨htake, hmemory⟩, hpays, pc, m, rfl⟩
    cases action with
    | newFrame input =>
      obtain ⟨howns, hin⟩ := hmemory
      have hchild : (frame.interpreter.update pc m).1.memory.newChildContext m.buffer =
          some (⟨frame.base, some m.buffer.length⟩, ⟨m.buffer.length, none⟩) := by
        unfold SharedMemory.newChildContext Interpreter.update
        rw [h.child]
      apply Outcome.Meets.bind
      unfold EvmM.onBuffer
      dsimp only
      rw [show (frame.interpreter.update pc m).2.buffer = m.buffer from rfl, hchild]
      refine ⟨htake, ⟨h.unfinished, rfl, h.input, ?_, ?_⟩, rfl, hin⟩
      · exact h.suspend howns (hpays.mono input.gasLimit_lt_price.le)
      · intro range hrange hlt
        cases input with
        | create inputs => cases hrange
        | call inputs =>
          cases hrange
          exact hin.2 hlt
    | «return» r =>
      obtain ⟨hgas, hspends⟩ := hpays
      refine (processNextAction_return_gives env _ r _ trivial).mono ?_ (fun _ _ _ => trivial) ?_
      · rintro a s' ⟨-, hbuffer, result, rfl, hanswer⟩
        have hbuffer' : s'.buffer = m.buffer := hbuffer
        rw [hbuffer']
        refine ⟨htake, hmemory, hanswer.returnRange, ?_⟩
        have hle := hanswer.gas
        rw [hgas] at hle
        exact hle.trans (hspends.remaining.trans h.remaining_le)
      · rintro e rfl he
        cases he

end Step

/-! ## One step of the loop -/

/-- What one step of the loop does to the frames and the buffer: an instruction of the innermost
frame (with a call that gets its result at once), a new frame, or the end of a frame. -/
inductive MemoryStep (buffer buffer' : Buffer) : List EthFrame → List EthFrame → Prop where
  | stays {frame frame' : EthFrame} {rest : List EthFrame} (keeps : frame.Keeps frame')
      (take : buffer'.take frame.base = buffer.take frame.base) :
      MemoryStep buffer buffer' (frame :: rest) (frame' :: rest)
  | opens {frame frame' child : EthFrame} {rest : List EthFrame} (keeps : frame.Keeps frame')
      (take : buffer'.take frame.base = buffer.take frame.base) :
      MemoryStep buffer buffer' (frame :: rest) (child :: frame' :: rest)
  | closes {frame caller caller' : EthFrame} {rest : List EthFrame} (keeps : caller.Keeps caller')
      (take : buffer'.take caller.base = buffer.take caller.base) :
      MemoryStep buffer buffer' (frame :: caller :: rest) (caller' :: rest)

section Loop

/-- A caller that gets a result owns its memory again. -/
theorem returnResult_memory (hbelow : OwnedBelow base limit output (caller :: rest))
    {result : FrameResult} (hresult : result.returnRange = output)
    (hgas : result.interpreterResult.gas.remaining ≤ limit)
    (hbase : base ≤ s.buffer.length) : (returnResult caller result s).Meets
      (fun caller' s' => MemoryStack s'.buffer (caller' :: rest) ∧ caller.Keeps caller' ∧
        s'.buffer.take caller.base = s.buffer.take caller.base ∧
        caller'.memoryOf s'.buffer = result.patch (caller.memoryOf s.buffer))
      (fun _ _ => True) (· ≠ .memory) := by
  obtain ⟨hcaller, hrest⟩ := hbelow
  obtain ⟨written, hfree, hset, hlength, htake, hpatch⟩ := hcaller.take_result hbase hresult
  refine (returnResult_meets caller result s (fun _ _ _ => trivial) (by decide) (by decide)
    (.inr (by decide)) (.inl ⟨_, _, _, hfree, hset⟩)).mono_next ?_
  intro caller' s' h
  obtain ⟨buffer, hfree', hset'⟩ := h.memory
  rw [hfree, Option.some.injEq, Prod.mk.injEq] at hfree'
  obtain ⟨hmemory, rfl⟩ := hfree'
  rw [← hmemory, hset, Option.some.injEq] at hset'
  subst hset'
  have hkeeps := h.keeps
  have hactive : ActiveFrame caller' s'.buffer := by
    refine ⟨h.isFinished.trans hcaller.unfinished, by rw [← hmemory], ?_, ?_⟩
    · rw [hkeeps.input, hkeeps.base]
      exact hcaller.input
    · rw [hkeeps.base]
      refine (hcaller.owns s'.buffer hlength).spend h.memoryGas h.limit ?_
      have hreturned := result.returnedGas_le
      have hremaining := h.remaining
      dsimp only
      omega
  refine ⟨.intro hactive ?_, hkeeps, htake, ?_⟩
  · have hlimit : caller'.limit = caller.limit := h.limit
    rw [hkeeps.base, hkeeps.data, hlimit]
    exact hrest
  · rw [hactive.memoryOf, hkeeps.base, hpatch]

/-- What is below the child that is opened for `init`. -/
theorem OwnedBelow.opened {base : Nat} (hmemory : init.memory.myCheckpoint = base)
    (h : OwnedBelow base init.frameInput.gasLimit init.frameInput.returnRange (caller :: rest))
    (hopened : Opened init child) :
    OwnedBelow child.base child.limit child.data.returnRange (caller :: rest) := by
  rw [EthFrame.base, EthFrame.limit, hopened.memory, hopened.gas, hopened.returnRange, hmemory]
  exact h

variable [Keccak256]

/-- One step of the loop keeps the frames apart, and no access leaves the buffer. -/
theorem loopStep_memory (hbounded : env.precompiles.Bounded) {frames : List EthFrame}
    (h : MemoryStack s.buffer frames) : (loopStep env frames s).Meets
      (fun state s' => ∀ frames', state = .running frames' →
        MemoryStack s'.buffer frames' ∧ MemoryStep s.buffer s'.buffer frames frames')
      (fun _ _ => True) (· ≠ .memory) := by
  cases h with
  | @intro frame rest hactive hbelow =>
    apply loopStep_meets hactive.unfinished
    refine ((frameStep_memory hactive).and
      ((frameStep_keeps frame s).and (frameStep_pays env frame s))).mono ?_
      (fun _ _ h => h.1) (fun _ h => h.1)
    rintro ⟨answer, frame'⟩ s₁ ⟨⟨htake, hmemory⟩, hkeeps, hpays⟩
    match answer with
    | none =>
      rintro _ ⟨⟩
      refine ⟨.intro hmemory ?_, .stays hkeeps htake⟩
      rw [hkeeps.base, hkeeps.data, hpays.1.limit]
      exact hbelow
    | some (.item init) =>
      obtain ⟨hsuspended, hinit, hin⟩ := hmemory
      have hcaller : OwnedBelow s₁.buffer.length init.frameInput.gasLimit
          init.frameInput.returnRange (frame' :: rest) := by
        refine ⟨hsuspended, ?_⟩
        rw [hkeeps.base, hkeeps.data, hpays.1.limit]
        exact hbelow
      refine (frameInit_gives hbounded init s₁ trivial).mono ?_ (fun _ _ _ => trivial) ?_
      · rintro (child | result) s₂ ⟨-, hbuffer, hanswer⟩
        · have hbuffer' : s₂.buffer = s₁.buffer := hbuffer
          rintro _ ⟨⟩
          rw [hbuffer']
          refine ⟨.intro (hsuspended.opened hinit hin hanswer) ?_, .opens hkeeps htake⟩
          exact hcaller.opened (by rw [hinit]) hanswer
        · have hbuffer' : s₂.buffer = s₁.buffer := hbuffer
          refine (returnResult_memory hcaller hanswer.returnRange hanswer.gas
            (by rw [hbuffer'])).mono_next ?_
          rintro caller' s₃ ⟨hstack, hkeeps', htake', -⟩ _ ⟨⟩
          refine ⟨hstack, .stays (hkeeps.trans hkeeps') ?_⟩
          rw [hkeeps.base, hbuffer'] at htake'
          exact htake'.trans htake
      · rintro e rfl he
        cases he
    | some (.result result) =>
      obtain ⟨hbase, hrange, hgas⟩ := hmemory
      cases rest with
      | nil => exact fun _ hstate => by cases hstate
      | cons caller rest =>
        refine (returnResult_memory hbelow hrange hgas hbase).mono_next ?_
        rintro caller' s₂ ⟨hstack, hkeeps', htake', -⟩ _ ⟨⟩
        refine ⟨hstack, .closes hkeeps' (htake'.trans ?_)⟩
        exact Buffer.take_of_take htake hbelow.1.base_le

end Loop

/-! ## While a child is open -/

theorem MemoryStack.base_le
    (h : MemoryStack buffer (frame :: rest)) : ∀ caller ∈ rest, caller.base ≤ frame.base := by
  cases h with
  | intro _ hbelow => exact hbelow.base_le

/-- A step above a frame, or of the frame itself, keeps what is in front of the frame. -/
theorem MemoryStep.above {inner' : List EthFrame}
    {frame' : EthFrame} (hstack : MemoryStack buffer (inner ++ frame :: callers))
    (h : MemoryStep buffer buffer' (inner ++ frame :: callers) (inner' ++ frame' :: callers)) :
    frame.Keeps frame' ∧ buffer'.take frame.base = buffer.take frame.base := by
  generalize hframes : inner ++ frame :: callers = frames at h hstack
  generalize hframes' : inner' ++ frame' :: callers = frames' at h
  cases h with
  | @stays top top' rest keeps take =>
    cases inner with
    | nil =>
      cases hframes
      obtain ⟨-, rfl⟩ := callers_inj [] hframes'
      exact ⟨keeps, take⟩
    | cons top₀ inner =>
      cases hframes
      obtain ⟨-, rfl⟩ := callers_inj (top' :: inner) hframes'
      exact ⟨.refl _, Buffer.take_of_take take (hstack.base_le _ (by simp))⟩
  | @opens top top' child rest keeps take =>
    cases inner with
    | nil =>
      cases hframes
      obtain ⟨-, rfl⟩ := callers_inj [child] hframes'
      exact ⟨keeps, take⟩
    | cons top₀ inner =>
      cases hframes
      obtain ⟨-, rfl⟩ := callers_inj (child :: top' :: inner) hframes'
      exact ⟨.refl _, Buffer.take_of_take take (hstack.base_le _ (by simp))⟩
  | @closes top caller caller' rest keeps take =>
    cases inner with
    | nil =>
      -- the frame itself would have ended
      cases hframes
      have hlength := congrArg length hframes'
      simp only [length_append, length_cons] at hlength
      omega
    | cons top₀ inner =>
      cases inner with
      | nil =>
        cases hframes
        obtain ⟨-, rfl⟩ := callers_inj [] hframes'
        exact ⟨keeps, take⟩
      | cons caller₀ inner =>
        cases hframes
        obtain ⟨-, rfl⟩ := callers_inj (caller' :: inner) hframes'
        cases hstack with
        | intro _ hbelow =>
          exact ⟨.refl _, Buffer.take_of_take take (hbelow.2.base_le _ (by simp))⟩

section Above

variable [Keccak256]

/-- While a frame is open, nothing in front of it changes. -/
theorem RunAbove.memory (hbounded : env.precompiles.Bounded) {s s' : Shared ε}
    (hstack : MemoryStack s.buffer (child :: callers))
    (h : RunAbove env callers child s inner child' s') :
    MemoryStack s'.buffer (inner ++ child' :: callers) ∧ child.Keeps child' ∧
      s'.buffer.take child.base = s.buffer.take child.base := by
  induction h with
  | start => exact ⟨hstack, .refl _, rfl⟩
  | step _ hstep ih =>
    obtain ⟨hstack', hkeeps, htake⟩ := ih
    obtain ⟨hstack'', hmemory⟩ := (loopStep_memory hbounded hstack').next hstep _ rfl
    obtain ⟨hkeeps', htake'⟩ := hmemory.above hstack'
    rw [hkeeps.base] at htake'
    exact ⟨hstack'', hkeeps.trans hkeeps', htake'.trans htake⟩

end Above

/-! ## Calls -/

/-- The bytes of a range of the shared buffer, read from the memory of the frame. -/
def EthFrame.slice (frame : EthFrame) (buffer : Buffer) (range : ByteRange) : List UInt8 :=
  ((frame.memoryOf buffer).drop (range.start - frame.base)).take range.len

/-- The environment in which `data` is the input of the precompiled contracts. -/
def EvmEnv.withPrecompileInput (env : EvmEnv ε) (data : List UInt8) : EvmEnv ε :=
  { env with precompiles := ⟨fun host inputs _ => env.precompiles.run host inputs data⟩ }

/-- The caller goes on with the memory that it had when it called, up to the output. The callers
below have the memory that they had. -/
def HandsOver (result : FrameResult) (caller : EthFrame) (rest : List EthFrame)
    (s : Shared ε) (state : LoopState) (s' : Shared ε) : Prop :=
  ∃ caller', state = .running (caller' :: rest) ∧
    caller'.memoryOf s'.buffer = result.patch (caller.memoryOf s.buffer) ∧
    ∀ frame ∈ rest, frame.memoryOf s'.buffer = frame.memoryOf s.buffer

/-- The calldata of a call is the slice of the memory of its caller. -/
theorem SuspendedFrame.calldata {limit : Nat} (h : SuspendedFrame caller buffer.length limit output)
    {input : FrameInput} (hin : input.InMemory caller.base caller.interpreter.gas.memory.wordsNum)
    {range : ByteRange} (hrange : input.calldata = .sharedBuffer range) :
    caller.slice buffer range = range.bytes buffer ∧
      input.calldata.read buffer = caller.slice buffer range := by
  have hend := h.base_eq
  have hlt : range.start < range.stop → caller.base ≤ range.start ∧ range.stop ≤ buffer.length := by
    intro hlt
    cases input with
    | create inputs => cases hrange
    | call inputs => exact ⟨(hin.1 range hrange hlt).1, hend ▸ (hin.1 range hrange hlt).2⟩
  have hslice : caller.slice buffer range = range.bytes buffer := by
    unfold slice ByteRange.bytes
    rw [h.memoryOf, take_length, drop_drop]
    by_cases hempty : range.len = 0
    · rw [hempty, take_zero, take_zero]
    · have hstart := (hlt (by unfold ByteRange.len at hempty; omega)).1
      rw [Nat.add_sub_cancel' hstart]
  refine ⟨hslice, ?_⟩
  rw [hslice, hrange]
  unfold CallInput.read ByteRange.bytes ByteRange.len
  dsimp only
  by_cases hempty : range.stop ≤ range.start
  · rw [Nat.sub_eq_zero_of_le hempty, take_zero]
    unfold Buffer.slice
    split_ifs with hin'
    · rw [Nat.sub_eq_zero_of_le hempty, take_zero]
      rfl
    · rfl
  · rw [Buffer.slice_eq_some (by omega) (hlt (by omega)).2]
    rfl

/-- The end of a call: nothing in front of the child has changed since the time of the call. -/
theorem returnResult_handsOver
    (hbelow : OwnedBelow base limit output (caller :: rest)) (hresult : result.returnRange = output)
    (hgas : result.interpreterResult.gas.remaining ≤ limit) {s s₁ : Shared ε}
    (hbase : base ≤ s₁.buffer.length) (htake : s₁.buffer.take base = s.buffer.take base) :
    (returnResult caller result s₁).Meets
      (fun caller' s₂ => HandsOver result caller rest s (.running (caller' :: rest)) s₂)
      (fun _ _ => True) (· ≠ .memory) := by
  refine (returnResult_memory hbelow hresult hgas hbase).mono_next ?_
  rintro caller' s₂ ⟨-, -, htake', hpatch⟩
  have hmemory := hbelow.memoryOf_congr htake
  refine ⟨caller', rfl, ?_, ?_⟩
  · rw [hpatch, hmemory caller mem_cons_self]
  · intro frame hframe
    rw [hbelow.2.memoryOf_congr htake' frame hframe, hmemory frame (mem_cons_of_mem _ hframe)]

section Precompile

/-- A precompiled contract reads its input from the buffer that the call has found. -/
theorem makeCallFrame_precompile (env : EvmEnv ε) (depth : Nat) (memory : SharedMemory)
    (inputs : CallInputs)
    (h : inputs.input.read s.buffer = data) : makeCallFrame env depth memory inputs s =
      makeCallFrame (env.withPrecompileInput data) depth memory inputs s := by
  unfold makeCallFrame
  split_ifs
  · rfl
  · refine Exec.bind_congr trivial EvmM.checkpoint_obeys ?_
    intro checkpoint s₁ _ hs₁
    refine Exec.bind_congr trivial (transferCallValue_obeys inputs) ?_
    intro error s₂ _ hs₂
    cases error with
    | some error => rfl
    | none =>
      have hbuffer : s₂.buffer = s.buffer := hs₂.trans hs₁
      have hrun : runPrecompile env inputs s₂ =
          runPrecompile (env.withPrecompileInput data) inputs s₂ := by
        unfold runPrecompile EvmEnv.withPrecompileInput
        rw [hbuffer, h]
      dsimp only
      rw [Exec.bind_apply, Exec.bind_apply, hrun]
      rfl

theorem frameInit_precompile [Keccak256] (env : EvmEnv ε) (init : FrameInit)
    (h : init.frameInput.calldata.read s.buffer = data) :
    frameInit env init s = frameInit (env.withPrecompileInput data) init s := by
  obtain ⟨depth, memory, frameInput⟩ := init
  cases frameInput with
  | call inputs => exact makeCallFrame_precompile env depth memory inputs h
  | create inputs => rfl

end Precompile

section Calls

variable [Keccak256]

/-- What holds while a child is open. Its caller has called it in the state `s`; `inner` are the
frames that it has opened itself, and `s'` is the state now. -/
structure ChildMemory (env : EvmEnv ε) (init : FrameInit) (caller : EthFrame)
    (rest : List EthFrame) (s : Shared ε) (inner : List EthFrame) (child : EthFrame)
    (s' : Shared ε) : Prop where
  /-- The callers have the memory that they had at the time of the call. -/
  callers : ∀ frame ∈ caller :: rest, frame.memoryOf s'.buffer = frame.memoryOf s.buffer
  /-- The instructions that read the calldata of the child read the slice of the caller at the time
  of the call. -/
  calldata : inner = [] → ∀ range, init.frameInput.calldata = .sharedBuffer range →
    ∀ opcode ∈ calldataOpcodes, ∀ pc,
      Interpreter.fetchExecute (child.interpreter.context env.toHostEnv pc) opcode
          (child.interpreter.machine s') =
        Interpreter.fetchExecute
          ((child.interpreter.context env.toHostEnv pc).withCalldata (caller.slice s.buffer range))
          opcode (child.interpreter.machine s')
  /-- The end of the child. -/
  returned : inner = [] → ∀ result child' s₁,
    frameStep env child s' = .next (some (.result result), child') s₁ →
      result.returnRange = init.frameInput.returnRange ∧
      ∀ state s₂, loopStep env (child :: caller :: rest) s' = .next state s₂ →
        HandsOver result caller rest s state s₂

/-- What holds of a call. The innermost frame has asked for `init` in the state `s`; it is `caller`
now, in the state `s₁`. -/
structure CallMemory (env : EvmEnv ε) (frame : EthFrame) (rest : List EthFrame) (s : Shared ε)
    (init : FrameInit) (caller : EthFrame) (s₁ : Shared ε) : Prop where
  /-- A precompiled contract gets the slice of the caller. -/
  precompile : ∀ range, init.frameInput.calldata = .sharedBuffer range →
    frameInit env init s₁ =
      frameInit (env.withPrecompileInput (caller.slice s₁.buffer range)) init s₁
  /-- A call that gets its result without a frame. -/
  refused : ∀ result s₂, frameInit env init s₁ = .next (.result result) s₂ →
    result.returnRange = init.frameInput.returnRange ∧
    ∀ state s₃, loopStep env (frame :: rest) s = .next state s₃ →
      HandsOver result caller rest s₁ state s₃
  /-- A call that opens a frame. -/
  opened : ∀ child s₂, frameInit env init s₁ = .next (.item child) s₂ →
    loopStep env (frame :: rest) s = .next (.running (child :: caller :: rest)) s₂ ∧
    child.memoryOf s₂.buffer = [] ∧
    ∀ inner child' s', RunAbove env (caller :: rest) child s₂ inner child' s' →
      ChildMemory env init caller rest s₁ inner child' s'

/-- The frames over the shared buffer are isolated. -/
structure MemoryIsolated (env : EvmEnv ε) (frames : List EthFrame) (s : Shared ε) : Prop where
  /-- No access of the next step leaves the buffer. -/
  in_bounds : loopStep env frames s ≠ .fault .memory
  call : ∀ frame rest, frames = frame :: rest → ∀ init caller s₁,
    frameStep env frame s = .next (some (.item init), caller) s₁ →
      CallMemory env frame rest s init caller s₁

/-- A child that is open, from its first instruction on. -/
theorem ChildMemory.of_run (hbounded : env.precompiles.Bounded) {s s₂ s' : Shared ε}
    (hbuffer : s₂.buffer = s.buffer) (hstack : MemoryStack s₂.buffer (child :: caller :: rest))
    (hopened : Opened init child)
    (hcalldata : ∀ range, init.frameInput.calldata = .sharedBuffer range →
      caller.slice s.buffer range = range.bytes s.buffer)
    (h : RunAbove env (caller :: rest) child s₂ inner child' s') :
    ChildMemory env init caller rest s inner child' s' := by
  obtain ⟨hstack', hkeeps, htake⟩ := h.memory hbounded hstack
  rw [hbuffer] at htake
  refine ⟨?_, ?_, ?_⟩
  · cases hstack with
    | intro _ hbelow => exact hbelow.memoryOf_congr htake
  · rintro rfl range hrange opcode hopcode pc
    cases hstack' with
    | intro hactive _ =>
      have hinput : child'.interpreter.input.input = .sharedBuffer range := by
        rw [hkeeps.input, hopened.input, hrange]
      have hfront := hactive.input range hinput
      refine fetchExecute_calldata ⟨hinput, hfront, hactive.owns, ?_⟩ hopcode
      rw [hcalldata range hrange]
      rw [hkeeps.base] at hfront
      exact ByteRange.bytes_congr hfront htake
  · rintro rfl result child'' s₁ hstep
    cases hstack' with
    | intro hactive hbelow =>
      obtain ⟨htake₁, hbase, hrange, hgas⟩ := (frameStep_memory hactive).next hstep
      refine ⟨?_, ?_⟩
      · rw [hrange, hkeeps.data, hopened.returnRange]
      · intro state s₃ hloop
        rw [hkeeps.base] at htake₁
        have hhands := returnResult_handsOver (s := s) hbelow hrange hgas hbase
          (by rw [hkeeps.base]; exact htake₁.trans htake)
        have hmeets : (loopStep env (child' :: caller :: rest) s').Meets
            (HandsOver result caller rest s) (fun _ _ => True) (· ≠ .memory) := by
          apply loopStep_meets hactive.unfinished
          rw [hstep]
          exact hhands
        exact hmeets.next hloop

/-- A call of the innermost frame. -/
theorem MemoryStack.call (hbounded : env.precompiles.Bounded) {frame caller : EthFrame}
    {s s₁ : Shared ε} (h : MemoryStack s.buffer (frame :: rest))
    (hstep : frameStep env frame s = .next (some (.item init), caller) s₁) :
    CallMemory env frame rest s init caller s₁ := by
  cases h with
  | intro hactive hbelow =>
    obtain ⟨-, hsuspended, hinit, hin⟩ := (frameStep_memory hactive).next hstep
    have hkeeps := (frameStep_keeps frame s).next hstep
    have hlimit := ((frameStep_pays env frame s).next hstep).1.limit
    have hcalldata : ∀ range, init.frameInput.calldata = .sharedBuffer range →
        caller.slice s₁.buffer range = range.bytes s₁.buffer ∧
          init.frameInput.calldata.read s₁.buffer = caller.slice s₁.buffer range :=
      fun _ hrange => hsuspended.calldata hin hrange
    have hcaller : OwnedBelow s₁.buffer.length init.frameInput.gasLimit
        init.frameInput.returnRange (caller :: rest) := by
      refine ⟨hsuspended, ?_⟩
      rw [hkeeps.base, hkeeps.data, hlimit]
      exact hbelow
    refine ⟨?_, ?_, ?_⟩
    · intro range hrange
      exact frameInit_precompile env init (hcalldata range hrange).2
    · intro result s₂ hrefused
      obtain ⟨-, hbuffer, hanswer⟩ := (frameInit_gives hbounded init s₁ trivial).next hrefused
      have hbuffer' : s₂.buffer = s₁.buffer := hbuffer
      refine ⟨hanswer.returnRange, ?_⟩
      intro state s₃ hloop
      have hhands := returnResult_handsOver (s := s₁) hcaller hanswer.returnRange
        hanswer.gas (by rw [hbuffer']) (by rw [hbuffer'])
      have hmeets : (loopStep env (frame :: rest) s).Meets
          (HandsOver result caller rest s₁) (fun _ _ => True) (· ≠ .memory) := by
        apply loopStep_meets hactive.unfinished
        rw [hstep]
        dsimp only [Outcome.Meets, AfterStep]
        rw [hrefused]
        exact hhands
      exact hmeets.next hloop
    · intro child s₂ hopened
      obtain ⟨-, hbuffer, hanswer⟩ := (frameInit_gives hbounded init s₁ trivial).next hopened
      have hbuffer' : s₂.buffer = s₁.buffer := hbuffer
      have hchild : ActiveFrame child s₂.buffer := by
        rw [hbuffer']
        exact hsuspended.opened hinit hin hanswer
      have hstack : MemoryStack s₂.buffer (child :: caller :: rest) :=
        .intro hchild (hcaller.opened (by rw [hinit]) hanswer)
      refine ⟨?_, ?_, ?_⟩
      · dsimp only [loopStep]
        rw [Exec.bind_apply, hstep]
        dsimp only
        rw [Exec.bind_apply, hopened]
        rfl
      · rw [hchild.memoryOf, base, hanswer.memory, hinit, hbuffer']
        exact drop_length
      · intro inner child' s' hrun
        exact .of_run hbounded hbuffer' hstack hanswer
          (fun range hrange => (hcalldata range hrange).1) hrun

end Calls

/-! ## Runs -/

theorem createInitFrame_calldata (tx : TxEnv) (code : Option (Bytecode × B256)) (gasLimit : Nat) :
    ∃ data, (createInitFrame tx code gasLimit).calldata = .bytes data := by
  unfold createInitFrame
  cases tx.kind with
  | call target => exact ⟨_, rfl⟩
  | create => exact ⟨_, rfl⟩

theorem createInitFrame_gasLimit (tx : TxEnv) (code : Option (Bytecode × B256)) (gasLimit : Nat) :
    (createInitFrame tx code gasLimit).gasLimit = gasLimit := by
  unfold createInitFrame
  cases tx.kind with
  | call target => rfl
  | create => rfl

/-- The first frame owns the whole buffer. -/
theorem ActiveFrame.first (hopened : Opened init frame) (hmemory : init.memory = .new)
    (hcalldata : init.frameInput.calldata = .bytes data)
    (hgas : init.frameInput.gasLimit < memoryGasBound) : ActiveFrame frame [] := by
  have hbase : frame.base = 0 := by
    rw [base, hopened.memory, hmemory]
    rfl
  refine ⟨hopened.unfinished, by rw [hopened.memory, hmemory]; rfl, ?_, ?_⟩
  · intro range hrange
    rw [hopened.input, hcalldata] at hrange
    cases hrange
  · rw [hopened.gas, hbase]
    exact .new rfl (by omega)

section Run

variable [Keccak256]

theorem ExecRun.memoryStack (hbounded : env.precompiles.Bounded) {s₀ : Shared ε}
    (hmemory : init.memory = .new) (hcalldata : init.frameInput.calldata = .bytes data)
    (hgas : init.frameInput.gasLimit < memoryGasBound) (hbuffer : s₀.buffer = []) {i f : Nat}
    {state : LoopState} (h : ExecRun env init s₀ i f state s) :
    ∀ frames, state = .running frames → MemoryStack s.buffer frames := by
  induction h with
  | opened hinit =>
    rintro _ ⟨⟩
    obtain ⟨-, hstep, hopened⟩ := (frameInit_gives hbounded init s₀ trivial).next hinit
    refine .intro ?_ trivial
    rw [hstep, hbuffer]
    exact .first hopened hmemory hcalldata hgas
  | refused hinit => exact fun _ hstate => by cases hstate
  | step _ hstep ih =>
    intro frames hstate
    exact ((loopStep_memory hbounded (ih _ rfl)).next hstep frames hstate).1

/-- In every state of a run of a transaction whose gas is below the bound, the frames over the
shared buffer are isolated. -/
theorem execRun_memoryIsolated (hbounded : env.precompiles.Bounded) (tx : TxEnv)
    (code : Option (Bytecode × B256)) {gasLimit : Nat} (hgas : gasLimit < memoryGasBound)
    {s₀ : Shared ε} (hbuffer : s₀.buffer = []) {i f : Nat} {frames : List EthFrame} {s : Shared ε}
    (h : ExecRun env ⟨0, .new, createInitFrame tx code gasLimit⟩ s₀ i f (.running frames) s) :
    MemoryIsolated env frames s := by
  obtain ⟨data, hcalldata⟩ := createInitFrame_calldata tx code gasLimit
  have hlimit : (createInitFrame tx code gasLimit).gasLimit < memoryGasBound := by
    rw [createInitFrame_gasLimit]
    exact hgas
  have hstack := h.memoryStack hbounded rfl hcalldata hlimit hbuffer frames rfl
  refine ⟨(loopStep_memory hbounded hstack).ne_fault fun he => he rfl, ?_⟩
  rintro frame rest rfl init caller s₁ hstep
  exact hstack.call hbounded hstep

end Run

/-- A creation whose init code writes `PUSH8 0xffffffffffffffff MLOAD` to its memory and runs it as
the init code of another creation. -/
def nestedCreation : TxEnv :=
  { TxEnv.default with
    caller := 5
    kind := .create
    data :=
      [0x69, 0x67, 0xff, 0xff, 0xff, 0xff, 0xff, 0xff, 0xff, 0xff, 0x51, 0x5f, 0x52,
        0x60, 10, 0x60, 22, 0x5f, 0xf0] }

/-- With little gas the inner creation runs above the memory of the outer one. -/
theorem execRun_memoryIsolated_nestedCreation : letI := lengthKeccak
    let env : EvmEnv Empty := .default contractDb .prague
    let s₀ : Shared Empty := ⟨[], ⟨.new .prague .new, none⟩⟩
    100000 < memoryGasBound ∧
      ∃ i f frames s,
        ExecRun env ⟨0, .new, createInitFrame nestedCreation none 100000⟩ s₀ i f
          (.running frames) s ∧
        frames.length = 2 ∧ MemoryIsolated env frames s := by
  let := lengthKeccak
  intro env s₀
  have hbounded : env.precompiles.Bounded := ethPrecompiles_bounded fun _ => none
  have hrun : openFrames (runExecLoop env 7
      ⟨0, .new, createInitFrame nestedCreation none 100000⟩ s₀) = some 2 := by decide +kernel
  obtain ⟨i, f, frames, s, h, hlength⟩ := ExecRun.exists_running hrun
  refine ⟨by decide, i, f, frames, s, h, hlength, ?_⟩
  exact execRun_memoryIsolated hbounded nestedCreation none (by decide) rfl h

/-- With enough gas the end of the memory of the inner creation leaves the range of `usize`. -/
theorem execRun_memory_leaves_range : letI := lengthKeccak
    let env : EvmEnv Empty := .default contractDb .prague
    let s₀ : Shared Empty := ⟨[], ⟨.new .prague .new, none⟩⟩
    ∃ i f frames s,
      ExecRun env ⟨0, .new, createInitFrame nestedCreation none (2 ^ 61)⟩ s₀ i f
        (.running frames) s ∧
      loopStep env frames s = .fault .memory := by
  let := lengthKeccak
  intro env s₀
  have hbounded : env.precompiles.Bounded := ethPrecompiles_bounded fun _ => none
  have hrun : finalFault (runExecLoop env 9
      ⟨0, .new, createInitFrame nestedCreation none (2 ^ 61)⟩ s₀) = some .memory := by
    decide +kernel
  exact ExecRun.exists_fault hbounded (by decide) hrun

end Revm
