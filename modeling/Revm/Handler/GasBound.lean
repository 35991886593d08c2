import Revm.Handler.FrameRun
import Revm.Journal.Nested

/-!
# Execution is bounded by gas

The gas of the first frame bounds the whole run of `run_exec_loop`. The measure is the gas that
remains in all open frames together: an instruction that does not end its frame lowers it, a new
frame gets less than its caller has paid, and a caller gets back at most what remains in the frame
that ends.
-/

set_option autoImplicit false

namespace Revm

variable {ε : Type} {depth : Nat} {frames : List EthFrame} {result : FrameResult}
  {rest : List EthFrame} {init : FrameInit} {env : EvmEnv ε}

/-! ## One instruction -/

namespace EthFrame

/-- `interpreter.gas.remaining()`. -/
abbrev remaining (frame : EthFrame) : Nat := frame.interpreter.gas.remaining

/-- `interpreter.gas.limit()`. -/
abbrev limit (frame : EthFrame) : Nat := frame.interpreter.gas.limit

/-- The two frames are the same up to what an instruction changes. -/
structure SameFrame (frame frame' : EthFrame) : Prop where
  depth : frame'.depth = frame.depth
  limit : frame'.limit = frame.limit
  unfinished : frame'.isFinished = frame.isFinished

end EthFrame

/-- What one instruction of a frame takes from its gas. -/
def FramePays (frame : EthFrame) : Option (ItemOrResult FrameInit FrameResult) × EthFrame → Prop
  | (none, frame') => frame.SameFrame frame' ∧ frame'.remaining + 1 ≤ frame.remaining
  | (some (.item init), frame') =>
      frame.SameFrame frame' ∧ init.depth = frame.depth + 1 ∧
        frame'.remaining + init.frameInput.price ≤ frame.remaining
  | (some (.result result), _) => result.interpreterResult.gas.remaining ≤ frame.remaining

section Step

variable [Keccak256]

theorem frameStep_pays (env : EvmEnv ε) (frame : EthFrame) (s : Shared ε) :
    (frameStep env frame s).Meets (fun r _ => FramePays frame r) (fun _ _ => True) (· ≠ .gas) := by
  apply frameStep_meets
  refine (frame.interpreter.step_pays env.toHostEnv s).mono ?_ ?_ (fun _ h => h)
  · rintro _ r ⟨hlimit, hpays⟩
    exact ⟨⟨rfl, hlimit, rfl⟩, hpays⟩
  · intro action r hstop
    cases action with
    | newFrame input =>
      obtain ⟨hlimit, hpays⟩ := hstop
      apply Outcome.Meets.bind
      unfold EvmM.onBuffer
      dsimp only
      cases r.1.memory.newChildContext r.2.buffer with
      | none => exact fun he => by cases he
      | some m => exact ⟨⟨rfl, hlimit, rfl⟩, rfl, hpays⟩
    | «return» result =>
      obtain ⟨hgas, hlimit, hpays⟩ := hstop
      refine (processNextAction_return_gives env _ result r.2 trivial).mono ?_
        (fun _ _ _ => trivial) ?_
      · rintro a s' ⟨-, -, answer, rfl, hanswer⟩
        have hle := hanswer.gas
        rw [hgas] at hle
        exact hle.trans hpays
      · rintro e rfl he
        cases he

end Step

/-! ## The stack of frames -/

/-- The frames below a frame with this depth and gas limit: each of them has paid for the frame
above it. The gas limit of the first frame is `gas`. -/
def PaidBelow (gas : Nat) : Nat → Nat → List EthFrame → Prop
  | depth, limit, [] => depth = 0 ∧ limit = gas
  | depth, limit, caller :: rest =>
      caller.isFinished = false ∧ caller.depth + 1 = depth ∧
        caller.remaining + limit ≤ caller.limit ∧ PaidBelow gas caller.depth caller.limit rest

/-- The open frames, the innermost first. -/
inductive PaidStack (gas : Nat) : List EthFrame → Prop where
  | intro {frame : EthFrame} {rest : List EthFrame} (unfinished : frame.isFinished = false)
      (depth_le : frame.depth ≤ callStackLimit) (remaining_le : frame.remaining ≤ frame.limit)
      (below : PaidBelow gas frame.depth frame.limit rest) : PaidStack gas (frame :: rest)

/-- The gas that remains in all open frames. -/
def totalRemaining (frames : List EthFrame) : Nat := (frames.map (·.remaining)).sum

theorem totalRemaining_cons (frame : EthFrame) (rest : List EthFrame) :
    totalRemaining (frame :: rest) = frame.remaining + totalRemaining rest := rfl

variable {limit : Nat}

namespace PaidBelow

variable {gas : Nat}

section

variable (h : PaidBelow gas depth limit rest)

include h

theorem length_eq : rest.length = depth := by
  induction rest generalizing depth limit with
  | nil => exact h.1.symm
  | cons caller rest ih =>
    obtain ⟨-, hdepth, -, hbelow⟩ := h
    rw [List.length_cons, ih hbelow, hdepth]

theorem limit_le : limit ≤ gas := by
  induction rest generalizing depth limit with
  | nil => exact h.2.le
  | cons caller rest ih =>
    obtain ⟨-, -, hpaid, hbelow⟩ := h
    have := ih hbelow
    omega

theorem frame_le : ∀ frame ∈ rest, frame.remaining ≤ frame.limit ∧ frame.limit ≤ gas := by
  induction rest generalizing depth limit with
  | nil => exact fun _ hmem => by cases hmem
  | cons caller rest ih =>
    obtain ⟨-, -, hpaid, hbelow⟩ := h
    intro frame hmem
    rcases List.mem_cons.1 hmem with rfl | hmem
    · exact ⟨by omega, hbelow.limit_le⟩
    · exact ih hbelow frame hmem

end

end PaidBelow

theorem PaidStack.isChain {gas : Nat} (h : PaidStack gas frames) :
    frames.IsChain fun child caller => caller.remaining + child.limit ≤ caller.limit := by
  cases h with
  | @intro frame rest _ _ _ hbelow =>
    clear * - hbelow
    induction rest generalizing frame with
    | nil => exact .singleton _
    | cons caller rest ih =>
      obtain ⟨-, -, hpaid, hrest⟩ := hbelow
      exact .cons_cons hpaid (ih hrest)

/-- The counters of a run: the executed instructions and the opened frames are paid for. -/
structure Counted (gas i f : Nat) (remaining openFrames : Nat) : Prop where
  instructions : i + remaining + openFrames ≤ gas + f
  frames : f + remaining ≤ gas + 1

namespace Counted

variable {gas i f remaining remaining' n : Nat}

/-- An instruction that takes gas. -/
theorem paid (h : Counted gas i f remaining n) (hpaid : remaining' + 1 ≤ remaining) :
    Counted gas (i + 1) f remaining' n := by
  obtain ⟨hi, hf⟩ := h
  exact ⟨by omega, by omega⟩

/-- An instruction that takes gas and opens a frame. -/
theorem opened (h : Counted gas i f remaining n) (hpaid : remaining' + 1 ≤ remaining) :
    Counted gas (i + 1) (f + 1) remaining' (n + 1) := by
  obtain ⟨hi, hf⟩ := h
  exact ⟨by omega, by omega⟩

/-- An instruction that ends a frame. -/
theorem closed (h : Counted gas i f remaining (n + 1)) (hle : remaining' ≤ remaining) :
    Counted gas (i + 1) f remaining' n := by
  obtain ⟨hi, hf⟩ := h
  exact ⟨by omega, by omega⟩

end Counted

/-- The invariant of a run. -/
def GasInv (gas i f : Nat) : LoopState → Prop
  | .running frames =>
      PaidStack gas frames ∧ Counted gas i f (totalRemaining frames) frames.length
  | .done result =>
      result.interpreterResult.gas.remaining ≤ gas ∧
        Counted gas i f result.interpreterResult.gas.remaining 0

/-! ## One step of the loop -/

section Loop

variable {gas i f : Nat}

/-- A caller that gets a result goes on, with at most the gas it has paid for the call. -/
theorem returnResult_pays {caller : EthFrame} (hgas : gas ≤ u64Max)
    (hbelow : PaidBelow gas depth limit (caller :: rest)) (hdepth : depth ≤ callStackLimit + 1)
    (hresult : result.interpreterResult.gas.remaining ≤ limit) (s : Shared ε) :
    (returnResult caller result s).Meets
      (fun caller' _ => PaidStack gas (caller' :: rest) ∧
        caller'.remaining ≤ caller.remaining + result.interpreterResult.gas.remaining)
      (fun _ _ => True) (· ≠ .gas) := by
  obtain ⟨hunfinished, hcaller, hpaid, hrest⟩ := hbelow
  have hreturned := result.returnedGas_le
  have hlimit := hrest.limit_le
  have hfits : caller.remaining + result.returnedGas ≤ u64Max := by omega
  refine (returnResult_meets caller result s (fun _ _ _ => trivial) (by decide) (by decide)
    (.inl hfits) (.inr (by decide))).mono_next ?_
  intro caller' s' h
  have hremaining : caller'.remaining = caller.remaining + result.returnedGas := h.remaining
  have hsame : caller'.limit = caller.limit := h.limit
  refine ⟨.intro (h.isFinished.trans hunfinished) ?_ (by omega) ?_, by omega⟩
  · rw [h.depth]
    omega
  · rw [h.depth, hsame]
    exact hrest

variable [Keccak256]

/-- What `loopStep` has to show after the instruction of the innermost frame. -/
abbrev AfterPays (env : EvmEnv ε) (gas i f : Nat) (frames rest : List EthFrame) :=
  AfterStep env rest (fun state _ => GasInv gas (i + 1) (f + state.opened frames) state)
    (fun _ _ => True) (· ≠ .gas)

variable {frame frame' : EthFrame} {s : Shared ε}

theorem afterPays_continue (hstack : PaidStack gas (frame :: rest))
    (hcount : Counted gas i f (totalRemaining (frame :: rest)) (frame :: rest).length)
    (hpays : FramePays frame (none, frame')) :
    AfterPays env gas i f (frame :: rest) rest (none, frame') s := by
  cases hstack with
  | intro hunfinished hdepth hle hbelow =>
    obtain ⟨hsame, hcost⟩ := hpays
    refine ⟨.intro (hsame.unfinished.trans hunfinished) ?_ ?_ ?_, ?_⟩
    · rw [hsame.depth]
      exact hdepth
    · rw [hsame.limit]
      omega
    · rw [hsame.depth, hsame.limit]
      exact hbelow
    · have hopened : (LoopState.running (frame' :: rest)).opened (frame :: rest) = 0 :=
        Nat.sub_self _
      rw [hopened]
      refine hcount.paid ?_
      rw [totalRemaining_cons, totalRemaining_cons]
      omega

/-- The new frame gets less gas than its caller has paid. A result without a frame does not bring
back more. -/
theorem afterPays_init (hbounded : env.precompiles.Bounded) (hgas : gas ≤ u64Max)
    (hstack : PaidStack gas (frame :: rest))
    (hcount : Counted gas i f (totalRemaining (frame :: rest)) (frame :: rest).length)
    (hpays : FramePays frame (some (.item init), frame')) :
    AfterPays env gas i f (frame :: rest) rest (some (.item init), frame') s := by
  cases hstack with
  | intro hunfinished hdepth hle hbelow =>
    obtain ⟨hsame, hinit, hcost⟩ := hpays
    have hprice := init.frameInput.gasLimit_lt_price
    have hcaller : PaidBelow gas init.depth init.frameInput.gasLimit (frame' :: rest) := by
      refine ⟨hsame.unfinished.trans hunfinished, by rw [hsame.depth, hinit],
        by rw [hsame.limit]; omega, ?_⟩
      rw [hsame.depth, hsame.limit]
      exact hbelow
    refine (frameInit_gives hbounded init s trivial).mono ?_ (fun _ _ _ => trivial) ?_
    · rintro (new | result) s₁ ⟨-, -, hanswer⟩
      · have hlimit : new.limit = init.frameInput.gasLimit := congrArg Gas.limit hanswer.gas
        have hremaining : new.remaining = init.frameInput.gasLimit :=
          congrArg Gas.remaining hanswer.gas
        refine ⟨.intro hanswer.unfinished ?_ (by omega) ?_, ?_⟩
        · rw [hanswer.depth]
          exact hanswer.depth_le
        · rw [hanswer.depth, hlimit]
          exact hcaller
        · have hopened : (LoopState.running (new :: frame' :: rest)).opened (frame :: rest) = 1 :=
            Nat.add_sub_cancel_left _ 1
          rw [hopened]
          refine hcount.opened ?_
          rw [totalRemaining_cons, totalRemaining_cons, totalRemaining_cons]
          omega
      · refine (returnResult_pays hgas hcaller (by omega) hanswer.gas s₁).mono_next ?_
        rintro caller' s₂ ⟨hstack', hback⟩
        have hanswerGas := hanswer.gas
        have hopened : (LoopState.running (caller' :: rest)).opened (frame :: rest) = 0 :=
          Nat.sub_self _
        refine ⟨hstack', ?_⟩
        rw [hopened]
        refine hcount.paid ?_
        rw [totalRemaining_cons, totalRemaining_cons]
        omega
    · rintro e rfl he
      cases he

theorem afterPays_result (hgas : gas ≤ u64Max) (hstack : PaidStack gas (frame :: rest))
    (hcount : Counted gas i f (totalRemaining (frame :: rest)) (frame :: rest).length)
    (hpays : FramePays frame (some (.result result), frame')) :
    AfterPays env gas i f (frame :: rest) rest (some (.result result), frame') s := by
  cases hstack with
  | intro hunfinished hdepth hle hbelow =>
    have hresult : result.interpreterResult.gas.remaining ≤ frame.remaining := hpays
    cases rest with
    | nil =>
      refine ⟨hresult.trans (hle.trans hbelow.limit_le), hcount.closed ?_⟩
      rw [totalRemaining_cons]
      omega
    | cons caller rest =>
      refine (returnResult_pays hgas hbelow (by omega) (hresult.trans hle) s).mono_next ?_
      rintro caller' s₁ ⟨hstack', hback⟩
      have hopened : (LoopState.running (caller' :: rest)).opened (frame :: caller :: rest) = 0 :=
        Nat.sub_eq_zero_of_le (Nat.le_succ _)
      refine ⟨hstack', ?_⟩
      rw [hopened]
      refine hcount.closed ?_
      rw [totalRemaining_cons, totalRemaining_cons, totalRemaining_cons]
      omega

/-- One step of the loop keeps the invariant, and no gas counter leaves its range. -/
theorem loopStep_pays (hbounded : env.precompiles.Bounded) (hgas : gas ≤ u64Max)
    (hinv : GasInv gas i f (.running frames)) (s : Shared ε) :
    (loopStep env frames s).Meets
      (fun state _ => GasInv gas (i + 1) (f + state.opened frames) state)
      (fun _ _ => True) (· ≠ .gas) := by
  obtain ⟨hstack, hcount⟩ := hinv
  cases hstack with
  | @intro frame rest hunfinished hdepth hle hbelow =>
    have hstack : PaidStack gas (frame :: rest) := .intro hunfinished hdepth hle hbelow
    apply loopStep_meets hunfinished
    refine (frameStep_pays env frame s).mono_next ?_
    rintro ⟨answer, frame'⟩ s₁ hpays
    match answer with
    | none => exact afterPays_continue hstack hcount hpays
    | some (.item init) => exact afterPays_init hbounded hgas hstack hcount hpays
    | some (.result result) => exact afterPays_result hgas hstack hcount hpays

end Loop

/-! ## Runs -/

/-- What holds before every instruction of a run over `gas`, with `i` executed instructions and `f`
opened frames. -/
structure GasBounded {ε : Type} [Keccak256] (env : EvmEnv ε) (gas i f : Nat)
    (frames : List EthFrame) (s : Shared ε) : Prop where
  /-- The remaining gas of every frame is at most its limit, so what is spent does not wrap. -/
  remaining_le : ∀ frame ∈ frames,
    frame.remaining ≤ frame.limit ∧ frame.limit ≤ gas ∧
      frame.interpreter.gas.spent = some (frame.limit - frame.remaining)
  /-- A caller can take back the whole gas limit of the frame above it. -/
  paid : frames.IsChain fun child caller => caller.remaining + child.limit ≤ caller.limit
  /-- No gas counter wraps in the next step of the loop. -/
  in_range : loopStep env frames s ≠ .fault .gas
  /-- An instruction after which the frame goes on costs at least one unit. -/
  cost : ∀ frame ∈ frames.head?, ∀ frame' s₁,
    frameStep env frame s = .next (none, frame') s₁ → frame'.remaining + 1 ≤ frame.remaining
  /-- An instruction that asks for a new frame costs at least one unit on top of the gas limit of
  that frame and of the price of the value; only the stipend is not paid separately. -/
  call_cost : ∀ frame ∈ frames.head?, ∀ init frame' s₁,
    frameStep env frame s = .next (some (.item init), frame') s₁ →
      frame'.remaining + init.frameInput.gasLimit + init.frameInput.valueCost + 1 ≤
        frame.remaining + init.frameInput.stipend
  /-- The new frame starts with its gas limit, and a call without a frame returns no more. -/
  given : ∀ frame ∈ frames.head?, ∀ init frame' s₁,
    frameStep env frame s = .next (some (.item init), frame') s₁ →
      (∀ child s₂, frameInit env init s₁ = .next (.item child) s₂ →
        child.limit = init.frameInput.gasLimit ∧ child.remaining = init.frameInput.gasLimit) ∧
      ∀ result s₂, frameInit env init s₁ = .next (.result result) s₂ →
        result.interpreterResult.gas.remaining ≤ init.frameInput.gasLimit
  /-- A frame that ends returns at most the gas limit that it has got. -/
  returned : ∀ frame ∈ frames.head?, ∀ result frame' s₁,
    frameStep env frame s = .next (some (.result result), frame') s₁ →
      result.interpreterResult.gas.remaining ≤ frame.limit
  /-- The next instruction is within the bound, and so is the number of frames. -/
  instructions : i + 1 ≤ gas + f
  opened : f ≤ gas + 1
  /-- The number of open frames. -/
  depth : frames.length ≤ 1025

section Run

variable [Keccak256] {s₀ : Shared ε}

theorem ExecRun.gasInv (hbounded : env.precompiles.Bounded) (hdepth : init.depth = 0)
    (hgas : init.frameInput.gasLimit ≤ u64Max) {i f : Nat} {state : LoopState} {s : Shared ε}
    (h : ExecRun env init s₀ i f state s) : GasInv init.frameInput.gasLimit i f state := by
  induction h with
  | opened hinit =>
    obtain ⟨-, -, hopened⟩ := (frameInit_gives hbounded init s₀ trivial).next hinit
    refine ⟨.intro hopened.unfinished ?_ ?_ ⟨?_, ?_⟩, ?_, ?_⟩
    · rw [hopened.depth]
      exact hopened.depth_le
    · rw [EthFrame.remaining, EthFrame.limit, hopened.gas]
      exact le_rfl
    · rw [hopened.depth, hdepth]
    · rw [EthFrame.limit, hopened.gas]
      rfl
    · rw [totalRemaining_cons, EthFrame.remaining, hopened.gas, Nat.zero_add]
      exact le_rfl
    · rw [totalRemaining_cons, EthFrame.remaining, hopened.gas]
      exact (Nat.add_comm _ _).le
  | refused hinit =>
    obtain ⟨-, -, hrefused⟩ := (frameInit_gives hbounded init s₀ trivial).next hinit
    have hle := hrefused.gas
    exact ⟨hle, by omega, by omega⟩
  | @step i f frames s s' state _ hstep ih => exact (loopStep_pays hbounded hgas ih s).next hstep

/-- Everything that is bounded before an instruction. -/
theorem GasInv.bounded (hbounded : env.precompiles.Bounded) {gas i f : Nat} (hgas : gas ≤ u64Max)
    (h : GasInv gas i f (.running frames)) (s : Shared ε) : GasBounded env gas i f frames s := by
  have hstep := loopStep_pays hbounded hgas h s
  obtain ⟨hstack, hcount, hopened⟩ := h
  have hchain := hstack.isChain
  cases hstack with
  | @intro frame rest hunfinished hdepth hle hbelow =>
    have hframes : ∀ frame' ∈ frame :: rest,
        frame'.remaining ≤ frame'.limit ∧ frame'.limit ≤ gas := by
      intro frame' hmem
      rcases List.mem_cons.1 hmem with rfl | hmem
      · exact ⟨hle, hbelow.limit_le⟩
      · exact hbelow.frame_le frame' hmem
    have hpays := frameStep_pays env frame s
    have hlength := hbelow.length_eq
    rw [List.length_cons] at hcount
    constructor
    · intro frame' hmem
      obtain ⟨hremaining, hlimit⟩ := hframes frame' hmem
      exact ⟨hremaining, hlimit, subU64_eq_some hremaining⟩
    · exact hchain
    · exact hstep.ne_fault (fun he => he rfl)
    · rintro _ ⟨⟩ frame' s₁ heq
      exact (hpays.next heq).2
    · rintro _ ⟨⟩ init frame' s₁ heq
      obtain ⟨-, -, hprice⟩ := hpays.next heq
      unfold FrameInput.price at hprice
      omega
    · rintro _ ⟨⟩ init frame' s₁ heq
      have hgives := frameInit_gives hbounded init s₁ trivial
      refine ⟨?_, ?_⟩
      · intro child s₂ hinit
        obtain ⟨-, -, hopen⟩ := hgives.next hinit
        exact ⟨congrArg Gas.limit hopen.gas, congrArg Gas.remaining hopen.gas⟩
      · intro result s₂ hinit
        obtain ⟨-, -, hrefused⟩ := hgives.next hinit
        exact hrefused.gas
    · rintro _ ⟨⟩ result frame' s₁ heq
      exact le_trans (hpays.next heq) hle
    · omega
    · omega
    · rw [List.length_cons, hlength]
      exact Nat.succ_le_succ hdepth

/-- Execution is bounded by gas: a run over `gas` ends after at most `2 * gas + 1` instructions, and
before every instruction all gas counters are in their range and the executed instructions are paid
for. A fault ends a run. -/
theorem runExecLoop_bounded_by_gas (env : EvmEnv ε) (hbounded : env.precompiles.Bounded)
    (init : FrameInit) (hdepth : init.depth = 0) (hgas : init.frameInput.gasLimit ≤ u64Max)
    (s₀ : Shared ε) : (∀ n, 2 * init.frameInput.gasLimit + 1 < n → ∀ frames s,
      runExecLoop env n init s₀ ≠ .next (.running frames) s) ∧
    (∀ i f frames s, ExecRun env init s₀ i f (.running frames) s →
      GasBounded env init.frameInput.gasLimit i f frames s) ∧
    ∀ i f result s, ExecRun env init s₀ i f (.done result) s →
      i ≤ init.frameInput.gasLimit + f ∧ f ≤ init.frameInput.gasLimit + 1 ∧
        result.interpreterResult.gas.remaining ≤ init.frameInput.gasLimit := by
  refine ⟨?_, ?_, ?_⟩
  · intro n hn frames s hrun
    obtain ⟨i, f, h, hcount⟩ := ExecRun.runExecLoop hrun
    have hi := hcount frames rfl
    obtain ⟨-, hcounted⟩ := h.gasInv hbounded hdepth hgas
    have hinstructions := hcounted.instructions
    have hframes := hcounted.frames
    omega
  · intro i f frames s h
    exact (h.gasInv hbounded hdepth hgas).bounded hbounded hgas s
  · intro i f result s h
    obtain ⟨hle, hcounted⟩ := h.gasInv hbounded hdepth hgas
    have hinstructions := hcounted.instructions
    have hframes := hcounted.frames
    exact ⟨by omega, by omega, hle⟩

end Run

/-- The first frame of a call with gas 12 to code that jumps back to its start forever. -/
def endlessLoop : FrameInit where
  depth := 0
  memory := .new
  frameInput := .call
    { input := .bytes []
      returnMemoryOffset := ⟨0, 0⟩
      gasLimit := 12
      bytecodeAddress := 1
      knownBytecode := some (0, .legacyAnalyzed [0x5b, 0x60, 0x00, 0x56])
      targetAddress := 1
      caller := 0
      value := .apparent 0
      scheme := .call
      isStatic := false }

/-- The endless loop runs out of gas. -/
theorem runExecLoop_bounded_by_gas_endlessLoop : letI := lengthKeccak
    let env : EvmEnv Empty := .default contractDb .prague
    let s₀ : Shared Empty := ⟨[], ⟨.new .prague .new, none⟩⟩
    env.precompiles.Bounded ∧
      (∀ n, 25 < n → ∀ frames s, runExecLoop env n endlessLoop s₀ ≠ .next (.running frames) s) ∧
      (finalResult (runExecLoop env 4 endlessLoop s₀)).map (·.interpreterResult.result) =
        some .outOfGas := by
  let := lengthKeccak
  intro env s₀
  have hbounded : env.precompiles.Bounded := ethPrecompiles_bounded fun _ => none
  refine ⟨hbounded, ?_, ?_⟩
  · exact (runExecLoop_bounded_by_gas env hbounded endlessLoop rfl (by decide) s₀).1
  · decide +kernel

end Revm
