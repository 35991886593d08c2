import Revm.Interpreter.Step

/-!
# The gas of a step

No instruction raises the remaining gas of its frame or changes its limit. An instruction after
which the frame goes on has taken at least one unit of gas, in its static price or in the part it
computes, and an instruction that asks for a new frame has in addition taken the gas limit of that
frame: the stipend of a call with value is part of the price of the value.
-/

set_option autoImplicit false

namespace Revm

open Prim GasConst Nat

variable {ε : Type} {gas'' : Gas} {n len : Nat} {w : Bool}

/-! ## Operations of the host -/

section Host

variable {α : Type}

/-- The computation changes nothing but the host. -/
def HostOnly (x : Instr ε α) : Prop :=
  ∀ s, (x s).Meets (fun _ s' => s' = { s with host := s'.host }) (fun _ _ => False) (· = .panic)

namespace Prim

variable (ctx : InstructionContext ε)

theorem hostOnly_ofJournal (r : Except (JournalLoadError ε) α × JournalInner) :
    HostOnly (ofJournal r) := by
  intro s
  obtain ⟨result, journal⟩ := r
  cases result with
  | ok a => exact rfl
  | error error =>
    cases error with
    | dbError e => exact rfl
    | coldLoadSkipped => exact rfl

/-- The answer of an operation of the journal that may panic. -/
theorem hostOnly_ofOption {x : Instr ε (Except LoadError α)}
    (r : Machine ε → Option (Except (JournalLoadError ε) α × JournalInner))
    (h : ∀ s, x s = (r s).elim (.fault .panic) fun r => ofJournal r s) : HostOnly x := by
  intro s
  rw [h]
  cases r s with
  | none => exact rfl
  | some r => exact hostOnly_ofJournal r s

variable (address : Address)

theorem hostOnly_loadAccountInfo (loadCode skipColdLoad : Bool) :
    HostOnly (loadAccountInfo ctx address loadCode skipColdLoad) := fun s =>
  hostOnly_ofJournal _ s

variable (key : StorageKey)

theorem hostOnly_sload (skipColdLoad : Bool) : HostOnly (sload ctx address key skipColdLoad) := by
  apply hostOnly_ofOption fun s => s.host.journal.sload ctx.env.db address key skipColdLoad
  intro s
  unfold sload
  cases s.host.journal.sload ctx.env.db address key skipColdLoad <;> rfl

theorem hostOnly_sstore (value : StorageValue)
    (skipColdLoad : Bool) : HostOnly (sstore ctx address key value skipColdLoad) := by
  apply hostOnly_ofOption fun s => s.host.journal.sstore ctx.env.db address key value skipColdLoad
  intro s
  unfold sstore
  cases s.host.journal.sstore ctx.env.db address key value skipColdLoad <;> rfl

theorem hostOnly_selfdestruct (address target : Address) :
    HostOnly (selfdestruct ctx address target) := by
  apply hostOnly_ofOption fun s => s.host.journal.selfdestruct ctx.env.db address target
  intro s
  unfold selfdestruct
  cases s.host.journal.selfdestruct ctx.env.db address target <;> rfl

theorem hostOnly_blockHash (number : Nat) : HostOnly (blockHash ctx number) := by
  intro s
  unfold blockHash
  cases ctx.env.blockHash number with
  | ok hash => exact rfl
  | error e => exact rfl

theorem hostOnly_tstore (value : StorageValue) :
    HostOnly (tstore address key value : Instr ε Unit) := fun _ => rfl

theorem hostOnly_log (entry : Log) : HostOnly (log entry : Instr ε Unit) := fun _ => rfl

end Prim

end Host

/-! ## Charges -/

section Charges

variable {α β : Type}
variable {gas gas' : Gas} {m : Nat} {x : Instr ε α}

/-- The gas counter of the second state is the one of the first with at least `cost` taken. What the
memory has cost in between is taken on top. -/
structure Gas.Pays (cost : Nat) (gas gas' : Gas) : Prop where
  limit : gas'.limit = gas.limit
  remaining : gas'.remaining + cost ≤ gas.remaining
  memory : gas'.memory.expansionCost + gas'.remaining + cost ≤
    gas.memory.expansionCost + gas.remaining

/-- The gas counter at the end of a frame. -/
structure Gas.Spends (gas gas' : Gas) : Prop where
  limit : gas'.limit = gas.limit
  remaining : gas'.remaining ≤ gas.remaining

theorem Gas.Pays.refl (gas : Gas) : gas.Pays 0 gas := ⟨rfl, le_rfl, le_rfl⟩

theorem Gas.Pays.trans (h : Gas.Pays m gas gas')
    (h' : Gas.Pays n gas' gas'') : Gas.Pays (m + n) gas gas'' := by
  obtain ⟨hlimit, hle, hmemory⟩ := h
  obtain ⟨hlimit', hle', hmemory'⟩ := h'
  exact ⟨hlimit'.trans hlimit, by omega, by omega⟩

theorem Gas.Pays.mono (h : Gas.Pays m gas gas') (hn : n ≤ m) : Gas.Pays n gas gas' := by
  obtain ⟨hlimit, hle, hmemory⟩ := h
  exact ⟨hlimit, by omega, by omega⟩

theorem Gas.Spends.refl (gas : Gas) : gas.Spends gas := ⟨rfl, le_rfl⟩

theorem Gas.Pays.trans_spends (h : Gas.Pays m gas gas')
    (h' : Gas.Spends gas' gas'') : Gas.Spends gas gas'' :=
  ⟨h'.limit.trans h.limit, h'.remaining.trans (by have := h.remaining; omega)⟩

/-- The computation takes at least the cost of its result, never gives gas back, and keeps the gas
counter in its range. -/
def Charges (x : Instr ε α) (cost : α → Nat) : Prop :=
  ∀ s, (x s).Meets (fun a s' => s.gas.Pays (cost a) s'.gas) (fun _ s' => s.gas.Spends s'.gas)
    (· ≠ .gas)

theorem Charges.mono {cost cost' : α → Nat} (h : Charges x cost)
    (hle : ∀ a, cost' a ≤ cost a) : Charges x cost' := fun s =>
  (h s).mono (fun a _ hp => hp.mono (hle a)) (fun _ _ hp => hp) (fun _ he => he)

theorem Charges.bind {f : α → Instr ε β} {n : β → Nat} (hx : Charges x fun _ => m)
    (hf : ∀ a, Charges (f a) n) : Charges (x >>= f) fun b => m + n b := by
  intro s
  apply Outcome.Meets.bind
  refine (hx s).mono ?_ (fun _ _ hp => hp) (fun _ he => he)
  intro a s' hp
  exact (hf a s').mono (fun b _ hp' => hp.trans hp') (fun _ _ hp' => hp.trans_spends hp')
    (fun _ he => he)

/-- A cost that depends on the result carries over to what is made of the result. -/
theorem Charges.map {f : α → β} {cost : α → Nat} {cost' : β → Nat} (h : Charges x cost)
    (hle : ∀ a, cost' (f a) ≤ cost a) : Charges (x >>= fun a => Pure.pure (f a)) cost' := by
  intro s
  apply Outcome.Meets.bind
  exact (h s).mono (fun a _ hp => hp.mono (hle a)) (fun _ _ hp => hp) (fun _ he => he)

/-- What does not touch the gas counter charges nothing. -/
theorem Charges.of_same
    (h : ∀ s, (x s).Meets (fun _ s' => s'.gas = s.gas) (fun _ s' => s'.gas = s.gas) (· ≠ .gas)) :
    Charges x fun _ => 0 := by
  intro s
  refine (h s).mono ?_ ?_ (fun _ he => he)
  · intro _ s' hs
    rw [hs]
    exact .refl _
  · intro _ s' hs
    rw [hs]
    exact .refl _

/-- What reaches only the host pays nothing. -/
theorem HostOnly.charges (h : HostOnly x) : Charges x fun _ => 0 := by
  apply Charges.of_same
  intro s
  refine (h s).mono ?_ (fun _ _ h => h.elim) ?_
  · intro _ s' hs
    rw [hs]
  · rintro _ rfl
    decide

theorem Charges.pure (a : α) : Charges (pure a : Instr ε α) fun _ => 0 :=
  .of_same fun _ => rfl

namespace Prim

variable (ctx : InstructionContext ε)

theorem charges_recordCost (cost : Nat) :
    Charges (recordCost cost : Instr ε Bool) fun enough => if enough then cost else 0 := by
  intro s
  unfold recordCost
  by_cases h : cost ≤ s.gas.remaining
  · rw [Gas.recordCost_of_le h]
    exact ⟨rfl, by simp only [if_true]; omega, by simp only [if_true]; omega⟩
  · rw [Gas.recordCost_of_lt (by omega)]
    exact .refl _

theorem charges_recordRefund (refund : Int) :
    Charges (recordRefund refund : Instr ε Unit) fun _ => 0 := by
  intro s
  unfold recordRefund Gas.recordRefund
  cases addI64 s.gas.refunded refund with
  | none => exact nofun
  | some refunded => exact ⟨rfl, le_rfl, le_rfl⟩

theorem charges_readBuffer (f : Buffer → Option α) :
    Charges (readBuffer f : Instr ε α) fun _ => 0 := by
  apply Charges.of_same
  intro s
  unfold readBuffer
  cases f s.buffer with
  | none => exact nofun
  | some a => exact rfl

theorem charges_writeBuffer (f : Buffer → Option Buffer) :
    Charges (writeBuffer f : Instr ε Unit) fun _ => 0 := by
  apply Charges.of_same
  intro s
  unfold writeBuffer
  cases f s.buffer with
  | none => exact nofun
  | some buffer => exact rfl

/-- The price of memory is taken from the remaining gas. -/
theorem resizeMemory_pays_gas {gas gas' : Gas} {memory : SharedMemory} {buffer buffer' : Buffer}
    {offset : Nat} {enough : Bool}
    (h : resizeMemory gas memory buffer offset len = some (enough, gas', buffer')) :
    gas.Spends gas' ∧ (enough = true → gas.Pays 0 gas') := by
  unfold resizeMemory at h
  dsimp only at h
  split_ifs at h with hgrow
  · unfold resizeMemoryCold MemoryGas.recordNewLen at h
    rw [if_neg (not_le.2 hgrow)] at h
    simp only [Option.bind_eq_bind, Option.bind_eq_some_iff, Option.pure_def] at h
    obtain ⟨⟨additional, memory'⟩, ⟨cost, hsub, hpair⟩, cost', hcost, h⟩ := h
    cases hpair
    cases hcost
    have hnew := of_subU64_eq_some hsub
    by_cases hle : cost ≤ gas.remaining
    · rw [Gas.recordCost_of_le (by exact hle)] at h
      simp only [Option.bind_eq_some_iff] at h
      obtain ⟨_, -, _, -, h⟩ := h
      cases h
      exact ⟨⟨rfl, sub_le _ _⟩, fun _ => ⟨rfl, sub_le _ _, by dsimp only; omega⟩⟩
    · rw [Gas.recordCost_of_lt (by exact not_le.1 hle)] at h
      cases h
      exact ⟨⟨rfl, le_rfl⟩, by simp⟩
  · cases h
    exact ⟨.refl _, fun _ => .refl _⟩

theorem charges_resize (offset len : Nat) : Charges (resize ctx offset len) fun _ => 0 := by
  intro s
  unfold resize
  rcases hr : resizeMemory s.gas ctx.memory s.buffer offset len with _ | ⟨_ | _, gas, buffer⟩
  · exact nofun
  · exact (resizeMemory_pays_gas hr).1
  · exact (resizeMemory_pays_gas hr).2 rfl

end Prim

/-- No program raises the remaining gas. -/
theorem Built.charges {ctx : InstructionContext ε} (h : Built ctx w x) : Charges x fun _ => 0 := by
  induction h with
  | pure a => exact .pure a
  | bind _ _ ihx ihf => exact .bind ihx ihf
  | halt | getMachine | setStack => exact .of_same fun _ => rfl
  | haltOog => exact fun s => ⟨rfl, zero_le _⟩
  | panic => exact nofun
  | recordCost cost => exact (charges_recordCost cost).mono fun _ => zero_le _
  | recordRefund refund => exact charges_recordRefund refund
  | memorySize => exact charges_readBuffer _
  | memorySlice offset len =>
    exact .bind (charges_resize _ _ _) fun _ => charges_readBuffer _
  | memorySet offset value =>
    exact .bind (charges_resize _ _ _) fun _ => charges_writeBuffer _
  | memoryCopy dst src len =>
    exact .bind (charges_resize _ _ _) fun _ => charges_writeBuffer _
  | memorySetData offset len _ ih =>
    exact .bind (charges_resize _ _ _) fun _ => .bind ih fun _ => charges_writeBuffer _
  | memorySetGlobal offset dataOffset len _ =>
    exact .bind (charges_resize _ _ _) fun _ => charges_writeBuffer _
  | inputSlice _ =>
    unfold Prim.inputSlice
    cases ctx.input.input with
    | bytes data => exact .pure data
    | sharedBuffer range => exact charges_readBuffer _
  | resizeRange offset len =>
    exact .bind (charges_resize _ _ _) fun _ => charges_readBuffer _
  | loadAccountInfo address loadCode skipColdLoad =>
    exact (hostOnly_loadAccountInfo ctx address loadCode skipColdLoad).charges
  | sload address key skipColdLoad =>
    exact (hostOnly_sload ctx address key skipColdLoad).charges
  | blockHash number => exact (hostOnly_blockHash ctx number).charges
  | sstore address key value skipColdLoad =>
    exact (hostOnly_sstore ctx address key value skipColdLoad).charges
  | tstore address key value => exact (hostOnly_tstore address key value).charges
  | log entry => exact (hostOnly_log entry).charges
  | selfdestruct address target => exact (hostOnly_selfdestruct ctx address target).charges
  | nonStatic _ ih =>
    unfold Prim.nonStatic
    split_ifs
    · exact .of_same fun _ => rfl
    · exact ih

end Charges

/-! ## Charges of programs -/

variable (result : InstructionResult)

namespace Program

variable {α β : Type} {ctx : InstructionContext ε} {x : Program ctx w α}

theorem charges_bind {f : α → Program ctx w β} {m : Nat} {n : β → Nat}
    (hx : Charges x.run fun _ => m) (hf : ∀ a, Charges (f a).run n) :
    Charges (x >>= f).run fun b => m + n b := Charges.bind hx hf

/-- The cost of a program is at least the one of its rest. -/
theorem charges_rest (x : Program ctx w α) {f : α → Program ctx w β} {cost : β → Nat}
    (h : ∀ a, Charges (f a).run cost) : Charges (x >>= f).run cost := by
  refine (Charges.bind x.built.charges h).mono ?_
  intro b
  rw [zero_add]

/-- The cost of a program is at least the one of its first part. -/
theorem charges_first (f : α → Program ctx w β) {cost : Nat}
    (h : Charges x.run fun _ => cost) : Charges (x >>= f).run fun _ => cost :=
  Charges.bind h fun a => (f a).built.charges

/-- A program that halts reaches no price to pay. -/
theorem charges_halt (cost : α → Nat) : Charges (halt result : Program ctx w α).run cost :=
  fun _ => .refl _

theorem charges_halt_bind (f : α → Program ctx w β) (cost : β → Nat) :
    Charges (halt result >>= f).run cost := fun _ => .refl _

theorem charges_haltOog (cost : α → Nat) : Charges (haltOog : Program ctx w α).run cost :=
  fun _ => ⟨rfl, zero_le _⟩

theorem charges_returnWith (output : List UInt8) (cost : α → Nat) :
    Charges (returnWith result output : Program ctx w α).run cost := fun _ => .refl _

theorem charges_return {f : α → β} {cost : α → Nat} {cost' : β → Nat} (h : Charges x.run cost)
    (hle : ∀ a, cost' (f a) ≤ cost a) : Charges (x >>= fun a => pure (f a)).run cost' :=
  Charges.map h hle

theorem charges_memorySetData (offset len : Nat) {source : Program ctx w (Nat × List UInt8)}
    {cost : Nat} (h : Charges source.run fun _ => cost) :
    Charges (memorySetData offset len source).run fun _ => cost := by
  refine (Charges.bind (charges_resize ctx offset len)
    fun _ => Charges.bind h fun _ => charges_writeBuffer _).mono ?_
  intro _
  omega

theorem charges_nonStatic {body : Program ctx true α} {cost : α → Nat}
    (h : Charges body.run cost) : Charges (nonStatic body : Program ctx w α).run cost := by
  intro s
  simp only [nonStatic, Prim.nonStatic]
  split_ifs
  · exact .refl _
  · exact h s

theorem charges_gas (cost : Nat) : Charges (gas cost : Program ctx w Unit).run fun _ => cost := by
  intro s
  by_cases h : cost ≤ s.gas.remaining
  · have hrun : (gas cost : Program ctx w Unit).run s =
        .next () { s with gas := { s.gas with remaining := s.gas.remaining - cost } } := by
      simp only [gas, run_bind, Exec.bind_apply, recordCost, Prim.recordCost,
        Gas.recordCost_of_le h]
      rfl
    rw [hrun]
    exact ⟨rfl, by dsimp only; omega, by dsimp only; omega⟩
  · have hrun : (gas cost : Program ctx w Unit).run s =
        .stop ⟨.outOfGas, []⟩ { s with gas := s.gas.spendAll } := by
      simp only [gas, run_bind, Exec.bind_apply, recordCost, Prim.recordCost,
        Gas.recordCost_of_lt (not_le.1 h)]
      rfl
    rw [hrun]
    exact ⟨rfl, zero_le _⟩

theorem charges_gas_of_le {cost : Nat} (h : n ≤ cost) :
    Charges (gas cost : Program ctx w Unit).run fun _ => n :=
  (charges_gas cost).mono fun _ => h

theorem charges_gasOrFail {cost : Option Nat} (h : ∀ c ∈ cost, n ≤ c) :
    Charges (gasOrFail cost : Program ctx w Unit).run fun _ => n := by
  cases cost with
  | none => exact charges_haltOog _
  | some c => exact charges_gas_of_le (h c rfl)

end Program

/-! ## The dynamic gas of the instructions without static gas -/

variable (spec : SpecId)

section Prices

theorem le_of_checkedAddU64 {x y z : Nat} (h : checkedAddU64 x y = some z) : x ≤ z := by
  rw [of_addU64_eq_some h]
  exact le_add_right x y

theorem one_le_expCost {spec : SpecId} {power : U256} : ∀ c ∈ expCost spec power, 1 ≤ c := by
  intro c hc
  unfold expCost at hc
  by_cases hzero : power = 0
  · rw [if_pos hzero] at hc
    cases hc
    decide
  · rw [if_neg hzero] at hc
    cases hc
    exact le_trans (by decide) (le_add_right exp _)

theorem one_le_keccak256Cost : ∀ c ∈ keccak256Cost len, 1 ≤ c := by
  intro c hc
  obtain ⟨_, -, hc⟩ := Option.bind_eq_some_iff.1 hc
  exact le_trans (by decide) (le_of_checkedAddU64 hc)

theorem one_le_copyCostVerylow : ∀ c ∈ copyCostVerylow len, 1 ≤ c := by
  intro c hc
  obtain ⟨_, -, hc⟩ := Option.bind_eq_some_iff.1 hc
  exact le_trans (by decide) (le_of_checkedAddU64 hc)

theorem one_le_create2Cost : ∀ c ∈ create2Cost len, 1 ≤ c := by
  intro c hc
  obtain ⟨_, -, hc⟩ := Option.bind_eq_some_iff.1 hc
  exact le_trans (by decide) (le_of_checkedAddU64 hc)

theorem one_le_logCost : ∀ c ∈ logCost n len, 1 ≤ c := by
  intro c hc
  simp only [logCost, Option.bind_eq_bind, Option.mem_def, Option.bind_eq_some_iff] at hc
  obtain ⟨_, -, base, hbase, hc⟩ := hc
  exact le_trans (by decide) ((le_of_checkedAddU64 hbase).trans (le_of_checkedAddU64 hc))

theorem one_le_staticSstoreCost : 1 ≤ staticSstoreCost spec := by
  unfold staticSstoreCost
  split_ifs <;> decide

/-- A call pays for the stipend of its value. -/
theorem lt_calcCallStaticGas (hasTransfer : Bool) :
    (if hasTransfer then callvalue else 0) < calcCallStaticGas spec hasTransfer := by
  unfold calcCallStaticGas
  split_ifs <;> decide

end Prices

namespace Instructions

variable {ctx : InstructionContext ε}

open Program

theorem charges_exp : Charges (exp : Program ctx w Unit).run fun _ => 1 := by
  apply charges_rest
  intro _
  exact charges_first _ (charges_gasOrFail one_le_expCost)

theorem charges_keccak256 [Keccak256] :
    Charges (Instructions.keccak256 : Program ctx w Unit).run fun _ => 1 := by
  apply charges_rest
  intro _
  apply charges_rest
  intro _
  exact charges_first _ (charges_gasOrFail one_le_keccak256Cost)

theorem charges_loadAccountFor (address : Address) (loadCode : Bool) {cost : SpecId → Nat}
    (hcost : ∀ spec, 1 ≤ cost spec) :
    Charges (loadAccountFor address loadCode cost : Program ctx w AccountInfoLoad).run
      fun _ => 1 := by
  unfold loadAccountFor
  split_ifs
  · exact charges_first _ (charges_gas_of_le (by decide))
  · exact charges_first _ (charges_gas_of_le (hcost _))

theorem one_le_balanceCost : 1 ≤ balanceCost spec := by
  unfold balanceCost
  split_ifs <;> decide

theorem one_le_extcodeCost : 1 ≤ extcodeCost spec := by
  unfold extcodeCost
  split_ifs <;> decide

theorem one_le_extcodehashCost : 1 ≤ extcodehashCost spec := by
  unfold extcodehashCost
  split_ifs <;> decide

theorem charges_balance : Charges (balance : Program ctx w Unit).run fun _ => 1 := by
  apply charges_rest
  intro _
  exact charges_first _ (charges_loadAccountFor _ _ one_le_balanceCost)

theorem charges_extcodesize : Charges (extcodesize : Program ctx w Unit).run fun _ => 1 := by
  apply charges_rest
  intro _
  exact charges_first _ (charges_loadAccountFor _ _ one_le_extcodeCost)

theorem charges_extcodehash : Charges (extcodehash : Program ctx w Unit).run fun _ => 1 := by
  apply charges_rest
  intro _
  apply charges_rest
  intro _
  exact charges_first _ (charges_loadAccountFor _ _ one_le_extcodehashCost)

theorem charges_memoryResize (memoryOffset : U256) (len : Nat) (write : Nat → Program ctx w Unit) :
    Charges (memoryResize memoryOffset len write).run fun _ => 1 :=
  charges_first _ (charges_gasOrFail one_le_copyCostVerylow)

theorem charges_codecopy : Charges (codecopy : Program ctx w Unit).run fun _ => 1 := by
  apply charges_rest
  intro _
  apply charges_rest
  intro _
  exact charges_memoryResize _ _ _

theorem charges_calldatacopy : Charges (calldatacopy : Program ctx w Unit).run fun _ => 1 := by
  apply charges_rest
  intro _
  apply charges_rest
  intro _
  exact charges_memoryResize _ _ _

theorem charges_returndatacopy : Charges (returndatacopy : Program ctx w Unit).run fun _ => 1 := by
  apply charges_rest
  intro _
  apply charges_rest
  intro _
  apply charges_rest
  intro _
  dsimp only
  split_ifs
  · exact charges_halt_bind _ _ _
  · exact charges_memoryResize _ _ _

theorem charges_mcopy : Charges (mcopy : Program ctx w Unit).run fun _ => 1 := by
  apply charges_rest
  intro _
  apply charges_rest
  intro _
  apply charges_rest
  intro _
  exact charges_first _ (charges_gasOrFail one_le_copyCostVerylow)

theorem charges_extcodecopySource (address : Address) (codeOffset : U256) :
    Charges (extcodecopySource address codeOffset : Program ctx w (Nat × List UInt8)).run
      fun _ => 1 :=
  charges_first _ (charges_loadAccountFor _ _ one_le_extcodeCost)

/-- The words may be free, the load of the account is not. -/
theorem charges_extcodecopy : Charges (extcodecopy : Program ctx w Unit).run fun _ => 1 := by
  apply charges_rest
  intro _
  apply charges_rest
  intro _
  apply charges_rest
  intro _
  split_ifs
  · apply charges_rest
    intro _
    exact charges_memorySetData _ _ (charges_extcodecopySource _ _)
  · exact charges_first _ (charges_extcodecopySource _ _)

theorem one_le_sloadStaticCost : 1 ≤ sloadStaticCost spec := by
  unfold sloadStaticCost
  split_ifs <;> decide

theorem charges_sload : Charges (sload : Program ctx w Unit).run fun _ => 1 := by
  apply charges_rest
  intro _
  exact charges_first _ (charges_gas_of_le (one_le_sloadStaticCost _))

theorem charges_sstore : Charges (sstore : Program ctx w Unit).run fun _ => 1 := by
  apply charges_nonStatic
  apply charges_rest
  intro _
  apply charges_rest
  intro _
  split_ifs
  · exact charges_halt_bind _ _ _
  · exact charges_first _ (charges_gas_of_le (one_le_staticSstoreCost _))

theorem charges_log (n : Nat) : Charges (log n : Program ctx w Unit).run fun _ => 1 := by
  apply charges_nonStatic
  apply charges_rest
  intro _
  apply charges_rest
  intro _
  exact charges_first _ (charges_gasOrFail one_le_logCost)

/-! ### Instructions that end the frame -/

variable (cost : Unit → Nat)

theorem charges_returnInner : Charges (returnInner result : Program ctx w Unit).run cost := by
  apply charges_rest
  intro _
  apply charges_rest
  intro _
  split_ifs
  · apply charges_rest
    intro _
    apply charges_rest
    intro _
    exact charges_returnWith _ _ _
  · exact charges_returnWith _ _ _

theorem charges_revert : Charges (revert : Program ctx w Unit).run cost := by
  apply charges_rest
  intro _
  exact charges_returnInner _ _

theorem charges_selfdestruct : Charges (selfdestruct : Program ctx w Unit).run cost := by
  apply charges_nonStatic
  apply charges_rest
  intro _
  apply charges_rest
  intro _
  apply charges_rest
  intro res
  cases res with
  | error e => exact charges_halt _ _
  | ok res =>
    apply charges_rest
    intro _
    split_ifs
    · apply charges_rest
      intro _
      exact charges_halt _ _
    · exact charges_halt _ _

end Instructions

/-! ## New frames -/

/-- The input of a call that transfers value. -/
def FrameInput.transfersValue : FrameInput → Bool
  | .call inputs =>
      match inputs.value with
      | .transfer value => value ≠ 0
      | .apparent _ => false
  | .create _ => false

variable (input : FrameInput)

/-- The gas that a call with value gives to the new frame on top. -/
def FrameInput.stipend : Nat :=
  if input.transfersValue then callStipend else 0

/-- The price of the value of a call. -/
def FrameInput.valueCost : Nat :=
  if input.transfersValue then callvalue else 0

/-- What an instruction that asks for a new frame takes at least: the gas limit of the frame without
the stipend, the price of the value, and one unit. -/
def FrameInput.price : Nat :=
  input.gasLimit - input.stipend + input.valueCost + 1

theorem FrameInput.gasLimit_lt_price : input.gasLimit < input.price := by
  unfold price stipend valueCost
  split_ifs
  · have h : callStipend ≤ callvalue := by decide
    omega
  · omega

namespace Instructions

variable {ctx : InstructionContext ε}

open Program

/-- The gas limit of the new frame and the price of the value are taken; only the stipend is given
on top. -/
theorem charges_loadAccAndCalcGas (target : Address) (transfersValue createEmptyAccount : Bool)
    (stackGasLimit : Nat) : Charges
      (loadAccAndCalcGas target transfersValue createEmptyAccount stackGasLimit :
        Program ctx w (Nat × Bytecode × B256)).run
      fun r => r.1 - (if transfersValue then GasConst.callStipend else 0) +
        (if transfersValue then GasConst.callvalue else 0) + 1 := by
  have hstatic := lt_calcCallStaticGas ctx.runtimeFlag.specId transfersValue
  refine (charges_bind (n := fun r =>
    r.1 - (if transfersValue then callStipend else 0)) (charges_gas _) ?_).mono ?_
  · intro _
    apply charges_rest
    intro load
    apply charges_rest
    intro _
    apply charges_rest
    intro _
    refine charges_return (charges_gas _) ?_
    intro _
    -- the stipend saturates, so it is at most what is added
    have hsat : ∀ g, saturatingAddU64 g callStipend ≤ g + callStipend :=
      fun g => min_le_left _ _
    split_ifs
    · exact sub_le_of_le_add (hsat _)
    · exact sub_le_of_le_add (hsat _)
    · exact sub_le _ _
    · exact sub_le _ _
  · intro r
    omega

theorem charges_call : Charges (call : Program ctx w FrameInput).run FrameInput.price := by
  apply charges_rest
  intro x
  dsimp only
  split_ifs
  · exact charges_halt_bind _ _ _
  · apply charges_rest
    intro _
    refine charges_return (charges_loadAccAndCalcGas _ _ _ _) ?_
    intro _
    exact le_rfl

theorem charges_callCode : Charges (callCode : Program ctx w FrameInput).run FrameInput.price := by
  apply charges_rest
  intro x
  apply charges_rest
  intro _
  refine charges_return (charges_loadAccAndCalcGas _ _ _ _) ?_
  intro _
  exact le_rfl

theorem charges_delegateCall :
    Charges (delegateCall : Program ctx w FrameInput).run FrameInput.price := by
  apply charges_rest
  intro _
  apply charges_rest
  intro _
  apply charges_rest
  intro _
  refine charges_return (charges_loadAccAndCalcGas _ _ _ _) ?_
  intro _
  exact le_rfl

theorem charges_staticCall :
    Charges (staticCall : Program ctx w FrameInput).run FrameInput.price := by
  apply charges_rest
  intro _
  apply charges_rest
  intro _
  apply charges_rest
  intro _
  refine charges_return (charges_loadAccAndCalcGas _ _ _ _) ?_
  intro _
  exact le_rfl

theorem charges_createScheme (isCreate2 : Bool) (len : Nat) :
    Charges (createScheme isCreate2 len : Program ctx w CreateScheme).run fun _ => 1 := by
  unfold createScheme
  split_ifs
  · apply charges_rest
    intro _
    exact charges_first _ (charges_gasOrFail one_le_create2Cost)
  · exact charges_first _ (charges_gas_of_le (by decide))

/-- The end of a creation: the scheme has a price, and the gas limit of the frame is taken after
it. -/
theorem charges_createTail {isCreate2 : Bool} {limit : Nat → Nat}
    {input : CreateScheme → Nat → FrameInput}
    (h : ∀ scheme remaining, (input scheme remaining).price ≤ 1 + limit remaining) : Charges
      (createScheme isCreate2 len >>= fun scheme => remainingGas >>= fun remaining =>
        Program.gas (limit remaining) >>= fun _ => pure (input scheme remaining) :
        Program ctx w FrameInput).run FrameInput.price := by
  refine (charges_bind (n := fun i => i.price - 1) (charges_createScheme isCreate2 len) ?_).mono ?_
  · intro scheme
    apply charges_rest
    intro remaining
    refine charges_return (charges_gas _) ?_
    intro _
    have := h scheme remaining
    omega
  · intro i
    omega

theorem charges_create (isCreate2 : Bool) :
    Charges (create isCreate2 : Program ctx w FrameInput).run FrameInput.price := by
  have hprice : ∀ input : CreateInputs, (FrameInput.create input).price ≤ 1 + input.gasLimit :=
    fun input => (add_comm _ _).le
  apply charges_nonStatic
  cases isCreate2 with
  | false =>
    apply charges_rest
    intro _
    apply charges_rest
    intro _
    apply charges_rest
    intro _
    exact charges_createTail fun _ _ => hprice _
  | true =>
    apply charges_rest
    intro _
    apply charges_rest
    intro _
    apply charges_rest
    intro _
    apply charges_rest
    intro _
    exact charges_createTail fun _ _ => hprice _

end Instructions

/-! ## The instruction table -/

/-- The part of the price that the program of an instruction takes on top of the static gas. -/
def Instruction.Priced {ctx : InstructionContext ε} (instruction : Instruction ctx) : Prop :=
  match instruction.fn with
  | .run program => 1 ≤ instruction.staticGas ∨ Charges program.run fun _ => 1
  | .push _ => 1 ≤ instruction.staticGas
  | .jump _ => 1 ≤ instruction.staticGas
  | .newFrame program => Charges program.run FrameInput.price

/-- What an instruction has taken at least if the frame goes on with `control`. -/
def Control.cost : Control → Nat
  | .continueAt _ => 1
  | .newFrame input => input.price

/-- Static gas pays for an instruction that opens no frame. -/
theorem priced_of_static {ctx : InstructionContext ε} {instruction : Instruction ctx}
    (hstatic : instruction.staticGas ≠ 0)
    (hfn : ∀ program, instruction.fn = .newFrame program → instruction.staticGas = 0) :
    instruction.Priced := by
  obtain ⟨fn, staticGas⟩ := instruction
  have hpos : 1 ≤ staticGas := one_le_iff_ne_zero.2 hstatic
  cases fn with
  | run program => exact .inl hpos
  | push n => exact hpos
  | jump program => exact hpos
  | newFrame program => exact absurd (hfn program rfl) hstatic

section Table

variable [Keccak256] {ctx : InstructionContext ε}

open Instructions

/-- The instructions that open frames have no static gas. -/
theorem staticGas_newFrame : ∀ entry ∈ instructionList ctx, ∀ program,
    entry.2.fn = .newFrame program → entry.2.staticGas = 0 := by
  simp [instructionList]

/-- The entries without static gas, in the order of the table: they take dynamic gas or end the
frame. -/
theorem priced_of_dynamic :
    ∀ entry ∈ instructionList ctx, entry.2.staticGas = 0 → entry.2.Priced := by
  simp only [instructionList, List.forall_mem_cons, OfNat.ofNat_ne_zero, one_ne_zero,
    false_implies, true_and, forall_const]
  exact ⟨.inr (Program.charges_halt _ _), .inr charges_exp, .inr charges_keccak256,
    .inr charges_balance, .inr charges_calldatacopy, .inr charges_codecopy,
    .inr charges_extcodesize, .inr charges_extcodecopy, .inr charges_returndatacopy,
    .inr charges_extcodehash, .inr charges_sload, .inr charges_sstore, .inr charges_mcopy,
    charges_create false, charges_call, charges_callCode, .inr (charges_returnInner _ _),
    charges_delegateCall, charges_create true, charges_staticCall, .inr (charges_revert _),
    .inr (Program.charges_halt _ _), .inr (charges_selfdestruct _), List.forall_mem_nil _⟩

theorem priced_instructionList : ∀ entry ∈ instructionList ctx, entry.2.Priced := by
  intro entry hentry
  by_cases hstatic : entry.2.staticGas = 0
  · exact priced_of_dynamic entry hentry hstatic
  · exact priced_of_static hstatic (staticGas_newFrame entry hentry)

theorem priced_instructionTable (opcode : UInt8) : (instructionTable ctx opcode).Priced := by
  unfold instructionTable
  dsimp only
  split_ifs
  · exact (by decide : 1 ≤ 3)
  · exact .inl (le_add_left 1 2)
  · exact .inl (le_add_left 1 2)
  · exact .inr (charges_log _)
  · cases h : (instructionList ctx).lookup opcode.toNat with
    | none => exact .inr (Program.charges_halt _ _)
    | some instruction => exact priced_instructionList _ (mem_instructionList ctx h)

end Table

/-! ## One step -/

section Step

variable {ctx : InstructionContext ε}

theorem charges_continueAt (pc : Nat) {staticGas : Nat} (h : 1 ≤ staticGas) :
    Charges (pure (.continueAt pc) : Instr ε Control) fun control => control.cost - staticGas := by
  intro s
  have hcost : (Control.continueAt pc).cost - staticGas = 0 := Nat.sub_eq_zero_of_le h
  rw [Exec.pure_apply]
  dsimp only [Outcome.Meets]
  rw [hcost]
  exact .refl _

theorem Instruction.Priced.execute {instruction : Instruction ctx} (h : instruction.Priced) :
    Charges instruction.fn.execute fun control => control.cost - instruction.staticGas := by
  obtain ⟨fn, staticGas⟩ := instruction
  cases fn with
  | run program =>
    rcases h with hstatic | hdynamic
    · exact program.built.charges.map fun _ => (Nat.sub_eq_zero_of_le hstatic).le
    · exact hdynamic.map fun _ => sub_le _ _
  | push n =>
    intro s
    simp only [Behaviour.execute, pushImmediate]
    split_ifs
    · split
      · exact .refl _
      · exact charges_continueAt _ h _
    · exact nofun
  | jump program =>
    refine (Charges.bind program.built.charges ?_).mono fun _ => (zero_add _).ge
    rintro (_ | target)
    · exact charges_continueAt _ h
    · exact charges_continueAt _ h
  | newFrame program => exact Charges.map h fun _ => sub_le _ _

variable [Keccak256]

theorem charges_fetchExecute (ctx : InstructionContext ε) (opcode : UInt8) :
    Charges (Interpreter.fetchExecute ctx opcode) Control.cost := by
  intro s
  unfold Interpreter.fetchExecute Gas.recordCostUnsafe
  by_cases hlt : s.gas.remaining < (instructionTable ctx opcode).staticGas
  · rw [if_pos (by simpa using hlt)]
    exact ⟨rfl, zero_le _⟩
  · -- the static gas is taken, the rest of the cost is dynamic
    rw [if_neg (by simpa using hlt), if_pos (not_lt.1 hlt)]
    refine ((priced_instructionTable opcode).execute _).mono ?_ ?_ (fun _ he => he)
    · rintro control s' ⟨hlimit, hpays, hmemory⟩
      exact ⟨hlimit, by dsimp only at hpays; omega, by dsimp only at hmemory; omega⟩
    · rintro _ s' ⟨hlimit, hpays⟩
      exact ⟨hlimit, by dsimp only at hpays; omega⟩

/-- A step after which the frame goes on takes gas. A step that asks for a new frame takes the price
of the frame. The gas counter never leaves its range. -/
theorem Interpreter.step_pays (env : HostEnv ε) (self : Interpreter) (shared : Shared ε) :
    (self.step env shared).Meets (fun _ r => self.gas.Pays 1 r.1.gas) (fun action r =>
        match action with
        | .newFrame input => self.gas.Pays input.price r.1.gas
        | .return result => result.gas = r.1.gas ∧ self.gas.Spends r.1.gas) (· ≠ .gas) := by
  refine step_meets nofun fun opcode _ => ?_
  refine (charges_fetchExecute _ opcode _).mono ?_ (fun _ _ h => ⟨rfl, h⟩) fun _ h => h
  rintro (pc | input) m h
  · exact h
  · exact h

end Step

end Revm
