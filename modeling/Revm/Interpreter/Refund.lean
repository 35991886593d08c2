import Revm.Interpreter.GasCalc
import Mathlib.Algebra.BigOperators.Group.Finset.Basic
import Mathlib.Algebra.Order.BigOperators.Group.Finset
import Mathlib.Tactic.Common

/-!
# The refund counter

A store may give a negative refund: it takes back what an earlier store of the same slot has given.
The earlier store may have happened in another frame, so the counter of a frame can be negative.
`refunded_nonneg` says that the counter of the first frame never is, whatever stores, calls, returns
and reverts the transaction consists of.

The refunds given so far are at least the `potential` of the storage: what clearing the slots that
are zero now has given. A frame that fails takes its refunds and its stores away together, so the
bound holds for the frames below it with the storage that the frame found.
-/

set_option autoImplicit false

namespace Revm

section Potential

variable (spec : SpecId) (original present : StorageValue)

/-- The refund that is outstanding for a slot: it can be taken back by writing the slot again. -/
def potential : Int :=
  if spec.isEnabledIn .istanbul ∧ original ≠ 0 ∧ present = 0 then sstoreClearsSchedule spec else 0

theorem sstoreRestoreRefund_nonneg (vals : SStoreResult) : 0 ≤ sstoreRestoreRefund spec vals := by
  unfold sstoreRestoreRefund
  split_ifs <;> exact Int.natCast_nonneg _

/-- The refund of a store from Istanbul on. -/
theorem sstoreRefund_istanbul (h : spec.isEnabledIn .istanbul = true)
    (original present new : StorageValue) : sstoreRefund spec ⟨original, present, new⟩ =
      if new = present then 0
      else if original = present ∧ new = 0 then sstoreClearsSchedule spec
      else
        (if original ≠ 0 then
          if present = 0 then -sstoreClearsSchedule spec
          else if new = 0 then sstoreClearsSchedule spec
          else 0
        else 0) + sstoreRestoreRefund spec ⟨original, present, new⟩ := by
  rw [sstoreRefund, if_pos h]
  simp only [SStoreResult.isNewEqPresent, SStoreResult.isOriginalEqPresent, SStoreResult.isNewZero,
    SStoreResult.isOriginalZero, SStoreResult.isPresentZero, beq_iff_eq, Bool.and_eq_true,
    Bool.not_eq_true', beq_eq_false_iff_ne]

/-- A store refunds at least the change of the potential. -/
theorem potential_le_sstoreRefund (original present new : StorageValue) :
    potential spec original new ≤
      potential spec original present + sstoreRefund spec ⟨original, present, new⟩ := by
  have hrestore := sstoreRestoreRefund_nonneg spec ⟨original, present, new⟩
  by_cases hspec : spec.isEnabledIn .istanbul = true
  · rw [sstoreRefund_istanbul spec hspec]
    unfold potential
    split_ifs <;> first | omega | simp_all
  · -- before Istanbul a refund is never taken back
    have hzero : ∀ value, potential spec original value = 0 := fun value =>
      if_neg fun h => hspec h.1
    rw [hzero, hzero, sstoreRefund, if_neg hspec]
    split
    · decide
    · exact le_rfl

end Potential

/-! ## Stores in a tree of frames -/

section Frames

variable {σ : Type}

/-- A frame: its gas, and the storage that it found. -/
structure RefundFrame (σ : Type) where
  gas : Gas
  storage : σ → StorageValue

/-- The storage of a transaction and its open frames, the innermost first. -/
structure RefundState (σ : Type) where
  present : σ → StorageValue
  frames : List (RefundFrame σ)

/-- What happens to the refund counters. -/
inductive RefundOp (σ : Type) where
  | sstore (slot : σ) (value : StorageValue)
  | selfdestruct
  | call (gasLimit : Nat)
  /-- the innermost frame succeeds -/
  | returnOk
  /-- the innermost frame reverts or halts -/
  | returnFailed
  deriving DecidableEq, Repr

/-- The state of a transaction before its first instruction. -/
def RefundState.start (original : σ → StorageValue) (gasLimit : Nat) : RefundState σ :=
  ⟨original, [⟨Gas.new gasLimit, original⟩]⟩

/-- The innermost frame records a refund. -/
def RefundState.record (s : RefundState σ) (refund : Int) : Option (RefundState σ) :=
  match s.frames with
  | [] => none
  | f :: rest => (f.gas.recordRefund refund).map fun gas =>
      { s with frames := { f with gas := gas } :: rest }

section Step

variable [DecidableEq σ]

/-- One step. `return_result` adds the refund of a successful child to its parent; the journal takes
the stores of a failed child back. -/
def RefundState.step (spec : SpecId) (original : σ → StorageValue) (s : RefundState σ) :
    RefundOp σ → Option (RefundState σ)
  | .sstore slot value =>
      (s.record (sstoreRefund spec ⟨original slot, s.present slot, value⟩)).map fun s =>
        { s with present := Function.update s.present slot value }
  | .selfdestruct => s.record GasConst.selfdestructRefund
  | .call gasLimit => some { s with frames := ⟨Gas.new gasLimit, s.present⟩ :: s.frames }
  | .returnOk =>
      match s.frames with
      | child :: parent :: rest =>
          RefundState.record ⟨s.present, parent :: rest⟩ child.gas.refunded
      | _ => none
  | .returnFailed =>
      match s.frames with
      | child :: parent :: rest => some ⟨child.storage, parent :: rest⟩
      | _ => none

/-- A sequence of steps. -/
def RefundState.run (spec : SpecId) (original : σ → StorageValue) (s : RefundState σ)
    (ops : List (RefundOp σ)) : Option (RefundState σ) :=
  ops.foldlM (RefundState.step spec original) s

end Step

/-- The potential of the slots in `slots`. -/
def totalPotential (spec : SpecId) (original : σ → StorageValue) (slots : Finset σ)
    (storage : σ → StorageValue) : Int :=
  ∑ slot ∈ slots, potential spec (original slot) (storage slot)

/-- The refunds of the open frames cover the potential of the storage, and so they did when each of
the frames was opened. Each counter fits into its type. -/
def Covered (spec : SpecId) (original : σ → StorageValue) (slots : Finset σ) :
    List (RefundFrame σ) → (σ → StorageValue) → Prop
  | [], storage => totalPotential spec original slots storage = 0
  | f :: rest, storage =>
      f.gas.refunded < 2 ^ 63 ∧
      totalPotential spec original slots storage ≤
        ((f :: rest).map (·.gas.refunded)).sum ∧
      Covered spec original slots rest f.storage

variable {spec : SpecId} {original : σ → StorageValue} {slots : Finset σ}

theorem recordRefund_eq_some {gas gas' : Gas} {refund : Int}
    (h : gas.recordRefund refund = some gas') :
    gas'.refunded = gas.refunded + refund ∧ gas'.refunded < 2 ^ 63 := by
  obtain ⟨refunded, hadd, rfl⟩ := Option.map_eq_some_iff.1 h
  unfold addI64 at hadd
  split_ifs at hadd with hrange
  cases hadd
  exact ⟨rfl, hrange.2⟩

variable {s s' : RefundState σ}

/-- A refund covers an increase of the potential. -/
theorem Covered.record {storage : σ → StorageValue} {refund : Int}
    (h : Covered spec original slots s.frames s.present)
    (hpotential : totalPotential spec original slots storage ≤
      totalPotential spec original slots s.present + refund) (hrecord : s.record refund = some s') :
    s'.present = s.present ∧ Covered spec original slots s'.frames storage := by
  obtain ⟨present, frames⟩ := s
  cases frames with
  | nil => cases hrecord
  | cons f rest =>
    obtain ⟨gas, hgas, rfl⟩ := Option.map_eq_some_iff.1 hrecord
    obtain ⟨hrefunded, hfits⟩ := recordRefund_eq_some hgas
    obtain ⟨-, hsum, hrest⟩ := h
    refine ⟨rfl, hfits, ?_, hrest⟩
    simp only [List.map_cons, List.sum_cons] at hsum hpotential ⊢
    omega

variable [DecidableEq σ]

theorem totalPotential_update {slot : σ} (hslot : slot ∈ slots) (storage : σ → StorageValue)
    (value : StorageValue) :
    totalPotential spec original slots (Function.update storage slot value) ≤
      totalPotential spec original slots storage +
        sstoreRefund spec ⟨original slot, storage slot, value⟩ := by
  have hrest : ∑ x ∈ slots.erase slot,
      potential spec (original x) (Function.update storage slot value x) =
        ∑ x ∈ slots.erase slot, potential spec (original x) (storage x) := by
    refine Finset.sum_congr rfl fun x hx => ?_
    rw [Function.update_of_ne (Finset.ne_of_mem_erase hx)]
  have hstore := potential_le_sstoreRefund spec (original slot) (storage slot) value
  unfold totalPotential
  rw [← Finset.add_sum_erase _ _ hslot, ← Finset.add_sum_erase slots _ hslot, hrest,
    Function.update_self]
  omega

theorem Covered.step {op : RefundOp σ}
    (hslots : ∀ slot value, op = .sstore slot value → slot ∈ slots)
    (h : Covered spec original slots s.frames s.present)
    (hstep : s.step spec original op = some s') :
    Covered spec original slots s'.frames s'.present := by
  cases op with
  | sstore slot value =>
    obtain ⟨s₁, hrecord, rfl⟩ := Option.map_eq_some_iff.1 hstep
    obtain ⟨hpresent, hcovered⟩ :=
      h.record (totalPotential_update (hslots slot value rfl) s.present value) hrecord
    rw [hpresent]
    exact hcovered
  | selfdestruct =>
    have hrefund : 0 ≤ GasConst.selfdestructRefund := by decide
    obtain ⟨hpresent, hcovered⟩ :=
      h.record (le_add_of_nonneg_right hrefund) hstep
    rw [hpresent]
    exact hcovered
  | call gasLimit =>
    cases hstep
    refine ⟨(by decide : (0 : Int) < 2 ^ 63), ?_, h⟩
    cases hframes : s.frames with
    | nil =>
      rw [hframes] at h
      exact h.le
    | cons f rest =>
      rw [hframes] at h
      simpa [Gas.new] using h.2.1
  | returnOk =>
    obtain ⟨present, frames⟩ := s
    cases frames with
    | nil => cases hstep
    | cons child frames =>
      cases frames with
      | nil => cases hstep
      | cons parent rest =>
        obtain ⟨gas, hgas, rfl⟩ := Option.map_eq_some_iff.1 hstep
        obtain ⟨hrefunded, hfits⟩ := recordRefund_eq_some hgas
        obtain ⟨-, hsum, -, -, hrest⟩ := h
        refine ⟨hfits, ?_, hrest⟩
        simp only [List.map_cons, List.sum_cons] at hsum ⊢
        omega
  | returnFailed =>
    obtain ⟨present, frames⟩ := s
    cases frames with
    | nil => cases hstep
    | cons child frames =>
      cases frames with
      | nil => cases hstep
      | cons parent rest =>
        cases hstep
        exact h.2.2

theorem Covered.run {ops : List (RefundOp σ)}
    (hslots : ∀ slot value, .sstore slot value ∈ ops → slot ∈ slots)
    (h : Covered spec original slots s.frames s.present)
    (hrun : s.run spec original ops = some s') :
    Covered spec original slots s'.frames s'.present := by
  induction ops generalizing s with
  | nil =>
    cases hrun
    exact h
  | cons op ops ih =>
    simp only [RefundState.run, List.foldlM_cons, Option.bind_eq_bind,
      Option.bind_eq_some_iff] at hrun
    obtain ⟨s₁, hstep, hrest⟩ := hrun
    refine ih (fun slot value hmem => hslots slot value (List.mem_cons_of_mem op hmem))
      (h.step (fun slot value hop => hslots slot value ?_) hstep) hrest
    rw [hop]
    exact List.mem_cons_self

end Frames

end Revm
