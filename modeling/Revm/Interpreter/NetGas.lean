import Revm.Interpreter.Refund

/-!
# Net gas of stores

From Istanbul on the price of a store and its refund are two case analyses over the original, the
present and the new value of the slot. Their difference telescopes: `netCost` is a potential of the
slot, and every store to a warm slot costs the price of a read plus the change of this potential. So
what a sequence of stores costs depends on the number of stores, the original value and the last
value only.

The stores are the ones of the journal: `sstoreAll` runs them on a journal whose slot is warm, and
the prices are computed from what the journal answers.
-/

set_option autoImplicit false

namespace Revm

/-! ## The schedule -/

/-- The numbers of the net gas schedule of a fork. -/
structure NetSchedule where
  sload : Int
  reset : Int
  clears : Int

/-- Istanbul, Berlin, and London with its successors. -/
def netSchedule (spec : SpecId) : NetSchedule :=
  if spec.isEnabledIn .london then ⟨100, 2900, 4800⟩
  else if spec.isEnabledIn .berlin then ⟨100, 2900, 15000⟩
  else ⟨800, 5000, 15000⟩

/-- What it has cost, on top of one read per store, to bring a slot from its original value to this
one. -/
def netCost (spec : SpecId) (original value : StorageValue) : Int :=
  let schedule := netSchedule spec
  if value = original then 0
  else if original = 0 then 20000 - schedule.sload
  else if value = 0 then schedule.reset - schedule.sload - schedule.clears
  else schedule.reset - schedule.sload

/-- The static and the dynamic gas of a store, if the dynamic one is in range. -/
def sstoreGas (spec : SpecId) (load : StateLoad SStoreResult) : Option Nat :=
  (dynSstoreCost spec load.data load.isCold).map (staticSstoreCost spec + ·)

/-- No price of a store is below the static part. -/
theorem staticSstoreCost_le (spec : SpecId) (vals : SStoreResult) (isCold : Bool) :
    staticSstoreCost spec ≤ sstoreCost spec vals isCold := by
  unfold staticSstoreCost sstoreCost istanbulSstoreCost frontierSstoreCost
  cases spec.isEnabledIn .berlin with
  | true =>
    simp only [if_true]
    refine le_trans ?_ (Nat.le_add_right _ _)
    split_ifs <;> decide
  | false =>
    cases spec.isEnabledIn .istanbul with
    | true =>
      split_ifs <;> decide
    | false =>
      split_ifs <;> decide

theorem dynSstoreCost_eq_some (spec : SpecId) (vals : SStoreResult) (isCold : Bool) :
    dynSstoreCost spec vals isCold = some (sstoreCost spec vals isCold - staticSstoreCost spec) :=
  subU64_eq_some (staticSstoreCost_le spec vals isCold)

theorem sstoreGas_eq_some (spec : SpecId) (load : StateLoad SStoreResult) :
    sstoreGas spec load = some (sstoreCost spec load.data load.isCold) := by
  unfold sstoreGas
  rw [dynSstoreCost_eq_some, Option.map_some,
    Nat.add_sub_cancel' (staticSstoreCost_le spec load.data load.isCold)]

/-! ## One store -/

section Store

variable {spec : SpecId}

section

variable (h : spec.isEnabledIn .istanbul = true)

include h

/-- The three schedules from Istanbul on. -/
theorem enabled_cases : (spec.isEnabledIn .london = true ∧ spec.isEnabledIn .berlin = true) ∨
      (spec.isEnabledIn .london = false ∧ spec.isEnabledIn .berlin = true) ∨
      (spec.isEnabledIn .london = false ∧ spec.isEnabledIn .berlin = false) := by
  cases spec <;> decide

variable (original present new : StorageValue)

/-- The price of a store to a warm slot. -/
theorem sstoreCost_warm : (sstoreCost spec ⟨original, present, new⟩ false : Int) =
      if new = present then (netSchedule spec).sload
      else if original = present then
        if original = 0 then 20000 else (netSchedule spec).reset
      else (netSchedule spec).sload := by
  unfold sstoreCost istanbulSstoreCost netSchedule
  simp only [SStoreResult.isNewEqPresent, SStoreResult.isOriginalEqPresent,
    SStoreResult.isOriginalZero, beq_iff_eq, Bool.and_eq_true]
  rcases enabled_cases h with ⟨hlondon, hberlin⟩ | ⟨hlondon, hberlin⟩ | ⟨hlondon, hberlin⟩
  · simp only [hlondon, hberlin, if_true, Bool.false_eq_true, if_false, Nat.add_zero]
    split_ifs <;> first | rfl | simp_all
  · simp only [hlondon, hberlin, if_true, Bool.false_eq_true, if_false, Nat.add_zero]
    split_ifs <;> first | rfl | simp_all
  · simp only [hlondon, hberlin, h, if_true, Bool.false_eq_true, if_false]
    split_ifs <;> first | rfl | simp_all

theorem sstoreClearsSchedule_eq : sstoreClearsSchedule spec = (netSchedule spec).clears := by
  unfold sstoreClearsSchedule netSchedule
  rcases enabled_cases h with ⟨hlondon, hberlin⟩ | ⟨hlondon, hberlin⟩ | ⟨hlondon, hberlin⟩ <;>
    rw [hlondon, hberlin] <;> rfl

/-- The refund for a slot that gets its original value back is what the first change has cost. -/
theorem sstoreRestoreRefund_eq : sstoreRestoreRefund spec ⟨original, present, new⟩ =
      if original = new then
        if original = 0 then 20000 - (netSchedule spec).sload
        else (netSchedule spec).reset - (netSchedule spec).sload
      else 0 := by
  unfold sstoreRestoreRefund sloadCost netSchedule
  simp only [SStoreResult.isOriginalEqNew, SStoreResult.isOriginalZero, beq_iff_eq]
  rcases enabled_cases h with ⟨hlondon, hberlin⟩ | ⟨hlondon, hberlin⟩ | ⟨hlondon, hberlin⟩ <;>
    simp only [hlondon, hberlin, h, if_true, Bool.false_eq_true, if_false] <;> rfl

/-- A store to a warm slot costs one read and the change of the potential. -/
theorem sstoreCost_sub_sstoreRefund : (sstoreCost spec ⟨original, present, new⟩ false : Int) -
        sstoreRefund spec ⟨original, present, new⟩ =
      (netSchedule spec).sload + netCost spec original new - netCost spec original present := by
  rw [sstoreCost_warm h, sstoreRefund_istanbul spec h, sstoreRestoreRefund_eq h,
    sstoreClearsSchedule_eq h]
  unfold netCost
  dsimp only
  by_cases hnew : new = present
  · -- the value stays
    subst hnew
    rw [if_pos rfl, if_pos rfl]
    omega
  · rw [if_neg hnew, if_neg hnew]
    by_cases hpresent : original = present
    · -- the first change of the slot
      subst hpresent
      by_cases hzero : original = 0
      · subst hzero
        simp only [if_true, hnew, and_false, if_false, ne_eq, not_true_eq_false, Ne.symm hnew]
        omega
      · simp only [hzero, if_false, true_and, ne_eq, not_false_eq_true, if_true, Ne.symm hnew]
        split_ifs <;> omega
    · rw [if_neg hpresent, if_neg (fun hc => hpresent hc.1)]
      by_cases hrestore : original = new
      · -- the original value comes back
        subst hrestore
        split_ifs <;> first | omega | simp_all
      · rw [if_neg hrestore, if_neg (Ne.symm hrestore), if_neg (Ne.symm hpresent)]
        split_ifs <;> first | omega | simp_all

end

end Store

/-! ## A warm slot of the journal -/

/-- The slot is loaded in this transaction, with these values. -/
def WarmSlot (j : JournalInner) (address : Address) (key : StorageKey)
    (original present : StorageValue) : Prop :=
  ∃ account slot, j.state.lookup address = some account ∧ account.storage.lookup key = some slot ∧
    slot.isColdTransactionId j.transactionId = false ∧
    slot.originalValue = original ∧ slot.presentValue = present

/-- The stores of `values` to one slot, one after the other, with what the journal answers. A failed
load ends the sequence. -/
def sstoreAll {ε : Type} (db : Database ε) (address : Address) (key : StorageKey)
    (skipColdLoad : Bool) : JournalInner → List StorageValue →
    Option (List (StateLoad SStoreResult) × JournalInner)
  | j, [] => some ([], j)
  | j, value :: values => do
      match ← j.sstore db address key value skipColdLoad with
      | (.error _, _) => none
      | (.ok load, j) =>
          let (loads, j) ← sstoreAll db address key skipColdLoad j values
          return (load :: loads, j)

section Journal

variable {ε : Type} (db : Database ε) {address : Address} {key : StorageKey} {j : JournalInner}
  {original present : StorageValue}

/-- A store to a warm slot. -/
theorem WarmSlot.sstore (h : WarmSlot j address key original present) (value : StorageValue)
    (skipColdLoad : Bool) : ∃ j', j.sstore db address key value skipColdLoad =
        some (.ok ⟨⟨original, present, value⟩, false⟩, j') ∧
      WarmSlot j' address key original value := by
  obtain ⟨account, slot, haccount, hslot, hwarm, rfl, rfl⟩ := h
  have hmark : slot.markWarmWithTransactionId j.transactionId = slot := by
    unfold EvmStorageSlot.isColdTransactionId at hwarm
    simp only [Bool.or_eq_false_iff, bne_eq_false_iff_eq] at hwarm
    unfold EvmStorageSlot.markWarmWithTransactionId EvmStorageSlot.isColdTransactionId
    obtain ⟨original, present, transactionId, isCold⟩ := slot
    obtain ⟨rfl, rfl⟩ := hwarm
    simp
  have hload : j.loadSlot db address account key skipColdLoad = .ok (slot, false) := by
    unfold JournalInner.loadSlot
    rw [hslot]
    dsimp only
    rw [hwarm, Bool.and_false, if_neg Bool.false_ne_true, hmark]
  unfold JournalInner.sstore JournalInner.sload
  rw [haccount]
  simp only [Option.bind_eq_bind, Option.bind_some, hload, Bool.false_eq_true, if_false,
    Option.pure_def, JournalInner.setAccount, HashMap.lookup_insert_ite, if_true]
  by_cases hsame : slot.presentValue = value
  · rw [if_pos hsame]
    exact ⟨_, rfl, _, slot, by rw [HashMap.lookup_insert_ite, if_pos rfl],
      by rw [HashMap.lookup_insert_ite, if_pos rfl], hwarm, rfl, hsame⟩
  · rw [if_neg hsame]
    exact ⟨_, rfl, _, { slot with presentValue := value },
      by rw [HashMap.lookup_insert_ite, if_pos rfl], by rw [HashMap.lookup_insert_ite, if_pos rfl],
        hwarm, rfl,
      rfl⟩

/-- The answers of the journal to a sequence of stores cost one read each, and the change of the
potential. -/
theorem WarmSlot.sstoreAll {spec : SpecId} (hspec : spec.isEnabledIn .istanbul = true)
    (skipColdLoad : Bool) (values : List StorageValue) :
    ∀ {j : JournalInner} {present : StorageValue}, WarmSlot j address key original present →
      ∃ loads j' gas, sstoreAll db address key skipColdLoad j values = some (loads, j') ∧
        WarmSlot j' address key original (values.getLastD present) ∧
        loads.mapM (sstoreGas spec) = some gas ∧
        (gas.sum : Int) - (loads.map fun load => sstoreRefund spec load.data).sum =
          values.length * (netSchedule spec).sload +
            (netCost spec original (values.getLastD present) - netCost spec original present) := by
  induction values with
  | nil =>
    intro j present h
    refine ⟨[], j, [], rfl, h, rfl, ?_⟩
    simp
  | cons value values ih =>
    intro j present h
    obtain ⟨j₁, hstore, hwarm⟩ := h.sstore db value skipColdLoad
    obtain ⟨loads, j', gas, hrun, hwarm', hgas, hsum⟩ := ih hwarm
    have hstep := sstoreCost_sub_sstoreRefund hspec original present value
    refine ⟨⟨⟨original, present, value⟩, false⟩ :: loads, j',
      sstoreCost spec ⟨original, present, value⟩ false :: gas, ?_, ?_, ?_, ?_⟩
    · unfold Revm.sstoreAll
      rw [hstore]
      simp only [Option.bind_eq_bind, Option.bind_some, hrun]
      rfl
    · rw [List.getLastD_cons]
      exact hwarm'
    · rw [List.mapM_cons, sstoreGas_eq_some, hgas]
      rfl
    · -- the sum telescopes at the value that is written here
      rw [List.getLastD_cons, List.sum_cons, List.map_cons, List.sum_cons, List.length_cons]
      rw [Nat.cast_add, Nat.cast_add, Nat.cast_one, Int.add_mul]
      dsimp only
      omega

end Journal

/-- What a sequence of stores to a warm slot costs does not depend on the values in between, and no
price of a store is below its static part. -/
theorem sstoreAll_net_gas {ε : Type} (db : Database ε) (spec : SpecId)
    (hspec : spec.isEnabledIn .istanbul = true) {j : JournalInner} {address : Address}
    {key : StorageKey} {original : StorageValue} (hwarm : WarmSlot j address key original original)
    (skipColdLoad : Bool) (values : List StorageValue) (hvalues : values ≠ []) :
    (∃ loads j' gas, sstoreAll db address key skipColdLoad j values = some (loads, j') ∧
      loads.mapM (sstoreGas spec) = some gas ∧
      (gas.sum : Int) - (loads.map fun load => sstoreRefund spec load.data).sum =
        values.length * (netSchedule spec).sload +
          netCost spec original (values.getLast hvalues)) ∧
    ∀ (spec : SpecId) (vals : SStoreResult) (isCold : Bool),
      ∃ cost, dynSstoreCost spec vals isCold = some cost := by
  refine ⟨?_, fun spec vals isCold => ⟨_, dynSstoreCost_eq_some spec vals isCold⟩⟩
  obtain ⟨loads, j', gas, hrun, -, hgas, hsum⟩ :=
    WarmSlot.sstoreAll db hspec skipColdLoad values hwarm
  refine ⟨loads, j', gas, hrun, hgas, ?_⟩
  have hlast : values.getLastD original = values.getLast hvalues := by
    rw [List.getLastD_eq_getLast?, List.getLast?_eq_some_getLast hvalues]
    rfl
  have hstart : netCost spec original original = 0 := if_pos rfl
  rw [hsum, hlast, hstart, Int.sub_zero]

/-- A journal with an account whose slot `1` was loaded with the value `7`. -/
def loadedSlot : JournalInner :=
  (JournalInner.new .london .new).setAccount 1
    { Account.newNotExisting 0 with
      storage := (∅ : EvmStorage).insert 1 (EvmStorageSlot.new 7 0) }

/-- Clearing, changing and restoring the slot costs three reads. -/
theorem sstoreAll_net_gas_restored :
    (∃ loads j' gas, sstoreAll (⟨fun _ => .ok none, fun _ => .ok .default, fun _ _ => .ok 0⟩ :
        Database Empty) 1 1 false loadedSlot [0, 3, 7] = some (loads, j') ∧
      loads.mapM (sstoreGas .london) = some gas ∧
      (gas.sum : Int) - (loads.map fun load => sstoreRefund .london load.data).sum = 300) ∧
    WarmSlot loadedSlot 1 1 7 7 := by
  have hwarm : WarmSlot loadedSlot 1 1 7 7 := ⟨_, _, rfl, rfl, rfl, rfl, rfl⟩
  obtain ⟨loads, j', gas, hrun, hgas, hsum⟩ :=
    (sstoreAll_net_gas ⟨fun _ => .ok none, fun _ => .ok .default, fun _ _ => .ok 0⟩
      .london rfl hwarm false [0, 3, 7] (by decide)).1
  exact ⟨⟨loads, j', gas, hrun, hgas, hsum⟩, hwarm⟩

end Revm
