import Revm.Primitives.Ints

/-!
# Gas

`Gas` counts the gas of a frame, `MemoryGas` remembers what the memory of the frame has cost so far.
`memoryGas` is the quadratic price of a memory of a given number of words.
-/

set_option autoImplicit false

namespace Revm

/-! ## The price of memory -/

/-- `gas::MEMORY`. -/
def gasMemory : Nat := 3

/-- `memory_gas`. -/
def memoryGas (numWords : Nat) : Nat :=
  saturatingAddU64 (saturatingMulU64 gasMemory numWords) (saturatingMulU64 numWords numWords / 512)

/-- `num_words`. -/
def numWords (len : Nat) : Nat := saturatingAddU64 len 31 / 32

/-- `MemoryGas`. -/
structure MemoryGas where
  wordsNum : Nat
  expansionCost : Nat
  deriving DecidableEq, Repr

/-- `MemoryGas::new`. -/
def MemoryGas.new : MemoryGas := ⟨0, 0⟩

/-- `record_new_len`: the additional cost, if the memory grows. -/
def MemoryGas.recordNewLen (self : MemoryGas) (newNum : Nat) : Option (Option Nat × MemoryGas) :=
  if newNum ≤ self.wordsNum then some (none, self)
  else do
    let cost := memoryGas newNum
    let additional ← subU64 cost self.expansionCost
    return (some additional, ⟨newNum, cost⟩)

/-! ## The gas of a frame -/

/-- `Gas`. -/
structure Gas where
  limit : Nat
  remaining : Nat
  refunded : Int
  memory : MemoryGas
  deriving DecidableEq, Repr

namespace Gas

variable (self : Gas)

/-- `Gas::new`. -/
def new (limit : Nat) : Gas := ⟨limit, limit, 0, .new⟩

/-- `Gas::new_spent`. -/
def newSpent (limit : Nat) : Gas := ⟨limit, 0, 0, .new⟩

/-- `spent`. -/
def spent : Option Nat := subU64 self.limit self.remaining

/-- `used`. -/
def used : Option Nat := self.spent.map (· - i64AsU64 self.refunded)

/-- `spent_sub_refunded`. -/
def spentSubRefunded : Option Nat := self.spent.map (· - i64AsU64 self.refunded)

/-- `remaining_63_of_64_parts`. -/
def remaining63Of64Parts : Nat := self.remaining - self.remaining / 64

/-- `erase_cost`. -/
def eraseCost (returned : Nat) : Option Gas :=
  (addU64 self.remaining returned).map fun remaining => { self with remaining := remaining }

/-- `spend_all`. -/
def spendAll : Gas := { self with remaining := 0 }

/-- `record_refund`. -/
def recordRefund (refund : Int) : Option Gas :=
  (addI64 self.refunded refund).map fun refunded => { self with refunded := refunded }

/-- `set_final_refund`. -/
def setFinalRefund (isLondon : Bool) : Option Gas :=
  let maxRefundQuotient := if isLondon then 5 else 2
  self.spent.map fun spent =>
    { self with refunded := u64AsI64 (min (i64AsU64 self.refunded) (spent / maxRefundQuotient)) }

/-- `set_refund`. -/
def setRefund (refund : Int) : Gas := { self with refunded := refund }

/-- `set_spent`. -/
def setSpent (spent : Nat) : Gas := { self with remaining := self.limit - spent }

/-- `record_cost`: whether there was enough gas. -/
def recordCost (cost : Nat) : Bool × Gas :=
  if cost ≤ self.remaining then (true, { self with remaining := self.remaining - cost })
  else (false, self)

/-- `record_cost_unsafe`: whether the gas was exceeded; the subtraction wraps then. -/
def recordCostUnsafe (cost : Nat) : Bool × Gas :=
  (self.remaining < cost,
    { self with
      remaining :=
        if cost ≤ self.remaining then self.remaining - cost
        else self.remaining + 2 ^ 64 - cost })

theorem eraseCost_eq_some {self gas : Gas} {returned : Nat}
    (h : self.eraseCost returned = some gas) :
    gas = { self with remaining := self.remaining + returned } := by
  obtain ⟨remaining, hadd, rfl⟩ := Option.map_eq_some_iff.1 h
  rw [of_addU64_eq_some hadd]

theorem recordCost_of_le {self : Gas} {cost : Nat} (h : cost ≤ self.remaining) :
    self.recordCost cost = (true, { self with remaining := self.remaining - cost }) := if_pos h

theorem recordCost_of_lt {self : Gas} {cost : Nat} (h : self.remaining < cost) :
    self.recordCost cost = (false, self) := if_neg (Nat.not_le.2 h)

end Gas

/-! ## Exact values -/

/-- The price of a memory of `w` words, computed without bounds. -/
def memoryPrice (w : Nat) : Nat := 3 * w + w * w / 512

@[simp] theorem memoryPrice_zero : memoryPrice 0 = 0 := by decide

theorem memoryPrice_mono {w w' : Nat} (h : w ≤ w') : memoryPrice w ≤ memoryPrice w' := by
  unfold memoryPrice
  have hsq : w * w ≤ w' * w' := Nat.mul_le_mul h h
  omega

/-- Below `2^32` words nothing saturates. -/
theorem memoryGas_eq_memoryPrice {w : Nat} (h : w < 2 ^ 32) : memoryGas w = memoryPrice w := by
  have hsq : w * w ≤ (2 ^ 32 - 1) * (2 ^ 32 - 1) := Nat.mul_le_mul (by omega) (by omega)
  unfold memoryGas memoryPrice saturatingAddU64 saturatingMulU64 gasMemory u64Max
  omega

/-- From `2^32` words on the price is out of reach, saturated or not. -/
theorem lt_memoryGas {w : Nat} (h : 2 ^ 32 ≤ w) : 2 ^ 40 < memoryGas w := by
  have hsq : 2 ^ 32 * 2 ^ 32 ≤ w * w := Nat.mul_le_mul h h
  unfold memoryGas saturatingAddU64 saturatingMulU64 gasMemory u64Max
  omega

/-- A memory that costs less than `2^40` has less than `2^25` words. -/
theorem lt_of_memoryPrice_lt {w : Nat} (h : memoryPrice w < 2 ^ 40) : w < 2 ^ 25 := by
  by_contra hge
  have hsq : 2 ^ 25 * 2 ^ 25 ≤ w * w := Nat.mul_le_mul (Nat.not_lt.1 hge) (Nat.not_lt.1 hge)
  unfold memoryPrice at h
  omega

end Revm
