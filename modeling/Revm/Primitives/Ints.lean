import Mathlib.Algebra.Group.Int.Defs
import Mathlib.Algebra.Group.Nat.Defs
import Mathlib.Data.Int.Basic
import Mathlib.Order.Lattice

/-!
# Machine integers

Gas, offsets and lengths are `u64` and `usize` (64 bits) in the source and natural numbers here. An
unchecked operation that leaves the range of its type is the result `none`: a debug build panics
there and a release build wraps. Refunds are `i64` in the source and integers here.
-/

set_option autoImplicit false

namespace Revm

variable {x y z : Nat}

/-- `u64::MAX` and `usize::MAX`. -/
def u64Max : Nat := 2 ^ 64 - 1

/-- `x + y` on `u64` and `usize`. -/
def addU64 (x y : Nat) : Option Nat := if x + y ≤ u64Max then some (x + y) else none

/-- `x - y` on `u64` and `usize`. -/
def subU64 (x y : Nat) : Option Nat := if y ≤ x then some (x - y) else none

/-- `x * y` on `u64` and `usize`. -/
def mulU64 (x y : Nat) : Option Nat := if x * y ≤ u64Max then some (x * y) else none

/-- `x.saturating_add(y)`. -/
def saturatingAddU64 (x y : Nat) : Nat := min (x + y) u64Max

/-- `x.saturating_mul(y)`. -/
def saturatingMulU64 (x y : Nat) : Nat := min (x * y) u64Max

/-- `u128::MAX`. -/
def u128Max : Nat := 2 ^ 128 - 1

/-- `x * y` on `u128`, and `checked_mul`. -/
def mulU128 (x y : Nat) : Option Nat := if x * y ≤ u128Max then some (x * y) else none

/-- `x.saturating_add(y)` on `u128`. -/
def saturatingAddU128 (x y : Nat) : Nat := min (x + y) u128Max

/-- `x.saturating_mul(y)` on `u128`. -/
def saturatingMulU128 (x y : Nat) : Nat := min (x * y) u128Max

/-- `x + y` on `i64`. -/
def addI64 (x y : Int) : Option Int :=
  if -2 ^ 63 ≤ x + y ∧ x + y < 2 ^ 63 then some (x + y) else none

/-- `x as u64` for an `i64`. -/
def i64AsU64 (x : Int) : Nat := (x % 2 ^ 64).toNat

/-- `x as i64` for a `u64`. -/
def u64AsI64 (x : Nat) : Int := if x < 2 ^ 63 then x else x - 2 ^ 64

/-- Without overflow the checked sum is the sum. -/
theorem addU64_eq_some (h : x + y ≤ u64Max) : addU64 x y = some (x + y) := if_pos h

theorem subU64_eq_some (h : y ≤ x) : subU64 x y = some (x - y) := if_pos h

theorem of_addU64_eq_some (h : addU64 x y = some z) : z = x + y := by
  unfold addU64 at h
  split_ifs at h
  cases h
  rfl

/-- Said without truncated subtraction. -/
theorem of_subU64_eq_some (h : subU64 x y = some z) : x = z + y := by
  unfold subU64 at h
  split_ifs at h with hle
  cases h
  omega

theorem mulU64_eq_some (h : x * y ≤ u64Max) : mulU64 x y = some (x * y) := if_pos h

/-- Without overflow the checked product is the product. -/
theorem mulU128_eq_some (h : x * y ≤ u128Max) : mulU128 x y = some (x * y) := if_pos h

theorem of_mulU128_eq_some (h : mulU128 x y = some z) : z = x * y ∧ x * y ≤ u128Max := by
  unfold mulU128 at h
  split_ifs at h with hle
  cases h
  exact ⟨rfl, hle⟩

/-- Without overflow nothing is cut off. -/
theorem saturatingMulU128_eq (h : x * y ≤ u128Max) : saturatingMulU128 x y = x * y :=
  Nat.min_eq_left h

theorem addI64_eq_some {x y : Int} (hlow : -2 ^ 63 ≤ x + y) (hhigh : x + y < 2 ^ 63) :
    addI64 x y = some (x + y) := if_pos ⟨hlow, hhigh⟩

/-- The cast wraps negative numbers only. -/
theorem i64AsU64_of_nonneg {x : Int} (hnonneg : 0 ≤ x) (hlt : x < 2 ^ 64) :
    i64AsU64 x = x.toNat := by
  unfold i64AsU64
  rw [Int.emod_eq_of_lt hnonneg hlt]

/-- The cast wraps numbers from `2 ^ 63` on only. -/
theorem u64AsI64_of_lt (h : x < 2 ^ 63) : u64AsI64 x = x := if_pos h

end Revm
