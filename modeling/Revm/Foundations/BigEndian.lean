import Mathlib.Data.List.Basic
import Mathlib.Data.List.GetD
import Mathlib.Data.List.Induction
import Mathlib.Tactic.Ring

/-!
# Big-endian numbers in byte strings

The number that a byte string denotes, and the windows of a byte string that is continued with zeros
without end. Reading past the end of the string is reading zeros.
-/

set_option autoImplicit false

open List

namespace BigEndian

/-- The number of a byte string, most significant byte first. -/
def value (bytes : List UInt8) : Nat := bytes.foldl (fun acc byte => acc * 256 + byte.toNat) 0

@[simp] theorem value_nil : value [] = 0 := rfl

/-- The accumulator is shifted by the bytes that follow it. -/
theorem foldl_eq (bytes : List UInt8) (acc : Nat) :
    bytes.foldl (fun acc byte => acc * 256 + byte.toNat) acc =
      acc * 256 ^ bytes.length + value bytes := by
  unfold value
  induction bytes generalizing acc with
  | nil => simp
  | cons byte rest ih =>
    simp only [foldl_cons, length_cons]
    rw [ih, ih (0 * 256 + byte.toNat)]
    ring

theorem value_append (xs ys : List UInt8) :
    value (xs ++ ys) = value xs * 256 ^ ys.length + value ys := by
  conv_lhs => unfold value
  rw [foldl_append, foldl_eq]
  rfl

theorem value_lt (bytes : List UInt8) : value bytes < 256 ^ bytes.length := by
  induction bytes using reverseRecOn with
  | nil => decide
  | append_singleton rest byte ih =>
    rw [value_append, length_append, pow_add]
    have hbyte : value [byte] < 256 := by simpa [value] using byte.toNat_lt
    simp only [length_singleton, pow_one]
    omega

@[simp] theorem value_replicate_zero (n : Nat) : value (replicate n 0) = 0 := by
  induction n with
  | zero => rfl
  | succ n ih => rw [replicate_succ', value_append, ih]; rfl

/-- Leading zeros do not count. -/
theorem value_zeros_append (n : Nat) (bytes : List UInt8) :
    value (replicate n 0 ++ bytes) = value bytes := by
  rw [value_append, value_replicate_zero, Nat.zero_mul, Nat.zero_add]

/-! ## Windows -/

/-- The bytes at `offset, …, offset + len - 1`, with zeros behind the end of the string. -/
def window (bytes : List UInt8) (offset len : Nat) : List UInt8 :=
  (range len).map fun i => bytes.getD (offset + i) 0

section

variable (bytes : List UInt8)

@[simp] theorem length_window (offset len : Nat) : (window bytes offset len).length = len := by
  simp [window]

theorem getElem_window (offset len i : Nat) (h : i < (window bytes offset len).length) :
    (window bytes offset len)[i] = bytes.getD (offset + i) 0 := by
  simp [window]

/-- A window is two adjacent windows. -/
theorem window_add (offset m n : Nat) :
    window bytes offset (m + n) = window bytes offset m ++ window bytes (offset + m) n := by
  simp only [window, range_add, map_append, map_map, Function.comp_def,
    Nat.add_assoc]

theorem window_drop (k offset len : Nat) :
    window (bytes.drop k) offset len = window bytes (k + offset) len := by
  simp only [window, getD_eq_getElem?_getD, getElem?_drop, Nat.add_assoc]

/-- A window from the start is a cut of the string, or the string and zeros. -/
theorem window_zero (len : Nat) : window bytes 0 len =
      if len ≤ bytes.length then bytes.take len
      else bytes ++ replicate (len - bytes.length) 0 := by
  apply ext_getElem
  · split_ifs <;> simp <;> omega
  · intro i hi hi'
    rw [getElem_window, Nat.zero_add]
    have hlen : i < len := by simpa using hi
    split_ifs with h
    · rw [getElem_take, getD_eq_getElem _ _ (by omega)]
    · by_cases hin : i < bytes.length
      · rw [getElem_append_left hin, getD_eq_getElem _ _ hin]
      · rw [getElem_append_right (by omega), getElem_replicate,
          getD_eq_default _ _ (by omega)]

theorem take_window (offset m len : Nat) (h : m ≤ len) :
    (window bytes offset len).take m = window bytes offset m := by
  obtain ⟨n, rfl⟩ := Nat.exists_eq_add_of_le h
  rw [window_add, take_left' (length_window ..)]

theorem drop_window (offset m n : Nat) :
    (window bytes offset (m + n)).drop m = window bytes (offset + m) n := by
  rw [window_add, drop_left' (length_window ..)]

end

/-- Nothing is read from the empty string. -/
theorem value_window_nil (offset len : Nat) : value (window [] offset len) = 0 := by
  have h : window [] offset len = replicate len 0 := by
    simp [window, map_const']
  rw [h, value_replicate_zero]

end BigEndian
