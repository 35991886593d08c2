import Revm.Foundations.BigEndian
import Revm.Primitives.Basic
import Mathlib.Tactic.Common

/-!
# The stack

`Stack` is the stack of a frame with the limit of 1024 words, which every operation keeps. The top
of the stack is the head of the list. Conversions between words, bytes and machine integers are here
as well.
-/

set_option autoImplicit false

namespace Revm

/-- `STACK_LIMIT`. -/
def stackLimit : Nat := 1024

/-- `Stack`. -/
structure Stack where
  data : List U256
  bound : data.length ≤ stackLimit

namespace Stack

variable (self : Stack)

/-- `Stack::new`. -/
def new : Stack := ⟨[], Nat.zero_le _⟩

/-- `popn`: the popped words, the former top first. -/
def popn (n : Nat) : Option ((Fin n → U256) × Stack) :=
  if h : n ≤ self.data.length then
    some (fun i => self.data.get ⟨i, by omega⟩,
      ⟨self.data.drop n, by rw [List.length_drop]; have := self.bound; omega⟩)
  else none

/-- A write through the reference to the top that `popn_top` answers. -/
def setTop (value : U256) : Stack :=
  ⟨self.data.set 0 value, by rw [List.length_set]; exact self.bound⟩

/-- `push`. -/
def push (value : U256) : Option Stack :=
  if h : self.data.length < stackLimit then some ⟨value :: self.data, h⟩ else none

/-- `dup`: `none` stands for `false`. -/
def dup (n : Nat) : Option Stack := do
  let value ← self.data[n - 1]?
  self.push value

/-- `exchange`: swaps the words `n` and `n + m` below the top. -/
def exchange (n m : Nat) : Option Stack := do
  let x ← self.data[n]?
  let y ← self.data[n + m]?
  return ⟨(self.data.set n y).set (n + m) x, by simpa only [List.length_set] using self.bound⟩

end Stack

/-! ## Words -/

/-- `U256::from_be_bytes` and `try_from_be_slice`. -/
def ofBigEndian (bytes : List UInt8) : U256 :=
  BitVec.ofNat 256 (bytes.foldl (fun acc byte => acc * 256 + byte.toNat) 0)

theorem toNat_ofBigEndian {bytes : List UInt8} (h : bytes.length ≤ 32) :
    (ofBigEndian bytes).toNat = BigEndian.value bytes := by
  have hlt : BigEndian.value bytes < 2 ^ 256 :=
    calc BigEndian.value bytes < 256 ^ bytes.length := BigEndian.value_lt bytes
      _ ≤ 256 ^ 32 := Nat.pow_le_pow_right (by decide) h
      _ = 2 ^ 256 := by norm_num
  exact Nat.mod_eq_of_lt hlt

/-- `to_be_bytes`. -/
def toBigEndian (value : U256) : List UInt8 := bigEndianBytes value.toNat 32

/-- `into_address`: the low 20 bytes. -/
def intoAddress (value : U256) : Address := value.setWidth 160

/-- `into_word`. -/
def intoWord (address : Address) : U256 := address.setWidth 256

/-- `U256::from(bool)`. -/
def ofBool (b : Bool) : U256 := if b then 1 else 0

end Revm
