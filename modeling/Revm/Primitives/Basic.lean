import Revm.Foundations.BigEndian
import Mathlib.Data.BitVec

/-!
# Primitive types

Words of the EVM, the hard-fork order and the bytecode enum. `U256` arithmetic of the source wraps,
so the balance and storage types are bit vectors. The Keccak hash is not part of the repository; it
enters as the class `Keccak256`.
-/

set_option autoImplicit false

namespace Revm

/-- Account addresses, 20 bytes. -/
abbrev Address := BitVec 160

abbrev U256 := BitVec 256

abbrev B256 := BitVec 256

abbrev StorageKey := U256

abbrev StorageValue := U256

abbrev U64 := BitVec 64

/-- `KECCAK_EMPTY`: the Keccak-256 hash of the empty string. -/
def keccakEmpty : B256 :=
  0xc5d2460186f7233c927e7db2dcc703c0e500b653ca82273b7bfad8045d85a470#256

/-- `PRECOMPILE3`: the address `0x03`, whose touch is never reverted after Spurious Dragon. -/
def precompile3 : Address := 3#160

/-- `checked_add`. -/
def checkedAdd {w : Nat} (x y : BitVec w) : Option (BitVec w) :=
  if x.toNat + y.toNat < 2 ^ w then some (x + y) else none

/-- `checked_sub`. -/
def checkedSub {w : Nat} (x y : BitVec w) : Option (BitVec w) :=
  if y ≤ x then some (x - y) else none

/-- A nonce that was incremented without overflow is not zero. -/
theorem ne_zero_of_checkedAdd_one {x y : U64} (h : checkedAdd x 1 = some y) : y ≠ 0 := by
  unfold checkedAdd at h
  split_ifs at h with hlt
  cases h
  intro hzero
  have hone : (1 : U64).toNat = 1 := rfl
  have hnat : (x.toNat + 1) % 2 ^ 64 = 0 := by
    rw [← hone, ← BitVec.toNat_add, hzero]
    rfl
  omega

/-- `saturating_add`. -/
def saturatingAdd {w : Nat} (x y : BitVec w) : BitVec w :=
  (checkedAdd x y).getD (BitVec.allOnes w)

/-! ## Hard forks -/

/-- `SpecId`, in activation order. -/
inductive SpecId where
  | frontier
  | frontierThawing
  | homestead
  | daoFork
  | tangerine
  | spuriousDragon
  | byzantium
  | constantinople
  | petersburg
  | istanbul
  | muirGlacier
  | berlin
  | london
  | arrowGlacier
  | grayGlacier
  | merge
  | shanghai
  | cancun
  | prague
  | osaka
  | amsterdam
  deriving DecidableEq, Repr

/-- The discriminant `spec as u8`. -/
def SpecId.toNat : SpecId → Nat
  | .frontier => 0
  | .frontierThawing => 1
  | .homestead => 2
  | .daoFork => 3
  | .tangerine => 4
  | .spuriousDragon => 5
  | .byzantium => 6
  | .constantinople => 7
  | .petersburg => 8
  | .istanbul => 9
  | .muirGlacier => 10
  | .berlin => 11
  | .london => 12
  | .arrowGlacier => 13
  | .grayGlacier => 14
  | .merge => 15
  | .shanghai => 16
  | .cancun => 17
  | .prague => 18
  | .osaka => 19
  | .amsterdam => 20

/-- `self.is_enabled_in(other)`: `self` is `other` or a later fork. -/
def SpecId.isEnabledIn (self other : SpecId) : Bool := other.toNat ≤ self.toNat

/-! ## Bytecode -/

/-- `keccak256` on byte strings. -/
class Keccak256 where
  keccak256 : List UInt8 → B256

/-- The `n` low bytes of `x`, big endian. -/
def bigEndianBytes (x : Nat) : Nat → List UInt8
  | 0 => []
  | n + 1 => bigEndianBytes (x / 256) n ++ [UInt8.ofNat x]

theorem length_bigEndianBytes (x n : Nat) : (bigEndianBytes x n).length = n := by
  induction n generalizing x with
  | zero => rfl
  | succ n ih => simp only [bigEndianBytes, List.length_append, ih, List.length_singleton]

theorem value_bigEndianBytes (x n : Nat) : BigEndian.value (bigEndianBytes x n) = x % 256 ^ n := by
  induction n generalizing x with
  | zero => simp only [bigEndianBytes, BigEndian.value_nil, pow_zero, Nat.mod_one]
  | succ n ih =>
    have hbyte : BigEndian.value [UInt8.ofNat x] = x % 256 := by
      simp [BigEndian.value]
    rw [bigEndianBytes, BigEndian.value_append, ih, hbyte, List.length_singleton, pow_one,
      Nat.pow_succ', Nat.mod_mul]
    ring

/-- `Bytecode`: a delegation designator or legacy code. Of the analysed legacy code only the
original bytes are kept; the padding and the jump table are not read by the functions modelled. -/
inductive Bytecode where
  | eip7702 (delegatedAddress : Address) (version : UInt8) (raw : List UInt8)
  | legacyAnalyzed (originalBytes : List UInt8)
  deriving DecidableEq, Repr

namespace Bytecode

/-- `Bytecode::default()`: legacy code of original length zero. -/
def default : Bytecode := .legacyAnalyzed []

/-- `Bytecode::new_eip7702`: the 23 bytes `0xef01 ++ 0x00 ++ address`. -/
def newEip7702 (address : Address) : Bytecode :=
  .eip7702 address 0 ([0xef, 0x01, 0x00] ++ bigEndianBytes address.toNat 20)

def originalByteSlice : Bytecode → List UInt8
  | .eip7702 _ _ raw => raw
  | .legacyAnalyzed bytes => bytes

def isEmpty (code : Bytecode) : Bool := code.originalByteSlice.length == 0

def isEip7702 : Bytecode → Bool
  | .eip7702 .. => true
  | .legacyAnalyzed _ => false

/-- `hash_slow`: the Keccak hash of the original bytes, with the empty code answered directly. -/
def hashSlow [Keccak256] (code : Bytecode) : B256 :=
  if code.isEmpty then keccakEmpty else Keccak256.keccak256 code.originalByteSlice

end Bytecode

end Revm
