import Mathlib.Data.Nat.Size
import Revm.Handler.Frame

/-!
# The modular exponentiation precompile

`byzantium_run`, `berlin_run` and `osaka_run` share `run_inner`, which reads three 256-bit lengths,
prices the call, and only then copies the operands into a vector of the length that the header
announces. The fork decides the price and, for Osaka, a limit on the lengths.

`none` is a panic: an unchecked operation out of the range of its type, an index out of bounds, or a
vector of more than `isize::MAX` bytes. A run counts the bytes of the vectors that it allocates. The
exponentiation itself is the function `modexp` of the cryptographic backend.
-/

set_option autoImplicit false

namespace Revm

/-! ## 256-bit arithmetic -/

/-- `x + y` on `U256`, where it does not wrap. -/
def addU256 (x y : Nat) : Option Nat := if x + y < 2 ^ 256 then some (x + y) else none

/-- `x - y` on `U256`, where it does not wrap. -/
def subU256 (x y : Nat) : Option Nat := if y ≤ x then some (x - y) else none

/-- `x * y` on `U256`, where it does not wrap. -/
def mulU256 (x y : Nat) : Option Nat := if x * y < 2 ^ 256 then some (x * y) else none

/-- `usize::try_from`. -/
def usizeTryFrom (x : U256) : Option Nat := if x.toNat ≤ u64Max then some x.toNat else none

/-- `isize::MAX`, the largest size of a vector of bytes. -/
def isizeMax : Nat := 2 ^ 63 - 1

namespace ModExp

/-! ## Padding -/

/-- `vec![0; len]`. -/
def vecZeros (len : Nat) : Option (List UInt8) :=
  if len ≤ isizeMax then some (List.replicate len 0) else none

/-- `right_pad`. -/
def rightPad (len : Nat) (data : List UInt8) : List UInt8 :=
  if len ≤ data.length then data.take len else data ++ List.replicate (len - data.length) 0

/-- `right_pad_with_offset`. -/
def rightPadWithOffset (len : Nat) (data : List UInt8) (offset : Nat) : List UInt8 :=
  rightPad len (data.drop offset)

variable (data : List UInt8)

/-- `right_pad_vec`, with the bytes allocated. Data that is long enough is borrowed. -/
def rightPadVec (len : Nat) : Option (List UInt8 × Nat) :=
  if len ≤ data.length then some (data.take len, 0)
  else (vecZeros len).map fun padded => (data ++ padded.drop data.length, len)

/-- `left_pad`. -/
def leftPad (len : Nat) (data : List UInt8) : List UInt8 :=
  if len ≤ data.length then data.take len else List.replicate (len - data.length) 0 ++ data

/-- `left_pad_vec` followed by `into_owned`, with the bytes allocated. -/
def leftPadVec (len : Nat) : Option (List UInt8 × Nat) :=
  if len ≤ data.length then some (data.take len, len)
  else (vecZeros len).map fun padded => (padded.take (len - data.length) ++ data, len)

/-- `split_at`. -/
def splitAt (mid : Nat) : Option (List UInt8 × List UInt8) :=
  if mid ≤ data.length then some (data.take mid, data.drop mid) else none

/-! ## Gas -/

/-- `bit_len`. -/
def bitLen (x : U256) : Nat := x.toNat.size

/-- `calculate_iteration_count`. -/
def calculateIterationCount (multiplier expLength : Nat) (expHighp : U256) : Option Nat := do
  let iterationCount ←
    if expLength ≤ 32 ∧ expHighp = 0 then some 0
    else if expLength ≤ 32 then subU64 (bitLen expHighp) 1
    else if expLength > 32 then do
      let tail ← subU64 expLength 32
      let bits ← subU64 (max 1 (bitLen expHighp)) 1
      some (saturatingAddU64 (saturatingMulU64 multiplier tail) bits)
    else some 0
  return max iterationCount 1

/-- `gas_calc`. -/
def gasCalc (minPrice multiplier gasDivisor : Nat)
    (calculateMultiplicationComplexity : Nat → Option Nat)
    (baseLen expLen modLen : Nat) (expHighp : U256) : Option Nat := do
  let multiplicationComplexity ← calculateMultiplicationComplexity (max baseLen modLen)
  let iterationCount ← calculateIterationCount multiplier expLen expHighp
  let product ← mulU256 multiplicationComplexity iterationCount
  return max minPrice (min (product / gasDivisor) u64Max)

/-- `div_ceil` by 8. -/
def divCeil8 (x : Nat) : Nat := if x % 8 > 0 then x / 8 + 1 else x / 8

/-- The closure of `byzantium_gas_calc`. -/
def byzantiumComplexity (maxLen : Nat) : Option Nat :=
  if maxLen ≤ 64 then mulU64 maxLen maxLen
  else if maxLen ≤ 1024 then do
    let square ← mulU64 maxLen maxLen
    let linear ← mulU64 96 maxLen
    let sum ← addU64 (square / 4) linear
    subU64 sum 3072
  else do
    let square ← mulU256 maxLen maxLen
    let linear ← mulU256 480 maxLen
    let sum ← addU256 (square / 16) linear
    subU256 sum 199680

/-- The closure of `berlin_gas_calc`. -/
def berlinComplexity (maxLen : Nat) : Option Nat := mulU256 (divCeil8 maxLen) (divCeil8 maxLen)

/-- The closure of `osaka_gas_calc`. -/
def osakaComplexity (maxLen : Nat) : Option Nat :=
  if maxLen ≤ 32 then some 16
  else do
    let square ← mulU256 (divCeil8 maxLen) (divCeil8 maxLen)
    mulU256 square 2

/-- `byzantium_gas_calc`. -/
def byzantiumGasCalc : Nat → Nat → Nat → U256 → Option Nat := gasCalc 0 8 20 byzantiumComplexity

/-- `berlin_gas_calc`. -/
def berlinGasCalc : Nat → Nat → Nat → U256 → Option Nat := gasCalc 200 8 3 berlinComplexity

/-- `osaka_gas_calc`. -/
def osakaGasCalc : Nat → Nat → Nat → U256 → Option Nat := gasCalc 500 16 1 osakaComplexity

/-! ## The precompile -/

/-- The result of a run and the bytes that its vectors took. -/
structure Run where
  result : Except PrecompileError PrecompileOutput
  allocated : Nat

/-- `Crypto::modexp`. -/
abbrev Backend := List UInt8 → List UInt8 → List UInt8 → Except PrecompileError (List UInt8)

/-- `eip7823::INPUT_SIZE_LIMIT`. -/
def inputSizeLimit : Nat := 1024

/-- `PrecompileError::ModexpEip7823LimitSize`, which the provider does not tell from other
errors. -/
def modexpEip7823LimitSize : PrecompileError := .other

/-- A run that ends in an error before anything is allocated. -/
def refuse (error : PrecompileError) : Option Run := some ⟨.error error, 0⟩

variable (modexp : Backend) (input : List UInt8)

/-- `run_inner` once the call is paid for. `input` is the input behind the header. -/
def execute (baseLen expLen modLen gasCost : Nat) : Option Run :=
  if baseLen = 0 ∧ modLen = 0 then some ⟨.ok ⟨gasCost, [], false⟩, 0⟩
  else do
    let inputLen := saturatingAddU64 (saturatingAddU64 baseLen expLen) modLen
    let (input, copied) ← rightPadVec input inputLen
    let (base, input) ← splitAt input baseLen
    let (exponent, modulus) ← splitAt input expLen
    -- `debug_assert_eq!(modulus.len(), mod_len)`
    if modulus.length = modLen then
      match modexp base exponent modulus with
      | .error error => some ⟨.error error, copied⟩
      | .ok output => do
          let (padded, owned) ← leftPadVec output modLen
          some ⟨.ok ⟨gasCost, padded, false⟩, copied + output.length + owned⟩
    else none

/-- The 32 high bytes of the exponent, or all of it if it is shorter. -/
def expHighp (input : List UInt8) (baseLen expLen : Nat) : U256 :=
  let rightPaddedHighp := rightPadWithOffset 32 input baseLen
  ofBigEndian (leftPad 32 (rightPaddedHighp.take (min expLen 32)))

/-- `run_inner` between the header and the payment. -/
def price (gasLimit baseLen expLen modLen : Nat)
    (calcGas : Nat → Nat → Nat → U256 → Option Nat) : Option Run := do
  let input := input.drop 96
  let gasCost ← calcGas baseLen expLen modLen (expHighp input baseLen expLen)
  if gasCost > gasLimit then refuse .outOfGas
  else execute modexp input baseLen expLen modLen gasCost

/-- `run_inner`. -/
def runInner (osaka : Bool) (input : List UInt8) (gasLimit minGas : Nat)
    (calcGas : Nat → Nat → Nat → U256 → Option Nat) : Option Run :=
  if minGas > gasLimit then refuse .outOfGas
  else
    let baseLen := ofBigEndian (rightPadWithOffset 32 input 0)
    let expLen := ofBigEndian (rightPadWithOffset 32 input 32)
    let modLen := ofBigEndian (rightPadWithOffset 32 input 64)
    match usizeTryFrom baseLen, usizeTryFrom modLen with
    | some baseLen, some modLen =>
        let expLen := (usizeTryFrom expLen).getD u64Max
        if osaka = true ∧
            (baseLen > inputSizeLimit ∨ modLen > inputSizeLimit ∨ expLen > inputSizeLimit) then
          refuse modexpEip7823LimitSize
        else price modexp input gasLimit baseLen expLen modLen calcGas
    | _, _ => refuse modexpEip7823LimitSize

variable (gasLimit : Nat)

/-- `byzantium_run`. -/
def byzantiumRun : Option Run :=
  runInner modexp false input gasLimit 0 byzantiumGasCalc

/-- `berlin_run`. -/
def berlinRun : Option Run :=
  runInner modexp false input gasLimit 200 berlinGasCalc

/-- `osaka_run`. -/
def osakaRun : Option Run :=
  runInner modexp true input gasLimit 500 osakaGasCalc

end ModExp

end Revm
