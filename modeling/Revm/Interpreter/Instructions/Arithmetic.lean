import Revm.Interpreter.Machine

/-!
# Arithmetic and bitwise instructions

Almost all of them read one, two or three words and write one. `unary`, `binary` and `ternary` are
these families; the functions of the words carry the names of the source.
-/

set_option autoImplicit false

namespace Revm

/-! ## Signed words -/

/-- `Sign`. -/
inductive Sign where
  | minus
  | zero
  | plus
  deriving DecidableEq, Repr

/-- The discriminant of a sign. -/
def Sign.toInt : Sign → Int
  | .minus => -1
  | .zero => 0
  | .plus => 1

/-- `MAX_POSITIVE_VALUE`. -/
def maxPositiveValue : U256 := BitVec.intMax 256

/-- `MIN_NEGATIVE_VALUE`. -/
def minNegativeValue : U256 := BitVec.intMin 256

/-- `i256_sign`. -/
def i256Sign (val : U256) : Sign :=
  if val.msb then .minus else if val = 0 then .zero else .plus

/-- `i256_sign_compl`: the sign and the absolute value. -/
def i256SignCompl (val : U256) : Sign × U256 :=
  (i256Sign val, if i256Sign val = .minus then -val else val)

/-- `u256_remove_sign`. -/
def u256RemoveSign (val : U256) : U256 := val &&& maxPositiveValue

variable (first second : U256)

/-- `i256_cmp`. -/
def i256Cmp : Ordering :=
  (compare (i256Sign first).toInt (i256Sign second).toInt).then
    (compare first.toNat second.toNat)

/-- `i256_div`. -/
def i256Div : U256 :=
  let (secondSign, second) := i256SignCompl second
  if secondSign = .zero then 0
  else
    let (firstSign, first) := i256SignCompl first
    if first = minNegativeValue ∧ second = 1 then -minNegativeValue
    else
      let d := u256RemoveSign (first / second)
      if firstSign = .minus ∧ secondSign ≠ .minus ∨ secondSign = .minus ∧ firstSign ≠ .minus then -d
      else d

/-- `i256_mod`. -/
def i256Mod : U256 :=
  let (firstSign, first) := i256SignCompl first
  if firstSign = .zero then 0
  else
    let (secondSign, second) := i256SignCompl second
    if secondSign = .zero then 0
    else
      let r := u256RemoveSign (first % second)
      if firstSign = .minus then -r else r

/-! ## Families -/

namespace Instructions

variable {ε : Type} {ctx : InstructionContext ε} {w : Bool}

open Program

/-- `*op1 = f(op1)`. -/
def unary (f : U256 → U256) : Program ctx w Unit := do
  let (_, op1) ← popnTop 0
  setTop (f op1)

/-- `*op2 = f(op1, op2)`. -/
def binary (f : U256 → U256 → U256) : Program ctx w Unit := do
  let (op, op2) ← popnTop 1
  setTop (f (op 0) op2)

/-- `*op3 = f(op1, op2, op3)`. -/
def ternary (f : U256 → U256 → U256 → U256) : Program ctx w Unit := do
  let (op, op3) ← popnTop 2
  setTop (f (op 0) (op 1) op3)

/-! ## Arithmetic -/

def add : Program ctx w Unit := binary fun op1 op2 => op1 + op2

def mul : Program ctx w Unit := binary fun op1 op2 => op1 * op2

def sub : Program ctx w Unit := binary fun op1 op2 => op1 - op2

def div : Program ctx w Unit := binary fun op1 op2 => if op2 ≠ 0 then op1 / op2 else op2

def sdiv : Program ctx w Unit := binary i256Div

def rem : Program ctx w Unit := binary fun op1 op2 => if op2 ≠ 0 then op1 % op2 else op2

def smod : Program ctx w Unit := binary i256Mod

/-- `add_mod` answers zero for the modulus zero. -/
def addmod : Program ctx w Unit := ternary fun op1 op2 op3 =>
  if op3 = 0 then 0 else BitVec.ofNat 256 ((op1.toNat + op2.toNat) % op3.toNat)

/-- `mul_mod` answers zero for the modulus zero. -/
def mulmod : Program ctx w Unit := ternary fun op1 op2 op3 =>
  if op3 = 0 then 0 else BitVec.ofNat 256 (op1.toNat * op2.toNat % op3.toNat)

def exp : Program ctx w Unit := do
  let (op, op2) ← popnTop 1
  gasOrFail (expCost ctx.runtimeFlag.specId op2)
  setTop (op 0 ^ op2.toNat)

def signextend : Program ctx w Unit := binary fun ext x =>
  if ext < 31 then
    let bitIndex := 8 * ext.toNat + 7
    let mask : U256 := (1 <<< bitIndex) - 1
    if x.getLsbD bitIndex then x ||| ~~~mask else x &&& mask
  else x

/-! ## Comparison and bits -/

def lt : Program ctx w Unit := binary fun op1 op2 => ofBool (op1 < op2)

def gt : Program ctx w Unit := binary fun op1 op2 => ofBool (op1 > op2)

def slt : Program ctx w Unit := binary fun op1 op2 => ofBool (i256Cmp op1 op2 == .lt)

def sgt : Program ctx w Unit := binary fun op1 op2 => ofBool (i256Cmp op1 op2 == .gt)

def eq : Program ctx w Unit := binary fun op1 op2 => ofBool (op1 == op2)

def iszero : Program ctx w Unit := unary fun op1 => ofBool (op1 == 0)

def bitand : Program ctx w Unit := binary fun op1 op2 => op1 &&& op2

def bitor : Program ctx w Unit := binary fun op1 op2 => op1 ||| op2

def bitxor : Program ctx w Unit := binary fun op1 op2 => op1 ^^^ op2

def not : Program ctx w Unit := unary fun op1 => ~~~op1

def byte : Program ctx w Unit := binary fun op1 op2 =>
  let o1 := asUsizeSaturated op1
  if o1 < 32 then (op2 >>> (8 * (31 - o1))) &&& 0xff else 0

def shl : Program ctx w Unit := do
  check .constantinople
  binary fun op1 op2 =>
    let shift := asUsizeSaturated op1
    if shift < 256 then op2 <<< shift else 0

def shr : Program ctx w Unit := do
  check .constantinople
  binary fun op1 op2 =>
    let shift := asUsizeSaturated op1
    if shift < 256 then op2 >>> shift else 0

def sar : Program ctx w Unit := do
  check .constantinople
  binary fun op1 op2 =>
    let shift := asUsizeSaturated op1
    if shift < 256 then op2.sshiftRight shift
    else if op2.msb then BitVec.allOnes 256
    else 0

def clz : Program ctx w Unit := do
  check .osaka
  unary fun op1 => BitVec.ofNat 256 (if op1 = 0 then 256 else 255 - op1.toNat.log2)

end Instructions

end Revm
