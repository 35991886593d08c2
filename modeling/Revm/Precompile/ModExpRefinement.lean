import Revm.Precompile.ModExp

/-!
# The precompile refines the pricing and the meaning of its EIPs

The specification reads the operands over the input continued with zeros, with lengths of any size,
and prices a call over the natural numbers. `ModExp.run_meets_eip` says that below a gas limit of
`2 ^ 50` each of the three forks returns exactly what the specification says, without a panic, and
allocates a number of bytes that is linear in the input and the gas.

The saturated iteration count is the exact one cut at `u64::MAX` (`calculateIterationCount_eq`), and
a count that is cut is too expensive in both. A call that is paid for has operands of a size linear
in its gas (`Fork.length_le_gas`, `Fork.expLen_le_gas`): this is what keeps the sum of the lengths
exact and the vectors small.
-/

set_option autoImplicit false

namespace Revm

open Option BigEndian Nat

variable {data : List UInt8} {x b m : Nat}

namespace ModExp

variable {len gasLimit : Nat} {modexp : Backend} (input : List UInt8)

open BigEndian (value window)

/-! ## Specification -/

/-- The three sets of rules: EIP-198, EIP-2565, and EIP-7883 with EIP-7823. -/
inductive Fork where
  | byzantium
  | berlin
  | osaka
  deriving DecidableEq, Repr

namespace Fork

def minGas : Fork → Nat
  | byzantium => 0
  | berlin => 200
  | osaka => 500

/-- The weight of a byte of the exponent behind the first 32. -/
def multiplier : Fork → Nat
  | byzantium => 8
  | berlin => 8
  | osaka => 16

def divisor : Fork → Nat
  | byzantium => 20
  | berlin => 3
  | osaka => 1

/-- Multiplication complexity. -/
def complexity : Fork → Nat → Nat
  | byzantium, x =>
      if x ≤ 64 then x ^ 2
      else if x ≤ 1024 then x ^ 2 / 4 + 96 * x - 3072
      else x ^ 2 / 16 + 480 * x - 199680
  | berlin, x => ((x + 7) / 8) ^ 2
  | osaka, x => if x ≤ 32 then 16 else 2 * ((x + 7) / 8) ^ 2

/-- The function of the source. -/
def run : Fork → Backend → List UInt8 → Nat → Option Run
  | byzantium => byzantiumRun
  | berlin => berlinRun
  | osaka => osakaRun

end Fork

/-! The operands of a call. -/

def baseLen : Nat := value (window input 0 32)

def expLen : Nat := value (window input 32 32)

def modLen : Nat := value (window input 64 32)

def base : Nat := value (window input 96 (baseLen input))

def exponent : Nat :=
  value (window input (96 + baseLen input) (expLen input))

def modulus : Nat :=
  value (window input (96 + baseLen input + expLen input) (modLen input))

/-- The first 32 bytes of the exponent, or the exponent if it is shorter. -/
def exponentHead : Nat :=
  value (window input (96 + baseLen input) (min (expLen input) 32))

/-- The number of iterations: the position of the highest bit of the head of the exponent, and a
weight for each byte behind the head. -/
def iterations (multiplier expLen head : Nat) : Nat :=
  max 1 (if expLen ≤ 32 then head.log2 else multiplier * (expLen - 32) + head.log2)

/-- The price of a call. -/
def Fork.gas (fork : Fork) (input : List UInt8) : Nat :=
  max fork.minGas
    (fork.complexity (max (baseLen input) (modLen input)) *
      iterations fork.multiplier (expLen input) (exponentHead input) / fork.divisor)

/-- The limit on the lengths, which only Osaka has. -/
def Fork.LengthsAllowed (fork : Fork) (input : List UInt8) : Prop :=
  fork = .osaka → baseLen input ≤ 1024 ∧ expLen input ≤ 1024 ∧ modLen input ≤ 1024

/-- `b ^ e mod m`. It is zero for the modulus zero. -/
def powMod (b e m : Nat) : Nat := if m = 0 then 0 else b ^ e % m

/-- The backend returns the correct value in at most the length of the modulus. -/
def Backend.Correct (modexp : Backend) : Prop :=
  ∀ b e m, ∃ output, modexp b e m = .ok output ∧ output.length ≤ m.length ∧
    value output = powMod (value b) (value e) (value m)

/-- The output of a successful call. -/
structure Output (fork : Fork) (input : List UInt8) (output : PrecompileOutput) : Prop where
  gasUsed : output.gasUsed = fork.gas input
  length : output.bytes.length = modLen input
  value : value output.bytes = powMod (base input) (exponent input) (modulus input)
  success : output.reverted = false

/-! ## Padding -/

theorem rightPadWithOffset_eq (len : Nat) (data : List UInt8) (offset : Nat) :
    rightPadWithOffset len data offset = window data offset len := by
  rw [← add_zero offset, ← window_drop, window_zero]
  rfl

theorem rightPadVec_eq (data : List UInt8) (hlen : len ≤ isizeMax) :
    ∃ copied, rightPadVec data len = some (window data 0 len, copied) ∧ copied ≤ len := by
  unfold rightPadVec vecZeros
  rw [window_zero]
  split_ifs with h
  · exact ⟨0, rfl, zero_le _⟩
  · refine ⟨len, ?_, le_refl _⟩
    simp only [map_some, List.drop_replicate]

theorem value_leftPad (h : data.length ≤ len) :
    value (leftPad len data) = value data ∧ (leftPad len data).length = len := by
  unfold leftPad
  split_ifs with hlen
  · rw [List.take_of_length_le h]
    exact ⟨rfl, by omega⟩
  · refine ⟨value_zeros_append _ _, ?_⟩
    simp only [List.length_append, List.length_replicate]
    omega

theorem leftPadVec_eq (hlen : len ≤ isizeMax) :
    leftPadVec data len = some (leftPad len data, len) := by
  unfold leftPadVec leftPad vecZeros
  split_ifs
  · rfl
  · simp only [map_some, List.take_replicate]
    rw [min_eq_left (by omega)]

/-- The head of the exponent that the source prices is the one of the specification. The input is
cut behind the header, so the offset is relative. -/
theorem toNat_expHighp (offset len : Nat) : (expHighp (input.drop 96) offset len).toNat =
      value (window input (96 + offset) (min len 32)) := by
  dsimp only [expHighp]
  rw [rightPadWithOffset_eq, take_window _ _ _ _ (min_le_right _ _),
    window_drop]
  have hlen : (window input (96 + offset) (min len 32)).length ≤ 32 := by
    rw [length_window]
    exact min_le_right _ _
  obtain ⟨hvalue, hlength⟩ := value_leftPad hlen
  rw [toNat_ofBigEndian hlength.le, hvalue]

/-! ## Gas -/

theorem size_sub_one (n : Nat) : n.size - 1 = n.log2 := by
  rcases Nat.eq_zero_or_pos n with rfl | hpos
  · rfl
  · have hsize : n.size ≤ n.log2 + 1 := size_le.2 lt_log2_self
    have hlog : n.log2 < n.size := lt_size.2 (log2_self_le hpos.ne')
    omega

/-- The saturated count is the exact one, cut at `u64::MAX`. An exponent length that was itself cut
is so large that the count is cut in both. -/
theorem calculateIterationCount_eq {multiplier : Nat} (hmult : 2 ≤ multiplier) (len : Nat)
    (head : U256) : calculateIterationCount multiplier (min len u64Max) head =
      some (min (iterations multiplier len head.toNat) u64Max) := by
  have hbits : bitLen head - 1 = head.toNat.log2 := size_sub_one _
  have hlog : head.toNat.log2 < 256 :=
    if h : head.toNat = 0 then by rw [h]; decide else (log2_lt h).2 head.isLt
  have hmax : u64Max = 2 ^ 64 - 1 := rfl
  unfold calculateIterationCount iterations
  by_cases hlen : len ≤ 32
  · have hcut : min len u64Max ≤ 32 := by omega
    simp only [hcut, hlen, true_and, if_true]
    split_ifs with hzero
    · subst hzero
      rfl
    · have hpos : 1 ≤ bitLen head := by
        have hne : head.toNat ≠ 0 := fun h => hzero (BitVec.eq_of_toNat_eq h)
        exact one_le_iff_ne_zero.2 fun h => hne (size_eq_zero.1 h)
      rw [subU64_eq_some hpos, hbits]
      simp only [bind_eq_bind, bind_some, pure_def, some.injEq]
      omega
  · have hcut : ¬ min len u64Max ≤ 32 := by omega
    have hgt : min len u64Max > 32 := by omega
    have hbits' : max 1 (bitLen head) - 1 = head.toNat.log2 := by omega
    simp only [hcut, hlen, false_and, if_false, hgt, if_true]
    rw [subU64_eq_some (by omega), subU64_eq_some (le_max_left _ _), hbits']
    simp only [bind_eq_bind, bind_some, pure_def, some.injEq, saturatingAddU64, saturatingMulU64]
    rcases le_total len u64Max with hle | hle
    · rw [min_eq_left hle]
      omega
    · -- both products are at least `u64::MAX`
      have hcode : u64Max ≤ multiplier * (u64Max - 32) :=
        calc u64Max ≤ 2 * (u64Max - 32) := by omega
          _ ≤ multiplier * (u64Max - 32) := mul_le_mul_right _ hmult
      have hspec : multiplier * (u64Max - 32) ≤ multiplier * (len - 32) :=
        mul_le_mul_left _ (by omega)
      have hone : 1 ≤ u64Max := by omega
      rw [min_eq_right hle]
      clear hmax
      generalize multiplier * (u64Max - 32) = code at hcode hspec ⊢
      omega

namespace Fork

/-- The complexity as the source computes it. -/
def checkedComplexity : Fork → Nat → Option Nat
  | byzantium => byzantiumComplexity
  | berlin => berlinComplexity
  | osaka => osakaComplexity

theorem divCeil8_eq (x : Nat) : divCeil8 x = (x + 7) / 8 := by
  unfold divCeil8
  split_ifs <;> omega

theorem mulU256_eq_some {y : Nat} (h : x * y < 2 ^ 256) : mulU256 x y = some (x * y) := if_pos h

section

variable (fork : Fork)

theorem checkedComplexity_eq (hx : x ≤ u64Max) :
    fork.checkedComplexity x = some (fork.complexity x) := by
  have hmax : u64Max = 2 ^ 64 - 1 := rfl
  have hsquare : x * x ≤ (2 ^ 64 - 1) * (2 ^ 64 - 1) := Nat.mul_le_mul hx hx
  have hwords : (x + 7) / 8 * ((x + 7) / 8) ≤ 2 ^ 61 * 2 ^ 61 :=
    Nat.mul_le_mul (by omega) (by omega)
  cases fork with
  | byzantium =>
    dsimp only [checkedComplexity, byzantiumComplexity, complexity]
    rw [pow_two]
    split_ifs with hsmall hmiddle
    · have h : x * x ≤ 64 * 64 := Nat.mul_le_mul hsmall hsmall
      exact mulU64_eq_some (by omega)
    · have h : x * x ≤ 1024 * 1024 := Nat.mul_le_mul hmiddle hmiddle
      rw [mulU64_eq_some (by omega), mulU64_eq_some (by omega)]
      simp only [bind_eq_bind, bind_some]
      rw [addU64_eq_some (by omega)]
      exact subU64_eq_some (by omega)
    · rw [mulU256_eq_some (by omega), mulU256_eq_some (by omega)]
      simp only [bind_eq_bind, bind_some, addU256, subU256]
      rw [if_pos (by omega)]
      exact if_pos (by omega)
  | berlin =>
    dsimp only [checkedComplexity, berlinComplexity, complexity]
    rw [divCeil8_eq, pow_two]
    exact mulU256_eq_some (by omega)
  | osaka =>
    dsimp only [checkedComplexity, osakaComplexity, complexity]
    rw [divCeil8_eq, pow_two]
    split_ifs
    · rfl
    · rw [mulU256_eq_some (by omega)]
      simp only [bind_eq_bind, bind_some]
      rw [mulU256_eq_some (by omega), mul_comm]

theorem complexity_lt (hx : x ≤ u64Max) : fork.complexity x < 2 ^ 130 := by
  have hmax : u64Max = 2 ^ 64 - 1 := rfl
  have hsquare : x * x ≤ (2 ^ 64 - 1) * (2 ^ 64 - 1) := Nat.mul_le_mul hx hx
  have hwords : (x + 7) / 8 * ((x + 7) / 8) ≤ 2 ^ 61 * 2 ^ 61 :=
    Nat.mul_le_mul (by omega) (by omega)
  cases fork <;> dsimp only [complexity] <;> rw [pow_two]
  · split_ifs <;> omega
  · omega
  · split_ifs <;> omega

theorem complexity_pos (hx : 1 ≤ x) : 1 ≤ fork.complexity x := by
  have hsquare : 1 * 1 ≤ x * x := Nat.mul_le_mul hx hx
  have hwords : 1 * 1 ≤ (x + 7) / 8 * ((x + 7) / 8) := Nat.mul_le_mul (by omega) (by omega)
  cases fork <;> dsimp only [complexity] <;> rw [pow_two]
  · split_ifs <;> omega
  · omega
  · split_ifs <;> omega

/-- A length that is not a `usize` is too expensive. -/
theorem complexity_large (hx : u64Max < x) : 20 * 2 ^ 50 ≤ fork.complexity x := by
  have hmax : u64Max = 2 ^ 64 - 1 := rfl
  have hsquare : 2 ^ 64 * 2 ^ 64 ≤ x * x := Nat.mul_le_mul (by omega) (by omega)
  have hwords : 2 ^ 61 * 2 ^ 61 ≤ (x + 7) / 8 * ((x + 7) / 8) :=
    Nat.mul_le_mul (by omega) (by omega)
  cases fork <;> dsimp only [complexity] <;> rw [pow_two]
  · split_ifs <;> omega
  · omega
  · split_ifs <;> omega

/-- The larger length is linear in the cheapest price for it. -/
theorem length_le_complexity (x : Nat) : x ≤ 64 + fork.complexity x / fork.divisor := by
  have hwords : 24 * ((x + 7) / 8) ≤ (x + 7) / 8 * ((x + 7) / 8) + 144 := by
    generalize (x + 7) / 8 = words
    have hsquare : (0 : ℤ) ≤ ((words : ℤ) - 12) ^ 2 := sq_nonneg _
    zify
    linarith
  cases fork <;> dsimp only [complexity, divisor] <;> rw [pow_two]
  · split_ifs <;> omega
  · omega
  · split_ifs <;> omega

theorem divisor_pos : 1 ≤ fork.divisor := by cases fork <;> decide

theorem divisor_le : fork.divisor ≤ 20 := by cases fork <;> decide

theorem multiplier_le : 8 ≤ fork.multiplier := by cases fork <;> decide

theorem gasCalc_eq (hb : b ≤ u64Max) (hm : m ≤ u64Max) (len : Nat) (head : U256) :
    gasCalc fork.minGas fork.multiplier fork.divisor fork.checkedComplexity b (min len u64Max) m
        head =
      some (max fork.minGas (min (fork.complexity (max b m) *
        min (iterations fork.multiplier len head.toNat) u64Max / fork.divisor) u64Max)) := by
  have hlen : max b m ≤ u64Max := max_le hb hm
  have hmult : 2 ≤ fork.multiplier := le_trans (by decide) fork.multiplier_le
  have hproduct : fork.complexity (max b m) *
      min (iterations fork.multiplier len head.toNat) u64Max < 2 ^ 256 :=
    calc _ ≤ 2 ^ 130 * u64Max :=
          Nat.mul_le_mul (fork.complexity_lt hlen).le (Nat.min_le_right _ _)
      _ < 2 ^ 256 := by decide
  unfold gasCalc
  rw [fork.checkedComplexity_eq hlen, calculateIterationCount_eq hmult]
  simp only [bind_eq_bind, bind_some]
  rw [mulU256_eq_some hproduct]
  rfl

end

end Fork

/-- Below the limit the two cuts change nothing, and a price that is cut is above the limit. -/
theorem cut_gas (c count minGas : Nat) {d limit : Nat} (hd : 1 ≤ d) (hd' : d ≤ 20)
    (hlimit : limit < 2 ^ 50) : let cut := max minGas (min (c * min count u64Max / d) u64Max)
    let exact := max minGas (c * count / d)
    (cut ≤ limit ↔ exact ≤ limit) ∧ (exact ≤ limit → cut = exact) := by
  have hmax : u64Max = 2 ^ 64 - 1 := rfl
  rcases le_total count u64Max with hle | hle
  · rw [min_eq_left hle]
    omega
  rcases Nat.eq_zero_or_pos c with rfl | hpos
  · simp only [zero_mul, Nat.zero_div]
    omega
  · -- a count that was cut costs at least `u64::MAX / 20`
    rw [min_eq_right hle]
    have hcode : 2 ^ 50 ≤ c * u64Max / d := by
      rw [le_div_iff_mul_le hd]
      calc 2 ^ 50 * d ≤ 2 ^ 50 * 20 := mul_le_mul_left _ hd'
        _ ≤ 1 * u64Max := by decide
        _ ≤ c * u64Max := mul_le_mul_right _ hpos
    have hspec : c * u64Max / d ≤ c * count / d :=
      Nat.div_le_div_right (Nat.mul_le_mul_left _ hle)
    generalize c * u64Max / d = q at hcode hspec ⊢
    generalize c * count / d = q' at hspec ⊢
    omega

/-! ## Operands of a call that is paid for -/

/-- Even an exponent of zero costs one iteration. -/
theorem one_le_iterations (multiplier len head : Nat) : 1 ≤ iterations multiplier len head :=
  le_max_left _ _

namespace Fork

variable (fork : Fork) (input : List UInt8)

theorem complexity_le_gas :
    fork.complexity (max (baseLen input) (modLen input)) / fork.divisor ≤ fork.gas input := by
  apply le_trans (Nat.div_le_div_right (Nat.le_mul_of_pos_right _ (one_le_iterations
    fork.multiplier (expLen input) (exponentHead input))))
  exact le_max_right _ _

/-- The gas bounds the lengths, so a run that can be paid is small. -/
theorem length_le_gas : max (baseLen input) (modLen input) ≤ 64 + fork.gas input := by
  have hlength := fork.length_le_complexity (max (baseLen input) (modLen input))
  have hgas := fork.complexity_le_gas input
  omega

/-- A length that is not a `usize` is above every limit. -/
theorem gas_large (h : u64Max < max (baseLen input) (modLen input)) : 2 ^ 50 ≤ fork.gas input := by
  apply le_trans _ (fork.complexity_le_gas input)
  rw [le_div_iff_mul_le fork.divisor_pos]
  calc 2 ^ 50 * fork.divisor ≤ 2 ^ 50 * 20 := mul_le_mul_left _ fork.divisor_le
    _ = 20 * 2 ^ 50 := mul_comm _ _
    _ ≤ _ := fork.complexity_large h

/-- Each byte of the exponent behind the head is paid for, unless nothing is computed. -/
theorem expLen_le_gas (h : 1 ≤ max (baseLen input) (modLen input)) :
    expLen input ≤ 35 + 3 * fork.gas input := by
  have hpaid : iterations fork.multiplier (expLen input) (exponentHead input) / 20 ≤
      fork.gas input :=
    calc _ ≤ 1 * iterations fork.multiplier (expLen input) (exponentHead input) / fork.divisor := by
          rw [one_mul]
          exact div_le_div_left fork.divisor_le fork.divisor_pos
      _ ≤ _ := Nat.div_le_div_right (Nat.mul_le_mul_right _ (fork.complexity_pos h))
      _ ≤ fork.gas input := le_max_right _ _
  have hcount : expLen input ≤ 32 ∨
      8 * (expLen input - 32) ≤ iterations fork.multiplier (expLen input) (exponentHead input) := by
    by_cases hlen : expLen input ≤ 32
    · exact .inl hlen
    · right
      have hweight : 8 * (expLen input - 32) ≤ fork.multiplier * (expLen input - 32) :=
        mul_le_mul_right _ fork.multiplier_le
      unfold iterations
      rw [if_neg hlen]
      omega
  omega

end Fork

/-- Where there is something to compute there is an input. -/
theorem input_ne_nil {input : List UInt8} (h : 1 ≤ max (baseLen input) (modLen input)) :
    1 ≤ input.length := by
  rcases input with - | ⟨byte, rest⟩
  · simp only [baseLen, modLen, value_window_nil] at h
    omega
  · exact succ_le_succ (zero_le _)

/-! ## The run -/

theorem execute_eq (hmodexp : modexp.Correct) (input : List UInt8)
    {e : Nat} (gas : Nat) (hlen : b + e + m ≤ isizeMax) (hne : ¬ (b = 0 ∧ m = 0)) :
    ∃ bytes allocated,
      execute modexp (input.drop 96) b e m gas = some ⟨.ok ⟨gas, bytes, false⟩, allocated⟩ ∧
      bytes.length = m ∧
      value bytes = powMod (value (window input 96 b)) (value (window input (96 + b) e))
        (value (window input (96 + b + e) m)) ∧
      allocated ≤ b + e + 3 * m := by
  have hmax : isizeMax = 2 ^ 63 - 1 := rfl
  have hmax' : u64Max = 2 ^ 64 - 1 := rfl
  have hsum : saturatingAddU64 (saturatingAddU64 b e) m = b + (e + m) := by
    simp only [saturatingAddU64]
    omega
  obtain ⟨copied, hpad, hcopied⟩ :=
    rightPadVec_eq (input.drop 96) (show b + (e + m) ≤ isizeMax by omega)
  obtain ⟨output, hrun, houtput, hvalue⟩ := hmodexp (window input 96 b) (window input (96 + b) e)
    (window input (96 + b + e) m)
  rw [length_window] at houtput
  obtain ⟨hpadded, hlength⟩ := value_leftPad houtput
  refine ⟨leftPad m output, copied + output.length + m, ?_, hlength, hpadded.trans hvalue, by omega⟩
  rw [window_drop, add_zero] at hpad
  have hsplit : splitAt (window input 96 (b + (e + m))) b =
      some (window input 96 b, window input (96 + b) (e + m)) := by
    unfold splitAt
    rw [if_pos (by rw [length_window]; omega),
      take_window _ _ _ _ (by omega), drop_window]
  have hsplit' : splitAt (window input (96 + b) (e + m)) e =
      some (window input (96 + b) e, window input (96 + b + e) m) := by
    unfold splitAt
    rw [if_pos (by rw [length_window]; omega),
      take_window _ _ _ _ (by omega), drop_window]
  unfold execute
  rw [if_neg hne]
  simp only [hsum, hpad, hsplit, hsplit', bind_eq_bind, bind_some,
    length_window, if_true, hrun, leftPadVec_eq (show m ≤ isizeMax by omega)]

/-- What a run must return below a gas limit. -/
structure Refines (fork : Fork) (input : List UInt8) (gasLimit : Nat) (run : Run) : Prop where
  ok : fork.gas input ≤ gasLimit → fork.LengthsAllowed input →
    ∃ output, run.result = .ok output ∧ Output fork input output
  error : ¬ (fork.gas input ≤ gasLimit ∧ fork.LengthsAllowed input) →
    ∃ error, run.result = .error error
  allocated : run.allocated ≤ 300 * (input.length + fork.gas input)

/-- A call that must fail may be refused. -/
theorem Refines.refuse {fork : Fork} {input : List UInt8} (error : PrecompileError)
    (h : fork.gas input ≤ gasLimit → fork.LengthsAllowed input → False) :
    ∃ run, ModExp.refuse error = some run ∧ Refines fork input gasLimit run :=
  ⟨_, rfl, fun hgas hlen => (h hgas hlen).elim, fun _ => ⟨error, rfl⟩, zero_le _⟩

theorem usizeTryFrom_header {input : List UInt8} {offset : Nat} :
    usizeTryFrom (ofBigEndian (rightPadWithOffset 32 input offset)) =
      if value (window input offset 32) ≤ u64Max then some (value (window input offset 32))
      else none := by
  rw [rightPadWithOffset_eq]
  unfold usizeTryFrom
  rw [toNat_ofBigEndian (length_window ..).le]

theorem usize_getD (n : Nat) :
    (if n ≤ u64Max then some n else none).getD u64Max = min n u64Max := by
  split_ifs with h
  · exact (min_eq_left h).symm
  · exact (Nat.min_eq_right (Nat.le_of_not_le h)).symm

/-- The call is paid for: the operands fit, so the backend is asked for the right value. -/
theorem execute_refines (hmodexp : modexp.Correct) {fork : Fork}
    {input : List UInt8} (hlimit : gasLimit < 2 ^ 50)
    (hgas : fork.gas input ≤ gasLimit) (hallowed : fork.LengthsAllowed input) :
    ∃ run, execute modexp (input.drop 96) (baseLen input) (min (expLen input) u64Max)
        (modLen input) (fork.gas input) = some run ∧ Refines fork input gasLimit run := by
  by_cases hempty : baseLen input = 0 ∧ modLen input = 0
  · -- nothing is computed, however long the exponent is
    refine ⟨_, if_pos hempty, ?_, fun h => (h ⟨hgas, hallowed⟩).elim, zero_le _⟩
    intro _ _
    refine ⟨_, rfl, rfl, hempty.2.symm, ?_, rfl⟩
    have hmodulus : modulus input = 0 := by
      unfold modulus
      rw [hempty.2]
      rfl
    rw [hmodulus]
    rfl
  · have hpos : 1 ≤ max (baseLen input) (modLen input) := by omega
    have hlength := fork.length_le_gas input
    have hexp := fork.expLen_le_gas input hpos
    have hinput := input_ne_nil hpos
    have hmax : u64Max = 2 ^ 64 - 1 := rfl
    have hmax' : isizeMax = 2 ^ 63 - 1 := rfl
    rw [min_eq_left (by omega)]
    obtain ⟨bytes, allocated, hrun, hbytes, hvalue, hallocated⟩ :=
      execute_eq hmodexp input (fork.gas input)
        (show baseLen input + expLen input + modLen input ≤ isizeMax by omega) hempty
    refine ⟨_, hrun, ?_, fun h => (h ⟨hgas, hallowed⟩).elim, ?_⟩
    · intro _ _
      exact ⟨_, rfl, rfl, hbytes, hvalue, rfl⟩
    · show allocated ≤ _
      omega

theorem price_refines (hmodexp : modexp.Correct) {fork : Fork} {input : List UInt8}
    (hlimit : gasLimit < 2 ^ 50) (hbase : baseLen input ≤ u64Max) (hmod : modLen input ≤ u64Max)
    (hallowed : fork.LengthsAllowed input) :
    ∃ run, price modexp input gasLimit (baseLen input) (min (expLen input) u64Max) (modLen input)
        (gasCalc fork.minGas fork.multiplier fork.divisor fork.checkedComplexity) = some run ∧
      Refines fork input gasLimit run := by
  have hhead : (expHighp (input.drop 96) (baseLen input) (min (expLen input) u64Max)).toNat =
      exponentHead input := by
    have hmin : min (min (expLen input) u64Max) 32 = min (expLen input) 32 := by
      have hmax : u64Max = 2 ^ 64 - 1 := rfl
      omega
    rw [toNat_expHighp, hmin]
    rfl
  obtain ⟨hiff, heq⟩ := cut_gas (fork.complexity (max (baseLen input) (modLen input)))
    (iterations fork.multiplier (expLen input) (exponentHead input)) fork.minGas
    fork.divisor_pos fork.divisor_le hlimit
  dsimp only [price]
  rw [fork.gasCalc_eq hbase hmod, hhead]
  simp only [bind_eq_bind, bind_some]
  change (_ ↔ fork.gas input ≤ gasLimit) at hiff
  change fork.gas input ≤ gasLimit → _ = fork.gas input at heq
  split_ifs with hcost
  · apply Refines.refuse
    intro hgas _
    exact absurd (hiff.2 hgas) (not_le.2 hcost)
  · have hgas : fork.gas input ≤ gasLimit := hiff.1 (Nat.le_of_not_lt hcost)
    rw [heq hgas]
    exact execute_refines hmodexp hlimit hgas hallowed

theorem Fork.run_eq (fork : Fork) (modexp : Backend) (input : List UInt8) (gasLimit : Nat) :
    fork.run modexp input gasLimit =
      runInner modexp (decide (fork = .osaka)) input gasLimit fork.minGas
        (gasCalc fork.minGas fork.multiplier fork.divisor fork.checkedComplexity) := by
  cases fork <;> rfl

/-- Each fork returns what its EIPs say, for every input and every gas limit below `2 ^ 50`. Nothing
panics, and the vectors take a number of bytes that is linear in the input and the price. -/
theorem run_meets_eip (modexp : Backend) (hmodexp : modexp.Correct) (fork : Fork)
    (input : List UInt8) (gasLimit : Nat) (hlimit : gasLimit < 2 ^ 50) :
    ∃ run, fork.run modexp input gasLimit = some run ∧ Refines fork input gasLimit run := by
  rw [fork.run_eq]
  dsimp only [runInner]
  have hbaseLen : usizeTryFrom (ofBigEndian (rightPadWithOffset 32 input 0)) =
      if baseLen input ≤ u64Max then some (baseLen input) else none := usizeTryFrom_header
  have hmodLen : usizeTryFrom (ofBigEndian (rightPadWithOffset 32 input 64)) =
      if modLen input ≤ u64Max then some (modLen input) else none := usizeTryFrom_header
  rw [hbaseLen, hmodLen, usizeTryFrom_header]
  by_cases hmin : fork.minGas > gasLimit
  · rw [if_pos hmin]
    apply Refines.refuse
    intro hgas _
    have hle : fork.minGas ≤ fork.gas input := le_max_left _ _
    omega
  rw [if_neg hmin]
  -- a length that does not fit is refused, and it is too expensive
  by_cases hbase : baseLen input ≤ u64Max
  swap
  · rw [if_neg hbase]
    apply Refines.refuse
    intro hgas _
    have hlarge := fork.gas_large input (by omega)
    omega
  by_cases hmod : modLen input ≤ u64Max
  swap
  · rw [if_pos hbase, if_neg hmod]
    apply Refines.refuse
    intro hgas _
    have hlarge := fork.gas_large input (by omega)
    omega
  rw [if_pos hbase, if_pos hmod]
  dsimp only
  rw [usize_getD, show value (window input 32 32) = expLen input from rfl]
  have hmax : u64Max = 2 ^ 64 - 1 := rfl
  have hsize : inputSizeLimit = 1024 := rfl
  split_ifs with hsizes
  · apply Refines.refuse
    intro _ hallowed
    obtain ⟨hb, he, hm⟩ := hallowed (of_decide_eq_true hsizes.1)
    omega
  · refine price_refines hmodexp hlimit hbase hmod ?_
    intro hosaka
    have hnot : ¬ (baseLen input > inputSizeLimit ∨ modLen input > inputSizeLimit ∨
        min (expLen input) u64Max > inputSizeLimit) :=
      fun h => hsizes ⟨decide_eq_true hosaka, h⟩
    omega

/-! ## A backend and a call -/

theorem powMod_lt (b e : Nat) (m : List UInt8) : powMod b e (value m) < 256 ^ m.length := by
  unfold powMod
  split_ifs with h
  · exact Nat.pow_pos (by decide)
  · exact lt_trans (mod_lt _ (pos_of_ne_zero h)) (value_lt m)

/-- A backend that returns the value in the length of the modulus. -/
def exactBackend : Backend := fun b e m =>
  .ok (bigEndianBytes (powMod (value b) (value e) (value m)) m.length)

theorem exactBackend_correct : exactBackend.Correct := by
  intro b e m
  refine ⟨_, rfl, (length_bigEndianBytes _ _).le, ?_⟩
  rw [value_bigEndianBytes]
  exact mod_eq_of_lt (powMod_lt _ _ _)

/-- The input for `3 ^ 2 mod 5`, with a modulus of two bytes of which the input has one. -/
def squareInput : List UInt8 :=
  bigEndianBytes 1 32 ++ bigEndianBytes 1 32 ++ bigEndianBytes 2 32 ++ [3, 2, 5]

/-- The modulus is read as `5 * 256`, and the price is the minimum of Berlin. -/
theorem run_meets_eip_square : ∃ run, Fork.berlin.run exactBackend squareInput 1000 = some run ∧
      ∃ output, run.result = .ok output ∧ output.gasUsed = 200 ∧ output.bytes.length = 2 ∧
        value output.bytes = 3 ^ 2 % (5 * 256) := by
  obtain ⟨run, hrun, hrefines⟩ :=
    run_meets_eip exactBackend exactBackend_correct .berlin squareInput 1000 (by decide)
  obtain ⟨output, hresult, houtput⟩ := hrefines.ok (by decide +kernel) (fun h => nomatch h)
  have hgas : Fork.berlin.gas squareInput = 200 := by decide +kernel
  have hlen : modLen squareInput = 2 := by decide +kernel
  have hvalue : powMod (base squareInput) (exponent squareInput) (modulus squareInput) =
      3 ^ 2 % (5 * 256) := by decide +kernel
  exact ⟨run, hrun, output, hresult, houtput.gasUsed.trans hgas, houtput.length.trans hlen,
    houtput.value.trans hvalue⟩

end ModExp

end Revm
