import Revm.Primitives.Basic
import Mathlib.Data.List.GetD
import Mathlib.Tactic.Common

/-!
# Bytecode analysis

`analyzeLegacy` walks over a byte string once. It marks every `JUMPDEST` that starts an instruction
in a table of bits and pads the code, so that the last instruction is followed by a `STOP`.

The walk is `Reaches`: from the start of an instruction to the start of the next one. The jump table
holds exactly the `JUMPDEST`s that the walk from zero meets (`isValid_jumpTable`), and an
instruction of the padded code that is not a `STOP` has another one behind it (`padded_fits`).
-/

set_option autoImplicit false

namespace Revm

open List UInt8

variable {n : Nat}

namespace Opcode

def stop : UInt8 := 0x00
def jumpdest : UInt8 := 0x5b
def push1 : UInt8 := 0x60

end Opcode

/-! ## Jump tables -/

/-- `BitVec<u8, Lsb0>` of length `n`: bit `i` is bit `i % 8` of the byte `i / 8`. -/
structure JumpBits (n : Nat) where
  bytes : List UInt8
  bound : n ≤ 8 * bytes.length

namespace JumpBits

/-- `bitvec![u8, Lsb0; 0; n]`. -/
def zeros (n : Nat) : JumpBits n where
  bytes := List.replicate ((n + 7) / 8) 0
  bound := by rw [List.length_replicate]; omega

variable (bits : JumpBits n)

/-- `set_unchecked(i, true)`. -/
def set (i : Nat) : JumpBits n where
  bytes := bits.bytes.modify (i / 8) (· ||| (1 <<< ofNat (i % 8)))
  bound := by rw [List.length_modify]; exact bits.bound

/-- Bit `i`. -/
def test (i : Nat) : Bool :=
  (bits.bytes.getD (i / 8) 0) &&& (1 <<< ofNat (i % 8)) != 0

theorem or_and (b x y : UInt8) : (b ||| x) &&& y = (b &&& y) ||| (x &&& y) := by
  apply UInt8.eq_of_toBitVec_eq
  simp only [UInt8.toBitVec_and, UInt8.toBitVec_or]
  ext i hi
  simp only [BitVec.getElem_and, BitVec.getElem_or, Bool.and_or_distrib_right]

/-- Two bits of a byte do not meet. -/
theorem shift_and_shift {i j : Nat} (hi : i < 8) (hj : j < 8) (h : i ≠ j) (b : UInt8) :
    (b ||| (1 <<< UInt8.ofNat i)) &&& (1 <<< UInt8.ofNat j) = b &&& (1 <<< UInt8.ofNat j) := by
  have key : ∀ (i j : Fin 8), i ≠ j →
      (1 <<< ofNat i) &&& (1 <<< ofNat j) = (0 : UInt8) := by decide
  have hdisjoint := key ⟨i, hi⟩ ⟨j, hj⟩ (fun h' => h (Fin.val_eq_of_eq h'))
  rw [or_and, hdisjoint, UInt8.or_zero]

theorem shift_and_self {i : Nat} (hi : i < 8) (b : UInt8) :
    (b ||| (1 <<< ofNat i)) &&& (1 <<< ofNat i) ≠ 0 := by
  have key : ∀ i : Fin 8, (1 <<< ofNat i : UInt8) ≠ 0 := by decide
  rw [or_and, UInt8.and_self, ne_eq, UInt8.or_eq_zero_iff]
  exact fun h => key ⟨i, hi⟩ h.2

@[simp] theorem test_zeros (n i : Nat) : (zeros n).test i = false := by
  have hzero : (zeros n).bytes.getD (i / 8) 0 = 0 := by
    rw [getD_eq_getElem?_getD, zeros, getElem?_replicate]
    split_ifs <;> rfl
  rw [test, hzero, UInt8.zero_and]
  rfl

theorem test_set {i : Nat} (hi : i < n) (j : Nat) :
    (bits.set i).test j = (bits.test j || (j == i)) := by
  have hlt : i / 8 < bits.bytes.length := by have := bits.bound; omega
  have hget : (bits.set i).bytes.getD (j / 8) 0 =
      if i / 8 = j / 8 then bits.bytes.getD (j / 8) 0 ||| (1 <<< ofNat (i % 8))
      else bits.bytes.getD (j / 8) 0 := by
    rw [getD_eq_getElem?_getD, getD_eq_getElem?_getD, set, getElem?_modify]
    split_ifs with hbyte
    · rw [← hbyte, getElem?_eq_getElem hlt]
      rfl
    · cases bits.bytes[j / 8]? <;> rfl
  have hne : i / 8 ≠ j / 8 ∨ i % 8 ≠ j % 8 → (j == i) = false := by
    intro h
    rw [beq_eq_false_iff_ne]
    rintro rfl
    exact h.elim (· rfl) (· rfl)
  unfold test
  rw [hget]
  by_cases hbyte : i / 8 = j / 8
  · rw [if_pos hbyte]
    by_cases hbit : i % 8 = j % 8
    · obtain rfl : j = i := by omega
      rw [bne_iff_ne.2 (shift_and_self (Nat.mod_lt _ (by decide)) _), beq_self_eq_true,
        Bool.or_true]
    · rw [shift_and_shift (Nat.mod_lt _ (by decide)) (Nat.mod_lt _ (by decide)) hbit,
        hne (.inr hbit), Bool.or_false]
  · rw [if_neg hbyte, hne (.inl hbyte), Bool.or_false]

end JumpBits

/-- `JumpTable`. `from_bytes_arc` asserts that the bytes hold all bits. -/
structure JumpTable where
  table : List UInt8
  len : Nat
  bound : len ≤ 8 * table.length

namespace JumpTable

/-- `JumpTable::new`. -/
def new (jumps : JumpBits n) : JumpTable := ⟨jumps.bytes, n, jumps.bound⟩

/-- `is_valid`. -/
def isValid (self : JumpTable) (pc : Nat) : Bool :=
  if h : pc < self.len then
    (self.table.get ⟨pc / 8, by have := self.bound; omega⟩) &&& (1 <<< ofNat (pc % 8)) != 0
  else false

theorem isValid_new (jumps : JumpBits n) (pc : Nat) :
    (new jumps).isValid pc = (decide (pc < n) && jumps.test pc) := by
  unfold isValid new JumpBits.test
  by_cases h : pc < n
  · have hlt : pc / 8 < jumps.bytes.length := by have := jumps.bound; omega
    rw [dif_pos h, decide_eq_true h, Bool.true_and, get_eq_getElem, getD_eq_getElem _ _ hlt]
  · rw [dif_neg h, decide_eq_false h, Bool.false_and]

end JumpTable

/-! ## The analysis -/

/-- The number of immediate bytes behind an opcode, computed as the analysis does:
`opcode.wrapping_sub(PUSH1) < 32`. -/
def pushLen (opcode : UInt8) : Nat :=
  let pushOffset := opcode - Opcode.push1
  if pushOffset < 32 then pushOffset.toNat + 1 else 0

/-- The loop of `analyze_legacy`: the jumps, the iterator behind the last instruction and the last
opcode. Every iteration moves the iterator, so the length of the code is enough fuel. -/
def analyzeLoop (code : List UInt8) :
    Nat → Nat → JumpBits code.length → UInt8 → JumpBits code.length × Nat × UInt8
  | 0, iterator, jumps, opcode => (jumps, iterator, opcode)
  | fuel + 1, iterator, jumps, opcode =>
      match code[iterator]? with
      | none => (jumps, iterator, opcode)
      | some opcode =>
          if opcode = Opcode.jumpdest then
            analyzeLoop code fuel (iterator + 1) (jumps.set iterator) opcode
          else analyzeLoop code fuel (iterator + 1 + pushLen opcode) jumps opcode

/-- `analyze_legacy`. -/
def analyzeLegacy (code : List UInt8) : JumpTable × List UInt8 :=
  if code.isEmpty then (.new (.zeros 0), [Opcode.stop])
  else
    let (jumps, iterator, opcode) := analyzeLoop code code.length 0 (.zeros code.length) 0
    let padding := iterator - code.length + if opcode ≠ Opcode.stop then 1 else 0
    (.new jumps, code ++ List.replicate padding 0)

/-- The walk over the instructions of `code`, from the start of one to the start of the next. -/
inductive Reaches (code : List UInt8) : Nat → Nat → Prop where
  | refl (i : Nat) : Reaches code i i
  | step {i j : Nat} {opcode : UInt8} (hop : code[i]? = some opcode)
      (rest : Reaches code (i + 1 + pushLen opcode) j) : Reaches code i j

/-- The start of an instruction: the walk from zero reaches it. -/
def InstructionStart (code : List UInt8) (i : Nat) : Prop := Reaches code 0 i

variable {opcode : UInt8}

section Walk

variable {code : List UInt8} {i j k : Nat}

theorem pushLen_jumpdest : pushLen Opcode.jumpdest = 0 := by decide

theorem pushLen_stop : pushLen Opcode.stop = 0 := by decide

theorem Reaches.trans (h : Reaches code i j) (h' : Reaches code j k) : Reaches code i k := by
  induction h with
  | refl _ => exact h'
  | step hop _ ih => exact .step hop (ih h')

theorem Reaches.le (h : Reaches code i j) : i ≤ j := by
  induction h with
  | refl _ => exact Nat.le_refl _
  | step _ _ ih => omega

/-- The instruction behind a start is a start. -/
theorem InstructionStart.next (h : InstructionStart code i)
    (hop : code[i]? = some opcode) : InstructionStart code (i + 1 + pushLen opcode) :=
  Reaches.trans h (.step hop (.refl _))

/-- A walk that stays inside of the code is the same walk in the code with something behind it. -/
theorem reaches_append_iff {rest : List UInt8} (hj : j < code.length) :
    Reaches (code ++ rest) i j ↔ Reaches code i j := by
  constructor
  · intro h
    induction h with
    | refl _ => exact .refl _
    | @step i j opcode hop hrest ih =>
      have hlt : i < code.length := by have := hrest.le; omega
      rw [getElem?_append_left hlt] at hop
      exact .step hop (ih hj)
  · intro h
    induction h with
    | refl _ => exact .refl _
    | @step i j opcode hop hrest ih =>
      have hlt : i < code.length := by have := hrest.le; omega
      exact .step (by rwa [getElem?_append_left hlt]) (ih hj)

end Walk

/-! ## What the loop computes -/

section Loop

variable {code : List UInt8}
variable {fuel iterator : Nat} {jumps : JumpBits code.length} {last : UInt8}

/-- The step of the loop, with the two branches read together. -/
theorem analyzeLoop_succ (hop : code[iterator]? = some opcode) :
    analyzeLoop code (fuel + 1) iterator jumps last =
      analyzeLoop code fuel (iterator + 1 + pushLen opcode)
        (if opcode = Opcode.jumpdest then jumps.set iterator else jumps) opcode := by
  rw [analyzeLoop, hop]
  dsimp only
  by_cases hdest : opcode = Opcode.jumpdest
  · rw [if_pos hdest, if_pos hdest, hdest, pushLen_jumpdest]
  · rw [if_neg hdest, if_neg hdest]

theorem analyzeLoop_of_end (h : code.length ≤ iterator) :
    analyzeLoop code fuel iterator jumps last = (jumps, iterator, last) := by
  cases fuel with
  | zero => rfl
  | succ fuel =>
    rw [analyzeLoop, getElem?_eq_none h]

/-- The table has the bits it had and those of the jump destinations that the walk meets. -/
theorem test_analyzeLoop (hfuel : code.length ≤ iterator + fuel) (j : Nat) :
    (analyzeLoop code fuel iterator jumps last).1.test j = true ↔
      jumps.test j = true ∨ Reaches code iterator j ∧ code[j]? = some Opcode.jumpdest := by
  induction fuel generalizing iterator jumps last with
  | zero =>
    constructor
    · exact Or.inl
    · rintro (h | ⟨hreach, hdest⟩)
      · exact h
      · have hlt := (List.getElem?_eq_some_iff.1 hdest).1
        have hle := hreach.le
        omega
  | succ fuel ih =>
    cases hop : code[iterator]? with
    | none =>
      rw [analyzeLoop_of_end (getElem?_eq_none_iff.1 hop)]
      constructor
      · exact Or.inl
      · rintro (h | ⟨hreach, hdest⟩)
        · exact h
        · have hlt := (List.getElem?_eq_some_iff.1 hdest).1
          have hle := hreach.le
          have hend := getElem?_eq_none_iff.1 hop
          omega
    | some opcode =>
      have hlt := (List.getElem?_eq_some_iff.1 hop).1
      rw [analyzeLoop_succ hop, ih (by omega)]
      -- the walk stands on a jump destination, or it goes on
      have hhere : Reaches code iterator j ∧ code[j]? = some Opcode.jumpdest ↔
          (j = iterator ∧ opcode = Opcode.jumpdest) ∨
            Reaches code (iterator + 1 + pushLen opcode) j ∧ code[j]? = some Opcode.jumpdest := by
        constructor
        · rintro ⟨hreach, hdest⟩
          cases hreach with
          | refl _ =>
            rw [hop] at hdest
            exact .inl ⟨rfl, Option.some.inj hdest⟩
          | step hop' hrest =>
            rw [hop] at hop'
            cases hop'
            exact .inr ⟨hrest, hdest⟩
        · rintro (⟨rfl, rfl⟩ | ⟨hrest, hdest⟩)
          · exact ⟨.refl _, hop⟩
          · exact ⟨.step hop hrest, hdest⟩
      by_cases hdest : opcode = Opcode.jumpdest
      · rw [if_pos hdest, JumpBits.test_set _ hlt, Bool.or_eq_true, beq_iff_eq]
        tauto
      · rw [if_neg hdest]
        tauto

/-- The loop ends behind the last instruction of the walk and answers its opcode. -/
theorem analyzeLoop_last {i : Nat} (hfuel : code.length ≤ iterator + fuel)
    (hreach : Reaches code iterator i) (hop : code[i]? = some opcode)
    (hend : code.length ≤ i + 1 + pushLen opcode) :
    (analyzeLoop code fuel iterator jumps last).2 = (i + 1 + pushLen opcode, opcode) := by
  induction hreach generalizing fuel jumps last with
  | refl i =>
    have hlt := (List.getElem?_eq_some_iff.1 hop).1
    obtain ⟨fuel, rfl⟩ : ∃ n, fuel = n + 1 := ⟨fuel - 1, by omega⟩
    rw [analyzeLoop_succ hop, analyzeLoop_of_end hend]
  | @step iterator i opcode' hop' hrest ih =>
    have hlt := (List.getElem?_eq_some_iff.1 hop').1
    obtain ⟨fuel, rfl⟩ : ∃ n, fuel = n + 1 := ⟨fuel - 1, by omega⟩
    rw [analyzeLoop_succ hop']
    exact ih (by omega) hop hend

end Loop

/-! ## The table and the padded code -/

/-- The padded code. -/
def paddedCode (code : List UInt8) : List UInt8 := (analyzeLegacy code).2

/-- The jump table. -/
def jumpTable (code : List UInt8) : JumpTable := (analyzeLegacy code).1

section

variable (code : List UInt8)

/-- The jump table holds exactly the jump destinations that start an instruction. -/
theorem isValid_jumpTable (i : Nat) : (jumpTable code).isValid i = true ↔
      i < code.length ∧ code[i]? = some Opcode.jumpdest ∧ InstructionStart code i := by
  unfold jumpTable analyzeLegacy
  cases code with
  | nil =>
    rw [if_pos isEmpty_nil, JumpTable.isValid_new]
    simp
  | cons byte rest =>
    rw [if_neg (by simp)]
    rw [JumpTable.isValid_new, Bool.and_eq_true, decide_eq_true_eq,
      test_analyzeLoop (by omega), JumpBits.test_zeros]
    tauto

theorem paddedCode_eq : ∃ padding, paddedCode code = code ++ List.replicate padding 0 := by
  cases code with
  | nil => exact ⟨1, rfl⟩
  | cons byte rest =>
    exact ⟨_, rfl⟩

theorem paddedCode_ne_nil : 0 < (paddedCode code).length := by
  unfold paddedCode analyzeLegacy
  cases code with
  | nil => exact Nat.zero_lt_one
  | cons byte rest =>
    simp

/-- The bytes of the padded code are those of the code followed by zeros. -/
theorem getD_paddedCode (i : Nat) : (paddedCode code).getD i 0 = code.getD i 0 := by
  obtain ⟨padding, h⟩ := paddedCode_eq code
  rw [h]
  rcases Nat.lt_or_ge i code.length with hlt | hge
  · rw [getD_append _ _ _ _ hlt]
  · rw [getD_append_right _ _ _ _ hge, getD_eq_default _ _ hge,
      getD_eq_getElem?_getD, getElem?_replicate]
    split_ifs <;> rfl

end

/-- An instruction of the padded code fits with its immediate bytes, and if it is not a `STOP` there
is another one behind it. -/
theorem padded_fits {code : List UInt8} {i : Nat}
    (hstart : InstructionStart (paddedCode code) i) (hop : (paddedCode code)[i]? = some opcode) :
    i + 1 + pushLen opcode ≤ (paddedCode code).length ∧
      (opcode ≠ Opcode.stop → i + 1 + pushLen opcode < (paddedCode code).length) := by
  obtain ⟨padding, heq⟩ := paddedCode_eq code
  have hlen : i < (paddedCode code).length := (List.getElem?_eq_some_iff.1 hop).1
  rcases Nat.lt_or_ge i code.length with hlt | hge
  · -- an instruction of the code itself
    have hop' : code[i]? = some opcode := by rwa [heq, getElem?_append_left hlt] at hop
    rcases Nat.lt_or_ge (i + 1 + pushLen opcode) code.length with hnext | hend
    · have hcode : code.length ≤ (paddedCode code).length := by rw [heq]; simp
      exact ⟨by omega, fun _ => by omega⟩
    · -- the last one: the padding was computed from its end
      have hreach : Reaches code 0 i := by
        rw [InstructionStart, heq] at hstart
        exact (reaches_append_iff hlt).1 hstart
      have hpadded : (paddedCode code).length =
          i + 1 + pushLen opcode + if opcode ≠ Opcode.stop then 1 else 0 := by
        unfold paddedCode analyzeLegacy
        rw [if_neg (by rw [List.isEmpty_iff]; rintro rfl; simp at hlt)]
        have hlast : (analyzeLoop code code.length 0 (.zeros code.length) 0).2 = _ :=
          analyzeLoop_last (by omega) hreach hop' hend
        obtain ⟨hiterator, hopcode⟩ := Prod.ext_iff.1 hlast
        dsimp only at hiterator hopcode ⊢
        rw [hiterator, hopcode, length_append, length_replicate]
        omega
      rw [hpadded]
      refine ⟨Nat.le_add_right _ _, fun hne => ?_⟩
      rw [if_pos hne]
      exact Nat.lt_succ_self _
  · -- the padding is made of `STOP`s
    have hstop : opcode = Opcode.stop := by
      rw [heq, getElem?_append_right hge, getElem?_replicate] at hop
      split_ifs at hop
      exact (Option.some.inj hop).symm
    rw [hstop, pushLen_stop]
    exact ⟨by omega, fun hne => absurd rfl hne⟩

/-- A valid jump destination starts an instruction of the padded code. -/
theorem isValid_padded {code : List UInt8} {i : Nat} (h : (jumpTable code).isValid i = true) :
    InstructionStart (paddedCode code) i ∧ i < (paddedCode code).length := by
  obtain ⟨hlt, -, hstart⟩ := (isValid_jumpTable code i).1 h
  obtain ⟨padding, heq⟩ := paddedCode_eq code
  rw [heq]
  exact ⟨(reaches_append_iff hlt).2 hstart, by rw [length_append]; omega⟩

/-! ## Bytecode in the interpreter -/

namespace Bytecode

/-- `bytes_ref`: the bytes that the interpreter executes. -/
def bytesRef : Bytecode → List UInt8
  | .eip7702 _ _ raw => raw
  | .legacyAnalyzed originalBytes => paddedCode originalBytes

/-- `legacy_jump_table`. -/
def legacyJumpTable : Bytecode → Option JumpTable
  | .eip7702 .. => none
  | .legacyAnalyzed originalBytes => some (jumpTable originalBytes)

end Bytecode

end Revm
