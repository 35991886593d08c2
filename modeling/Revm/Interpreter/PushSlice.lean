import Revm.Interpreter.InstructionResult
import Revm.Interpreter.Stack

/-!
# Pushing a byte string

`Stack::push_slice` writes the words of a byte string limb by limb behind the words of the stack.
The vector of the stack is modelled as the limbs of its allocation here, where a limb that was never
written has no value and a write outside the allocation has no result.

All writes of one call are one sequence of limbs (`pushSlice_eq`), four to each chunk of 32 bytes,
and the four limbs of a chunk are the number of its bytes (`limbValue_wordLimbs`).
-/

set_option autoImplicit false

namespace Revm

open List Nat

open BigEndian (value)

/-! ## Chunks -/

section Chunks

variable (n : Nat) (bytes : List UInt8)

/-- `chunks_exact`. -/
def chunksExact : List (List UInt8) :=
  (List.range (bytes.length / n)).map fun j => (bytes.drop (n * j)).take n

/-- The remainder of `chunks_exact`. -/
def chunksRemainder : List UInt8 := bytes.drop (n * (bytes.length / n))

/-- `rchunks_exact`: the chunks from the end of the string on. -/
def rchunksExact : List (List UInt8) :=
  (List.range (bytes.length / n)).map fun j => (bytes.drop (bytes.length - n * (j + 1))).take n

/-- The remainder of `rchunks_exact`. -/
def rchunksRemainder : List UInt8 := bytes.take (bytes.length % n)

end Chunks

/-- `u64::from_be_bytes`. -/
def limbOfBytes (bytes : List UInt8) : U64 := BitVec.ofNat 64 (value bytes)

/-! ## The vector of a stack -/

/-- The vector of a stack: the limbs of its allocation, four to a word and the lowest first, and the
number of its words. -/
structure RawStack where
  limbs : List (Option U64)
  len : Nat

namespace RawStack

/-- `Stack::new`. -/
def new : RawStack := ⟨List.replicate (4 * stackLimit) none, 0⟩

/-- A stack with the capacity of `STACK_LIMIT` words, whose words are initialised. -/
structure Valid (stack : RawStack) : Prop where
  capacity : stack.limbs.length = 4 * stackLimit
  bound : stack.len ≤ stackLimit
  initialised : ∀ i < 4 * stack.len, ∃ limb, stack.limbs[i]? = some (some limb)

/-- The number of limbs, the lowest first. -/
def limbValue (limbs : List U64) : Nat := ofDigits (2 ^ 64) (limbs.map BitVec.toNat)

variable (self : RawStack)

/-- The word at an index, if its four limbs are initialised. -/
def word (index : Nat) : Option U256 := do
  let l₀ ← self.limbs[4 * index]?.join
  let l₁ ← self.limbs[4 * index + 1]?.join
  let l₂ ← self.limbs[4 * index + 2]?.join
  let l₃ ← self.limbs[4 * index + 3]?.join
  return BitVec.ofNat 256 (limbValue [l₀, l₁, l₂, l₃])

/-- `dst.add(i).write(limb)` and `i += 1` for each limb. -/
def writeLimbs (dst : Nat) : List U64 → List (Option U64) × Nat → Option (List (Option U64) × Nat)
  | [], s => some s
  | limb :: rest, (limbs, i) =>
      if dst + i < limbs.length then writeLimbs dst rest (limbs.set (dst + i) (some limb), i + 1)
      else none

/-- The partial last limb, padded with zeros. -/
def writePartialLimb (dst : Nat) (partialLastLimb : List UInt8) (s : List (Option U64) × Nat) :
    Option (List (Option U64) × Nat) :=
  if partialLastLimb.isEmpty then some s
  else
    let tmp := List.replicate (8 - partialLastLimb.length) 0 ++ partialLastLimb
    writeLimbs dst [limbOfBytes tmp] s

/-- Zeros in the upper bytes of the last word, after the assertion that not too much was written. -/
def zeroUpper (dst nWords : Nat) (s : List (Option U64) × Nat) : Option (List (Option U64) × Nat) :=
  let m := s.2 % 4
  if (s.2 + 3) / 4 ≠ nWords then none
  else if m ≠ 0 then writeLimbs dst (List.replicate (4 - m) 0) s else some s

/-- `push_slice_`. There is no result where a debug assertion fails or a write is out of bounds. -/
def pushSlice_ (slice : List UInt8) : Option (Bool × RawStack) := do
  if slice.isEmpty then return (true, self)
  let nWords := (slice.length + 31) / 32
  let newLen := self.len + nWords
  if newLen > stackLimit then return (false, self)
  if self.limbs.length < 4 * newLen then none
  let dst := 4 * self.len
  let partialLastWord := chunksRemainder 32 slice
  let s ← (chunksExact 32 slice).foldlM
    (fun s word => writeLimbs dst ((rchunksExact 8 word).map limbOfBytes) s) (self.limbs, 0)
  if partialLastWord.isEmpty then return (true, ⟨s.1, newLen⟩)
  let s ← writeLimbs dst ((rchunksExact 8 partialLastWord).map limbOfBytes) s
  let s ← writePartialLimb dst (rchunksRemainder 8 partialLastWord) s
  let s ← zeroUpper dst nWords s
  return (true, ⟨s.1, newLen⟩)

/-- `push_slice`. -/
def pushSlice (slice : List UInt8) : Option (Except InstructionResult Unit × RawStack) := do
  let (pushed, self) ← self.pushSlice_ slice
  return (if pushed then .ok () else .error .stackOverflow, self)

/-! ## The limbs of a chunk -/

variable (bytes : List UInt8)

/-- The limb of the bytes in front of the last full limb. -/
def partialLimb : List U64 := if bytes.isEmpty then [] else [limbOfBytes bytes]

/-- The four limbs of a chunk of at most 32 bytes. -/
def wordLimbs : List U64 :=
  let limbs := (rchunksExact 8 bytes).map limbOfBytes ++ partialLimb (rchunksRemainder 8 bytes)
  limbs ++ List.replicate (4 - limbs.length) 0

theorem length_rlimbs : ((rchunksExact 8 bytes).map limbOfBytes ++
    partialLimb (rchunksRemainder 8 bytes)).length = (bytes.length + 7) / 8 := by
  have hlimb : (partialLimb (rchunksRemainder 8 bytes)).length = (bytes.length % 8 + 7) / 8 := by
    unfold partialLimb rchunksRemainder
    simp only [isEmpty_iff_length_eq_zero, length_take]
    split_ifs with hempty
    · rw [length_nil]
      omega
    · rw [length_singleton]
      omega
  rw [length_append, hlimb, rchunksExact, length_map, length_map, length_range]
  omega

theorem limbValue_append (xs ys : List U64) :
    limbValue (xs ++ ys) = limbValue xs + 256 ^ (8 * xs.length) * limbValue ys := by
  rw [limbValue, map_append, ofDigits_append, length_map, pow_mul]
  rfl

theorem limbValue_limbOfBytes {bytes : List UInt8} (h : bytes.length ≤ 8) :
    limbValue [limbOfBytes bytes] = value bytes := by
  have hlt : value bytes < 2 ^ 64 :=
    calc value bytes < 256 ^ bytes.length := BigEndian.value_lt bytes
      _ ≤ 256 ^ 8 := Nat.pow_le_pow_right (by decide) h
      _ = 2 ^ 64 := by norm_num
  rw [limbValue, map_singleton, ofDigits_singleton]
  exact mod_eq_of_lt hlt

theorem limbValue_zeros (n : Nat) : limbValue (List.replicate n 0) = 0 := by
  rw [limbValue, map_replicate]
  exact ofDigits_replicate_zero

/-- The first `k` chunks from the end are the last `8 * k` bytes. -/
theorem limbValue_rchunks (k : Nat) (h : 8 * k ≤ bytes.length) :
    limbValue ((List.range k).map fun j =>
      limbOfBytes ((bytes.drop (bytes.length - 8 * (j + 1))).take 8)) =
        value (bytes.drop (bytes.length - 8 * k)) := by
  induction k with
  | zero => simp [limbValue]
  | succ k ih =>
    have hcut : bytes.drop (bytes.length - 8 * (k + 1)) =
        (bytes.drop (bytes.length - 8 * (k + 1))).take 8 ++ bytes.drop (bytes.length - 8 * k) := by
      conv_lhs => rw [← take_append_drop 8 (bytes.drop (bytes.length - 8 * (k + 1)))]
      rw [drop_drop, show bytes.length - 8 * (k + 1) + 8 = bytes.length - 8 * k by omega]
    have hlength : (bytes.drop (bytes.length - 8 * k)).length = 8 * k := by
      rw [length_drop]
      omega
    conv_rhs => rw [hcut]
    rw [range_succ, map_append, limbValue_append, ih (by omega), BigEndian.value_append, hlength,
      length_map, length_range, map_singleton, limbValue_limbOfBytes (length_take_le _ _)]
    ring

theorem limbValue_wordLimbs : limbValue (wordLimbs bytes) = value bytes := by
  have hmod := div_add_mod bytes.length 8
  have hrest : limbValue (partialLimb (rchunksRemainder 8 bytes)) =
      value (rchunksRemainder 8 bytes) := by
    unfold partialLimb
    split_ifs with hempty
    · rw [isEmpty_iff.1 hempty]
      rfl
    · have hlength : (rchunksRemainder 8 bytes).length ≤ 8 := by
        unfold rchunksRemainder
        rw [length_take]
        omega
      exact limbValue_limbOfBytes hlength
  unfold wordLimbs
  dsimp only
  rw [limbValue_append, limbValue_append, limbValue_zeros, hrest, mul_zero, add_zero]
  unfold rchunksExact rchunksRemainder
  rw [map_map, length_map, length_range]
  have hchunks := limbValue_rchunks bytes (bytes.length / 8) (mul_div_le _ _)
  rw [show bytes.length - 8 * (bytes.length / 8) = bytes.length % 8 by omega] at hchunks
  refine (congrArg (· + _) hchunks).trans ?_
  -- the remainder is in front of the chunks
  conv_rhs => rw [← take_append_drop (bytes.length % 8) bytes, BigEndian.value_append]
  rw [length_drop, show bytes.length - bytes.length % 8 = 8 * (bytes.length / 8) by omega]
  ring

theorem length_wordLimbs {bytes : List UInt8} (h : bytes.length ≤ 32) :
    (wordLimbs bytes).length = 4 := by
  unfold wordLimbs
  rw [length_append, length_replicate, length_rlimbs]
  omega

/-! ## The writes -/

/-- Limbs are written in order. -/
theorem writeLimbs_append (dst : Nat) (xs ys : List U64) (s : List (Option U64) × Nat) :
    writeLimbs dst (xs ++ ys) s = (writeLimbs dst xs s).bind (writeLimbs dst ys) := by
  induction xs generalizing s with
  | nil => rfl
  | cons x xs ih =>
    simp only [cons_append, writeLimbs]
    split_ifs
    · exact ih _
    · rfl

theorem foldlM_writeLimbs (dst : Nat) (limbsOf : List UInt8 → List U64) (words : List (List UInt8))
    (s : List (Option U64) × Nat) : words.foldlM (fun s word => writeLimbs dst (limbsOf word) s) s =
      writeLimbs dst (words.flatMap limbsOf) s := by
  induction words generalizing s with
  | nil => rfl
  | cons word words ih =>
    rw [foldlM_cons, flatMap_cons, writeLimbs_append]
    exact congrArg _ (funext fun s => ih s)

/-- Limbs that fit into the allocation are written one after the other. -/
theorem writeLimbs_eq {dst i : Nat} {xs : List U64} {limbs : List (Option U64)}
    (h : dst + i + xs.length ≤ limbs.length) : writeLimbs dst xs (limbs, i) =
      some (limbs.take (dst + i) ++ xs.map some ++ limbs.drop (dst + i + xs.length),
        i + xs.length) := by
  induction xs generalizing i limbs with
  | nil => simp [writeLimbs]
  | cons x xs ih =>
    rw [length_cons] at h
    have hin : dst + i < limbs.length := by omega
    have htake : (limbs.set (dst + i) (some x)).take (dst + i + 1) =
        limbs.take (dst + i) ++ [some x] := by
      rw [take_add_one, take_set_of_le le_rfl, getElem?_set_self hin]
      rfl
    rw [writeLimbs, if_pos hin, ih (by rw [length_set]; omega), ← add_assoc, htake,
      drop_set_of_lt (by omega), map_cons, length_cons]
    simp only [append_assoc, singleton_append, add_assoc, add_comm 1]

theorem writeLimbs_count {dst : Nat} {xs : List U64} {s s' : List (Option U64) × Nat}
    (h : writeLimbs dst xs s = some s') : s'.2 = s.2 + xs.length := by
  induction xs generalizing s with
  | nil =>
    cases h
    rfl
  | cons x xs ih =>
    rw [writeLimbs] at h
    split_ifs at h
    rw [ih h, length_cons]
    omega

theorem writePartialLimb_eq (dst : Nat) (bytes : List UInt8) (s : List (Option U64) × Nat) :
    writePartialLimb dst bytes s = writeLimbs dst (partialLimb bytes) s := by
  unfold writePartialLimb partialLimb
  split_ifs
  · rfl
  · dsimp only
    rw [limbOfBytes, BigEndian.value_zeros_append, ← limbOfBytes]

/-- The partial last word is written as its four limbs. -/
theorem partialWord_eq {dst nWords : Nat} {word : List UInt8} {s : List (Option U64) × Nat}
    (hs : s.2 + 4 = 4 * nWords) (hword : word ≠ []) (hlength : word.length ≤ 32) :
    ((writeLimbs dst ((rchunksExact 8 word).map limbOfBytes) s).bind
      (writePartialLimb dst (rchunksRemainder 8 word))).bind (zeroUpper dst nWords) =
        writeLimbs dst (wordLimbs word) s := by
  have hpos := length_pos_iff.2 hword
  unfold wordLimbs
  rw [writeLimbs_append, funext (writePartialLimb_eq dst _), ← writeLimbs_append]
  cases hlimbs : writeLimbs dst _ s with
  | none => rfl
  | some s' =>
    have hcount := writeLimbs_count hlimbs
    rw [length_rlimbs] at hcount
    rw [Option.bind_some, Option.bind_some, length_rlimbs, zeroUpper]
    split_ifs with hwords hm
    · omega
    · rw [show 4 - s'.2 % 4 = 4 - (word.length + 7) / 8 by omega]
    · rw [show 4 - (word.length + 7) / 8 = 0 by omega]
      rfl

/-- A full word needs no partial limb and no padding. -/
theorem wordLimbs_of_full {bytes : List UInt8} (h : bytes.length = 32) :
    wordLimbs bytes = (rchunksExact 8 bytes).map limbOfBytes := by
  have hempty : rchunksRemainder 8 bytes = [] := by
    rw [rchunksRemainder, h]
    rfl
  have hlength := length_rlimbs bytes
  rw [h] at hlength
  unfold wordLimbs
  dsimp only
  rw [hlength, hempty]
  exact (append_nil _).trans (append_nil _)

section Slice

variable (slice : List UInt8)

/-- The limbs of the first `n` chunks of 32 bytes. -/
def chunkLimbs (n : Nat) : List U64 :=
  (List.range n).flatMap fun j => wordLimbs ((slice.drop (32 * j)).take 32)

theorem chunkLimbs_succ (n : Nat) :
    chunkLimbs slice (n + 1) = chunkLimbs slice n ++ wordLimbs ((slice.drop (32 * n)).take 32) := by
  unfold chunkLimbs
  rw [range_succ, flatMap_append, flatMap_singleton]

theorem length_chunkLimbs (n : Nat) : (chunkLimbs slice n).length = 4 * n := by
  induction n with
  | zero => rfl
  | succ n ih =>
    rw [chunkLimbs_succ, length_append, ih, length_wordLimbs (length_take_le _ _)]
    omega

/-- The limbs of a chunk stand behind those of the chunks before it. -/
theorem chunkLimbs_split {j n : Nat} (h : j < n) : ∃ rest,
    chunkLimbs slice n = chunkLimbs slice j ++ wordLimbs
      ((slice.drop (32 * j)).take 32) ++ rest := by
  induction n with
  | zero => exact absurd h (not_lt_zero _)
  | succ n ih =>
    rw [chunkLimbs_succ]
    rcases Nat.lt_succ_iff_lt_or_eq.1 h with hlt | rfl
    · obtain ⟨rest, hrest⟩ := ih hlt
      exact ⟨rest ++ _, by rw [hrest, append_assoc]⟩
    · exact ⟨[], (append_nil _).symm⟩

theorem fullLimbs_eq :
    (chunksExact 32 slice).flatMap (fun word => (rchunksExact 8 word).map limbOfBytes) =
      chunkLimbs slice (slice.length / 32) := by
  rw [chunksExact, flatMap_map]
  refine flatMap_congr fun j hj => (wordLimbs_of_full ?_).symm
  have hj := mem_range.1 hj
  rw [length_take, length_drop]
  omega

end Slice

/-- The writes of `push_slice_` are one sequence. -/
theorem pushSlice_eq {self : RawStack} {slice : List UInt8} (hne : slice ≠ [])
    (hcapacity : self.limbs.length = 4 * stackLimit)
    (hfits : self.len + (slice.length + 31) / 32 ≤ stackLimit) : self.pushSlice_ slice =
      (writeLimbs (4 * self.len) (chunkLimbs slice ((slice.length + 31) / 32)) (self.limbs, 0)).map
        fun s => (true, ⟨s.1, self.len + (slice.length + 31) / 32⟩) := by
  have hempty : slice.isEmpty = false := by simpa using hne
  have hroom : ¬ self.limbs.length < 4 * (self.len + (slice.length + 31) / 32) := by omega
  have hlength : (chunksRemainder 32 slice).length = slice.length % 32 := by
    rw [chunksRemainder, length_drop]
    omega
  unfold pushSlice_
  simp only [hempty, Bool.false_eq_true, if_false, gt_iff_lt, not_lt.2 hfits, hroom,
    foldlM_writeLimbs, fullLimbs_eq]
  by_cases hlast : (chunksRemainder 32 slice).isEmpty
  · simp only [hlast, if_true]
    rw [isEmpty_iff_length_eq_zero, hlength] at hlast
    rw [show (slice.length + 31) / 32 = slice.length / 32 by omega, Option.map_eq_bind]
    rfl
  · simp only [hlast]
    have hword : chunksRemainder 32 slice = (slice.drop (32 * (slice.length / 32))).take 32 := by
      rw [chunksRemainder, take_of_length_le (by rw [length_drop]; omega)]
    rw [isEmpty_iff_length_eq_zero, hlength] at hlast
    rw [show (slice.length + 31) / 32 = slice.length / 32 + 1 by omega, chunkLimbs_succ,
      writeLimbs_append]
    cases hfull : writeLimbs (4 * self.len) (chunkLimbs slice (slice.length / 32)) _ with
    | none => rfl
    | some s =>
      have hcount := writeLimbs_count hfull
      rw [length_chunkLimbs] at hcount
      rw [Option.bind_eq_bind, Option.bind_some, Option.bind_some, ← hword,
        ← partialWord_eq (show s.2 + 4 = 4 * (slice.length / 32 + 1) by omega)
          (by rw [Ne, ← length_eq_zero_iff, hlength]; exact hlast) (by omega)]
      simp only [Option.bind_assoc, Option.map_eq_bind]
      rfl

/-! ## The words -/

theorem word_eq {stack : RawStack} {front back : List (Option U64)} {ws : List U64} {index : Nat}
    (hlimbs : stack.limbs = front ++ ws.map some ++ back) (hfront : front.length = 4 * index)
    (hws : ws.length = 4) : stack.word index = some (BitVec.ofNat 256 (limbValue ws)) := by
  match ws, hws with
  | [a, b, c, d], _ => simp [word, hlimbs, ← hfront]

/-- What a successful `push_slice` leaves of a stack `old`. -/
structure Pushed (old : RawStack) (slice : List UInt8) (new : RawStack) : Prop where
  len : new.len = old.len + (slice.length + 31) / 32
  older : ∀ i < 4 * old.len, new.limbs[i]? = old.limbs[i]?
  appended : ∀ j < (slice.length + 31) / 32, new.word (old.len + j) =
    some (BitVec.ofNat 256 (value ((slice.drop (32 * j)).take 32)))
  beyond : ∀ i ≥ 4 * new.len, new.limbs[i]? = old.limbs[i]?
  valid : new.Valid

/-- The limbs of the chunks, between the older words and the rest of the allocation. -/
theorem Pushed.of_limbs {old new : RawStack} {slice : List UInt8} {n : Nat} (h : old.Valid)
    (hn : (slice.length + 31) / 32 = n) (hfits : old.len + n ≤ stackLimit)
    (hlen : new.len = old.len + n)
    (hlimbs : new.limbs = old.limbs.take (4 * old.len) ++ (chunkLimbs slice n).map some ++
      old.limbs.drop (4 * old.len + 4 * n)) : Pushed old slice new := by
  have hfront : (old.limbs.take (4 * old.len)).length = 4 * old.len := by
    rw [length_take, h.capacity]
    omega
  have hmiddle : ((chunkLimbs slice n).map some).length = 4 * n := by
    rw [length_map, length_chunkLimbs]
  have holder : ∀ i < 4 * old.len, new.limbs[i]? = old.limbs[i]? := by
    intro i hi
    rw [hlimbs, append_assoc, getElem?_append_left (by omega), getElem?_take_of_lt hi]
  subst hn
  refine ⟨hlen, holder, ?_, ?_, ?_, hlen ▸ hfits, ?_⟩
  · intro j hj
    obtain ⟨rest, hrest⟩ := chunkLimbs_split slice hj
    rw [← limbValue_wordLimbs]
    rw [hrest, map_append, map_append, ← append_assoc, ← append_assoc,
      append_assoc _ (rest.map some)] at hlimbs
    refine word_eq hlimbs ?_ (length_wordLimbs (length_take_le _ _))
    rw [length_append, hfront, length_map, length_chunkLimbs]
    omega
  · intro i hi
    rw [hlimbs, getElem?_append_right (by rw [length_append]; omega), getElem?_drop,
      length_append, hfront, hmiddle, Nat.add_sub_cancel' (by omega)]
  · rw [hlimbs, length_append, length_append, hfront, hmiddle, length_drop, h.capacity]
    omega
  · intro i hi
    by_cases hold : i < 4 * old.len
    · rw [holder i hold]
      exact h.initialised i hold
    · have hlt : i - 4 * old.len < (chunkLimbs slice ((slice.length + 31) / 32)).length := by
        rw [length_chunkLimbs]
        omega
      rw [hlimbs, getElem?_append_left (by rw [length_append]; omega),
        getElem?_append_right (by omega), hfront, getElem?_map, getElem?_eq_getElem hlt]
      exact ⟨_, rfl⟩

/-- `push_slice` fails exactly where the words of the slice do not fit, and then leaves the stack as
it was; otherwise it appends the words of the slice's chunks of 32 bytes. -/
theorem pushSlice_exact (self : RawStack) (h : self.Valid) (slice : List UInt8) :
    (stackLimit < self.len + (slice.length + 31) / 32 →
      self.pushSlice slice = some (.error .stackOverflow, self)) ∧
    (self.len + (slice.length + 31) / 32 ≤ stackLimit →
      ∃ new, self.pushSlice slice = some (.ok (), new) ∧ Pushed self slice new) := by
  have hbound := h.bound
  by_cases hne : slice = []
  · subst hne
    refine ⟨fun hover => absurd hover (by simpa using hbound), fun _ => ⟨self, rfl, ?_⟩⟩
    exact ⟨rfl, fun _ _ => rfl, fun j hj => absurd hj (not_lt_zero j), fun _ _ => rfl, h⟩
  · refine ⟨fun hover => ?_, fun hfits => ⟨⟨_, _⟩, ?_, .of_limbs h rfl hfits rfl rfl⟩⟩
    · simp [pushSlice, pushSlice_, hne, hover]
    · unfold pushSlice
      rw [pushSlice_eq hne h.capacity hfits, writeLimbs_eq
        (by rw [length_chunkLimbs, h.capacity]; omega), length_chunkLimbs]
      rfl

theorem valid_new : new.Valid :=
  ⟨length_replicate, zero_le _, fun i hi => absurd hi (not_lt_zero i)⟩

/-- 33 bytes onto an empty stack: a full word and a word of one byte. -/
theorem pushSlice_exact_new : ∃ stack : RawStack,
    new.pushSlice (List.replicate 32 0 ++ [7]) = some (.ok (), stack) ∧ stack.len = 2 ∧
      stack.word 1 = some 7 := by
  obtain ⟨stack, hpush, hpushed⟩ := (pushSlice_exact new valid_new (replicate 32 0 ++ [7])).2
    (by decide)
  exact ⟨stack, hpush, hpushed.len, hpushed.appended 1 (by decide)⟩

end RawStack

end Revm
