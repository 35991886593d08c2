import Mathlib.Data.List.Sort
import Revm.Foundations.BinarySearch

/-!
# The writes of one item

`BalWrites` is the list of the values that one item of the state (a nonce, a balance, a code, a
slot) gets in a block, each with the index of the transaction that writes it. `BalWrites.get` is the
value that a transaction sees: the last one with a smaller index. It is found by a linear search in
a short list and by a binary search in a long one, and on increasing indices both find
`BalWrites.before` (`get_eq_before`).

`BalWrites.update` adds a value at the end, unless it is the value that the item already has
(`updateWithKey_of_below`). Up to the new index the item is seen as before (`before_updateWithKey`),
and above it the item is the new value (`subvalue_updateWithKey`).
-/

set_option autoImplicit false

namespace Revm

open List

variable {index : Nat}

/-- `BalWrites`. -/
structure BalWrites (T : Type) where
  writes : List (Nat × T)
  deriving DecidableEq, Repr

namespace BalWrites

variable {T K : Type} (self : BalWrites T)

/-- `BalWrites::default()`. -/
def default : BalWrites T := ⟨[]⟩

variable (writes : List (Nat × T))

/-- `BalWrites::new`. The sort by the index is stable. -/
def new : BalWrites T :=
  ⟨writes.insertionSort fun first second => first.1 ≤ second.1⟩

def isEmpty : Bool := self.writes.isEmpty

/-- The loop of `get_linear_search`, with the last item that was passed. -/
def linearSearch (balIndex : Nat) : Option T → List (Nat × T) → Option T
  | lastItem, [] => lastItem
  | lastItem, (index, item) :: rest =>
      if balIndex ≤ index then lastItem else linearSearch balIndex (some item) rest

/-- `get_linear_search`. -/
def getLinearSearch (balIndex : Nat) : Option T :=
  linearSearch balIndex none self.writes

/-- `BalWrites::get` with the answer of the binary search. -/
def getAt (answer : Except Nat Nat) (balIndex : Nat) : Option T :=
  if self.writes.length < 5 then self.getLinearSearch balIndex
  else
    let i := BinarySearch.position answer
    if i ≠ 0 then self.writes[i - 1]?.map (·.2) else none

/-- `BalWrites::get`. -/
def get (balIndex : Nat) : Option T :=
  self.getAt (BinarySearch.search (self.writes.map (·.1)) balIndex) balIndex

/-- The writes with the last one replaced by another value. -/
def setLast (index : Nat) (value : T) : List (Nat × T) :=
  writes.dropLast ++ [(index, value)]

/-- `update_with_key`. -/
def updateWithKey [DecidableEq K] (index : Nat) (originalSubvalue : K)
    (value : T) (f : T → K) : BalWrites T :=
  match self.writes.getLast? with
  | none =>
      -- an item without writes has the original value
      if originalSubvalue ≠ f value then ⟨self.writes ++ [(index, value)]⟩ else self
  | some last =>
      if last.1 ≠ index then
        if f last.2 ≠ f value then ⟨self.writes ++ [(index, value)]⟩ else self
      else
        let previous :=
          match self.writes.dropLast.getLast? with
          | some write => f write.2
          | none => originalSubvalue
        if previous = f value then ⟨self.writes.dropLast⟩
        else ⟨setLast self.writes index value⟩

/-- `BalWrites::update`. -/
def update [DecidableEq T] (index : Nat) (originalValue value : T) : BalWrites T :=
  self.updateWithKey index originalValue value id

/-! ## Lookups -/

/-- The indices increase from write to write. -/
def Increasing : Prop := (self.writes.map (·.1)).Pairwise (· < ·)

/-- Every index is smaller than `index`. -/
def Below (index : Nat) : Prop := ∀ write ∈ self.writes, write.1 < index

/-- The last value in front of an index. -/
def before (index : Nat) : Option T :=
  ((self.writes.takeWhile fun write => write.1 < index).getLast?).map (·.2)

/-- The last value of all. -/
def last : Option T := self.writes.getLast?.map (·.2)

theorem linearSearch_eq (balIndex : Nat) (lastItem : Option T) (writes : List (Nat × T)) :
    linearSearch balIndex lastItem writes =
      (((writes.takeWhile fun write => write.1 < balIndex).getLast?).map (·.2)).or lastItem := by
  induction writes generalizing lastItem with
  | nil => rfl
  | cons write rest ih =>
    obtain ⟨index, item⟩ := write
    unfold linearSearch
    split_ifs with hle
    · rw [takeWhile_cons, if_neg (by simpa using hle)]
      rfl
    · rw [ih, takeWhile_cons, if_pos (by simpa using hle), getLast?_cons]
      cases (rest.takeWhile fun write => write.1 < balIndex).getLast? <;> rfl

theorem getLinearSearch_eq_before (index : Nat) :
    self.getLinearSearch index = self.before index := by
  rw [getLinearSearch, linearSearch_eq, Option.or_none]
  rfl

/-- The binary search finds the last value in front of an index that is not repeated. -/
theorem getAt_eq_before {self : BalWrites T} {answer : Except Nat Nat}
    (hsorted : (self.writes.map (·.1)).Pairwise (· ≤ ·))
    (hcount : (self.writes.map (·.1)).count index ≤ 1)
    (h : BinarySearch.Answers (self.writes.map (·.1)) index answer) :
    self.getAt answer index = self.before index := by
  unfold getAt
  split_ifs with hshort
  · exact self.getLinearSearch_eq_before index
  · unfold before
    rw [h.takeWhile_eq_take hsorted hcount, getLast?_take]
    have hle := h.position_le
    rw [length_map] at hle
    generalize BinarySearch.position answer = pos at hle ⊢
    by_cases hzero : pos = 0
    · rw [if_neg (not_not.2 hzero), if_pos hzero]
      rfl
    · rw [if_pos hzero, if_neg hzero]
      have hlt : pos - 1 < self.writes.length := by omega
      rw [getElem?_eq_getElem hlt]
      rfl

/-- On increasing indices both searches find the last value in front of the index. -/
theorem get_eq_before {self : BalWrites T} (h : self.Increasing) (index : Nat) :
    self.get index = self.before index :=
  getAt_eq_before (h.imp le_of_lt)
    (nodup_iff_count_le_one.1 (h.imp ne_of_lt) index)
    (BinarySearch.search_answers (h.imp le_of_lt) index)

/-- Above all indices the last write is seen. -/
theorem before_of_below {self : BalWrites T} (h : self.Below index) :
    self.before index = self.last := by
  unfold before last
  rw [takeWhile_eq_self_iff.2 fun write hwrite => decide_eq_true (h write hwrite)]

theorem last_eq_none_iff {self : BalWrites T} : self.last = none ↔ self.writes = [] := by
  rw [last, Option.map_eq_none_iff, getLast?_eq_none_iff]

/-! ## Updates -/

theorem Below.mono {self : BalWrites T} {i j : Nat} (h : self.Below i) (hij : i ≤ j) :
    self.Below j :=
  fun write hwrite => (h write hwrite).trans_le hij

theorem increasing_default : (default : BalWrites T).Increasing := List.Pairwise.nil

theorem below_default (index : Nat) : (default : BalWrites T).Below index :=
  fun _ hwrite => (nomatch hwrite)

/-- A write is not seen by the reads before it. -/
theorem before_append_of_le {k index : Nat} (value : T) (h : k ≤ index) :
    before ⟨writes ++ [(index, value)]⟩ k = before ⟨writes⟩ k := by
  unfold before
  rw [takeWhile_append]
  split_ifs with hall
  · rw [takeWhile_cons, if_neg (by simpa using h), append_nil,
      (takeWhile_sublist _).eq_of_length hall]
  · rfl

theorem before_append_of_lt {writes : List (Nat × T)} {k index : Nat} (value : T)
    (hbelow : Below ⟨writes⟩ index) (h : index < k) :
    before ⟨writes ++ [(index, value)]⟩ k = some value := by
  have hall : Below ⟨writes ++ [(index, value)]⟩ k := by
    intro write hwrite
    rcases mem_append.1 hwrite with hmem | hmem
    · exact (hbelow write hmem).trans h
    · rw [mem_singleton.1 hmem]
      exact h
  rw [before_of_below hall, last, getLast?_concat]
  rfl

/-- Writes up to an index have it as their last index, or lie below it. -/
theorem below_or_at {self : BalWrites T} (h : self.Increasing) (hbelow : self.Below (index + 1)) :
    self.Below index ∨ ∃ init kept, self.writes = init ++ [(index, kept)] ∧ Increasing ⟨init⟩ ∧
      Below ⟨init⟩ index := by
  obtain ⟨writes⟩ := self
  rcases eq_nil_or_concat' writes with rfl | ⟨init, ⟨last, kept⟩, rfl⟩
  · exact .inl (below_default index)
  · unfold Increasing at h
    rw [map_append, pairwise_append] at h
    obtain ⟨hinit, -, hlast⟩ := h
    have hle : last < index + 1 := hbelow (last, kept) (mem_append_right _ (mem_singleton.2 rfl))
    have hinitBelow : Below ⟨init⟩ last := fun write hwrite =>
      hlast write.1 (mem_map_of_mem hwrite) last (mem_singleton.2 rfl)
    rcases Nat.lt_succ_iff_lt_or_eq.1 hle with hlt | rfl
    · refine .inl fun write hwrite => ?_
      rcases mem_append.1 hwrite with hmem | hmem
      · exact (hinitBelow write hmem).trans hlt
      · rw [mem_singleton.1 hmem]
        exact hlt
    · exact .inr ⟨init, kept, rfl, hinit, hinitBelow⟩

theorem increasing_append {writes : List (Nat × T)} (value : T) (h : Increasing ⟨writes⟩)
    (hbelow : Below ⟨writes⟩ index) : Increasing ⟨writes ++ [(index, value)]⟩ := by
  unfold Increasing at h ⊢
  rw [map_append, pairwise_append]
  refine ⟨h, pairwise_singleton _ _, fun i hi j hj => ?_⟩
  obtain ⟨write, hwrite, rfl⟩ := mem_map.1 hi
  rw [mem_singleton.1 hj]
  exact hbelow write hwrite

/-- At the index of the last write the value replaces it, or takes it away if it is the value in
front of it. The original value stands for the value in front of the first write. -/
theorem updateWithKey_at [DecidableEq K] (init : List (Nat × T)) (index : Nat) (kept : T)
    (original : K) (value : T) (f : T → K) :
    updateWithKey ⟨init ++ [(index, kept)]⟩ index original value f =
      if ((last ⟨init⟩).map f).getD original = f value then ⟨init⟩
      else ⟨init ++ [(index, value)]⟩ := by
  unfold updateWithKey setLast last
  rw [getLast?_concat, dropLast_concat]
  dsimp only
  rw [if_neg (not_not.2 rfl)]
  cases init.getLast? <;> rfl

section Update

variable [DecidableEq K] {self : BalWrites T} (hbelow : self.Below index) (original : K) (value : T)
  (f : T → K)

include hbelow

/-- With a new index the value is added, unless the item has it already. -/
theorem updateWithKey_of_below : self.updateWithKey index original value f =
      if (self.last.map f).getD original = f value then self
      else ⟨self.writes ++ [(index, value)]⟩ := by
  unfold updateWithKey last
  cases hlast : self.writes.getLast? with
  | none => exact ite_not _ _ _
  | some write =>
    have hne : write.1 ≠ index := (hbelow write (mem_of_getLast? hlast)).ne
    dsimp only
    rw [if_pos hne]
    exact ite_not _ _ _

theorem below_updateWithKey : (self.updateWithKey index original value f).Below (index + 1) := by
  rw [updateWithKey_of_below hbelow]
  split_ifs
  · exact hbelow.mono (Nat.le_succ index)
  · intro write hwrite
    rcases mem_append.1 hwrite with hmem | hmem
    · exact (hbelow write hmem).trans (Nat.lt_succ_self index)
    · rw [mem_singleton.1 hmem]
      exact Nat.lt_succ_self index

theorem increasing_updateWithKey (h : self.Increasing) :
    (self.updateWithKey index original value f).Increasing := by
  rw [updateWithKey_of_below hbelow]
  split_ifs
  · exact h
  · exact increasing_append value h hbelow

theorem before_updateWithKey {k : Nat} (hk : k ≤ index) :
    (self.updateWithKey index original value f).before k = self.before k := by
  rw [updateWithKey_of_below hbelow]
  split_ifs
  · rfl
  · exact before_append_of_le self.writes value hk

theorem subvalue_updateWithKey {base : K} (hbase : self.last = none → original = base) {k : Nat}
    (hk : index < k) :
    (((self.updateWithKey index original value f).before k).map f).getD base = f value := by
  rw [updateWithKey_of_below hbelow]
  split_ifs with heq
  · rw [before_of_below (hbelow.mono hk.le)]
    cases hlast : self.last with
    | none =>
      rw [hlast] at heq
      exact (hbase hlast).symm.trans heq
    | some last =>
      rw [hlast] at heq
      exact heq
  · rw [before_append_of_lt value hbelow hk]
    rfl

end Update

end BalWrites

end Revm
