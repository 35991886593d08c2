import Mathlib.Data.List.Induction
import Revm.Bal.Writes

/-!
# The history of one item

`BalWrites.new` sorts pairs by their index, and indices may repeat. The linear search finds the last
pair below an index in all cases; the binary search may stop at any pair of a repeated index and
then answers the pair in front of it, which is not below (`get_eq_getLinearSearch`,
`getAt_repeated_index`).

A block calls `BalWrites.update` again and again, with indices that do not decrease and the value in
force as the original one. `Update.Recorded` is what such a history of calls leaves in the writes.
One call at the index of the only write breaks it: there the original value is not the value of the
item in front of the index, and a call that keeps the value takes the write away (`Update.Forgets`).
-/

set_option autoImplicit false

namespace Revm

open List BalWrites

variable {T : Type}

namespace BalWrites

/-! ## Lookups at repeated indices -/

/-- The value of the last pair below an index. -/
def lastBelow (self : BalWrites T) (index : Nat) : Option T :=
  (self.writes.filter fun write => write.1 < index).getLast?.map (·.2)

variable (pairs : List (Nat × T))

theorem new_perm : (new pairs).writes.Perm pairs :=
  perm_insertionSort _ _

theorem new_sorted : ((new pairs).writes.map (·.1)).Pairwise (· ≤ ·) := by
  have htotal : Std.Total fun first second : Nat × T => first.1 ≤ second.1 :=
    ⟨fun first second => Nat.le_total first.1 second.1⟩
  have htrans : IsTrans (Nat × T) fun first second => first.1 ≤ second.1 :=
    ⟨fun _ _ _ => Nat.le_trans⟩
  exact pairwise_map.2 (pairwise_insertionSort _ pairs)

/-- In front of an index of sorted pairs are those that are below it. -/
theorem takeWhile_eq_filter {writes : List (Nat × T)}
    (hsorted : (writes.map (·.1)).Pairwise (· ≤ ·)) (index : Nat) :
    writes.takeWhile (fun write => write.1 < index) = writes.filter fun write =>
      write.1 < index := by
  induction writes with
  | nil => rfl
  | cons write writes ih =>
    rw [map_cons, pairwise_cons] at hsorted
    obtain ⟨hhead, htail⟩ := hsorted
    by_cases hlt : write.1 < index
    · rw [takeWhile_cons_of_pos (by simpa using hlt), filter_cons_of_pos (by simpa using hlt),
        ih htail]
    · have hnone : ∀ later ∈ writes, ¬ decide (later.1 < index) = true := by
        intro later hlater
        have hle : write.1 ≤ later.1 := hhead later.1 (mem_map_of_mem hlater)
        rw [decide_eq_true_eq]
        omega
      rw [takeWhile_cons_of_neg (by simpa using hlt), filter_cons_of_neg (by simpa using hlt),
        filter_eq_nil_iff.2 hnone]

/-- For every answer that a binary search may give, `get` is the linear search and finds the last
pair below the index, if there are fewer than five pairs or the index is not repeated. -/
theorem get_eq_getLinearSearch (pairs : List (Nat × T)) (index : Nat) (answer : Except Nat Nat)
    (hanswer : BinarySearch.Answers ((new pairs).writes.map (·.1)) index answer)
    (hrepeated : pairs.length < 5 ∨ (pairs.map (·.1)).count index ≤ 1) :
    (new pairs).getAt answer index = (new pairs).getLinearSearch index ∧
      (new pairs).getLinearSearch index = (new pairs).lastBelow index := by
  constructor
  · rcases hrepeated with hshort | hcount
    · have hlength : (new pairs).writes.length < 5 := by rwa [(new_perm pairs).length_eq]
      exact if_pos hlength
    · have hcount' : ((new pairs).writes.map (·.1)).count index ≤ 1 := by
        rwa [((new_perm pairs).map _).count_eq]
      rw [getAt_eq_before (new_sorted pairs) hcount' hanswer, getLinearSearch_eq_before]
  · rw [getLinearSearch_eq_before]
    unfold before lastBelow
    rw [takeWhile_eq_filter (new_sorted pairs)]

/-- Of five or more pairs with a repeated index, an allowed answer reads one that is not below. -/
theorem getAt_repeated_index (index : Nat) (hlong : 5 ≤ pairs.length)
    (hrepeated : 1 < (pairs.map (·.1)).count index) : ∃ answer value,
      BinarySearch.Answers ((new pairs).writes.map (·.1)) index answer ∧
      (new pairs).getAt answer index = some value ∧ (index, value) ∈ (new pairs).writes := by
  have hcount : 2 ≤ ((new pairs).writes.map (·.1)).count index := by
    rwa [((new_perm pairs).map _).count_eq]
  obtain ⟨⟨i, hi⟩, ⟨j, hj⟩, hij, hfirst, hfound⟩ :=
    duplicate_iff_exists_distinct_get.1 (duplicate_iff_two_le_count.2 hcount)
  replace hfirst := List.getElem?_eq_some_iff.2 ⟨hi, hfirst.symm⟩
  replace hfound := List.getElem?_eq_some_iff.2 ⟨hj, hfound.symm⟩
  rw [length_map] at hj
  have hij : i < j := hij
  -- the pair in front of the later one lies between the two
  obtain ⟨write, hwrite⟩ : ∃ write, (new pairs).writes[j - 1]? = some write :=
    ⟨_, List.getElem?_eq_getElem (by omega)⟩
  have hfront : ((new pairs).writes.map (·.1))[j - 1]? = some write.1 := by
    rw [getElem?_map, hwrite]
    rfl
  have hindex : write.1 = index := le_antisymm
    (BinarySearch.getElem?_le_of_sorted (new_sorted pairs) (Nat.sub_le _ _) hfront hfound)
    (BinarySearch.getElem?_le_of_sorted (new_sorted pairs) (by omega) hfirst hfront)
  refine ⟨.ok j, write.2, .found hfound, ?_, ?_⟩
  · unfold getAt
    rw [if_neg (by rw [(new_perm pairs).length_eq]; omega)]
    dsimp only [BinarySearch.position]
    rw [if_pos (by omega), hwrite]
    rfl
  · rw [← hindex]
    exact mem_of_getElem? hwrite

/-- Nine pairs, three of them with the index `6`. -/
def repeatedPairs : List (Nat × Nat) :=
  [(6, 7), (0, 1), (1, 2), (2, 3), (3, 4), (4, 5), (5, 6), (6, 8), (6, 9)]

theorem get_eq_getLinearSearch_repeatedPairs :
    (new repeatedPairs).getAt (.ok 5) 5 = (new repeatedPairs).getLinearSearch 5 ∧
      (new repeatedPairs).getLinearSearch 5 = some 5 := by
  obtain ⟨hget, -⟩ :=
    get_eq_getLinearSearch repeatedPairs 5 (.ok 5) (.found (by decide)) (.inr (by decide))
  exact ⟨hget, by decide⟩

/-- A search for a repeated index may stop at a later pair of it, and the search by halves does. -/
theorem get_repeated_index : BinarySearch.Answers ((new repeatedPairs).writes.map (·.1)) 6 (.ok 8) ∧
      (new repeatedPairs).getAt (.ok 8) 6 = some 8 ∧ (new repeatedPairs).get 6 = some 8 ∧
      (new repeatedPairs).getLinearSearch 6 = some 6 :=
  ⟨.found (by decide), by decide, by decide, by decide⟩

end BalWrites

/-! ## Histories -/

/-- A property of every element of a list and of the elements before it. -/
def Along {α : Type} (P : List α → α → Prop) (history : List α) : Prop :=
  ∀ past x future, history = past ++ x :: future → P past x

namespace Along

variable {α : Type} {P : List α → α → Prop} {history : List α} {x : α}

theorem of_concat (h : Along P (history ++ [x])) : Along P history ∧ P history x := by
  constructor
  · intro past y future hhistory
    exact h past y (future ++ [x]) (by rw [hhistory, append_assoc, cons_append])
  · exact h history x [] rfl

theorem nil : Along P [] := by
  intro past y future hhistory
  exact absurd hhistory.symm (append_ne_nil_of_right_ne_nil past (cons_ne_nil y future))

theorem concat (h : Along P history) (hx : P history x) : Along P (history ++ [x]) := by
  intro past y future hhistory
  rcases eq_nil_or_concat' future with rfl | ⟨future, last, rfl⟩
  · obtain ⟨rfl, hlast⟩ := append_inj' hhistory rfl
    cases hlast
    exact hx
  · rw [← cons_append, ← append_assoc] at hhistory
    exact h past y future (append_inj' hhistory rfl).1

end Along

/-! ## Histories of updates -/

/-- A call of `BalWrites::update`. -/
structure Update (T : Type) where
  index : Nat
  original : T
  value : T
  deriving DecidableEq, Repr

namespace Update

/-- The value of an item after some calls. -/
def inForce (base : T) (calls : List (Update T)) : T := (calls.getLast?.map (·.value)).getD base

/-- The value of an item after the calls with a smaller index. -/
def inForceBefore (base : T) (calls : List (Update T)) (index : Nat) : T :=
  inForce base (calls.filter fun call => call.index < index)

/-- The indices do not decrease. -/
def Ordered (calls : List (Update T)) : Prop := calls.Pairwise fun first second =>
  first.index ≤ second.index

/-- Every call has the value in force as the original one. -/
def Faithful (base : T) (calls : List (Update T)) : Prop :=
  Along (fun past call => call.original = inForce base past) calls

/-- A call at the index of the only write that keeps a value which is not the one of the start. -/
def Forgets (base : T) (writes : BalWrites T) (call : Update T) : Prop :=
  writes.writes.map (·.1) = [call.index] ∧ call.value = call.original ∧ call.value ≠ base

/-- What the writes say of a history. -/
structure Recorded (base : T) (calls : List (Update T)) (writes : BalWrites T) : Prop where
  increasing : writes.Increasing
  bounded : ∀ write ∈ writes.writes, ∃ call ∈ calls, write.1 = call.index
  value : ∀ index, (writes.before index).getD base = inForceBefore base calls index

/-! ### One call -/

section Step

variable {base : T} {calls : List (Update T)} {call : Update T} {writes : BalWrites T}

theorem inForceBefore_concat (index : Nat) : inForceBefore base (calls ++ [call]) index =
      if call.index < index then call.value else inForceBefore base calls index := by
  unfold inForceBefore inForce
  rw [filter_append]
  split_ifs with hlt
  · rw [filter_cons_of_pos (by simpa using hlt), filter_nil, getLast?_concat]
    rfl
  · rw [filter_cons_of_neg (by simpa using hlt), filter_nil, append_nil]

/-- The writes of a history up to an index have the value in force at their end. -/
theorem Recorded.last_eq (h : Recorded base calls writes) {index : Nat}
    (hcalls : ∀ call ∈ calls, call.index ≤ index) :
    writes.Below (index + 1) ∧ writes.last.getD base = inForce base calls := by
  have hbelow : writes.Below (index + 1) := by
    intro write hwrite
    obtain ⟨call, hcall, heq⟩ := h.bounded write hwrite
    have := hcalls call hcall
    omega
  refine ⟨hbelow, ?_⟩
  rw [← before_of_below hbelow, h.value]
  unfold inForceBefore
  rw [filter_eq_self.2 fun call hcall => decide_eq_true (Nat.lt_succ_iff.2 (hcalls call hcall))]

/-- What is left of the writes below the index of a call. -/
structure RecordedBelow (base : T) (calls : List (Update T)) (index : Nat) (writes : BalWrites T) :
    Prop where
  increasing : writes.Increasing
  below : writes.Below index
  bounded : ∀ write ∈ writes.writes, ∃ call ∈ calls, write.1 = call.index
  value : ∀ i, i ≤ index → (writes.before i).getD base = inForceBefore base calls i

theorem RecordedBelow.keep (h : RecordedBelow base calls call.index writes)
    (hvalue : writes.last.getD base = call.value) : Recorded base (calls ++ [call]) writes where
  increasing := h.increasing
  bounded := by
    intro write hwrite
    obtain ⟨earlier, hmem, heq⟩ := h.bounded write hwrite
    exact ⟨earlier, mem_append_left _ hmem, heq⟩
  value := by
    intro i
    rw [inForceBefore_concat]
    split_ifs with hlt
    · rw [before_of_below (h.below.mono hlt.le), hvalue]
    · exact h.value i (Nat.not_lt.1 hlt)

theorem RecordedBelow.push (h : RecordedBelow base calls call.index writes) :
    Recorded base (calls ++ [call]) ⟨writes.writes ++ [(call.index, call.value)]⟩ where
  increasing := BalWrites.increasing_append call.value h.increasing h.below
  bounded := by
    intro write hwrite
    rcases mem_append.1 hwrite with hmem | hmem
    · obtain ⟨earlier, hearlier, heq⟩ := h.bounded write hmem
      exact ⟨earlier, mem_append_left _ hearlier, heq⟩
    · rw [mem_singleton.1 hmem]
      exact ⟨call, mem_append_right _ (mem_singleton.2 rfl), rfl⟩
  value := by
    intro i
    rw [inForceBefore_concat]
    split_ifs with hlt
    · rw [before_append_of_lt call.value h.below hlt]
      rfl
    · rw [before_append_of_le writes.writes call.value (Nat.not_lt.1 hlt)]
      exact h.value i (Nat.not_lt.1 hlt)

/-- A call that does not forget is recorded. -/
theorem Recorded.update [DecidableEq T] (h : Recorded base calls writes)
    (hcalls : ∀ earlier ∈ calls, earlier.index ≤ call.index)
    (horiginal : call.original = inForce base calls) (hforgets : ¬Forgets base writes call) :
    Recorded base (calls ++ [call]) (writes.update call.index call.original call.value) := by
  obtain ⟨hbelow, hlast⟩ := h.last_eq hcalls
  rcases below_or_at h.increasing hbelow with hnew | ⟨init, kept, hwrites, hinit, hfront⟩
  · have hold : RecordedBelow base calls call.index writes :=
      ⟨h.increasing, hnew, h.bounded, fun i _ => h.value i⟩
    unfold BalWrites.update
    rw [updateWithKey_of_below hnew, Option.map_id_apply]
    split_ifs with heq
    · refine hold.keep ?_
      rw [horiginal, ← hlast] at heq
      cases hcase : writes.last with
      | none => rw [hcase] at heq; exact heq
      | some value => rw [hcase] at heq; exact heq
    · exact hold.push
  · -- the last write has the index of the call: what counts is the write in front of it
    obtain ⟨writes⟩ := writes
    subst hwrites
    have hold : RecordedBelow base calls call.index ⟨init⟩ := by
      refine ⟨hinit, hfront, fun write hwrite => h.bounded write (mem_append_left _ hwrite), ?_⟩
      intro i hi
      rw [← h.value i, before_append_of_le init kept hi]
    unfold update
    rw [updateWithKey_at, Option.map_id_apply]
    split_ifs with heq
    · refine hold.keep ?_
      cases hcase : last ⟨init⟩ with
      | some value =>
        rw [hcase] at heq
        exact heq
      | none =>
        -- the only write: its value is the original one, so the call keeps it
        obtain rfl : init = [] := last_eq_none_iff.1 hcase
        by_contra hne
        exact hforgets ⟨rfl, heq.symm, fun hbase => hne hbase.symm⟩
    · exact hold.push

end Step

/-! ### A whole history -/

variable [DecidableEq T]

/-- The calls, one after the other. -/
def applyAll (calls : List (Update T)) : BalWrites T :=
  calls.foldl (fun writes call => writes.update call.index call.original call.value) .default

/-- No call of the history forgets. -/
def Remembers (base : T) (calls : List (Update T)) : Prop :=
  Along (fun past call => ¬Forgets base (applyAll past) call) calls

theorem recorded_applyAll (base : T) (calls : List (Update T)) (hordered : Ordered calls)
    (hfaithful : Faithful base calls) (hremembers : Remembers base calls) :
    Recorded base calls (applyAll calls) := by
  induction calls using reverseRec with
  | nil =>
    exact ⟨increasing_default, fun _ hwrite => (nomatch hwrite), fun _ => rfl⟩
  | append_singleton calls call ih =>
    obtain ⟨hearlier, -, hlast⟩ := pairwise_append.1 hordered
    obtain ⟨hfaithful, horiginal⟩ := hfaithful.of_concat
    obtain ⟨hremembers, hforgets⟩ := hremembers.of_concat
    have hstep := (ih hearlier hfaithful hremembers).update
      (fun earlier hmem => hlast earlier hmem call (mem_singleton.2 rfl)) horiginal hforgets
    unfold applyAll at hstep ⊢
    rwa [foldl_append]

end Update

namespace BalWrites

/-- Nothing is in front of an index exactly if no write precedes it. -/
theorem before_eq_none_iff {self : BalWrites T} (h : self.Increasing) (index : Nat) :
    self.before index = none ↔ ∀ write ∈ self.writes, index ≤ write.1 := by
  unfold before
  rw [takeWhile_eq_filter (h.imp le_of_lt), Option.map_eq_none_iff, getLast?_eq_none_iff,
    filter_eq_nil_iff]
  refine forall₂_congr fun write _ => ?_
  rw [decide_eq_true_eq, Nat.not_lt]

end BalWrites

/-- A history of calls in order, each with the value in force as the original one, none of which
forgets: the indices increase and every index finds the value in force in front of it. -/
theorem updates_record_history {T : Type} [DecidableEq T] (base : T) (calls : List (Update T))
    (hordered : Update.Ordered calls) (hfaithful : Update.Faithful base calls)
    (hremembers : Update.Remembers base calls) : (Update.applyAll calls).Increasing ∧ ∀ index,
      ((Update.applyAll calls).get index = none ↔
        Update.inForceBefore base calls index = base ∧
          ∀ write ∈ (Update.applyAll calls).writes, index ≤ write.1) ∧
      (∀ value, (Update.applyAll calls).get index = some value →
        value = Update.inForceBefore base calls index) ∧
      ((Update.applyAll calls).get index).getD base = Update.inForceBefore base calls index := by
  have hrecorded := Update.recorded_applyAll base calls hordered hfaithful hremembers
  refine ⟨hrecorded.increasing, fun index => ?_⟩
  have hvalue := hrecorded.value index
  rw [get_eq_before hrecorded.increasing]
  refine ⟨⟨fun hnone => ?_, fun h => ?_⟩, fun value hsome => ?_, hvalue⟩
  · rw [hnone] at hvalue
    exact ⟨hvalue.symm, (before_eq_none_iff hrecorded.increasing index).1 hnone⟩
  · exact (before_eq_none_iff hrecorded.increasing index).2 h.2
  · rw [hsome] at hvalue
    exact hvalue

/-- A value that is set, kept at a later index, set twice and set back. -/
def setAndKept : List (Update Nat) :=
  [⟨1, 0, 5⟩, ⟨2, 5, 5⟩, ⟨3, 5, 6⟩, ⟨3, 6, 7⟩, ⟨4, 7, 0⟩]

theorem updates_record_history_setAndKept :
    (Update.applyAll setAndKept).writes = [(1, 5), (3, 7), (4, 0)] ∧
      ∀ index, ((Update.applyAll setAndKept).get index).getD 0 =
        Update.inForceBefore 0 setAndKept index := by
  have hfaithful : Update.Faithful 0 setAndKept :=
    ((((Along.nil.concat rfl).concat rfl).concat rfl).concat rfl).concat rfl
  have hremembers : Update.Remembers 0 setAndKept := by
    refine ((((Along.nil.concat ?_).concat ?_).concat ?_).concat ?_).concat ?_
    all_goals
      unfold Update.Forgets
      decide
  have hrecord := updates_record_history 0 setAndKept (by unfold Update.Ordered; decide) hfaithful
    hremembers
  exact ⟨by decide, fun index => (hrecord.2 index).2.2⟩

/-- A second call with the same index that keeps the value takes the only write away. -/
theorem updates_forget_value : Update.Ordered [(⟨1, 0, 5⟩ : Update Nat), ⟨1, 5, 5⟩] ∧
      Update.Faithful 0 [(⟨1, 0, 5⟩ : Update Nat), ⟨1, 5, 5⟩] ∧
      Update.inForceBefore 0 [(⟨1, 0, 5⟩ : Update Nat), ⟨1, 5, 5⟩] 2 = 5 ∧
      (Update.applyAll [(⟨1, 0, 5⟩ : Update Nat), ⟨1, 5, 5⟩]).get 2 = none :=
  ⟨by unfold Update.Ordered; decide, (Along.nil.concat rfl).concat rfl, by decide, by decide⟩

end Revm
