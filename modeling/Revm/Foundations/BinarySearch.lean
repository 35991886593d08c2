import Mathlib.Data.List.NodupEquivFin
import Mathlib.Data.List.TakeWhile
import Mathlib.Order.Basic
import Mathlib.Tactic.Common

/-!
# Binary search

A binary search looks for a key in a sorted list. It answers a position of the key, or the position
where the key would have to be inserted; which position of a repeated key it answers is left open
(`Answers`). A key that is not repeated has one answer, the number of smaller keys: what lies in
front of it is the part of the list that is smaller than the key (`Answers.takeWhile_eq_take`).

`BinarySearch.search` is such a search by halving a window (`search_answers`).
-/

set_option autoImplicit false

open List

namespace BinarySearch

variable {α : Type} [LinearOrder α]

/-- Halve the window of `size` keys from `base` on until one is left. -/
def narrow (keys : List α) (key : α) : Nat → Nat → Nat → Nat
  | 0, base, _ => base
  | fuel + 1, base, size =>
      if 1 < size then
        let half := size / 2
        let mid := base + half
        match keys[mid]? with
        | some x => narrow keys key fuel (if key < x then base else mid) (size - half)
        | none => base
      else base

/-- The position of the key, or where to insert it. -/
def search (keys : List α) (key : α) : Except Nat Nat :=
  let base := narrow keys key keys.length 0 keys.length
  match keys[base]? with
  | none => .error base
  | some x => if x = key then .ok base else if x < key then .error (base + 1) else .error base

/-- The position in both cases. -/
def position : Except Nat Nat → Nat
  | .ok i => i
  | .error i => i

/-- What is known of an answer in a sorted list: a position of the key, or the place of a missing
key. -/
inductive Answers (keys : List α) (key : α) : Except Nat Nat → Prop
  | found {i : Nat} (h : keys[i]? = some key) : Answers keys key (.ok i)
  | missing {i : Nat} (hbound : i ≤ keys.length)
      (hfront : ∀ j x, j < i → keys[j]? = some x → x < key)
      (hbehind : ∀ j x, i ≤ j → keys[j]? = some x → key < x) : Answers keys key (.error i)

/-- Everything in front of the window is at most the key, everything behind it is greater. -/
structure Window (keys : List α) (key : α) (base size : Nat) : Prop where
  bound : base + size ≤ keys.length
  front : base ≠ 0 → ∀ x, keys[base]? = some x → x ≤ key
  behind : ∀ i x, base + size ≤ i → keys[i]? = some x → key < x

variable {keys : List α} {key : α}

section

variable (hsorted : keys.Pairwise (· ≤ ·))

include hsorted

theorem getElem?_le_of_sorted {i j : Nat} {x y : α} (hij : i ≤ j)
    (hx : keys[i]? = some x) (hy : keys[j]? = some y) : x ≤ y := by
  rcases Nat.eq_or_lt_of_le hij with rfl | hlt
  · exact (Option.some.inj (hx.symm.trans hy)).le
  · obtain ⟨hi, rfl⟩ := List.getElem?_eq_some_iff.1 hx
    obtain ⟨hj, rfl⟩ := List.getElem?_eq_some_iff.1 hy
    exact pairwise_iff_getElem.1 hsorted i j hi hj hlt

/-- Enough halvings leave a window of one key. -/
theorem window_narrow {fuel base size : Nat} (hsize : 0 < size) (hfuel : size ≤ fuel)
    (h : Window keys key base size) : Window keys key (narrow keys key fuel base size) 1 := by
  induction fuel generalizing base size with
  | zero => omega
  | succ fuel ih =>
    unfold narrow
    split_ifs with hone
    · dsimp only
      have hmid : base + size / 2 < keys.length := by
        have := h.bound
        omega
      rw [getElem?_eq_getElem hmid]
      dsimp only
      split_ifs with hlt
      · -- the key is in front of the middle
        refine ih (by omega) (by omega) ⟨by have := h.bound; omega, h.front, fun i x hi hx => ?_⟩
        have hle := getElem?_le_of_sorted hsorted (by omega) (getElem?_eq_getElem hmid) hx
        exact hlt.trans_le hle
      · -- the key is not in front of the middle
        refine ih (by omega) (by omega) ⟨by have := h.bound; omega, fun _ x hx => ?_,
          fun i x hi => ?_⟩
        · rw [getElem?_eq_getElem hmid] at hx
          rw [← Option.some.inj hx]
          exact not_lt.1 hlt
        · exact h.behind i x (by omega)
    · obtain rfl : size = 1 := by omega
      exact h

/-- The one key that is left decides. -/
theorem search_answers (key : α) : Answers keys key (search keys key) := by
  rcases Nat.eq_zero_or_pos keys.length with hempty | hpos
  · rw [length_eq_zero_iff.1 hempty]
    exact .missing le_rfl (fun i x _ hx => (nomatch hx)) (fun i x _ hx => (nomatch hx))
  · have hwindow : Window keys key (narrow keys key keys.length 0 keys.length) 1 := by
      refine window_narrow hsorted hpos le_rfl ⟨(Nat.zero_add _).le, fun h => absurd rfl h, ?_⟩
      intro i x hi hx
      have := (List.getElem?_eq_some_iff.1 hx).1
      omega
    unfold search
    dsimp only
    revert hwindow
    generalize narrow keys key keys.length 0 keys.length = base
    intro hwindow
    have hbase : base < keys.length := hwindow.bound
    have hat : keys[base]? = some keys[base] := getElem?_eq_getElem hbase
    rw [hat]
    dsimp only
    split_ifs with heq hlt
    · exact .found (hat.trans (congrArg some heq))
    · refine .missing hbase (fun i x hi hx => ?_) hwindow.behind
      exact (getElem?_le_of_sorted hsorted (Nat.lt_succ_iff.1 hi) hx hat).trans_lt hlt
    · have hgt : key < keys[base] := lt_of_le_of_ne (not_lt.1 hlt) (Ne.symm heq)
      have hzero : base = 0 := by
        by_contra hne
        exact absurd (hwindow.front hne _ hat) (not_le.2 hgt)
      refine .missing hbase.le (fun i x hi => ?_) (fun i x hi hx => ?_)
      · omega
      · exact hgt.trans_le (getElem?_le_of_sorted hsorted hi hat hx)

end

/-- A list is cut where a condition stops to hold. -/
theorem takeWhile_eq_take {β : Type} {p : β → Bool} (l : List β) {n : Nat}
    (hfront : ∀ i x, i < n → l[i]? = some x → p x = true)
    (hbehind : ∀ i x, n ≤ i → l[i]? = some x → p x = false) : l.takeWhile p = l.take n := by
  induction l generalizing n with
  | nil => simp
  | cons x l ih =>
    cases n with
    | zero => simp [hbehind 0 x le_rfl rfl]
    | succ n =>
      rw [takeWhile_cons, if_pos (hfront 0 x (Nat.succ_pos n) rfl), take_succ_cons,
        ih (fun i y hi hy => hfront (i + 1) y (Nat.succ_lt_succ hi) hy)
          fun i y hi hy => hbehind (i + 1) y (Nat.succ_le_succ hi) hy]

/-- A key that occurs once has one position. -/
theorem position_unique (hcount : keys.count key ≤ 1) {i j : Nat} (hi : keys[i]? = some key)
    (hj : keys[j]? = some key) : i = j := by
  by_contra hne
  obtain ⟨hilt, hik⟩ := List.getElem?_eq_some_iff.1 hi
  obtain ⟨hjlt, hjk⟩ := List.getElem?_eq_some_iff.1 hj
  have hdup : List.Duplicate key keys := by
    rw [duplicate_iff_exists_distinct_get]
    rcases Nat.lt_or_gt_of_ne hne with hlt | hlt
    · exact ⟨⟨i, hilt⟩, ⟨j, hjlt⟩, hlt, hik.symm, hjk.symm⟩
    · exact ⟨⟨j, hjlt⟩, ⟨i, hilt⟩, hlt, hjk.symm, hik.symm⟩
  have htwo := duplicate_iff_two_le_count.1 hdup
  omega

namespace Answers

variable {answer : Except Nat Nat}

theorem position_le (h : Answers keys key answer) : position answer ≤ keys.length := by
  cases h with
  | found hat => exact (List.getElem?_eq_some_iff.1 hat).1.le
  | missing hbound _ _ => exact hbound

/-- In front of the position of a key that is not repeated the keys are smaller, from it on they are
not. -/
theorem cut (h : Answers keys key answer)
    (hsorted : keys.Pairwise (· ≤ ·)) (hcount : keys.count key ≤ 1) :
    (∀ i x, i < position answer → keys[i]? = some x → x < key) ∧
      ∀ i x, position answer ≤ i → keys[i]? = some x → key ≤ x := by
  cases h with
  | found hat =>
    constructor
    · intro i x hi hx
      refine lt_of_le_of_ne (getElem?_le_of_sorted hsorted hi.le hx hat) ?_
      rintro rfl
      exact absurd (position_unique hcount hx hat) hi.ne
    · intro i x hi hx
      exact getElem?_le_of_sorted hsorted hi hat hx
  | missing _ hfront hbehind => exact ⟨hfront, fun i x hi hx => (hbehind i x hi hx).le⟩

/-- The position is the number of smaller keys. -/
theorem takeWhile_eq_take {β : Type} {f : β → α} {l : List β} (h : Answers (l.map f) key answer)
    (hsorted : (l.map f).Pairwise (· ≤ ·)) (hcount : (l.map f).count key ≤ 1) :
    l.takeWhile (fun x => f x < key) = l.take (position answer) := by
  obtain ⟨hfront, hbehind⟩ := h.cut hsorted hcount
  have hat : ∀ {i : Nat} {x : β}, l[i]? = some x → (l.map f)[i]? = some (f x) := by
    intro i x hx
    rw [getElem?_map, hx]
    rfl
  apply BinarySearch.takeWhile_eq_take
  · intro i x hi hx
    exact decide_eq_true (hfront i (f x) hi (hat hx))
  · intro i x hi hx
    exact decide_eq_false (not_lt.2 (hbehind i (f x) hi (hat hx)))

end Answers

end BinarySearch
