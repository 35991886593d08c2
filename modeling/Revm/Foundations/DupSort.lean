import Mathlib.Data.List.Sort
import Mathlib.Data.List.TakeWhile
import Mathlib.Tactic.Common

/-!
# Tables with sorted duplicates

A table with sorted duplicates keeps several items under one key, in an order in which the items
with one subkey stand next to each other. `Items` are the items under a key, with their order as a
field. A cursor is placed on the first item whose subkey is not smaller than the one that is sought,
deletes the item under it, and goes on to the next one; after a deletion the next item is the one
that has moved to the place of the cursor.

`get` reads the first item with a subkey (`get_eq_find?`), `clear` deletes all items with a subkey
one by one (`items_clear`) and `put` adds an item. After `clear` and `put` the item is read, and at
other subkeys nothing has changed (`get_put_clear`).
-/

set_option autoImplicit false

open List

namespace DupSort

/-- An order of items that first compares a subkey. -/
structure Order (E : Type) where
  subkey : E → Nat
  le : E → E → Bool
  subkey_le_of_le : ∀ x y, le x y = true → subkey x ≤ subkey y
  subkey_le_of_not_le : ∀ x y, le x y = false → subkey y ≤ subkey x

/-- The items under one key, in order. -/
structure Items {E : Type} (o : Order E) where
  items : List E
  sorted : items.Pairwise fun x y => o.subkey x ≤ o.subkey y

/-- A cursor on the items under one key. -/
structure Cursor (E : Type) where
  items : List E
  position : Nat
  deleted : Bool

namespace Cursor

variable {E : Type}

/-- Delete the item under the cursor. -/
def deleteCurrent (c : Cursor E) : Cursor E :=
  { c with items := c.items.eraseIdx c.position, deleted := true }

/-- The next item under the same key. -/
def nextDup (c : Cursor E) : Cursor E × Option E :=
  let position := if c.deleted then c.position else c.position + 1
  ({ c with position := position, deleted := false }, c.items[position]?)

end Cursor

namespace Items

variable {E : Type} {o : Order E} (self : Items o) (subkey : Nat)

def empty : Items o := ⟨[], List.Pairwise.nil⟩

/-- The first item whose subkey is not smaller. -/
def seek : Cursor E × Option E :=
  let position := (self.items.takeWhile fun x => o.subkey x < subkey).length
  (⟨self.items, position, false⟩, self.items[position]?)

/-- The first item with the subkey. -/
def get : Option E :=
  (self.seek subkey).2.filter fun x => o.subkey x = subkey

end Items

variable {E : Type} (o : Order E)

/-- Delete the items with the subkey from the cursor on, which stands on `item`. -/
def clearFrom (subkey : Nat) : Nat → Cursor E → E → Cursor E
  | 0, c, _ => c
  | fuel + 1, c, item =>
      if o.subkey item ≠ subkey then c
      else
        match c.deleteCurrent.nextDup with
        | (c, some next) => clearFrom subkey fuel c next
        | (c, none) => c

variable {o}

/-- What is in front of the cursor stays, and behind it the items with the subkey go. -/
theorem items_clearFrom (subkey : Nat) (front back : List E) (item : E) (deleted : Bool)
    {fuel : Nat} (hfuel : back.length < fuel) :
    (clearFrom o subkey fuel ⟨front ++ item :: back, front.length, deleted⟩ item).items =
      front ++ (item :: back).dropWhile fun x => o.subkey x = subkey := by
  induction fuel generalizing item back deleted with
  | zero => exact absurd hfuel (Nat.not_lt_zero _)
  | succ fuel ih =>
    unfold clearFrom
    rw [dropWhile_cons]
    split_ifs with hne heq heq
    · exact absurd (by simpa using heq) hne
    · rfl
    · have hrest : (front ++ item :: back).eraseIdx front.length = front ++ back := by
        rw [eraseIdx_append_of_length_le le_rfl, Nat.sub_self]
        rfl
      dsimp only [Cursor.deleteCurrent, Cursor.nextDup]
      rw [hrest, if_pos rfl, getElem?_append_right le_rfl, Nat.sub_self]
      -- the next item has moved to the place of the cursor
      cases back with
      | nil => rfl
      | cons next back => exact ih back next false (Nat.lt_of_succ_lt_succ hfuel)
    · exact absurd (by simpa using hne) heq

/-- From the first one that is not smaller on, the items with the subkey come first. -/
theorem dropWhile_eq_filter {l : List E} {subkey : Nat}
    (hsorted : l.Pairwise fun x y => o.subkey x ≤ o.subkey y) (hge : ∀ x ∈ l, subkey ≤ o.subkey x) :
    l.dropWhile (fun x => o.subkey x = subkey) = l.filter fun x => o.subkey x ≠ subkey := by
  induction l with
  | nil => rfl
  | cons x l ih =>
    obtain ⟨hx, hl⟩ := pairwise_cons.1 hsorted
    rw [dropWhile_cons, filter_cons]
    by_cases heq : o.subkey x = subkey
    · rw [if_pos (by simpa using heq), if_neg (by simpa using heq),
        ih hl fun y hy => hge y (mem_cons_of_mem _ hy)]
    · rw [if_neg (by simpa using heq), if_pos (by simpa using heq), filter_eq_self.2]
      intro y hy
      have hlt : subkey < o.subkey x := lt_of_le_of_ne (hge x mem_cons_self) (Ne.symm heq)
      exact decide_eq_true (hlt.trans_le (hx y hy)).ne'

namespace Items

variable (self : Items o) (subkey : Nat)

/-- The items in front of the cursor, and those from it on. -/
theorem split :
    ∃ front back, self.items = front ++ back ∧ (self.seek subkey) =
      (⟨self.items, front.length, false⟩, back.head?) ∧ (∀ x ∈ front, o.subkey x < subkey) ∧
      (back.Pairwise fun x y => o.subkey x ≤ o.subkey y) ∧ ∀ x ∈ back, subkey ≤ o.subkey x := by
  have happend := takeWhile_append_dropWhile (p := fun x => decide (o.subkey x < subkey))
    (l := self.items)
  have hsorted := self.sorted
  rw [← happend, pairwise_append] at hsorted
  refine ⟨_, _, happend.symm, ?_, fun x hx => ?_, hsorted.2.1, fun x hx => ?_⟩
  · unfold seek
    dsimp only
    congr 1
    have hat := congrArg (fun l : List E =>
      l[(self.items.takeWhile fun x => decide (o.subkey x < subkey)).length]?) happend
    rw [← hat, getElem?_append_right le_rfl, Nat.sub_self, head?_eq_getElem?]
  · have hlt := mem_takeWhile_imp hx
    exact of_decide_eq_true hlt
  · -- the first item from the cursor on is not smaller, and the others follow it
    revert hx
    have hhead := head?_dropWhile_not (fun x => decide (o.subkey x < subkey)) self.items
    revert hhead
    have hback := hsorted.2.1
    revert hback
    generalize self.items.dropWhile _ = back
    intro hback hhead hx
    cases back with
    | nil => cases hx
    | cons y back =>
      have hy : subkey ≤ o.subkey y := by simpa using hhead
      rcases mem_cons.1 hx with rfl | hmem
      · exact hy
      · exact hy.trans ((pairwise_cons.1 hback).1 x hmem)

/-- The list without the items with the subkey. -/
def clearItems : List E :=
  match self.seek subkey with
  | (c, none) => c.items
  | (c, some item) => (clearFrom o subkey self.items.length c item).items

theorem clearItems_eq :
    self.clearItems subkey = self.items.filter fun x => o.subkey x ≠ subkey := by
  obtain ⟨front, back, hitems, hseek, hfront, hsorted, hback⟩ := self.split subkey
  have hfilter : front.filter (fun x => o.subkey x ≠ subkey) = front :=
    filter_eq_self.2 fun x hx => decide_eq_true (hfront x hx).ne
  unfold clearItems
  rw [hseek, hitems, filter_append, hfilter]
  cases back with
  | nil => rfl
  | cons item back =>
    show (clearFrom o subkey _ ⟨_, _, _⟩ item).items = _
    rw [items_clearFrom, dropWhile_eq_filter hsorted hback]
    rw [length_append, length_cons]
    omega

/-- Delete the items with the subkey one by one. -/
def clear : Items o where
  items := self.clearItems subkey
  sorted := by
    rw [clearItems_eq]
    exact self.sorted.filter _

theorem items_clear : (self.clear subkey).items = self.items.filter fun x => o.subkey x ≠ subkey :=
  self.clearItems_eq subkey

theorem sorted_orderedInsert {l : List E} (item : E)
    (hsorted : l.Pairwise fun x y => o.subkey x ≤ o.subkey y) :
    (l.orderedInsert (fun x y => o.le x y = true) item).Pairwise
      fun x y => o.subkey x ≤ o.subkey y := by
  induction l with
  | nil => exact pairwise_singleton _ _
  | cons x l ih =>
    obtain ⟨hx, hl⟩ := pairwise_cons.1 hsorted
    rw [orderedInsert]
    split_ifs with hle
    · refine pairwise_cons.2 ⟨fun y hy => ?_, hsorted⟩
      have hitem := o.subkey_le_of_le item x hle
      rcases mem_cons.1 hy with rfl | hmem
      · exact hitem
      · exact hitem.trans (hx y hmem)
    · refine pairwise_cons.2 ⟨fun y hy => ?_, ih hl⟩
      rcases (mem_orderedInsert _).1 hy with rfl | hmem
      · exact o.subkey_le_of_not_le _ x (Bool.eq_false_iff.2 hle)
      · exact hx y hmem

/-- Add an item, unless it is there already. -/
def put [DecidableEq E] (item : E) : Items o where
  items :=
    if item ∈ self.items then self.items
    else self.items.orderedInsert (fun x y => o.le x y = true) item
  sorted := by
    split_ifs
    · exact self.sorted
    · exact sorted_orderedInsert item self.sorted

/-! ## Reading -/

theorem get_eq_find? : self.get subkey = self.items.find? fun x => o.subkey x = subkey := by
  obtain ⟨front, back, hitems, hseek, hfront, hsorted, hback⟩ := self.split subkey
  have hnone : front.find? (fun x => o.subkey x = subkey) = none :=
    find?_eq_none.2 fun x hx => by simpa using (hfront x hx).ne
  unfold get
  rw [hseek, hitems, find?_append, hnone, Option.none_or]
  cases back with
  | nil => rfl
  | cons item back =>
    by_cases heq : o.subkey item = subkey
    · simp [heq]
    · -- all items from the cursor on have a greater subkey
      have hgreater : ∀ x ∈ item :: back, o.subkey x ≠ subkey := by
        intro x hx
        have hitem := lt_of_le_of_ne (hback item mem_cons_self) (Ne.symm heq)
        rcases mem_cons.1 hx with rfl | hmem
        · exact heq
        · exact (hitem.trans_le ((pairwise_cons.1 hsorted).1 x hmem)).ne'
      rw [find?_eq_none.2 fun x hx => by simpa using hgreater x hx]
      simp [heq]

section Insert

variable {l : List E} {r : E → E → Prop} [DecidableRel r] {item : E} {p : E → Bool}

variable (p) in
theorem find?_orderedInsert_of_not (hitem : p item = false) :
    (l.orderedInsert r item).find? p = l.find? p := by
  rw [orderedInsert_eq_take_drop, find?_append, find?_cons_of_neg (by simp [hitem]),
    ← find?_append, takeWhile_append_dropWhile]

theorem find?_orderedInsert_self (hitem : p item = true) (hl : ∀ x ∈ l, p x = false) :
    (l.orderedInsert r item).find? p = some item := by
  have hnone : (l.takeWhile fun x => ¬r item x).find? p = none :=
    find?_eq_none.2 fun x hx => by simp [hl x ((takeWhile_sublist _).subset hx)]
  rw [orderedInsert_eq_take_drop, find?_append, hnone, Option.none_or,
    find?_cons_of_pos hitem]

end Insert

/-- The item that was put in the place of all others with its subkey is read. -/
theorem get_put_clear [DecidableEq E] (item : E) (subkey : Nat) :
    ((self.clear (o.subkey item)).put item).get subkey =
      if subkey = o.subkey item then some item else self.get subkey := by
  have hcleared : ∀ x ∈ (self.clear (o.subkey item)).items, o.subkey x ≠ o.subkey item := by
    intro x hx
    rw [items_clear, mem_filter] at hx
    exact of_decide_eq_true hx.2
  have hnew : item ∉ (self.clear (o.subkey item)).items := fun hmem => hcleared item hmem rfl
  rw [get_eq_find?, get_eq_find?]
  unfold put
  dsimp only
  split_ifs with heq
  · subst heq
    exact find?_orderedInsert_self (decide_eq_true rfl) fun x hx => decide_eq_false (hcleared x hx)
  · rw [find?_orderedInsert_of_not (fun x => o.subkey x = subkey) (decide_eq_false (Ne.symm heq)),
      items_clear, find?_filter]
    congr 1
    funext x
    by_cases hx : o.subkey x = subkey
    · simp [hx, heq]
    · simp [hx]

end Items

end DupSort
