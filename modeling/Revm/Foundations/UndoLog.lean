import Mathlib.Tactic

/-!
# Undo logs

A component with an undo log records one entry for each change it may have to take back. An
`UndoRule` says what undoing an entry does to the abstract state and in which states it may be done.
`UndoRule.Extends` relates two moments of such a component: the later log extends the earlier one,
and undoing the new entries from the last to the first leads back to the earlier state. It is
reflexive and transitive, so it is proved change by change (`UndoRule.Extends.refl`,
`UndoRule.Extends.trans`, `UndoRule.Extends.record`).

`UndoRule.prod` combines the rules of two states that share a log, and
`UndoRule.foldlM_reverse_rewind` carries a rewind over to an implementation that may abort.
-/

set_option autoImplicit false

/-- What undoing one entry does, and the states in which it may be undone. -/
structure UndoRule (E S : Type) where
  guard : E → S → Prop
  undo : E → S → S

namespace UndoRule

variable {E S : Type} (r : UndoRule E S)

/-- Undo a list of entries, the last one first. -/
def rewind (es : List E) (s : S) : S := es.foldr r.undo s

/-- Each entry may be undone when its turn comes. -/
def Guarded : List E → S → Prop
  | [], _ => True
  | e :: es, s => Guarded es s ∧ r.guard e (r.rewind es s)

/-- The log `log'` in state `s'` can be rewound to `log` in state `s`. -/
def Extends (log : List E) (s : S) (log' : List E) (s' : S) : Prop :=
  ∃ es, log' = log ++ es ∧ r.Guarded es s' ∧ r.rewind es s' = s

variable {r}

theorem rewind_append (es fs : List E) (s : S) :
    r.rewind (es ++ fs) s = r.rewind es (r.rewind fs s) :=
  List.foldr_append

theorem Guarded.append {es fs : List E} {s : S} (hfs : r.Guarded fs s)
    (hes : r.Guarded es (r.rewind fs s)) : r.Guarded (es ++ fs) s := by
  induction es with
  | nil => exact hfs
  | cons e es ih =>
    refine ⟨ih hes.1, ?_⟩
    show r.guard e (r.rewind (es ++ fs) s)
    rw [rewind_append]
    exact hes.2

namespace Extends

variable {log log₁ log₂ : List E} {s s₁ s₂ : S}

theorem refl (log : List E) (s : S) : r.Extends log s log s :=
  ⟨[], (List.append_nil log).symm, trivial, rfl⟩

theorem trans (h₁ : r.Extends log s log₁ s₁) (h₂ : r.Extends log₁ s₁ log₂ s₂) :
    r.Extends log s log₂ s₂ := by
  obtain ⟨es, rfl, hg, hs⟩ := h₁
  obtain ⟨fs, rfl, hg', hs'⟩ := h₂
  refine ⟨es ++ fs, by rw [List.append_assoc], hg'.append ?_, ?_⟩
  · rw [hs']
    exact hg
  · rw [rewind_append, hs', hs]

/-- One recorded change. -/
theorem record {e : E} (hg : r.guard e s₁) (hs : r.undo e s₁ = s) :
    r.Extends log s (log ++ [e]) s₁ :=
  ⟨[e], rfl, ⟨trivial, hg⟩, hs⟩

end Extends

/-! ## Two states with one log -/

section Product

variable {T : Type} {r₁ : UndoRule E S} {r₂ : UndoRule E T}

/-- One log that undoes changes of two states. -/
def prod (r₁ : UndoRule E S) (r₂ : UndoRule E T) : UndoRule E (S × T) where
  guard e s := r₁.guard e s.1 ∧ r₂.guard e s.2
  undo e s := (r₁.undo e s.1, r₂.undo e s.2)

theorem rewind_prod (es : List E) (s : S × T) :
    (r₁.prod r₂).rewind es s = (r₁.rewind es s.1, r₂.rewind es s.2) := by
  induction es with
  | nil => rfl
  | cons e es ih =>
    show (r₁.prod r₂).undo e ((r₁.prod r₂).rewind es s) = _
    rw [ih]
    rfl

theorem Guarded.fst {es : List E} {s : S × T} (h : (r₁.prod r₂).Guarded es s) :
    r₁.Guarded es s.1 := by
  induction es with
  | nil => trivial
  | cons e es ih =>
    have hhead := h.2.1
    rw [rewind_prod] at hhead
    exact ⟨ih h.1, hhead⟩

theorem Extends.fst {log log' : List E} {s s' : S × T} (h : (r₁.prod r₂).Extends log s log' s') :
    r₁.Extends log s.1 log' s'.1 := by
  obtain ⟨es, hlog, hg, hs⟩ := h
  rw [rewind_prod] at hs
  exact ⟨es, hlog, hg.fst, congrArg Prod.fst hs⟩

end Product

/-! ## Implementations -/

section Implementation

variable {C : Type} (undoM : E → C → Option C) (abs : C → S)

/-- An implementation of `undo` that is defined on the entries with `P`, keeps an invariant `Q` and
keeps `P`, rewinds every guarded list of such entries. -/
theorem foldlM_reverse_rewind (P : E → C → Prop) (Q : C → Prop)
    (step : ∀ e c, Q c → P e c → r.guard e (abs c) →
      ∃ c', undoM e c = some c' ∧ abs c' = r.undo e (abs c) ∧ Q c' ∧ ∀ e', P e' c → P e' c')
    (es : List E) (c : C) (hQ : Q c) (hP : ∀ e ∈ es, P e c) (hg : r.Guarded es (abs c)) :
    ∃ c', es.reverse.foldlM (fun c e => undoM e c) c = some c' ∧
      abs c' = r.rewind es (abs c) ∧ Q c' ∧ ∀ e', P e' c → P e' c' := by
  induction es with
  | nil => exact ⟨c, rfl, rfl, hQ, fun _ h => h⟩
  | cons e es ih =>
    obtain ⟨c₁, hrun, habs, hQ₁, hkeep⟩ := ih (fun e' h => hP e' (List.mem_cons_of_mem e h)) hg.1
    have hguard : r.guard e (abs c₁) := by
      rw [habs]
      exact hg.2
    obtain ⟨c₂, hstep, habs₂, hQ₂, hkeep₂⟩ :=
      step e c₁ hQ₁ (hkeep e (hP e List.mem_cons_self)) hguard
    refine ⟨c₂, ?_, ?_, hQ₂, fun e' h => hkeep₂ e' (hkeep e' h)⟩
    · rw [List.reverse_cons, List.foldlM_append, hrun]
      simp [hstep]
    · rw [habs₂, habs]
      rfl

end Implementation

end UndoRule
