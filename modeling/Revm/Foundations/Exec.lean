import Mathlib.Logic.Basic

/-!
# Computations that may stop or fault

`Exec σ τ φ α` is a computation on a state `σ`. It goes on with a value, it stops early with a `τ`
and the state it has reached, or it faults. A fault has no state: nothing is known about the machine
after it.

`Outcome.Meets` states a postcondition for each of the three ends. A `Discipline` says what a
computation may do to the state: an invariant that it keeps, a relation between the states before
and after it, and the faults it may end in. `Exec.Obeys` is closed under `pure` and `bind`, so a
discipline that the primitive operations of a language obey holds for every program of it.
-/

set_option autoImplicit false

/-- The end of a computation. -/
inductive Outcome (σ τ φ α : Type) where
  | next (a : α) (s : σ)
  | stop (t : τ) (s : σ)
  | fault (e : φ)

/-- Computations on a state that may stop early or fault. -/
def Exec (σ τ φ α : Type) : Type := σ → Outcome σ τ φ α

namespace Exec

variable {σ τ φ α β : Type}

/-- The computation that does nothing. -/
protected def pure (a : α) : Exec σ τ φ α := fun s => .next a s

/-- One computation after the other. -/
protected def bind (x : Exec σ τ φ α) (f : α → Exec σ τ φ β) : Exec σ τ φ β := fun s =>
  match x s with
  | .next a s => f a s
  | .stop t s => .stop t s
  | .fault e => .fault e

instance : Monad (Exec σ τ φ) where
  pure := Exec.pure
  bind := Exec.bind

theorem pure_apply (a : α) (s : σ) : (pure a : Exec σ τ φ α) s = .next a s := rfl

theorem bind_apply (x : Exec σ τ φ α) (f : α → Exec σ τ φ β) (s : σ) : (x >>= f) s =
      match x s with
      | .next a s => f a s
      | .stop t s => .stop t s
      | .fault e => .fault e := rfl

variable {x : Exec σ τ φ α}

theorem bind_of_next (f : α → Exec σ τ φ β) {s s' : σ} {a : α}
    (h : x s = .next a s') : (x >>= f) s = f a s' := by
  rw [bind_apply, h]

theorem bind_eq_next {f : α → Exec σ τ φ β} {s s' : σ} {b : β}
    (h : (x >>= f) s = .next b s') : ∃ a s₁, x s = .next a s₁ ∧ f a s₁ = .next b s' := by
  rw [bind_apply] at h
  cases hx : x s with
  | next a s₁ =>
    rw [hx] at h
    exact ⟨a, s₁, rfl, h⟩
  | stop t s₁ => rw [hx] at h; cases h
  | fault e => rw [hx] at h; cases h

theorem bind_eq_fault {f : α → Exec σ τ φ β} {s : σ} {e : φ} (h : (x >>= f) s = .fault e) :
    x s = .fault e ∨ ∃ a s₁, x s = .next a s₁ ∧ f a s₁ = .fault e := by
  rw [bind_apply] at h
  cases hx : x s with
  | next a s₁ =>
    rw [hx] at h
    exact .inr ⟨a, s₁, rfl, h⟩
  | stop t s₁ => rw [hx] at h; cases h
  | fault e' =>
    rw [hx] at h
    cases h
    exact .inl rfl

end Exec

/-! ## Postconditions -/

namespace Outcome

variable {σ τ φ α β : Type}

/-- A postcondition for each end. -/
def Meets (o : Outcome σ τ φ α) (Q : α → σ → Prop) (S : τ → σ → Prop) (F : φ → Prop) : Prop :=
  match o with
  | next a s => Q a s
  | stop t s => S t s
  | fault e => F e

variable {Q Q' : α → σ → Prop} {S S' : τ → σ → Prop} {F F' : φ → Prop} {o : Outcome σ τ φ α}

section

variable (h : o.Meets Q S F)

include h

theorem Meets.mono (hQ : ∀ a s, Q a s → Q' a s)
    (hS : ∀ t s, S t s → S' t s) (hF : ∀ e, F e → F' e) : o.Meets Q' S' F' := by
  cases o with
  | next a s => exact hQ a s h
  | stop t s => exact hS t s h
  | fault e => exact hF e h

theorem Meets.mono_next (hQ : ∀ a s, Q a s → Q' a s) : o.Meets Q' S F :=
  h.mono hQ (fun _ _ h => h) fun _ h => h

theorem Meets.next {a : α} {s : σ} (ho : o = .next a s) : Q a s := by
  rw [ho] at h
  exact h

theorem Meets.ne_fault {e : φ} (he : ¬F e) : o ≠ .fault e := by
  rintro rfl
  exact he h

theorem Meets.and (h' : o.Meets Q' S' F') :
    o.Meets (fun a s => Q a s ∧ Q' a s) (fun t s => S t s ∧ S' t s) (fun e => F e ∧ F' e) := by
  cases o with
  | next a s => exact ⟨h, h'⟩
  | stop t s => exact ⟨h, h'⟩
  | fault e => exact ⟨h, h'⟩

end

/-- The rule for one computation after the other. -/
theorem Meets.bind {x : Exec σ τ φ α} {f : α → Exec σ τ φ β} {s : σ} {Q : β → σ → Prop}
    (h : (x s).Meets (fun a s' => (f a s').Meets Q S F) S F) : ((x >>= f) s).Meets Q S F := by
  rw [Exec.bind_apply]
  cases hx : x s with
  | next a s' =>
    rw [hx] at h
    exact h
  | stop t s' =>
    rw [hx] at h
    exact h
  | fault e =>
    rw [hx] at h
    exact h

end Outcome

/-! ## Disciplines -/

/-- What a computation may do: keep the invariant, relate the states before and after it, and end in
one of the faults. A computation that stops early leaves a state that is only related. -/
structure Discipline (σ φ : Type) where
  Inv : σ → Prop
  Step : σ → σ → Prop
  Stop : σ → σ → Prop
  Fault : φ → Prop
  refl : ∀ s, Step s s
  trans : ∀ {s s' s''}, Step s s' → Step s' s'' → Step s s''
  stop_of_step : ∀ {s s' s''}, Step s s' → Stop s' s'' → Stop s s''

/-- The end of a computation from `s` that obeys the discipline, with a value of which `Q` holds. -/
abbrev Outcome.Gives {σ τ φ α : Type} (o : Outcome σ τ φ α) (D : Discipline σ φ) (s : σ)
    (Q : α → σ → Prop) : Prop :=
  o.Meets (fun a s' => D.Inv s' ∧ D.Step s s' ∧ Q a s') (fun _ s' => D.Stop s s') D.Fault

namespace Exec

variable {σ τ φ α β : Type} {D : Discipline σ φ}
variable {x : Exec σ τ φ α} {Q : β → σ → Prop} {f : α → Exec σ τ φ β} {P : α → σ → Prop} {s : σ}

/-- The computation obeys the discipline, and its result has the property `Q`. -/
def Gives (D : Discipline σ φ) (x : Exec σ τ φ α) (Q : α → σ → Prop) : Prop :=
  ∀ s, D.Inv s → (x s).Gives D s Q

/-- The computation obeys the discipline. -/
def Obeys (D : Discipline σ φ) (x : Exec σ τ φ α) : Prop := Gives D x fun _ _ => True

theorem Gives.obeys {Q : α → σ → Prop} (h : Gives D x Q) : Obeys D x := by
  intro s hs
  exact (h s hs).mono_next (fun _ _ h => ⟨h.1, h.2.1, trivial⟩)

theorem Obeys.pure (a : α) : Obeys D (pure a : Exec σ τ φ α) := fun s hs =>
  ⟨hs, D.refl s, trivial⟩

/-- A fact about the first computation carries to the second one, from one state on. -/
theorem gives_bind (hx : (x s).Gives D s P)
    (hf : ∀ a s, P a s → D.Inv s → (f a s).Gives D s Q) : ((x >>= f) s).Gives D s Q := by
  apply Outcome.Meets.bind
  refine hx.mono_next ?_
  rintro a s' ⟨hinv, hstep, hP⟩
  exact (hf a s' hP hinv).mono (fun _ _ h => ⟨h.1, D.trans hstep h.2.1, h.2.2⟩)
    (fun _ _ h => D.stop_of_step hstep h) (fun _ h => h)

/-- Two continuations that agree on the states that the first computation may reach. -/
theorem bind_congr {f' : α → Exec σ τ φ β} (hs : D.Inv s) (hx : Obeys D x)
    (h : ∀ a s', D.Inv s' → D.Step s s' → f a s' = f' a s') : (x >>= f) s = (x >>= f') s := by
  rw [bind_apply, bind_apply]
  cases hrun : x s with
  | next a s' =>
    obtain ⟨hinv, hstep, -⟩ := (hx s hs).next hrun
    exact h a s' hinv hstep
  | stop t s' => rfl
  | fault e => rfl

theorem gives_map {f : α → β}
    (hx : (x s).Gives D s P) (h : ∀ a s', D.Inv s' → D.Step s s' → P a s' → Q (f a) s') :
    ((x >>= fun a => Pure.pure (f a)) s).Gives D s Q := by
  apply Outcome.Meets.bind
  refine hx.mono_next ?_
  rintro a s' ⟨hinv, hstep, hP⟩
  exact ⟨hinv, hstep, h a s' hinv hstep hP⟩

/-- A fact about the first computation carries to the second one. -/
theorem Gives.bind (hx : Gives D x P)
    (hf : ∀ a s, P a s → D.Inv s → (f a s).Gives D s Q) : Gives D (x >>= f) Q :=
  fun s hs => gives_bind (hx s hs) hf

theorem Gives.pure {a : α} {Q : α → σ → Prop} (h : ∀ s, D.Inv s → Q a s) :
    Gives D (pure a : Exec σ τ φ α) Q := fun s hs => ⟨hs, D.refl s, h s hs⟩

theorem Gives.mono {Q : α → σ → Prop} (h : Gives D x P)
    (hPQ : ∀ a s, P a s → Q a s) : Gives D x Q := fun s hs =>
  (h s hs).mono_next (fun a s' h => ⟨h.1, h.2.1, hPQ a s' h.2.2⟩)

/-- A fact about the value of the first computation carries to the second one. -/
theorem Gives.bind_value {P : α → Prop} (hx : Gives D x fun a _ => P a)
    (hf : ∀ a, P a → Gives D (f a) Q) : Gives D (x >>= f) Q :=
  Gives.bind hx fun a s hP hs => hf a hP s hs

/-- A computation that obeys does not disturb what the rest gives. -/
theorem Obeys.bind_gives (hx : Obeys D x) (hf : ∀ a, Gives D (f a) Q) : Gives D (x >>= f) Q :=
  Gives.bind hx fun a s _ hs => hf a s hs

theorem Obeys.bind (hx : Obeys D x) (hf : ∀ a, Obeys D (f a)) : Obeys D (x >>= f) :=
  hx.bind_gives hf

end Exec
