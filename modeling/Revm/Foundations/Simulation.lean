import Revm.Foundations.Exec

/-!
# Computations with additional state

A computation on `σ × ι` simulates one on `σ` if it ends the same way, with the same first half of
the state, whatever the second half is. The two may have different faults: `g` says how a fault of
the second computation appears in the first, so a fault outside of the range of `g` is one that the
simulating computation never ends in.

`Exec.Simulates` is closed under `pure` and `bind`, and `Exec.lift` turns a computation on `σ` into
one that simulates it.
-/

set_option autoImplicit false

variable {σ ι τ τ' φ φ' α α' β β' : Type}

/-! ## Lifting -/

namespace Exec

/-- A computation on the first half of the state. -/
def lift (g : φ → φ') (x : Exec σ τ φ α) : Exec (σ × ι) τ φ' α := fun p =>
  match x p.1 with
  | .next a s => .next a (s, p.2)
  | .stop t s => .stop t (s, p.2)
  | .fault e => .fault (g e)

/-- The value that a computation stops early with is translated. -/
def mapStop (f : τ → τ') (x : Exec σ τ φ α) : Exec σ τ' φ α := fun s =>
  match x s with
  | .next a s => .next a s
  | .stop t s => .stop (f t) s
  | .fault e => .fault e

/-- A computation that stops early goes on with the handler instead. -/
def catchStop (x : Exec σ τ φ α) (handler : τ → Exec σ τ φ α) : Exec σ τ φ α := fun s =>
  match x s with
  | .next a s => .next a s
  | .stop t s => handler t s
  | .fault e => .fault e

/-- Every value that the computation goes on with has the property. -/
def Ensures (P : α → Prop) (x : Exec σ τ φ α) : Prop := ∀ s a s', x s = .next a s' → P a

namespace Ensures

variable {P : α → Prop}

theorem pure {a : α} (h : P a) : Ensures P (Pure.pure a : Exec σ τ φ α) := by
  intro s b s' hb
  cases hb
  exact h

theorem bind {x : Exec σ τ φ β} {f : β → Exec σ τ φ α} (h : ∀ b, Ensures P (f b)) :
    Ensures P (x >>= f) := by
  intro s a s' ha
  obtain ⟨b, s₁, -, hb⟩ := bind_eq_next ha
  exact h b s₁ a s' hb

end Ensures

end Exec

/-! ## Simulation -/

/-- The two computations have ended the same way, with values that are related. -/
inductive Outcome.Simulates (g : φ → φ') (R : α → β → Prop) :
    Outcome (σ × ι) τ φ' α → Outcome σ τ φ β → Prop where
  | next {a : α} {b : β} (s : σ) (i : ι) (h : R a b) : Simulates g R (.next a (s, i)) (.next b s)
  | stop (t : τ) (s : σ) (i : ι) : Simulates g R (.stop t (s, i)) (.stop t s)
  | fault (e : φ) : Simulates g R (.fault (g e)) (.fault e)

/-- The first computation ends as the second one does, from every state. -/
def Exec.Simulates (g : φ → φ') (R : α → β → Prop) (x : Exec (σ × ι) τ φ' α) (y : Exec σ τ φ β) :
    Prop :=
  ∀ s i, (x (s, i)).Simulates g R (y s)

namespace Exec.Simulates

variable {g : φ → φ'} {R : α → β → Prop} {R' : α' → β' → Prop}

theorem pure {a : α} {b : β} (h : R a b) :
    Simulates g R (Pure.pure a : Exec (σ × ι) τ φ' α) (Pure.pure b : Exec σ τ φ β) :=
  fun s i => .next s i h

variable {x : Exec (σ × ι) τ φ' α} {f : α → Exec (σ × ι) τ φ' α'} {y : Exec σ τ φ β}

/-- Only two computations that both go on are followed by others. -/
theorem bind {f' : β → Exec σ τ φ β'} (h : Simulates g R x y)
    (hf : ∀ a b, R a b → Simulates g R' (f a) (f' b)) : Simulates g R' (x >>= f) (y >>= f') := by
  intro s i
  have hp := h s i
  rw [bind_apply, bind_apply]
  generalize x (s, i) = o at hp ⊢
  generalize y s = o' at hp ⊢
  cases hp with
  | @next a b s i hR => exact hf a b hR s i
  | stop t s i => exact .stop t s i
  | fault e => exact .fault e

/-- The simulated computation is not followed by anything. -/
theorem bind_left {R' : α' → β → Prop} (h : Simulates g R x y)
    (hf : ∀ a b, R a b → Simulates g R' (f a) (Pure.pure b : Exec σ τ φ β)) :
    Simulates g R' (x >>= f) y := by
  intro s i
  have hp := h s i
  rw [bind_apply]
  generalize x (s, i) = o at hp ⊢
  generalize y s = o' at hp ⊢
  cases hp with
  | @next a b s i hR => exact hf a b hR s i
  | stop t s i => exact .stop t s i
  | fault e => exact .fault e

/-- A computation simulates itself. -/
theorem lift_ensures {P : α → Prop} {x : Exec σ τ φ α} (h : Ensures P x) :
    Simulates g (fun a b => a = b ∧ P b) (Exec.lift g x : Exec (σ × ι) τ φ' α) x := by
  intro s i
  simp only [Exec.lift]
  cases hx : x s with
  | next a s' => exact .next s' i ⟨rfl, h s a s' hx⟩
  | stop t s => exact .stop t s i
  | fault e => exact .fault e

theorem lift (x : Exec σ τ φ α) : Simulates g Eq (Exec.lift g x : Exec (σ × ι) τ φ' α) x := by
  intro s i
  simp only [Exec.lift]
  cases x s with
  | next a s => exact .next s i rfl
  | stop t s => exact .stop t s i
  | fault e => exact .fault e

/-- A computation that only changes the second half of the state may be put in front. -/
theorem silent {y : Exec σ τ φ β'} (a : α) (hx : ∀ s i, ∃ i', x (s, i) = .next a (s, i'))
    (hf : Simulates g R' (f a) y) : Simulates g R' (x >>= f) y := by
  intro s i
  obtain ⟨i', hi⟩ := hx s i
  rw [bind_apply, hi]
  exact hf s i'

theorem mapStop (f : τ → τ')
    (h : Simulates g R x y) : Simulates g R (x.mapStop f) (y.mapStop f) := by
  intro s i
  have hp := h s i
  simp only [Exec.mapStop]
  generalize x (s, i) = o at hp ⊢
  generalize y s = o' at hp ⊢
  cases hp with
  | next s i hR => exact .next s i hR
  | stop t s i => exact .stop (f t) s i
  | fault e => exact .fault e

theorem catchStop {handler : τ → Exec (σ × ι) τ φ' α} {handler' : τ → Exec σ τ φ β}
    (h : Simulates g R x y) (hhandler : ∀ t, Simulates g R (handler t) (handler' t)) :
    Simulates g R (x.catchStop handler) (y.catchStop handler') := by
  intro s i
  have hp := h s i
  simp only [Exec.catchStop]
  generalize x (s, i) = o at hp ⊢
  generalize y s = o' at hp ⊢
  cases hp with
  | next s i hR => exact .next s i hR
  | stop t s i => exact hhandler t s i
  | fault e => exact .fault e

end Exec.Simulates
