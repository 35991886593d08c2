import Mathlib.Data.List.Count
import Mathlib.Logic.Function.Basic

/-!
# Interleaved calls on a shared state

A `Prog` performs operations one after the other and returns a value. Every operation is atomic on a
shared state, and between two operations of one program any number of operations of others may run.

`Interleaved` is a set of threads that call programs. `Prog.Meets` is the rule for such programs:
each operation keeps an invariant of the shared state, and what the program has learned from an
answer does not depend on the shared state any more. Then every call that returns in any
interleaving has its postcondition (`Reached.meets`). A program of bounded length returns if its
thread is scheduled often enough, whatever the others do (`returns_of_within`).
-/

set_option autoImplicit false

open Function

/-- A program: a value, or an operation and how to go on with its answer. -/
inductive Prog (Op : Type) (Resp : Op → Type) (α : Type) : Type where
  | ret (a : α)
  | op (o : Op) (k : Resp o → Prog Op Resp α)

namespace Prog

variable {Op : Type} {Resp : Op → Type} {α β σ : Type}

/-- One program after the other. -/
protected def bind : Prog Op Resp α → (α → Prog Op Resp β) → Prog Op Resp β
  | .ret a, f => f a
  | .op o k, f => .op o fun r => (k r).bind f

instance : Monad (Prog Op Resp) where
  pure := .ret
  bind := Prog.bind

/-- A single operation. -/
def perform (o : Op) : Prog Op Resp (Resp o) := .op o .ret

/-! ## Postconditions -/

variable {p : Prog Op Resp α}

section Meets

variable (exec : (o : Op) → σ → Resp o × σ) (I : σ → Prop)

/-- Each operation keeps the invariant, whichever state with the invariant it meets, and the value
that is returned has the postcondition. -/
def Meets (post : α → Prop) : Prog Op Resp α → Prop
  | .ret a => post a
  | .op o k => ∀ s, I s → I (exec o s).2 ∧ (k (exec o s).1).Meets post

variable {exec I} {post : α → Prop} {post' : β → Prop}

theorem Meets.pure {a : α} (h : post a) : Meets exec I post (Pure.pure a : Prog Op Resp α) := h

theorem Meets.bind {f : α → Prog Op Resp β} (h : Meets exec I post p)
    (hf : ∀ a, post a → Meets exec I post' (f a)) : Meets exec I post' (p >>= f) := by
  induction p with
  | ret a => exact hf a h
  | op o k ih =>
    intro s hs
    obtain ⟨hkeep, hmeets⟩ := h s hs
    exact ⟨hkeep, ih _ hmeets⟩

end Meets

/-! ## Length -/

/-- At most `n` operations. -/
def Within : Nat → Prog Op Resp α → Prop
  | _, .ret _ => True
  | 0, .op _ _ => False
  | n + 1, .op _ k => ∀ r, (k r).Within n

theorem Within.mono {m n : Nat} (h : p.Within m) (hle : m ≤ n) : p.Within n := by
  induction p generalizing m n with
  | ret a =>
    unfold Within
    trivial
  | op o k ih =>
    cases m with
    | zero => exact h.elim
    | succ m =>
      cases n with
      | zero => exact absurd hle (Nat.not_succ_le_zero m)
      | succ n => exact fun r => ih r (h r) (Nat.le_of_succ_le_succ hle)

theorem Within.pure (n : Nat) (a : α) : (Pure.pure a : Prog Op Resp α).Within n := by
  cases n with
  | zero => trivial
  | succ n => trivial

theorem Within.perform (o : Op) : (perform o : Prog Op Resp (Resp o)).Within 1 := fun _ => trivial

theorem Within.bind {m n : Nat} {f : α → Prog Op Resp β} (h : p.Within m)
    (hf : ∀ a, (f a).Within n) : (p >>= f).Within (m + n) := by
  induction p generalizing m with
  | ret a => exact (hf a).mono (Nat.le_add_left n m)
  | op o k ih =>
    cases m with
    | zero => exact h.elim
    | succ m =>
      rw [Nat.succ_add]
      exact fun r => ih r (h r)

end Prog

/-! ## Threads -/

/-- Threads `ι` with their calls, and what has been returned. A query `q` is answered in `Ans q`. -/
structure Interleaved (ι σ Op : Type) (Resp : Op → Type) (Q : Type) (Ans : Q → Type) where
  shared : σ
  calls : ι → Option (Σ q : Q, Prog Op Resp (Ans q))
  returned : List (ι × Σ q : Q, Ans q)

namespace Interleaved

variable {ι σ Op : Type} {Resp : Op → Type} {Q : Type} {Ans : Q → Type} [DecidableEq ι]
variable (exec : (o : Op) → σ → Resp o × σ) (body : (q : Q) → Prog Op Resp (Ans q))

/-- No calls yet. -/
def start (s : σ) : Interleaved ι σ Op Resp Q Ans := ⟨s, fun _ => none, []⟩

/-- A thread begins a call. -/
def invoke (t : Interleaved ι σ Op Resp Q Ans) (i : ι) (q : Q) : Interleaved ι σ Op Resp Q Ans :=
  { t with calls := update t.calls i (some ⟨q, body q⟩) }

/-- A thread performs the next operation of its call, or returns from it. -/
def step (t : Interleaved ι σ Op Resp Q Ans) (i : ι) : Interleaved ι σ Op Resp Q Ans :=
  match t.calls i with
  | none => t
  | some ⟨q, .ret a⟩ =>
      { t with
        calls := update t.calls i none
        returned := (i, ⟨q, a⟩) :: t.returned }
  | some ⟨q, .op o k⟩ =>
      { t with
        shared := (exec o t.shared).2
        calls := update t.calls i (some ⟨q, k (exec o t.shared).1⟩) }

/-- The threads are scheduled one step at a time. -/
def run (t : Interleaved ι σ Op Resp Q Ans) (schedule : List ι) : Interleaved ι σ Op Resp Q Ans :=
  schedule.foldl (step exec) t

/-- Every interleaving of calls. -/
inductive Reached (s₀ : σ) : Interleaved ι σ Op Resp Q Ans → Prop
  | start : Reached s₀ (start s₀)
  | invoke {t : Interleaved ι σ Op Resp Q Ans} (i : ι) (q : Q) (h : Reached s₀ t)
      (hidle : t.calls i = none) : Reached s₀ (t.invoke body i q)
  | step {t : Interleaved ι σ Op Resp Q Ans} (i : ι) (h : Reached s₀ t) : Reached s₀ (t.step exec i)

variable {exec body} {t : Interleaved ι σ Op Resp Q Ans} {i j : ι} {q : Q}

theorem Reached.run {s₀ : σ} (h : Reached exec body s₀ t) (schedule : List ι) :
    Reached exec body s₀ (t.run exec schedule) := by
  induction schedule generalizing t with
  | nil => exact h
  | cons i schedule ih => exact ih (h.step i)

section Step

theorem step_idle (h : t.calls i = none) : t.step exec i = t := by
  unfold step
  rw [h]

theorem step_ret {a : Ans q} (h : t.calls i = some ⟨q, .ret a⟩) : t.step exec i =
      { t with
        calls := update t.calls i none
        returned := (i, ⟨q, a⟩) :: t.returned } := by
  unfold step
  rw [h]

theorem step_op {o : Op} {k : Resp o → Prog Op Resp (Ans q)} (h : t.calls i = some ⟨q, .op o k⟩) :
    t.step exec i =
      { t with
        shared := (exec o t.shared).2
        calls := update t.calls i (some ⟨q, k (exec o t.shared).1⟩) } := by
  unfold step
  rw [h]

/-- A step leaves the calls of the other threads alone. -/
theorem calls_step_of_ne (h : j ≠ i) : (t.step exec i).calls j = t.calls j := by
  rcases hcall : t.calls i with _ | ⟨q, a | ⟨o, k⟩⟩
  · rw [step_idle hcall]
  · rw [step_ret hcall]
    exact update_of_ne h _ _
  · rw [step_op hcall]
    exact update_of_ne h _ _

/-- What is returned stays returned. -/
theorem returned_step {r : ι × Σ q : Q, Ans q} (h : r ∈ t.returned) :
    r ∈ (t.step exec i).returned := by
  rcases hcall : t.calls i with _ | ⟨q, a | ⟨o, k⟩⟩
  · rwa [step_idle hcall]
  · rw [step_ret hcall]
    exact List.mem_cons_of_mem _ h
  · rwa [step_op hcall]

theorem returned_run {r : ι × Σ q : Q, Ans q} (schedule : List ι) (h : r ∈ t.returned) :
    r ∈ (t.run exec schedule).returned := by
  induction schedule generalizing t with
  | nil => exact h
  | cons i schedule ih => exact ih (returned_step h)

end Step

/-! ## What holds in every interleaving -/

/-- The invariant of the shared state, of the calls under way and of what has been returned. -/
structure Meets (exec : (o : Op) → σ → Resp o × σ) (I : σ → Prop) (post : (q : Q) → Ans q → Prop)
    (t : Interleaved ι σ Op Resp Q Ans) : Prop where
  shared : I t.shared
  calls : ∀ i q p, t.calls i = some ⟨q, p⟩ → p.Meets exec I (post q)
  returned : ∀ i q a, (i, ⟨q, a⟩) ∈ t.returned → post q a

variable {I : σ → Prop} {post : (q : Q) → Ans q → Prop}

theorem Meets.invoke (h : t.Meets exec I post) (hbody : (body q).Meets exec I (post q)) (i : ι) :
    (t.invoke body i q).Meets exec I post := by
  refine ⟨h.shared, fun j q' p hcall => ?_, h.returned⟩
  by_cases hj : j = i
  · subst hj
    have hself := (update_self j _ t.calls).symm.trans hcall
    cases Option.some.inj hself
    exact hbody
  · exact h.calls j q' p ((update_of_ne hj _ t.calls).symm.trans hcall)

theorem Meets.step (h : t.Meets exec I post) (i : ι) : (t.step exec i).Meets exec I post := by
  have hothers : ∀ j q p, j ≠ i → (t.step exec i).calls j = some ⟨q, p⟩ → p.Meets exec I (post q) :=
    fun j q p hj hcall => h.calls j q p ((calls_step_of_ne hj).symm.trans hcall)
  rcases hcall : t.calls i with _ | ⟨q, a | ⟨o, k⟩⟩
  · rwa [step_idle hcall]
  · have hpost : post q a := h.calls i q _ hcall
    rw [step_ret hcall] at hothers ⊢
    refine ⟨h.shared, fun j q' p hj => ?_, fun j q' a' hmem => ?_⟩
    · by_cases heq : j = i
      · subst heq
        cases (update_self j _ t.calls).symm.trans hj
      · exact hothers j q' p heq hj
    · rcases List.mem_cons.1 hmem with heq | hmem
      · cases heq
        exact hpost
      · exact h.returned j q' a' hmem
  · obtain ⟨hkeep, hmeets⟩ := h.calls i q _ hcall t.shared h.shared
    rw [step_op hcall] at hothers ⊢
    refine ⟨hkeep, fun j q' p hj => ?_, h.returned⟩
    by_cases heq : j = i
    · subst heq
      cases Option.some.inj ((update_self j _ t.calls).symm.trans hj)
      exact hmeets
    · exact hothers j q' p heq hj

/-- Every call that returns has its postcondition. -/
theorem Reached.meets {s₀ : σ} (h : Reached exec body s₀ t) (hI : I s₀)
    (hbody : ∀ q, (body q).Meets exec I (post q)) : t.Meets exec I post := by
  induction h with
  | start => exact ⟨hI, fun _ _ _ h => (nomatch h), fun _ _ _ h => (nomatch h)⟩
  | invoke i q _ _ ih => exact ih.invoke (hbody q) i
  | step i _ ih => exact ih.step i

/-! ## Calls return -/

/-- A call of at most `n` operations returns when its thread has been scheduled more than `n`
times. -/
theorem returns_of_within {n : Nat} {p : Prog Op Resp (Ans q)} (hcall : t.calls i = some ⟨q, p⟩)
    (hp : p.Within n) (schedule : List ι) (hcount : n < schedule.count i) :
    ∃ a, (i, ⟨q, a⟩) ∈ (t.run exec schedule).returned := by
  induction schedule generalizing t n p with
  | nil => cases hcount
  | cons j schedule ih =>
    by_cases hj : j = i
    · subst hj
      rw [List.count_cons_self] at hcount
      show ∃ a, (j, ⟨q, a⟩) ∈ ((t.step exec j).run exec schedule).returned
      cases p with
      | ret a =>
        rw [step_ret hcall]
        exact ⟨a, returned_run schedule List.mem_cons_self⟩
      | op o k =>
        cases n with
        | zero => exact hp.elim
        | succ n =>
          refine ih (p := k (exec o t.shared).1) ?_ (hp _) (Nat.lt_of_succ_lt_succ hcount)
          rw [step_op hcall]
          exact update_self _ _ _
    · rw [List.count_cons_of_ne hj] at hcount
      exact ih ((calls_step_of_ne (Ne.symm hj)).trans hcall) hp hcount

/-- The calls under way have at most the operations of their programs left. -/
theorem Reached.within {s₀ : σ} {n : Nat} (h : Reached exec body s₀ t)
    (hbody : ∀ q, (body q).Within n) {p : Prog Op Resp (Ans q)} (hcall : t.calls i = some ⟨q, p⟩) :
    p.Within n := by
  induction h generalizing q p i with
  | start => cases hcall
  | @invoke t j q' _ _ ih =>
    by_cases hi : i = j
    · subst hi
      cases Option.some.inj ((update_self i _ t.calls).symm.trans hcall)
      exact hbody q'
    · exact ih ((update_of_ne hi _ t.calls).symm.trans hcall)
  | @step t j _ ih =>
    by_cases hi : i = j
    · subst hi
      rcases hbefore : t.calls i with _ | ⟨q', a | ⟨o, k⟩⟩
      · rw [step_idle hbefore, hbefore] at hcall
        cases hcall
      · rw [step_ret hbefore] at hcall
        cases (update_self i _ t.calls).symm.trans hcall
      · rw [step_op hbefore] at hcall
        cases Option.some.inj ((update_self i _ t.calls).symm.trans hcall)
        have hwithin := ih hbefore
        cases n with
        | zero => exact hwithin.elim
        | succ n => exact (hwithin _).mono (Nat.le_succ n)
    · exact ih ((calls_step_of_ne hi).symm.trans hcall)

end Interleaved
