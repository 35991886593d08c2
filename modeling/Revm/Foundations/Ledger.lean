import Mathlib.Algebra.BigOperators.Pi
import Mathlib.Algebra.Order.BigOperators.Group.Finset
import Mathlib.Tactic

/-!
# Ledgers

A ledger gives every account an integer balance. `credit` moves one balance by an amount, which may
be negative, and `total` is the sum of all balances. A register of `w` bits holds the balances with
`Fits w`. A payment is two credits of opposite amounts: it keeps the total (`total_pay`) and paying
back cancels it (`credit_pay_back`), whichever of the two balances is changed first.
-/

set_option autoImplicit false

namespace Ledger

variable {α : Type} [DecidableEq α]

/-- Add `amount` to the balance of `a`. -/
def credit (b : α → ℤ) (a : α) (amount : ℤ) : α → ℤ := b + Pi.single a amount

/-- The value of a register of `w` bits. -/
def Fits (w : ℕ) (x : ℤ) : Prop := 0 ≤ x ∧ x < 2 ^ w

/-- Move `amount` from `a` to `c`. -/
def pay (b : α → ℤ) (a c : α) (amount : ℤ) : α → ℤ := credit (credit b a (-amount)) c amount

section

variable (b : α → ℤ)

theorem credit_apply (a x : α) (amount : ℤ) :
    credit b a amount x = b x + if x = a then amount else 0 := by
  simp [credit, Pi.single_apply]

@[simp] theorem credit_self (a : α) (amount : ℤ) : credit b a amount a = b a + amount := by
  simp [credit_apply]

theorem credit_of_ne {a x : α} (h : x ≠ a) (amount : ℤ) : credit b a amount x = b x := by
  simp [credit_apply, h]

@[simp] theorem credit_zero (a : α) : credit b a 0 = b := by
  simp [credit]

theorem credit_comm (a c : α) (x y : ℤ) :
    credit (credit b a x) c y = credit (credit b c y) a x := by
  unfold credit
  abel

/-- Taking an amount back. -/
@[simp] theorem credit_neg_cancel (a : α) (x : ℤ) : credit (credit b a (-x)) a x = b := by
  unfold credit
  rw [Pi.single_neg]
  abel

@[simp] theorem credit_cancel (a : α) (x : ℤ) : credit (credit b a x) a (-x) = b := by
  unfold credit
  rw [Pi.single_neg]
  abel

/-- Giving the amount back to the payer first cancels a payment. -/
theorem credit_pay_back (a c : α) (x : ℤ) : credit (credit (pay b a c x) a x) c (-x) = b := by
  unfold pay
  rw [credit_comm (credit b a (-x)) c a, credit_neg_cancel, credit_cancel]

end

section Total

variable [Fintype α] (b : α → ℤ)

/-- The sum of all balances. -/
def total : ℤ := ∑ a, b a

theorem total_credit (a : α) (amount : ℤ) : total (credit b a amount) = total b + amount := by
  unfold total credit
  simp only [Pi.add_apply, Finset.sum_add_distrib]
  rw [Fintype.sum_pi_single']

theorem total_pay (a c : α) (x : ℤ) : total (pay b a c x) = total b := by
  unfold pay
  rw [total_credit, total_credit]
  omega

omit [DecidableEq α] in
/-- One balance is at most the total. -/
theorem le_total {b : α → ℤ} (hb : ∀ a, 0 ≤ b a) (a : α) : b a ≤ total b :=
  Finset.single_le_sum (fun c _ => hb c) (Finset.mem_univ a)

/-- Two balances together are at most the total. -/
theorem add_le_total {b : α → ℤ} (hb : ∀ a, 0 ≤ b a) {a c : α} (hac : a ≠ c) :
    b a + b c ≤ total b := by
  have hpair : ∑ x ∈ {a, c}, b x = b a + b c := Finset.sum_pair hac
  rw [← hpair]
  exact Finset.sum_le_sum_of_subset_of_nonneg (Finset.subset_univ _) fun x _ _ => hb x

/-- The total of a ledger in which only the accounts of `l` hold something. -/
theorem total_eq_sum {b : α → ℤ} {l : List α} (hl : l.Nodup) (h : ∀ a, a ∉ l → b a = 0) :
    total b = (l.map b).sum := by
  have hsupport : ∑ a ∈ l.toFinset, b a = total b := by
    refine Finset.sum_subset (Finset.subset_univ _) fun a _ ha => h a ?_
    exact fun hmem => ha (List.mem_toFinset.2 hmem)
  rw [← hsupport, List.sum_toFinset b hl]

end Total

end Ledger
