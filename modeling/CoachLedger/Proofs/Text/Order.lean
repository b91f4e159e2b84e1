/-
**The order of texts.**

Texts are ordered by their code points.  The order is total and tells different texts apart, which
is what the keys of stored records rest on.

Main results:

* `CoachLedger.Text.order_eq_eq` — texts that compare as equal are equal;
* `CoachLedger.Text.order_swap` — swapping the arguments reverses the order;
* `CoachLedger.Text.order_trans` — the order is transitive.
-/

import CoachLedger.Text.Fold
import Mathlib.Data.String.Basic

set_option autoImplicit false

namespace CoachLedger.Text

@[simp] theorem order_eq_lt {a b : String} : order a b = .lt ↔ a < b :=
  compareOfLessAndEq_eq_lt

@[simp] theorem order_eq_eq {a b : String} : order a b = .eq ↔ a = b :=
  compareOfLessAndEq_eq_eq String.le_refl String.not_le

@[simp] theorem order_eq_gt {a b : String} : order a b = .gt ↔ b < a :=
  compareOfLessAndEq_eq_gt String.le_antisymm String.le_total String.not_le a b

theorem order_self (a : String) : order a a = .eq :=
  order_eq_eq.2 rfl

theorem order_isLE_iff {a b : String} : (order a b).isLE = true ↔ a ≤ b := by
  cases h : order a b with
  | lt =>
      rw [order_eq_lt] at h
      simpa using le_of_lt h
  | eq =>
      rw [order_eq_eq] at h
      simp [h]
  | gt =>
      rw [order_eq_gt] at h
      simpa using h

/-- Swapping the arguments reverses the order. -/
theorem order_swap (a b : String) : (order a b).swap = order b a := by
  cases h : order a b with
  | lt => rw [order_eq_lt] at h; exact (order_eq_gt.2 h).symm
  | eq => rw [order_eq_eq] at h; exact (order_eq_eq.2 h.symm).symm
  | gt => rw [order_eq_gt] at h; exact (order_eq_lt.2 h).symm

/-- The order is transitive. -/
theorem order_trans {a b c : String} (hab : order a b = .lt) (hbc : order b c = .lt) :
    order a c = .lt := by
  rw [order_eq_lt] at hab hbc ⊢
  exact lt_trans hab hbc

end CoachLedger.Text
