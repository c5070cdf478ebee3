import Mathlib.Algebra.BigOperators.Group.List.Basic
import Mathlib.Algebra.Order.Ring.Nat
import Mathlib.Data.List.Basic

/-!
# The longest prefix that fits

The elements of a list have weights; `fitting` takes elements from the front as long as their weights add up to at
most a bound, and stops at the first that does not fit.

## What is proved

* `prefix_fitting_iff` — **the prefixes of what is taken** are the prefixes of the list that fit.
* `fitting_eq_self_iff`, `fitting_mono` — all is taken if it fits, and a larger bound takes no less.
-/

namespace NestDdd.Theory

variable {α : Type} {weight : α → ℕ} {bound bound' : ℕ} {l p : List α}

/-- The longest prefix whose weights add up to at most `bound`. -/
def fitting (weight : α → ℕ) : ℕ → List α → List α
  | _, [] => []
  | bound, a :: l => if weight a ≤ bound then a :: fitting weight (bound - weight a) l else []

theorem fitting_isPrefix (weight : α → ℕ) (bound : ℕ) (l : List α) : fitting weight bound l <+: l := by
  induction l generalizing bound with
  | nil => exact List.prefix_refl []
  | cons a l ih =>
    rw [fitting]
    split
    · exact List.cons_prefix_cons.mpr ⟨rfl, ih _⟩
    · exact List.nil_prefix

theorem sum_fitting_le (weight : α → ℕ) (bound : ℕ) (l : List α) :
    ((fitting weight bound l).map weight).sum ≤ bound := by
  induction l generalizing bound with
  | nil => exact Nat.zero_le bound
  | cons a l ih =>
    rw [fitting]
    split
    · have hrest := ih (bound - weight a)
      rw [List.map_cons, List.sum_cons]
      omega
    · exact Nat.zero_le bound

/-- A prefix is no heavier. -/
theorem sum_le_of_isPrefix (h : p <+: l) : (p.map weight).sum ≤ (l.map weight).sum := by
  obtain ⟨rest, rfl⟩ := h
  rw [List.map_append, List.sum_append]
  omega

/-- **No longer prefix fits.** -/
theorem prefix_fitting (h : p <+: l) (hp : (p.map weight).sum ≤ bound) : p <+: fitting weight bound l := by
  induction l generalizing p bound with
  | nil =>
    rw [List.prefix_nil.mp h]
    exact List.nil_prefix
  | cons a l ih =>
    cases p with
    | nil => exact List.nil_prefix
    | cons b p =>
      obtain ⟨rfl, hrest⟩ := List.cons_prefix_cons.mp h
      rw [List.map_cons, List.sum_cons] at hp
      have hfits : weight b ≤ bound := by omega
      rw [fitting, if_pos hfits]
      apply List.cons_prefix_cons.mpr
      exact ⟨rfl, ih hrest (by omega)⟩

theorem prefix_fitting_iff : p <+: fitting weight bound l ↔ p <+: l ∧ (p.map weight).sum ≤ bound := by
  constructor
  · intro h
    exact ⟨h.trans (fitting_isPrefix weight bound l), (sum_le_of_isPrefix h).trans (sum_fitting_le weight bound l)⟩
  · rintro ⟨h, hp⟩
    exact prefix_fitting h hp

/-- All is taken if and only if all of it fits. -/
theorem fitting_eq_self_iff : fitting weight bound l = l ↔ (l.map weight).sum ≤ bound := by
  constructor
  · intro h
    have hsum := sum_fitting_le weight bound l
    rwa [h] at hsum
  · intro h
    have hall : l <+: fitting weight bound l := prefix_fitting (List.prefix_refl l) h
    exact (fitting_isPrefix weight bound l).eq_of_length_le hall.length_le

/-- A larger bound takes no less. -/
theorem fitting_mono (h : bound ≤ bound') : fitting weight bound l <+: fitting weight bound' l := by
  rw [prefix_fitting_iff]
  exact ⟨fitting_isPrefix weight bound l, (sum_fitting_le weight bound l).trans h⟩

end NestDdd.Theory
