import Mathlib.Data.List.TakeWhile
import Mathlib.Order.Lattice

/-!
# Logs that are pruned at the front

A log of times grows at its end. What looks at a window that only moves forward may
drop the entries the window has left; the rest answers every question about the window
that the whole log would.

## What is proved

* `dropWhile_lt_eq_filter` — dropping the front of a sorted log drops all old entries.
* `Pruned` — a queue is a log without entries older than a bound; it stays one when the
  bound moves (`Pruned.drop`) and when both grow (`Pruned.push`).
* `Pruned.length_dropWhile` — how many entries of the log are young can be read off
  the queue.
-/

namespace NestDdd.Theory

variable {τ : Type*} [LinearOrder τ]

/-- Dropping the front of a sorted log drops all that is old. -/
theorem dropWhile_lt_eq_filter {log : List τ} (h : log.Pairwise (· ≤ ·)) (bound : τ) :
    (log.dropWhile fun t => decide (t < bound)) = log.filter fun t => decide (bound ≤ t) := by
  induction log with
  | nil => rfl
  | cons t rest ih =>
    obtain ⟨hle, hrest⟩ := List.pairwise_cons.mp h
    by_cases ht : t < bound
    · rw [List.dropWhile_cons_of_pos (by simpa using ht), List.filter_cons_of_neg (by simpa using ht),
        ih hrest]
    · have hyoung : ∀ x ∈ t :: rest, decide (bound ≤ x) = true := by
        intro x hx
        rcases List.mem_cons.mp hx with rfl | hx
        · simpa using ht
        · exact decide_eq_true ((not_lt.mp ht).trans (hle x hx))
      rw [List.dropWhile_cons_of_neg (by simpa using ht), List.filter_eq_self.mpr hyoung]

/-- `queue` is `log` without some entries at the front, all older than `bound`. -/
def Pruned (log queue : List τ) (bound : τ) : Prop :=
  ∃ old, log = old ++ queue ∧ ∀ t ∈ old, t < bound

namespace Pruned

variable {log queue : List τ} {bound bound' : τ}

theorem refl (log : List τ) (bound : τ) : Pruned log log bound := ⟨[], rfl, nofun⟩

theorem push (h : Pruned log queue bound) (t : τ) : Pruned (log ++ [t]) (queue ++ [t]) bound := by
  obtain ⟨old, rfl, hold⟩ := h
  exact ⟨old, List.append_assoc .., hold⟩

theorem mono (h : Pruned log queue bound) (hb : bound ≤ bound') : Pruned log queue bound' := by
  obtain ⟨old, hlog, hold⟩ := h
  exact ⟨old, hlog, fun t ht => (hold t ht).trans_le hb⟩

/-- What the queue drops is old, so it stays the log without old entries. -/
theorem drop (h : Pruned log queue bound) (hb : bound ≤ bound') :
    Pruned log (queue.dropWhile fun t => decide (t < bound')) bound' := by
  obtain ⟨old, rfl, hold⟩ := h
  refine ⟨old ++ queue.takeWhile fun t => decide (t < bound'), ?_, fun t ht => ?_⟩
  · rw [List.append_assoc, List.takeWhile_append_dropWhile]
  · rcases List.mem_append.mp ht with ht | ht
    · exact (hold t ht).trans_le hb
    · simpa using List.mem_takeWhile_imp ht

/-- **The queue answers for the log**: the young entries of the log are those the queue keeps. -/
theorem length_dropWhile (h : Pruned log queue bound) (hsorted : log.Pairwise (· ≤ ·))
    (hb : bound ≤ bound') :
    (queue.dropWhile fun t => decide (t < bound')).length = log.countP fun t => decide (bound' ≤ t) := by
  obtain ⟨old, rfl, hold⟩ := h
  have hnone : old.countP (fun t => decide (bound' ≤ t)) = 0 := by
    rw [List.countP_eq_zero]
    intro t ht
    simpa using (hold t ht).trans_le hb
  rw [dropWhile_lt_eq_filter (List.pairwise_append.mp hsorted).2.1, ← List.countP_eq_length_filter,
    List.countP_append, hnone, Nat.zero_add]

end Pruned

end NestDdd.Theory
