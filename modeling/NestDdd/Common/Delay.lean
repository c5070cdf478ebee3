import Mathlib.Algebra.Group.Nat.Defs

/-!
# Timers

`delay` (`src/common/utils`) is a promise over `setTimeout`. Node keeps a timer's
duration in 31 bits: what does not fit, and what is below 1, becomes 1 ms. `expoBackoff`
(`with-backoff.util.ts`) is how long a failed attempt waits for the next one.
-/

namespace NestDdd.Common

/-- `2 ** 31 - 1`, the longest timer Node keeps. -/
def TIMEOUT_MAX : ℕ := 2147483647

/-- How long `setTimeout(f, ms)` waits. -/
def nodeTimeout (ms : ℕ) : ℕ := if 1 ≤ ms ∧ ms ≤ TIMEOUT_MAX then ms else 1

theorem nodeTimeout_of_le {ms : ℕ} (h₁ : 1 ≤ ms) (h₂ : ms ≤ TIMEOUT_MAX) : nodeTimeout ms = ms :=
  if_pos ⟨h₁, h₂⟩

theorem nodeTimeout_of_lt {ms : ℕ} (h : TIMEOUT_MAX < ms) : nodeTimeout ms = 1 :=
  if_neg fun hn => absurd hn.2 (Nat.not_le.mpr h)

/-- A wait that fits is not shortened. -/
theorem le_nodeTimeout {ms : ℕ} (h : ms ≤ TIMEOUT_MAX) : ms ≤ nodeTimeout ms := by
  cases ms with
  | zero => exact Nat.zero_le _
  | succ n =>
    exact Nat.le_of_eq (nodeTimeout_of_le (Nat.succ_le_succ (Nat.zero_le n)) h).symm

/-- `expoBackoff(attempt)` with its default arguments; `jitter` is the random part, below 150. -/
def expoBackoff (attempt jitter : ℕ) : ℕ := 2 ^ attempt * 200 + jitter

end NestDdd.Common
