import Mathlib.Algebra.BigOperators.Group.Finset.Piecewise
import Mathlib.Data.List.Basic

/-!
# Machines

A machine is a set of states, the events each state may meet, and what an event makes
of a state. Its runs are the sequences of events it meets from an initial state.

## What is proved

* `Run.invariant` — what holds initially and is kept by every event holds in every run.
* `Run.play` — a sequence of events that are enabled one after the other is a run.
* `Machine.restrict` — the runs all of whose events meet a condition.
* `Run.length_le` — if every event makes a measure smaller, no run is longer than the
  measure was.
* `Wanes.exists_rest` — events of one kind that make a measure smaller lead to a state that
  meets none of them.
-/

namespace NestDdd.Theory

/-- A machine with states `σ` and events `ε`. -/
structure Machine (σ ε : Type) where
  /-- The states it may begin in. -/
  Initial : σ → Prop
  /-- The events a state may meet. -/
  Enabled : σ → ε → Prop
  /-- What an event makes of a state. -/
  next : σ → ε → σ

namespace Machine

variable {σ ε : Type} {M : Machine σ ε}

/-- A run: the events met, and the state they led to. -/
inductive Run (M : Machine σ ε) : List ε → σ → Prop where
  /-- Nothing has happened. -/
  | init {s : σ} : M.Initial s → Run M [] s
  /-- One more event. -/
  | snoc {es : List ε} {s : σ} {e : ε} : Run M es s → M.Enabled s e → Run M (es ++ [e]) (M.next s e)

/-- The machine that meets an event only where a condition holds. -/
def restrict (M : Machine σ ε) (P : σ → ε → Prop) : Machine σ ε where
  Initial := M.Initial
  Enabled s e := M.Enabled s e ∧ P s e
  next := M.next

/-- Each event is enabled where the ones before it lead. -/
def Playable (M : Machine σ ε) : σ → List ε → Prop
  | _, [] => True
  | s, e :: es => M.Enabled s e ∧ M.Playable (M.next s e) es

theorem Run.append {es fs : List ε} {s : σ} (h : M.Run es s) (hp : M.Playable s fs) :
    M.Run (es ++ fs) (fs.foldl M.next s) := by
  induction fs generalizing es s with
  | nil => simpa using h
  | cons e fs ih =>
    have hnext := ih (h.snoc hp.1) hp.2
    simpa using hnext

/-- **The rule of examples.** -/
theorem Run.play {es : List ε} {s : σ} (h : M.Initial s) (hp : M.Playable s es) :
    M.Run es (es.foldl M.next s) := by
  simpa using (Run.init h).append hp

/-- A run leads where its events lead. -/
theorem Run.eq_foldl {es : List ε} {s : σ} (h : M.Run es s) : ∃ s₀, M.Initial s₀ ∧ s = es.foldl M.next s₀ := by
  induction h with
  | @init s hi => exact ⟨s, hi, rfl⟩
  | snoc _ _ ih =>
    obtain ⟨s₀, hi, rfl⟩ := ih
    exact ⟨s₀, hi, by rw [List.foldl_append, List.foldl_cons, List.foldl_nil]⟩

/-- With one state to begin in, the same events lead to the same state. -/
theorem Run.unique {s₀ : σ} (hone : ∀ s, M.Initial s → s = s₀) {es : List ε} {s s' : σ} (h : M.Run es s)
    (h' : M.Run es s') : s = s' := by
  obtain ⟨i, hi, rfl⟩ := h.eq_foldl
  obtain ⟨i', hi', rfl⟩ := h'.eq_foldl
  rw [hone i hi, hone i' hi']

/-- The last event of a run. -/
theorem Run.of_concat {es : List ε} {e : ε} {s : σ} (h : M.Run (es ++ [e]) s) :
    ∃ s', M.Run es s' ∧ M.Enabled s' e ∧ s = M.next s' e := by
  generalize hes : es ++ [e] = l at h
  cases h with
  | init _ => simp at hes
  | @snoc es' s' e' hr he =>
    obtain ⟨rfl, heq⟩ := List.append_inj' hes rfl
    cases heq
    exact ⟨s', hr, he, rfl⟩

/-- A run whose events all meet a condition is a run. -/
theorem Run.of_restrict {P : σ → ε → Prop} {es : List ε} {s : σ} (h : (M.restrict P).Run es s) : M.Run es s := by
  induction h with
  | init hi => exact .init hi
  | snoc _ he ih => exact ih.snoc he.1

/-- **The rule of invariants.** -/
theorem Run.invariant {P : σ → Prop} (h₀ : ∀ s, M.Initial s → P s)
    (hs : ∀ s e, P s → M.Enabled s e → P (M.next s e)) {es : List ε} {s : σ} (hr : M.Run es s) : P s := by
  induction hr with
  | init hi => exact h₀ _ hi
  | snoc _ he ih => exact hs _ _ ih he

/-- **The rule of measures**: no run is longer than a bound of the initial measure. -/
theorem Run.length_le {P : σ → Prop} {measure : σ → ℕ} {n : ℕ} (h₀ : ∀ s, M.Initial s → P s)
    (hs : ∀ s e, P s → M.Enabled s e → P (M.next s e)) (hn : ∀ s, M.Initial s → measure s ≤ n)
    (hm : ∀ s e, P s → M.Enabled s e → measure (M.next s e) < measure s) {es : List ε} {s : σ}
    (hr : M.Run es s) : es.length + measure s ≤ n := by
  induction hr with
  | init hi => simpa using hn _ hi
  | @snoc es s e hr he ih =>
    have hless := hm s e (hr.invariant h₀ hs) he
    simp only [List.length_append, List.length_singleton]
    omega

/-! ### Coming to rest -/

/-- The events of one kind keep `P`, and make a measure smaller. -/
structure Wanes (M : Machine σ ε) (P : σ → Prop) (own : ε → Prop) (measure : σ → ℕ) : Prop where
  /-- They keep `P`. -/
  keeps : ∀ s e, P s → own e → M.Enabled s e → P (M.next s e)
  /-- They make the measure smaller. -/
  wanes : ∀ s e, P s → own e → M.Enabled s e → measure (M.next s e) < measure s

variable {P : σ → Prop} {own : ε → Prop} {measure : σ → ℕ}

/-- **The rule of rest**: whatever their order, no more of them follow one another than the measure says. -/
theorem Wanes.length_le (h : M.Wanes P own measure) {es : List ε} {s : σ} (hs : P s) (hown : ∀ e ∈ es, own e)
    (hp : M.Playable s es) : es.length ≤ measure s := by
  induction es generalizing s with
  | nil => exact Nat.zero_le _
  | cons e es ih =>
    obtain ⟨he, hown⟩ := List.forall_mem_cons.mp hown
    have hless := h.wanes s e hs he hp.1
    have hrest := ih (h.keeps s e hs he hp.1) hown hp.2
    rw [List.length_cons]
    omega

/-- They lead to a state that meets none of them. -/
theorem Wanes.exists_rest (h : M.Wanes P own measure) {s : σ} (hs : P s) :
    ∃ es, (∀ e ∈ es, own e) ∧ M.Playable s es ∧ P (es.foldl M.next s) ∧
      ∀ e, own e → ¬ M.Enabled (es.foldl M.next s) e := by
  induction hn : measure s using Nat.strong_induction_on generalizing s with
  | _ n ih =>
    by_cases hrest : ∃ e, own e ∧ M.Enabled s e
    · obtain ⟨e, hown, he⟩ := hrest
      obtain ⟨es, hes, hp, hkept, hlast⟩ := ih _ (hn ▸ h.wanes s e hs hown he) (h.keeps s e hs hown he) rfl
      exact ⟨e :: es, List.forall_mem_cons.mpr ⟨hown, hes⟩, ⟨he, hp⟩, hkept, hlast⟩
    · exact ⟨[], nofun, trivial, hs, fun e hown he => hrest ⟨e, hown, he⟩⟩

/-! ### Parties -/

section Parties

variable {ι φ : Type} {parties : Finset ι} {i : ι}

/-- What the phases of some parties weigh together. -/
def weigh (parties : Finset ι) (weight : φ → ℕ) (phase : ι → φ) : ℕ := ∑ j ∈ parties, weight (phase j)

variable [DecidableEq ι]

theorem weigh_update_of_notMem (hi : i ∉ parties) (weight : φ → ℕ) (phase : ι → φ) (p : φ) :
    weigh parties weight (Function.update phase i p) = weigh parties weight phase := by
  refine Finset.sum_congr rfl fun j hj => ?_
  rw [Function.update_of_ne]
  rintro rfl
  exact hi hj

/-- **One party goes on**, and the sum changes by what it weighs. -/
theorem weigh_update (hi : i ∈ parties) (weight : φ → ℕ) (phase : ι → φ) (p : φ) :
    weigh parties weight (Function.update phase i p) + weight (phase i) = weigh parties weight phase + weight p := by
  have hothers := weigh_update_of_notMem (Finset.notMem_erase i parties) weight phase p
  simp only [weigh] at hothers ⊢
  rw [← Finset.add_sum_erase _ _ hi, ← Finset.add_sum_erase parties (fun j => weight (phase j)) hi, hothers,
    Function.update_self]
  omega

end Parties

end Machine

end NestDdd.Theory
