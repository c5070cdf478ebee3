import Mathlib.Data.List.Basic
import Mathlib.Data.List.Infix

/-!
# Matching texts

A text is a list of symbols. `greedy` is a group of a regular expression that takes as many symbols of a
class as it can, with the rest of the expression after it. `indexOf` is where a piece of text occurs first.

## What is proved

* `greedy_eq_none_iff`, `greedy_eq_some` — a group fails if the rest matches after none of its candidates,
  and is the longest of them otherwise.
* `greedy_append` — what comes before a match is part of the group.
* `indexOf_eq_none_iff`, `fromFirst_append` — a piece has no index if it does not occur, and the text from
  its first occurrence on does not depend on what comes before.
-/

namespace NestDdd.Theory.Matching

variable {α β : Type}

/-! ### Greedy groups -/

/-- The longest group of symbols of `p` such that `next` matches what comes after it. -/
def greedy (p : α → Bool) (next : List α → Option β) : List α → Option (List α × β)
  | [] => (next []).map fun b => ([], b)
  | a :: l =>
    match if p a then greedy p next l else none with
    | some (t, b) => some (a :: t, b)
    | none => (next (a :: l)).map fun b => ([], b)

section Greedy

variable {p : α → Bool} {next : List α → Option β} {b : β} {t rest l : List α}

/-- **A group fails** if the rest matches after none of its candidates. -/
theorem greedy_eq_none_iff :
    greedy p next l = none ↔ ∀ u v, l = u ++ v → (∀ a ∈ u, p a = true) → next v = none := by
  induction l with
  | nil =>
    rw [greedy, Option.map_eq_none_iff]
    constructor
    · intro h u v huv _
      obtain ⟨-, rfl⟩ := List.append_eq_nil_iff.mp huv.symm
      exact h
    · intro h
      exact h [] [] rfl (by simp)
  | cons a l ih =>
    constructor
    · intro h u v huv hu
      rw [greedy] at h
      split at h
      · cases h
      · next hnone =>
        cases u with
        | nil =>
          rw [List.nil_append] at huv
          rw [← huv]
          exact Option.map_eq_none_iff.mp h
        | cons c u =>
          obtain ⟨rfl, hl⟩ := List.cons.inj huv
          rw [if_pos (hu a List.mem_cons_self)] at hnone
          exact ih.mp hnone u v hl fun d hd => hu d (List.mem_cons_of_mem _ hd)
    · intro h
      have hrest : (if p a then greedy p next l else none) = none := by
        split
        · next hp =>
          refine ih.mpr fun u v huv hu => h (a :: u) v (by rw [huv]; rfl) fun d hd => ?_
          rcases List.mem_cons.mp hd with rfl | hd
          · exact hp
          · exact hu d hd
        · rfl
      rw [greedy, hrest]
      exact Option.map_eq_none_iff.mpr (h [] (a :: l) rfl (by simp))

/-- What comes before a match is part of the group. -/
theorem greedy_append {s : List α} (hs : ∀ a ∈ s, p a = true) (h : greedy p next l = some (t, b)) :
    greedy p next (s ++ l) = some (s ++ t, b) := by
  induction s with
  | nil => exact h
  | cons a s ih =>
    rw [List.cons_append, greedy, if_pos (hs a List.mem_cons_self),
      ih fun d hd => hs d (List.mem_cons_of_mem _ hd)]
    rfl

/-- **The longest group**: the rest matches after it, and after no longer one. -/
theorem greedy_eq_some (ht : ∀ a ∈ t, p a = true) (hnext : next rest = some b)
    (hlongest : ∀ u v, u ≠ [] → rest = u ++ v → next v = none) :
    greedy p next (t ++ rest) = some (t, b) := by
  have hempty : greedy p next rest = some ([], b) := by
    cases rest with
    | nil => rw [greedy, hnext]; rfl
    | cons a l =>
      have hnone : (if p a then greedy p next l else none) = none := by
        split
        · refine greedy_eq_none_iff.mpr fun u v huv _ => ?_
          exact hlongest (a :: u) v (List.cons_ne_nil a u) (by rw [huv]; rfl)
        · rfl
      rw [greedy, hnone, hnext]
      rfl
  simpa using greedy_append ht hempty

/-- A group and what matches after it make up the text. -/
theorem of_greedy_eq_some (h : greedy p next l = some (t, b)) :
    ∃ rest, l = t ++ rest ∧ (∀ a ∈ t, p a = true) ∧ next rest = some b := by
  induction l generalizing t with
  | nil =>
    rw [greedy] at h
    obtain ⟨b', hb', heq⟩ := Option.map_eq_some_iff.mp h
    obtain ⟨rfl, rfl⟩ := Prod.mk.inj heq
    exact ⟨[], rfl, by simp, hb'⟩
  | cons a l ih =>
    rw [greedy] at h
    split at h
    · next t' b' hsome =>
      obtain ⟨rfl, rfl⟩ := Prod.mk.inj (Option.some.inj h)
      split at hsome
      · next hp =>
        obtain ⟨rest, rfl, ht, hnext⟩ := ih hsome
        refine ⟨rest, rfl, fun d hd => ?_, hnext⟩
        rcases List.mem_cons.mp hd with rfl | hd
        · exact hp
        · exact ht d hd
      · cases hsome
    · obtain ⟨b', hb', heq⟩ := Option.map_eq_some_iff.mp h
      obtain ⟨rfl, rfl⟩ := Prod.mk.inj heq
      exact ⟨a :: l, rfl, by simp, hb'⟩

end Greedy

/-! ### Occurrences -/

section Occurrences

variable [DecidableEq α] {m l : List α} {a : α}

/-- Where `m` occurs first. -/
def indexOf (m : List α) : List α → Option ℕ
  | [] => if m = [] then some 0 else none
  | a :: l => if m <+: a :: l then some 0 else (indexOf m l).map (· + 1)

/-- `m` occurs. -/
def includes (m l : List α) : Bool := (indexOf m l).isSome

/-- The text from the first occurrence of `m` on. -/
def fromFirst (m l : List α) : Option (List α) := (indexOf m l).map fun i => l.drop i

theorem indexOf_eq_none_iff : indexOf m l = none ↔ ¬ m <:+: l := by
  induction l with
  | nil => simp [indexOf]
  | cons a l ih =>
    rw [indexOf, List.infix_cons_iff, not_or]
    split
    · next h => simp [h]
    · next h => simp [h, ih]

theorem includes_iff : includes m l = true ↔ m <:+: l := by
  rw [includes, Option.isSome_iff_ne_none, ne_eq, indexOf_eq_none_iff, not_not]

theorem fromFirst_eq_none_iff : fromFirst m l = none ↔ ¬ m <:+: l := by
  rw [fromFirst, Option.map_eq_none_iff, indexOf_eq_none_iff]

/-- An occurrence at the beginning is the first one. -/
theorem fromFirst_of_prefix (h : m <+: l) : fromFirst m l = some l := by
  cases l with
  | nil =>
    have hm : m = [] := List.prefix_nil.mp h
    rw [fromFirst, indexOf, if_pos hm]
    rfl
  | cons a l =>
    rw [fromFirst, indexOf, if_pos h]
    rfl

theorem fromFirst_cons (h : ¬ m <+: a :: l) : fromFirst m (a :: l) = fromFirst m l := by
  rw [fromFirst, indexOf, if_neg h, Option.map_map]
  rfl

/-- What a piece does not begin with is passed over. -/
theorem fromFirst_append {c : α} {s : List α} (hs : c ∉ s) :
    fromFirst (c :: m) (s ++ l) = fromFirst (c :: m) l := by
  induction s with
  | nil => rfl
  | cons a s ih =>
    rw [List.mem_cons, not_or] at hs
    obtain ⟨hne, hs⟩ := hs
    rw [List.cons_append, fromFirst_cons, ih hs]
    rw [List.cons_prefix_cons]
    exact fun h => hne h.1

omit [DecidableEq α] in
/-- A piece without the symbol `c` does not go across one. -/
theorem infix_append_cons_iff {c : α} {r : List α} (hc : c ∉ m) : m <:+: l ++ c :: r ↔ m <:+: l ∨ m <:+: r := by
  constructor
  · rintro ⟨u, v, h⟩
    rw [List.append_assoc] at h
    rcases List.append_eq_append_iff.mp h with ⟨d, hd, hr⟩ | ⟨d, hd, hr⟩
    · -- the piece begins in `l`
      rcases List.append_eq_append_iff.mp hr with ⟨e, he, -⟩ | ⟨e, he, hv⟩
      · exact .inl ⟨u, e, by rw [hd, he, List.append_assoc]⟩
      · cases e with
        | nil => exact .inl ⟨u, [], by rw [hd, ← List.append_nil d, he]; simp⟩
        | cons x e =>
          obtain ⟨rfl, -⟩ := List.cons.inj hv
          exact absurd (by rw [he]; simp) hc
    · cases d with
      | nil =>
        rw [List.nil_append] at hr
        cases m with
        | nil => exact .inl (List.nil_infix)
        | cons x m =>
          obtain ⟨rfl, -⟩ := List.cons.inj hr
          exact absurd List.mem_cons_self hc
      | cons x d =>
        obtain ⟨-, hr⟩ := List.cons.inj hr
        exact .inr ⟨d, v, (List.append_assoc d m v).trans hr.symm⟩
  · rintro (h | h)
    · exact h.trans (List.prefix_append l _).isInfix
    · exact h.trans ⟨l ++ [c], [], by simp⟩

end Occurrences

end NestDdd.Theory.Matching
