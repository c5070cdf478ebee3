import Mathlib.Data.List.Basic
import Mathlib.Data.List.Induction

/-!
# Histories

A history is the list of what has happened so far, the latest last. A rule says of an entry what
has to have happened before it; a history keeps a rule throughout if each of its entries does.

## What is proved

* `throughout_concat` — **one more entry** has to keep the rule after what there is.
* `throughout_append` — so does each of several more.
-/

namespace NestDdd.Theory

variable {α : Type}

/-- Each entry keeps the rule `P` after those before it. -/
def Throughout (P : List α → α → Prop) (history : List α) : Prop :=
  ∀ past a future, history = past ++ a :: future → P past a

theorem throughout_nil (P : List α → α → Prop) : Throughout P [] := by
  intro past a future h
  simp at h

/-- What a rule says of a history with one more entry before all others. -/
theorem throughout_cons {P : List α → α → Prop} {a : α} {history : List α} :
    Throughout P (a :: history) ↔ P [] a ∧ Throughout (fun past => P (a :: past)) history := by
  constructor
  · intro h
    refine ⟨h [] a history rfl, fun past b future hb => h (a :: past) b future ?_⟩
    rw [hb, List.cons_append]
  · rintro ⟨ha, h⟩ past b future hb
    cases past with
    | nil =>
      obtain ⟨rfl, -⟩ := List.cons.inj hb
      exact ha
    | cons c past =>
      obtain ⟨rfl, hrest⟩ := List.cons.inj hb
      exact h past b future hrest

/-- An entry of a history that has grown by one is the new one, or was there before. -/
theorem eq_or_eq_of_concat {history before after : List α} {a b : α} (h : history ++ [a] = before ++ b :: after) :
    (history = before ∧ a = b) ∨ ∃ rest, history = before ++ b :: rest := by
  rcases List.eq_nil_or_concat after with rfl | ⟨rest, c, rfl⟩
  · obtain ⟨rfl, heq⟩ := List.append_inj' h rfl
    exact .inl ⟨rfl, (List.cons.inj heq).1⟩
  · rw [List.concat_eq_append, ← List.cons_append, ← List.append_assoc] at h
    exact .inr ⟨rest, (List.append_inj' h rfl).1⟩

/-- **One more entry.** -/
theorem throughout_concat {P : List α → α → Prop} {history : List α} {a : α} :
    Throughout P (history ++ [a]) ↔ Throughout P history ∧ P history a := by
  constructor
  · intro h
    refine ⟨fun past b future hb => h past b (future ++ [a]) ?_, h history a [] rfl⟩
    rw [hb, List.append_assoc, List.cons_append]
  · rintro ⟨h, ha⟩ past b future hb
    rcases eq_or_eq_of_concat hb with ⟨rfl, rfl⟩ | ⟨future, hb⟩
    · exact ha
    · exact h past b future hb

/-- **Several more entries**, one after the other. -/
theorem throughout_append {P : List α → α → Prop} {history more : List α} (h : Throughout P history)
    (hmore : ∀ past a future, more = past ++ a :: future → P (history ++ past) a) :
    Throughout P (history ++ more) := by
  induction more using List.reverseRecOn with
  | nil => rwa [List.append_nil]
  | append_singleton more a ih =>
    rw [← List.append_assoc]
    refine throughout_concat.mpr ⟨ih fun past b future hb => hmore past b (future ++ [a]) ?_, hmore more a [] rfl⟩
    rw [hb, List.append_assoc, List.cons_append]

/-- Entries that need nothing before them. -/
theorem throughout_plain {P : List α → α → Prop} {history more : List α} (h : Throughout P history)
    (hmore : ∀ a ∈ more, ∀ past, P past a) : Throughout P (history ++ more) :=
  throughout_append h fun past a _ heq => hmore a (heq ▸ List.mem_append_right past List.mem_cons_self) _

end NestDdd.Theory
