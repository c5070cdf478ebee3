import Mathlib.Data.List.Nodup
import Mathlib.Data.List.Perm.Basic

/-!
# Maps that keep an order

A map is a list of entries with each key once. Setting a key that is there replaces its value where it stands; a new
key comes last.

## What is proved

* `get?_set`, `mem_keys_set` — what is found after a key has been set.
* `nodup_put` — the keys stay apart.
-/

namespace NestDdd.Theory

variable {κ ν : Type} [DecidableEq κ]

/-! ### Lists of entries -/

/-- The entries with `k` at `v`. -/
def put (k : κ) (v : ν) : List (κ × ν) → List (κ × ν)
  | [] => [(k, v)]
  | e :: l => if e.1 = k then (k, v) :: l else e :: put k v l

variable {k k' : κ} {v v' : ν} {l : List (κ × ν)}

theorem keys_put_of_mem (h : k ∈ l.map Prod.fst) : (put k v l).map Prod.fst = l.map Prod.fst := by
  induction l with
  | nil => exact absurd h List.not_mem_nil
  | cons e l ih =>
    rw [put]
    split
    · next he => rw [List.map_cons, List.map_cons, he]
    · next he =>
      have htail : k ∈ l.map Prod.fst := (List.mem_cons.mp h).resolve_left (Ne.symm he)
      rw [List.map_cons, List.map_cons, ih htail]

theorem put_of_not_mem (h : k ∉ l.map Prod.fst) : put k v l = l ++ [(k, v)] := by
  induction l with
  | nil => rfl
  | cons e l ih =>
    rw [List.map_cons, List.mem_cons, not_or] at h
    rw [put, if_neg (Ne.symm h.1), ih h.2, List.cons_append]

theorem mem_keys_put : k' ∈ (put k v l).map Prod.fst ↔ k' = k ∨ k' ∈ l.map Prod.fst := by
  by_cases h : k ∈ l.map Prod.fst
  · rw [keys_put_of_mem h]
    refine ⟨.inr, ?_⟩
    rintro (rfl | hm)
    · exact h
    · exact hm
  · rw [put_of_not_mem h, List.map_append, List.mem_append, List.map_singleton, List.mem_singleton, or_comm]

/-- **The keys stay apart.** -/
theorem nodup_put (h : (l.map Prod.fst).Nodup) : ((put k v l).map Prod.fst).Nodup := by
  by_cases hk : k ∈ l.map Prod.fst
  · rwa [keys_put_of_mem hk]
  · rw [put_of_not_mem hk, List.map_append, List.map_singleton, ← List.concat_eq_append]
    exact h.concat hk

theorem lookup_put : (put k v l).lookup k' = if k' = k then some v else l.lookup k' := by
  induction l with
  | nil => by_cases hk : k' = k <;> simp [put, hk]
  | cons e l ih =>
    rw [put]
    by_cases he : e.1 = k
    · rw [if_pos he, List.lookup_cons, List.lookup_cons, he]
      by_cases hk : k' = k
      · rw [beq_iff_eq.mpr hk, if_pos hk]
      · rw [beq_eq_false_iff_ne.mpr hk, if_neg hk]
    · rw [if_neg he, List.lookup_cons, List.lookup_cons, ih]
      by_cases hk : k' = k
      · have hne : (k' == e.1) = false := by
          rw [beq_eq_false_iff_ne, hk]
          exact Ne.symm he
        rw [hne]
      · rw [if_neg hk, if_neg hk]

theorem isSome_lookup : (l.lookup k).isSome = true ↔ k ∈ l.map Prod.fst := by
  induction l with
  | nil => simp
  | cons e l ih =>
    rw [List.lookup_cons, List.map_cons, List.mem_cons, ← ih]
    by_cases hk : k = e.1
    · rw [beq_iff_eq.mpr hk]
      exact iff_of_true rfl (.inl hk)
    · rw [beq_eq_false_iff_ne.mpr hk, or_iff_right hk]

/-- With each key once, an entry is what is found at its key. -/
theorem lookup_eq_some_iff (h : (l.map Prod.fst).Nodup) : l.lookup k = some v ↔ (k, v) ∈ l := by
  induction l with
  | nil => simp
  | cons e l ih =>
    obtain ⟨hnot, htail⟩ := List.nodup_cons.mp h
    rw [List.lookup_cons, List.mem_cons]
    by_cases hk : k = e.1
    · have hno : (k, v) ∉ l := by
        intro hm
        exact hnot (hk ▸ List.mem_map_of_mem (f := Prod.fst) hm)
      rw [beq_iff_eq.mpr hk, or_iff_left hno, Option.some_inj, Prod.ext_iff]
      exact ⟨fun hv => ⟨hk, hv.symm⟩, fun hv => hv.2.symm⟩
    · have hne : (k, v) ≠ e := fun he => hk (congrArg Prod.fst he)
      rw [beq_eq_false_iff_ne.mpr hk, ih htail, or_iff_right hne]

/-- The value at `k`. -/
def find (k : κ) (l : List (κ × ν)) : Option ν := l.lookup k

@[simp] theorem find_nil : find k ([] : List (κ × ν)) = none := rfl

theorem find_cons (e : κ × ν) (l : List (κ × ν)) : find k (e :: l) = if k = e.1 then some e.2 else find k l := by
  rw [find, List.lookup_cons]
  by_cases hk : k = e.1
  · rw [beq_iff_eq.mpr hk, if_pos hk]
  · rw [beq_eq_false_iff_ne.mpr hk, if_neg hk]
    rfl

theorem isSome_find : (find k l).isSome = true ↔ k ∈ l.map Prod.fst := isSome_lookup

theorem find_eq_none_iff : find k l = none ↔ k ∉ l.map Prod.fst := by
  rw [← isSome_find, Option.not_isSome_iff_eq_none]

theorem find_put : find k' (put k v l) = if k' = k then some v else find k' l := lookup_put

theorem find_eq_some_iff (h : (l.map Prod.fst).Nodup) : find k l = some v ↔ (k, v) ∈ l := lookup_eq_some_iff h

theorem mem_of_find (h : find k l = some v) : (k, v) ∈ l := by
  induction l with
  | nil => cases h
  | cons e l ih =>
    rw [find_cons] at h
    split at h
    · next hk =>
      cases h
      rw [hk]
      exact List.mem_cons_self
    · exact List.mem_cons_of_mem e (ih h)

theorem find_append (k : κ) (l l' : List (κ × ν)) : find k (l ++ l') = (find k l).or (find k l') := by
  induction l with
  | nil => rfl
  | cons e l ih =>
    rw [List.cons_append, find_cons, find_cons, ih]
    by_cases hk : k = e.1
    · rw [if_pos hk, if_pos hk, Option.some_or]
    · rw [if_neg hk, if_neg hk]

theorem find_map {ξ : Type} (f : ν → ξ) (k : κ) (l : List (κ × ν)) :
    find k (l.map fun e => (e.1, f e.2)) = (find k l).map f := by
  induction l with
  | nil => rfl
  | cons e l ih =>
    rw [List.map_cons, find_cons, find_cons, ih]
    by_cases hk : k = e.1
    · rw [if_pos hk, if_pos hk, Option.map_some]
    · rw [if_neg hk, if_neg hk]

/-! ### Maps -/

/-- A map. -/
structure OrderedMap (κ ν : Type) where
  /-- The entries, in the order their keys were set first. -/
  entries : List (κ × ν)
  /-- Each key is there once. -/
  nodup : (entries.map Prod.fst).Nodup

namespace OrderedMap

/-- The map without entries. -/
def empty : OrderedMap κ ν := ⟨[], List.nodup_nil⟩

variable (m : OrderedMap κ ν)

/-- The keys. -/
def keys : List κ := m.entries.map Prod.fst

/-- Whether a key is there. -/
def has (k : κ) : Bool := (m.entries.lookup k).isSome

/-- The value at a key. -/
def get? (k : κ) : Option ν := m.entries.lookup k

/-- The map with `k` at `v`. -/
def set (k : κ) (v : ν) : OrderedMap κ ν := ⟨put k v m.entries, nodup_put m.nodup⟩

variable {m}

theorem has_iff : m.has k = true ↔ k ∈ m.keys := isSome_lookup

theorem isSome_get? : (m.get? k).isSome = m.has k := rfl

theorem get?_eq_some_iff : m.get? k = some v ↔ (k, v) ∈ m.entries := lookup_eq_some_iff m.nodup

@[simp] theorem has_empty : (empty : OrderedMap κ ν).has k = false := rfl

@[simp] theorem get?_empty : (empty : OrderedMap κ ν).get? k = none := rfl

theorem get?_set : (m.set k v).get? k' = if k' = k then some v else m.get? k' := lookup_put

theorem mem_keys_set : k' ∈ (m.set k v).keys ↔ k' = k ∨ k' ∈ m.keys := mem_keys_put

@[simp] theorem has_set : (m.set k v).has k' = (decide (k' = k) || m.has k') := by
  rw [Bool.eq_iff_iff, has_iff, mem_keys_set, Bool.or_eq_true, decide_eq_true_iff, has_iff]

/-- A new key comes last. -/
theorem entries_set_of_not_has (h : m.has k = false) : (m.set k v).entries = m.entries ++ [(k, v)] := by
  apply put_of_not_mem
  rw [← isSome_lookup, ← has, h]
  exact Bool.false_ne_true

end OrderedMap

end NestDdd.Theory
