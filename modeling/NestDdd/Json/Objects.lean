import NestDdd.Json.Stringify

/-!
# Objects and their text

An object's properties are listed with the array indices first, in ascending order, and then the other keys in the
order in which they were made. `JSON.stringify` writes them so. `JSON.parse` makes a property of each member, and one
whose name is there already replaces the value.

## What is proved

* `keys_enumerate`, `find_enumerate` — listing an object's properties changes nothing but their order.
* `parse_stringify` — **what `JSON.stringify` writes is parsed as the value**, with its properties as they are listed.
* `find_settledMembers` — of the members with one name, the last is kept.
-/

namespace NestDdd.Json

open NestDdd.Shared NestDdd.Theory

variable {ν μ α β : Type}

/-! ### The order of properties -/

/-- Whether a key is the text of an array index. -/
def isArrayIndex (k : JsString) : Bool := k == natToString (digitsValue k) && decide (digitsValue k < 2 ^ 32 - 1)

/-- Array indices by their numbers. -/
def IndexLE (a b : JsString) : Prop := digitsValue a ≤ digitsValue b

instance (a b : JsString) : Decidable (IndexLE a b) := inferInstanceAs (Decidable (_ ≤ _))

instance : Std.Total IndexLE := ⟨fun a b => Nat.le_total (digitsValue a) (digitsValue b)⟩

instance : IsTrans JsString IndexLE := ⟨fun _ _ _ => Nat.le_trans⟩

/-- `OrdinaryOwnPropertyKeys`: the order in which keys are listed that were made in the order `keys`. -/
def ownKeys (keys : List JsString) : List JsString :=
  (keys.filter isArrayIndex).insertionSort IndexLE ++ keys.filter fun k => !isArrayIndex k

/-- `EnumerableOwnProperties`, with the values. -/
def enumerate (l : List (JsString × α)) : List (JsString × α) :=
  (ownKeys (l.map Prod.fst)).filterMap fun k => (find k l).map fun v => (k, v)

variable {l : List (JsString × α)} {k : JsString}

theorem ownKeys_perm (keys : List JsString) : (ownKeys keys).Perm keys :=
  ((List.perm_insertionSort _ _).append_right _).trans (List.filter_append_perm isArrayIndex keys)

/-- Listed keys are listed as they are. -/
theorem ownKeys_ownKeys (keys : List JsString) : ownKeys (ownKeys keys) = ownKeys keys := by
  have hindex : ∀ k ∈ (keys.filter isArrayIndex).insertionSort IndexLE, isArrayIndex k = true := by
    intro k hk
    rw [List.mem_insertionSort] at hk
    exact (List.mem_filter.mp hk).2
  have hother : ∀ k ∈ keys.filter (fun k => !isArrayIndex k), (!isArrayIndex k) = true :=
    fun k hk => (List.mem_filter.mp hk).2
  have hsorted := (List.pairwise_insertionSort IndexLE (keys.filter isArrayIndex)).insertionSort_eq
  have hnoIndex : (keys.filter fun k => !isArrayIndex k).filter isArrayIndex = [] := by
    apply List.filter_eq_nil_iff.mpr
    intro k hk
    rw [Bool.not_eq_true, ← Bool.not_eq_true']
    exact hother k hk
  have hnoOther : ((keys.filter isArrayIndex).insertionSort IndexLE).filter (fun k => !isArrayIndex k) = [] := by
    apply List.filter_eq_nil_iff.mpr
    intro k hk
    rw [hindex k hk]
    exact Bool.false_ne_true
  have hfirst : (ownKeys keys).filter isArrayIndex = (keys.filter isArrayIndex).insertionSort IndexLE := by
    rw [ownKeys, List.filter_append, List.filter_eq_self.mpr hindex, hnoIndex, List.append_nil]
  have hsecond : (ownKeys keys).filter (fun k => !isArrayIndex k) = keys.filter fun k => !isArrayIndex k := by
    rw [ownKeys, List.filter_append, List.filter_eq_self.mpr hother, hnoOther, List.nil_append]
  rw [ownKeys, hfirst, hsecond, hsorted]
  rfl

theorem mem_ownKeys {keys : List JsString} : k ∈ ownKeys keys ↔ k ∈ keys := (ownKeys_perm keys).mem_iff

/-- Every key is found. -/
theorem keys_enumerate (l : List (JsString × α)) : (enumerate l).map Prod.fst = ownKeys (l.map Prod.fst) := by
  have hfound : ∀ keys : List JsString, (∀ k ∈ keys, k ∈ l.map Prod.fst) →
      (keys.filterMap fun k => (find k l).map fun v => (k, v)).map Prod.fst = keys := by
    intro keys hkeys
    induction keys with
    | nil => rfl
    | cons k keys ih =>
      obtain ⟨v, hv⟩ := Option.isSome_iff_exists.mp (isSome_find.mpr (hkeys k List.mem_cons_self))
      rw [List.filterMap_cons, hv, Option.map_some, List.map_cons,
        ih fun k' hk' => hkeys k' (List.mem_cons_of_mem k hk')]
  exact hfound _ fun k hk => mem_ownKeys.mp hk

/-- **A key has the value it has.** -/
theorem find_enumerate (k : JsString) (l : List (JsString × α)) : find k (enumerate l) = find k l := by
  cases hv : find k l with
  | none =>
    have hlist : k ∉ (enumerate l).map Prod.fst := by rwa [keys_enumerate, mem_ownKeys, ← find_eq_none_iff]
    exact find_eq_none_iff.mpr hlist
  | some v =>
    have hkeys : ∀ keys : List JsString, k ∈ keys →
        find k (keys.filterMap fun k => (find k l).map fun v => (k, v)) = some v := by
      intro keys hk
      induction keys with
      | nil => exact absurd hk List.not_mem_nil
      | cons k' keys ih =>
        by_cases heq : k = k'
        · rw [← heq, List.filterMap_cons, hv, Option.map_some, find_cons, if_pos rfl]
        · have hrest := ih ((List.mem_cons.mp hk).resolve_left heq)
          rw [List.filterMap_cons]
          cases find k' l with
          | none => exact hrest
          | some w => rwa [Option.map_some, find_cons, if_neg heq]
    apply hkeys
    rw [mem_ownKeys, ← isSome_find, hv]
    rfl

/-- The values are listed as the keys are. -/
theorem enumerate_map (f : α → β) (l : List (JsString × α)) :
    enumerate (l.map fun e => (e.1, f e.2)) = (enumerate l).map fun e => (e.1, f e.2) := by
  rw [enumerate, enumerate, List.map_map, List.map_filterMap]
  congr 1
  funext k
  rw [find_map, Option.map_map, Option.map_map]
  rfl

/-- What is made of the properties, key by key. -/
theorem map_enumerate (f : JsString → α → β) (l : List (JsString × α)) :
    (enumerate l).map (fun e => f e.1 e.2) = (ownKeys (l.map Prod.fst)).filterMap fun k => (find k l).map (f k) := by
  rw [enumerate, List.map_filterMap]
  congr 1
  funext k
  rw [Option.map_map]
  rfl

/-- **Properties that are listed alike** have the same keys, in one order, and the same values. -/
theorem enumerate_inj {f : α → β} {l l' : List (JsString × α)}
    (h : (enumerate l).map (fun e => (e.1, f e.2)) = (enumerate l').map fun e => (e.1, f e.2)) :
    ownKeys (l.map Prod.fst) = ownKeys (l'.map Prod.fst) ∧ ∀ k, (find k l).map f = (find k l').map f := by
  constructor
  · have hkeys := congrArg (List.map Prod.fst) h
    rw [List.map_map, List.map_map] at hkeys
    rw [← keys_enumerate, ← keys_enumerate]
    exact hkeys
  · intro k
    have hfind := congrArg (find k) h
    rwa [find_map, find_map, find_enumerate, find_enumerate] at hfind

/-- Whether a value is neither an array nor an object. -/
def isScalar : Value ν → Bool
  | .array _ | .object _ => false
  | _ => true

/-! ### `JSON.stringify` -/

mutual

/-- A value with the properties of its objects as they are listed. -/
def Value.ordered : Value ν → Value ν
  | .null => .null
  | .bool b => .bool b
  | .number x => .number x
  | .string s => .string s
  | .array l => .array (orderedElements l)
  | .object l => .object (enumerate (orderedMembers l))

/-- Each element so. -/
def orderedElements : List (Value ν) → List (Value ν)
  | [] => []
  | v :: l => v.ordered :: orderedElements l

/-- The value of each member so. -/
def orderedMembers : List (JsString × Value ν) → List (JsString × Value ν)
  | [] => []
  | (k, v) :: l => (k, v.ordered) :: orderedMembers l

end

theorem orderedElements_eq (l : List (Value ν)) : orderedElements l = l.map Value.ordered := by
  induction l with
  | nil => rfl
  | cons v l ih => rw [orderedElements, List.map_cons, ih]

theorem orderedMembers_eq (l : List (JsString × Value ν)) : orderedMembers l = l.map fun e => (e.1, e.2.ordered) := by
  induction l with
  | nil => rfl
  | cons e l ih => rw [orderedMembers, List.map_cons, ih]

theorem map_ordered_array (f : ν → μ) (l : List (Value ν)) :
    (Value.array l).ordered.map f = .array (l.map fun v => v.ordered.map f) := by
  rw [Value.ordered, orderedElements_eq, Value.map, mapElements_eq, List.map_map]
  rfl

theorem map_ordered_object (f : ν → μ) (l : List (JsString × Value ν)) :
    (Value.object l).ordered.map f = .object ((enumerate l).map fun e => (e.1, e.2.ordered.map f)) := by
  rw [Value.ordered, orderedMembers_eq, enumerate_map, Value.map, mapMembers_eq, List.map_map]
  rfl

theorem write_ordered_array (text : ν → JsString) (l : List (Value ν)) : (Value.array l).ordered.write text =
    0x5B :: ([0x2C].intercalate (l.map fun v => v.ordered.write text) ++ [0x5D]) := by
  rw [Value.ordered, orderedElements_eq, Value.write, writeElements_eq, List.map_map]
  rfl

theorem write_ordered_object (text : ν → JsString) (l : List (JsString × Value ν)) :
    (Value.object l).ordered.write text = 0x7B ::
      ([0x2C].intercalate ((enumerate l).map fun e => quote e.1 ++ 0x3A :: e.2.ordered.write text) ++ [0x7D]) := by
  rw [Value.ordered, orderedMembers_eq, enumerate_map, Value.write, writeMembers_eq, List.map_map]
  rfl

/-- `JSON.stringify(v)` of a value with finite numbers. -/
def stringify (v : Value Binary64) : JsString := v.ordered.write numberToString

/-- **What is written is parsed as the value**, with each number as a numeral of it. -/
theorem parse_stringify : ∃ numeral : Binary64 → Numeral, (∀ x, (numeral x).toDouble = .finite (unsignedZero x)) ∧
    ∀ v : Value Binary64, parse (stringify v) = some (v.ordered.map numeral) := by
  obtain ⟨numeral, hnumeral⟩ := Classical.skolem.mp numeral_numberToString
  exact ⟨numeral, fun x => (hnumeral x).2, fun v => parse_eq_some_iff.mpr (isTextOf_write (fun x => (hnumeral x).1) _)⟩

theorem wellFormed_stringify (v : Value Binary64) : WellFormed (stringify v) := by
  apply wellFormed_write
  intro x
  obtain ⟨m, hm, -⟩ := numeral_numberToString x
  exact NumeralText.wellFormed hm

/-! ### `JSON.parse` -/

mutual

/-- A value with one property for all members of a name. -/
def Value.settled : Value ν → Value ν
  | .null => .null
  | .bool b => .bool b
  | .number x => .number x
  | .string s => .string s
  | .array l => .array (settledElements l)
  | .object l => .object (settledMembers [] l)

/-- Each element so. -/
def settledElements : List (Value ν) → List (Value ν)
  | [] => []
  | v :: l => v.settled :: settledElements l

/-- `CreateDataProperty` for each member, on an object with the properties `own`. -/
def settledMembers (own : List (JsString × Value ν)) : List (JsString × Value ν) → List (JsString × Value ν)
  | [] => own
  | (k, v) :: l => settledMembers (put k v.settled own) l

end

/-- `JSON.parse(s)`; `none` is a `SyntaxError`. -/
def jsonParse (s : JsString) : Option (Value Double) := (parse s).map fun v => (v.map Numeral.toDouble).settled

variable {own members : List (JsString × Value ν)}

/-- Each name is there once. -/
theorem nodup_settledMembers (h : (own.map Prod.fst).Nodup) : ((settledMembers own members).map Prod.fst).Nodup := by
  induction members generalizing own with
  | nil => exact h
  | cons e members ih => exact ih (nodup_put h)

/-- **Of the members with one name, the last is kept.** -/
theorem find_settledMembers (k : JsString) (own members : List (JsString × Value ν)) :
    find k (settledMembers own members) = ((find k members.reverse).map Value.settled).or (find k own) := by
  induction members generalizing own with
  | nil => rfl
  | cons e members ih =>
    rw [settledMembers, ih, find_put, List.reverse_cons, find_append, find_cons]
    cases find k members.reverse with
    | some v => rfl
    | none =>
      rw [Option.none_or, Option.map_none, Option.none_or]
      by_cases hk : k = e.1
      · rw [if_pos hk, if_pos hk, Option.map_some, Option.some_or]
      · rw [if_neg hk, if_neg hk, find_nil, Option.map_none, Option.none_or]

/-- Members with different names are kept as they are. -/
theorem settledMembers_eq (h : ((own ++ members).map Prod.fst).Nodup) :
    settledMembers own members = own ++ members.map fun e => (e.1, e.2.settled) := by
  induction members generalizing own with
  | nil => exact (List.append_nil own).symm
  | cons e members ih =>
    have hnew : e.1 ∉ own.map Prod.fst := by
      rw [List.map_append, List.map_cons] at h
      intro hm
      exact (List.disjoint_of_nodup_append h) hm List.mem_cons_self
    have hput := put_of_not_mem (v := e.2.settled) hnew
    have hrest : ((own ++ [(e.1, e.2.settled)] ++ members).map Prod.fst).Nodup := by
      simpa using h
    rw [settledMembers, hput, ih hrest, List.append_assoc]
    rfl

theorem isScalar_map (f : ν → μ) (v : Value ν) : isScalar (v.map f) = isScalar v := by cases v <;> rfl

theorem isScalar_settled (v : Value ν) : isScalar v.settled = isScalar v := by cases v <;> rfl

end NestDdd.Json
