import NestDdd.Json.Objects

/-!
# Value objects

`ValueObject` (`src/domain/base/value-object.ts`): an instance keeps a frozen copy of its props, and `equals` compares
the classes and the texts `JSON.stringify` writes of the props.

## The model

Props are an object of strings, finite numbers, booleans, null, arrays and objects of these, with each key once; the
entries stand in the order in which they were made. Two values are the `Same` if they are equal as maps from keys to
values, at every depth, and numbers as `===` compares them.

## What is proved

* `equals_new_iff` — two instances are equal if and only if their classes are the same, their props are the same
  and corresponding objects list their keys in the same order.
* `equals_equivalence` — equality is an equivalence.
* `equals_by_value_iff` — **instances are compared by value** if and only if props of one class that are the same list
  their keys in the same order.
* `swapped_money` — two instances with the same props, made in another order.
-/

namespace NestDdd.Domain

open NestDdd.Shared NestDdd.Theory NestDdd.Json

variable {ν : Type}

/-! ### The code -/

/-- Each object has each key once. -/
inductive Distinct : Value ν → Prop where
  | scalar {v : Value ν} (h : isScalar v = true) : Distinct v
  | array {l : List (Value ν)} (h : ∀ v ∈ l, Distinct v) : Distinct (.array l)
  | object {l : List (JsString × Value ν)} (hkeys : (l.map Prod.fst).Nodup) (h : ∀ e ∈ l, Distinct e.2) :
    Distinct (.object l)

/-- The props of a value object. -/
structure Props where
  /-- The entries, in the order in which they were made. -/
  entries : List (JsString × Value Binary64)
  /-- Each key is there once, at every depth. -/
  distinct : Distinct (.object entries)

/-- The props as a value. -/
def Props.value (props : Props) : Value Binary64 := .object props.entries

theorem distinct_enumerate {l : List (JsString × Value ν)} (h : Distinct (.object l)) :
    Distinct (.object (enumerate l)) := by
  cases h with
  | scalar h => cases h
  | object hkeys h =>
    have hperm : ((enumerate l).map Prod.fst).Nodup := by
      rw [keys_enumerate]
      exact (ownKeys_perm _).nodup_iff.mpr hkeys
    refine .object hperm ?_
    intro e he
    apply h e
    apply mem_of_find
    rw [← find_enumerate]
    exact (find_eq_some_iff hperm).mpr he

/-- `{ ...props }`. -/
def Props.copy (props : Props) : Props := ⟨enumerate props.entries, distinct_enumerate props.distinct⟩

/-- An instance; `κ` are the classes. -/
structure ValueObject (κ : Type) where
  /-- `constructor`. -/
  cls : κ
  /-- `props`. -/
  props : Props

namespace ValueObject

variable {κ : Type} [DecidableEq κ]

/-- The constructor. -/
def new (cls : κ) (props : Props) : ValueObject κ := ⟨cls, props.copy⟩

/-- `equals`. -/
def equals (self : ValueObject κ) : Option (ValueObject κ) → Bool
  | none => false
  | some other =>
    if other.cls ≠ self.cls then false else decide (stringify self.props.value = stringify other.props.value)

end ValueObject

/-! ### What is expected -/

/-- `x === y`, for finite numbers. -/
def StrictEqual (x y : Binary64) : Prop := x = y ∨ (x.significand = 0 ∧ y.significand = 0)

/-- Two values are equal as maps, at every depth. -/
inductive Same : Value Binary64 → Value Binary64 → Prop where
  | null : Same .null .null
  | bool (b : Bool) : Same (.bool b) (.bool b)
  | number {x y : Binary64} (h : StrictEqual x y) : Same (.number x) (.number y)
  | string (s : JsString) : Same (.string s) (.string s)
  | array {l l' : List (Value Binary64)} (hlen : l.length = l'.length) (h : ∀ p ∈ l.zip l', Same p.1 p.2) :
    Same (.array l) (.array l')
  | object {l l' : List (JsString × Value Binary64)} (hkeys : ∀ k, k ∈ l.map Prod.fst ↔ k ∈ l'.map Prod.fst)
    (h : ∀ k v w, find k l = some v → find k l' = some w → Same v w) : Same (.object l) (.object l')

/-- Objects at corresponding places list their keys in the same order. -/
inductive SameOrder : Value ν → Value ν → Prop where
  | scalar {v w : Value ν} (h : isScalar v = true) : SameOrder v w
  | array {l l' : List (Value ν)} (h : ∀ p ∈ l.zip l', SameOrder p.1 p.2) : SameOrder (.array l) (.array l')
  | object {l l' : List (JsString × Value ν)} (horder : ownKeys (l.map Prod.fst) = ownKeys (l'.map Prod.fst))
    (h : ∀ k v w, find k l = some v → find k l' = some w → SameOrder v w) : SameOrder (.object l) (.object l')

/-! ### Equal texts -/

theorem strictEqual_iff {x y : Binary64} : StrictEqual x y ↔ unsignedZero x = unsignedZero y := by
  rw [StrictEqual, unsignedZero, unsignedZero]
  by_cases hx : x.significand = 0
  · by_cases hy : y.significand = 0
    · rw [if_pos hx, if_pos hy]
      exact iff_of_true (.inr ⟨hx, hy⟩) rfl
    · rw [if_pos hx, if_neg hy]
      refine iff_of_false ?_ ?_
      · rintro (rfl | h)
        · exact hy hx
        · exact hy h.2
      · rintro rfl
        exact hy rfl
  · by_cases hy : y.significand = 0
    · rw [if_neg hx, if_pos hy]
      refine iff_of_false ?_ ?_
      · rintro (rfl | h)
        · exact hx hy
        · exact hx h.1
      · rintro rfl
        exact hx rfl
    · rw [if_neg hx, if_neg hy]
      exact ⟨fun h => h.resolve_right fun h => hx h.1, .inl⟩

/-- Numbers that `===` takes for the same have the same text. -/
theorem numberToString_congr {x y : Binary64} (h : StrictEqual x y) : numberToString x = numberToString y := by
  rcases h with rfl | ⟨hx, hy⟩
  · rfl
  · rw [numberToString, numberToString, if_pos hx, if_pos hy]

theorem eq_of_mem_zip {α β : Type} {f : α → β} {l l' : List α} (h : l.map f = l'.map f) :
    ∀ p ∈ l.zip l', f p.1 = f p.2 := by
  induction l generalizing l' with
  | nil => exact fun p hp => absurd hp List.not_mem_nil
  | cons a l ih =>
    cases l' with
    | nil => exact fun p hp => absurd hp List.not_mem_nil
    | cons b l' =>
      rw [List.map_cons, List.map_cons] at h
      obtain ⟨hab, hrest⟩ := List.cons_eq_cons.mp h
      rw [List.zip_cons_cons]
      exact List.forall_mem_cons.mpr ⟨hab, ih hrest⟩

theorem map_eq_of_mem_zip {α β : Type} {f : α → β} {l l' : List α} (hlen : l.length = l'.length)
    (h : ∀ p ∈ l.zip l', f p.1 = f p.2) : l.map f = l'.map f := by
  induction l generalizing l' with
  | nil => rw [List.length_eq_zero_iff.mp hlen.symm]
  | cons a l ih =>
    cases l' with
    | nil => cases hlen
    | cons b l' =>
      obtain ⟨hab, hrest⟩ := List.forall_mem_cons.mp h
      rw [List.map_cons, List.map_cons, hab, ih (Nat.succ.inj hlen) hrest]

/-- What two values are parsed as agrees only if they are the same, in the same order. -/
theorem same_of_numerals {numeral : Binary64 → Numeral}
    (hnumeral : ∀ x, (numeral x).toDouble = .finite (unsignedZero x)) {v w : Value Binary64}
    (h : v.ordered.map numeral = w.ordered.map numeral) : Same v w ∧ SameOrder v w := by
  induction v using Value.induct generalizing w with
  | null =>
    cases w <;> cases h
    exact ⟨.null, .scalar rfl⟩
  | bool b =>
    cases w <;> cases h
    exact ⟨.bool b, .scalar rfl⟩
  | number x =>
    cases w with
    | number y =>
      have hxy := congrArg Numeral.toDouble (Value.number.inj h)
      rw [hnumeral, hnumeral] at hxy
      exact ⟨.number (strictEqual_iff.mpr (Double.finite.inj hxy)), .scalar rfl⟩
    | null | bool | string | array | object => cases h
  | string s =>
    cases w <;> cases h
    exact ⟨.string s, .scalar rfl⟩
  | array l ih =>
    cases w with
    | array l' =>
      rw [map_ordered_array, map_ordered_array, Value.array.injEq] at h
      have hlen : l.length = l'.length := by simpa only [List.length_map] using congrArg List.length h
      have hpairs : ∀ p ∈ l.zip l', Same p.1 p.2 ∧ SameOrder p.1 p.2 :=
        fun p hp => ih p.1 (List.of_mem_zip hp).1 (eq_of_mem_zip h p hp)
      exact ⟨.array hlen fun p hp => (hpairs p hp).1, .array fun p hp => (hpairs p hp).2⟩
    | null | bool | string | number | object => cases h
  | object l ih =>
    cases w with
    | object l' =>
      rw [map_ordered_object, map_ordered_object, Value.object.injEq] at h
      obtain ⟨horder, hfind⟩ := @enumerate_inj _ _ (fun v : Value Binary64 => v.ordered.map numeral) _ _ h
      have hkeys : ∀ k, k ∈ l.map Prod.fst ↔ k ∈ l'.map Prod.fst := by
        intro k
        rw [← mem_ownKeys, horder, mem_ownKeys]
      have hvalues : ∀ k v w, find k l = some v → find k l' = some w → Same v w ∧ SameOrder v w := by
        intro k v w hv hw
        have hvw := hfind k
        rw [hv, hw, Option.map_some, Option.map_some, Option.some.injEq] at hvw
        exact ih (k, v) (mem_of_find hv) hvw
      exact ⟨.object hkeys fun k v w hv hw => (hvalues k v w hv hw).1,
        .object horder fun k v w hv hw => (hvalues k v w hv hw).2⟩
    | null | bool | string | array | number => cases h

/-- Values that are the same, in the same order, have the same text. -/
theorem write_of_same {v w : Value Binary64} (h : Same v w) (horder : SameOrder v w) :
    v.ordered.write numberToString = w.ordered.write numberToString := by
  induction h with
  | null => rfl
  | bool b => rfl
  | number h => exact numberToString_congr h
  | string s => rfl
  | array hlen h ih =>
    next l l' =>
    cases horder with
    | scalar h => cases h
    | array horder =>
      have hpairs : ∀ p ∈ l.zip l', p.1.ordered.write numberToString = p.2.ordered.write numberToString :=
        fun p hp => ih p hp (horder p hp)
      rw [write_ordered_array, write_ordered_array, map_eq_of_mem_zip hlen hpairs]
  | object hkeys h ih =>
    next l l' =>
    cases horder with
    | scalar h => cases h
    | object hown horder =>
      have htexts : ∀ k, ((find k l).map fun v => quote k ++ 0x3A :: v.ordered.write numberToString) =
          (find k l').map fun v => quote k ++ 0x3A :: v.ordered.write numberToString := by
        intro k
        cases hv : find k l with
        | none =>
          have hw : find k l' = none := by
            rw [find_eq_none_iff] at hv ⊢
            rwa [← hkeys]
          rw [hw, Option.map_none]
        | some v =>
          have hmem : (find k l').isSome = true := by
            rw [isSome_find, ← hkeys, ← isSome_find, hv]
            rfl
          obtain ⟨w, hw⟩ := Option.isSome_iff_exists.mp hmem
          rw [hw, Option.map_some, Option.map_some, ih k v w hv hw (horder k v w hv hw)]
      rw [write_ordered_object, write_ordered_object,
        map_enumerate fun k (v : Value Binary64) => quote k ++ 0x3A :: v.ordered.write numberToString,
        map_enumerate fun k (v : Value Binary64) => quote k ++ 0x3A :: v.ordered.write numberToString, hown]
      simp only [htexts]

/-- **Two texts are equal** if and only if the values are the same, in the same order. -/
theorem stringify_eq_iff {v w : Value Binary64} : stringify v = stringify w ↔ Same v w ∧ SameOrder v w := by
  constructor
  · intro h
    obtain ⟨numeral, hnumeral, hparse⟩ := parse_stringify
    apply same_of_numerals hnumeral
    apply Option.some.inj
    rw [← hparse, ← hparse, h]
  · rintro ⟨h, horder⟩
    exact write_of_same h horder

/-! ### Equality -/

namespace ValueObject

variable {κ : Type} [DecidableEq κ]

theorem equals_some (a b : ValueObject κ) :
    a.equals (some b) = true ↔ a.cls = b.cls ∧ stringify a.props.value = stringify b.props.value := by
  rw [equals]
  split
  · next hne => exact iff_of_false Bool.false_ne_true fun h => hne h.1.symm
  · next heq =>
    rw [decide_eq_true_iff]
    exact ⟨fun h => ⟨(not_not.mp heq).symm, h⟩, And.right⟩

/-- A copy lists its keys as what it is a copy of, so it has the same text. -/
theorem stringify_copy (props : Props) : stringify props.copy.value = stringify props.value := by
  have hlist : enumerate (enumerate props.entries) = enumerate props.entries := by
    rw [enumerate, keys_enumerate, ownKeys_ownKeys]
    simp only [find_enumerate]
    rfl
  rw [stringify, stringify, Props.value, Props.value, Props.copy, write_ordered_object, write_ordered_object, hlist]

/-- **Two instances are equal** if and only if they have one class and the same props, in the same order. -/
theorem equals_new_iff (cls cls' : κ) (props props' : Props) :
    (new cls props).equals (some (new cls' props')) = true ↔
      cls = cls' ∧ Same props.value props'.value ∧ SameOrder props.value props'.value := by
  rw [equals_some, ← stringify_eq_iff, ← stringify_copy props, ← stringify_copy props']
  rfl

/-- **Equality is an equivalence.** -/
theorem equals_equivalence : Equivalence fun a b : ValueObject κ => a.equals (some b) = true := by
  constructor
  · intro a
    exact (equals_some a a).mpr ⟨rfl, rfl⟩
  · intro a b h
    obtain ⟨hcls, htext⟩ := (equals_some a b).mp h
    exact (equals_some b a).mpr ⟨hcls.symm, htext.symm⟩
  · intro a b c hab hbc
    obtain ⟨hcls, htext⟩ := (equals_some a b).mp hab
    obtain ⟨hcls', htext'⟩ := (equals_some b c).mp hbc
    exact (equals_some a c).mpr ⟨hcls.trans hcls', htext.trans htext'⟩

/-- **Instances are compared by value** if and only if the props of one class that are the same list their keys in
the same order; however that is, equality is an equivalence. -/
theorem equals_by_value_iff :
    (Equivalence fun a b : ValueObject κ => a.equals (some b) = true) ∧
      ∀ (cls cls' : κ) (props props' : Props),
        ((new cls props).equals (some (new cls' props')) = true ↔ cls = cls' ∧ Same props.value props'.value) ↔
          (cls = cls' → Same props.value props'.value → SameOrder props.value props'.value) := by
  refine ⟨equals_equivalence, ?_⟩
  intro cls cls' props props'
  rw [equals_new_iff]
  constructor
  · intro h hcls hsame
    exact (h.mpr ⟨hcls, hsame⟩).2.2
  · intro h
    constructor
    · rintro ⟨hcls, hsame, -⟩
      exact ⟨hcls, hsame⟩
    · rintro ⟨hcls, hsame⟩
      exact ⟨hcls, hsame, h hcls hsame⟩

/-- The number 1. -/
def one : Binary64 := ⟨false, 2 ^ 52, -52, by decide⟩

/-- `{ amount: 1, currency: 'EUR' }`. -/
def amountFirst : Props where
  entries := [(JsString.ofString "amount", .number one), (JsString.ofString "currency", .string "EUR")]
  distinct := .object (by decide)
    (List.forall_mem_cons.mpr ⟨.scalar rfl,
      List.forall_mem_cons.mpr ⟨.scalar rfl, fun _ h => absurd h List.not_mem_nil⟩⟩)

/-- `{ currency: 'EUR', amount: 1 }`. -/
def currencyFirst : Props where
  entries := [(JsString.ofString "currency", .string "EUR"), (JsString.ofString "amount", .number one)]
  distinct := .object (by decide)
    (List.forall_mem_cons.mpr ⟨.scalar rfl,
      List.forall_mem_cons.mpr ⟨.scalar rfl, fun _ h => absurd h List.not_mem_nil⟩⟩)

/-- The same amount of money is not equal to itself, with its props in another order. -/
theorem swapped_money : Same amountFirst.value currencyFirst.value ∧
    (new () amountFirst).equals (some (new () currencyFirst)) = false := by
  constructor
  · apply Same.object
    · intro k
      simp only [amountFirst, currencyFirst, List.map_cons, List.map_nil, List.mem_cons, List.not_mem_nil, or_false]
      exact or_comm
    · intro k v w hv hw
      have hv' := mem_of_find hv
      have hw' := mem_of_find hw
      simp only [amountFirst, currencyFirst, List.mem_cons, List.not_mem_nil, or_false, Prod.mk.injEq] at hv' hw'
      rcases hv' with ⟨rfl, rfl⟩ | ⟨rfl, rfl⟩ <;> rcases hw' with ⟨hk, rfl⟩ | ⟨hk, rfl⟩
      · exact absurd hk (by decide)
      · exact .number (.inl rfl)
      · exact .string _
      · exact absurd hk (by decide)
  · rw [← Bool.not_eq_true, equals_new_iff]
    rintro ⟨-, -, horder⟩
    cases horder with
    | scalar h => cases h
    | object hown _ => exact absurd hown (by decide)

end ValueObject

end NestDdd.Domain
