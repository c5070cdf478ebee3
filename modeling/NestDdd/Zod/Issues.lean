import NestDdd.Zod.Laws

/-!
# Parts of a value

What a schema asks of the parts of a value, down to where no schema asks further, and what the issues of the parts are
to the issues of the whole.

## What is proved

* `At.issues` — **what is wrong with a part is told of**, with its path in front, whatever else is wrong.
* `says_of_issues` — **an issue says one of the things the schema can say**, whatever the value.
-/

namespace NestDdd.Zod

open NestDdd.Shared NestDdd.Theory

/-! ### Paths -/

/-- What is one step away. -/
def Datum.step (d : Datum) : Key → Datum
  | .name key => d.get key
  | .index n =>
    match d with
    | .array l => l[n]?.getD .undefined
    | _ => .undefined

/-- What is at a path. -/
def Datum.follow : Datum → List Key → Datum
  | d, [] => d
  | d, k :: path => (d.step k).follow path

theorem follow_undefined (path : List Key) : Datum.undefined.follow path = .undefined := by
  induction path with
  | nil => rfl
  | cons k path ih => cases k <;> exact ih

/-- **At a path**, a schema is asked of a value. -/
inductive At : Schema → Datum → List Key → Schema → Datum → Prop where
  /-- The whole. -/
  | here {s : Schema} {d : Datum} : At s d [] s d
  /-- A field. -/
  | field {fields : List (JsString × Schema)} {passthrough : Bool} {own : List (JsString × Datum)} {key : JsString}
    {s t : Schema} {path : List Key} {e : Datum} : (fields.map Prod.fst).Nodup → (key, s) ∈ fields →
      At s ((Datum.object own).get key) path t e →
        At (.object fields passthrough) (.object own) (.name key :: path) t e
  /-- An element. -/
  | element {item t : Schema} {l : List Datum} {n : ℕ} {d e : Datum} {path : List Key} : l[n]? = some d →
      At item d path t e → At (.array item) (.array l) (.index n :: path) t e
  /-- Of what checks are behind. -/
  | checked {inner t : Schema} {checks : List Check} {d e : Datum} {k : Key} {path : List Key} :
      At inner d (k :: path) t e → At (.checked inner checks) d (k :: path) t e
  /-- Of what is there. -/
  | optional {inner t : Schema} {d e : Datum} {path : List Key} : d.isUndefined = false → At inner d path t e →
      At (.optional inner) d path t e
  /-- Of what is no default. -/
  | default {inner t : Schema} {value d e : Datum} {path : List Key} : d.isUndefined = false → At inner d path t e →
      At (.default inner value) d path t e
  /-- Of what has been made of it. -/
  | preprocess {f : Datum → Option Datum} {message : JsString} {inner t : Schema} {d v e : Datum} {path : List Key} :
      f d = some v → At inner v path t e → At (.preprocess f message inner) d path t e
  /-- Of one kind of them. -/
  | option {tag : JsString} {options : List (List JsString × Schema)} {own : List (JsString × Datum)} {s t : Schema}
    {e : Datum} {path : List Key} : pickOption options tag (.object own) = some s → At s (.object own) path t e →
      At (.union tag options) (.object own) path t e

/-- A text. -/
def Datum.isString : Datum → Bool
  | .string _ => true
  | _ => false

theorem passes_eq {checks : List Check} {d w : Datum} (hd : d.isString = false) (h : Passes checks d w) : d = w := by
  induction checks with
  | nil => exact h
  | cons c checks ih =>
    have hsame : c.rewrite d = d := by cases d <;> cases c <;> first | rfl | cases hd
    rw [Passes, hsame] at h
    exact ih h.2

/-- An array is accepted element by element. -/
theorem safeParse_array {item : Schema} {l : List Datum} {w : Datum}
    (h : (Schema.array item).safeParse (.array l) = .ok w) :
    ∃ l', w = .array l' ∧ l'.length = l.length ∧
      ∀ (n : ℕ) (d : Datum), l[n]? = some d → ∃ v, l'[n]? = some v ∧ item.safeParse d = .ok v := by
  obtain ⟨hnil, rfl⟩ := safeParse_eq_ok_iff.mp h
  rw [Schema.run] at hnil
  refine ⟨(l.map fun e => item.run e).map Payload.value, rfl, by simp, fun n d hd => ?_⟩
  refine ⟨(item.run d).value, by simp [hd], ?_⟩
  refine safeParse_eq_ok_iff.mpr ⟨List.eq_nil_iff_forall_not_mem.mpr fun j hj => ?_, rfl⟩
  exact List.eq_nil_iff_forall_not_mem.mp hnil _ (mem_ofElements.mpr ⟨_, n, by simp [hd], j, hj, rfl⟩)

/-- **What is wrong with a part is told of**, with its path in front. -/
theorem At.issues (zod : Library) {s t : Schema} {d e : Datum} {path : List Key} (h : At s d path t e) {i : Issue}
    (hi : i ∈ (zod.safeParse t e).issues) : { i with path := path ++ i.path } ∈ (zod.safeParse s d).issues := by
  induction h with
  | here => exact hi
  | field _ hmem _ ih =>
    rw [zod.lawful.object, mem_gather]
    exact ⟨_, List.mem_map_of_mem hmem, _, ih hi, rfl⟩
  | @element item _ l n d _ _ hn _ ih =>
    rw [zod.lawful.array, mem_gather]
    exact ⟨_, List.mem_map_of_mem (List.mk_mem_zipIdx_iff_getElem?.mpr hn), _, ih hi, rfl⟩
  | checked _ ih => exact zod.lawful.checkedIssues _ _ _ (ih hi)
  | optional hd _ ih =>
    rw [zod.lawful.optional, hd]
    exact ih hi
  | default hd _ ih =>
    rw [zod.lawful.default, hd]
    exact ih hi
  | preprocess hf _ ih =>
    rw [zod.lawful.preprocess _ _ _ _ _ hf]
    exact ih hi
  | option hs _ ih =>
    rw [zod.lawful.union _ _ _ _ hs]
    exact ih hi

/-! ### What a schema can say -/

mutual

/-- What a schema can say: nothing of it is part of a value. -/
def Schema.Says : Schema → Issue → Prop
  | .string, i => ∃ kind, i = ⟨[], .invalidType "string" kind, none⟩
  | .number _, i => ∃ kind, i = ⟨[], .invalidType "number" kind, none⟩
  | .boolean, i => ∃ kind, i = ⟨[], .invalidType "boolean" kind, none⟩
  | .enum options, i => i = ⟨[], .invalidValue options, none⟩
  | .record, i => ∃ kind, i = ⟨[], .invalidType "record" kind, none⟩
  | .array item, i => (∃ kind, i = ⟨[], .invalidType "array" kind, none⟩) ∨ ∃ n j, item.Says j ∧ i = j.within (.index n)
  | .object fields _, i => (∃ kind, i = ⟨[], .invalidType "object" kind, none⟩) ∨ fieldsSay fields i
  | .checked inner checks, i => inner.Says i ∨ i ∈ (checks.map Check.vocabulary).flatten
  | .optional inner, i => inner.Says i
  | .default inner _, i => inner.Says i
  | .preprocess _ message inner, i => i = ⟨[], .custom, some message⟩ ∨ inner.Says i
  | .union tag options, i => (∃ kind, i = ⟨[], .invalidType "object" kind, none⟩) ∨
      i = ⟨[.name tag], .invalidUnion, none⟩ ∨ optionsSay options i

/-- What the schemas of the fields can say. -/
def fieldsSay : List (JsString × Schema) → Issue → Prop
  | [], _ => False
  | (key, s) :: fields, i => (∃ j, s.Says j ∧ i = j.within (.name key)) ∨ fieldsSay fields i

/-- What the options can say. -/
def optionsSay : List (List JsString × Schema) → Issue → Prop
  | [], _ => False
  | (_, s) :: options, i => s.Says i ∨ optionsSay options i

end

theorem fieldsSay_iff {fields : List (JsString × Schema)} {i : Issue} :
    fieldsSay fields i ↔ ∃ e ∈ fields, ∃ j, e.2.Says j ∧ i = j.within (.name e.1) := by
  induction fields with
  | nil => simp [fieldsSay]
  | cons e fields ih => rw [fieldsSay, ih, List.exists_mem_cons_iff]

theorem optionsSay_iff {options : List (List JsString × Schema)} {i : Issue} :
    optionsSay options i ↔ ∃ e ∈ options, e.2.Says i := by
  induction options with
  | nil => simp [optionsSay]
  | cons e options ih => rw [optionsSay, ih, List.exists_mem_cons_iff]

theorem says_of_judge {sound : Bool} {d : Datum} {reason : Reason} {i : Issue}
    (h : i ∈ (judge sound d reason).issues) : i = ⟨[], reason, none⟩ := by
  cases sound with
  | true => cases h
  | false => exact List.mem_singleton.mp h

/-- **An issue says one of the things the schema can say**, whatever the value. -/
theorem says_of_issues (zod : Library) {s : Schema} {d : Datum} {i : Issue} (h : i ∈ (zod.safeParse s d).issues) :
    s.Says i := by
  induction s using Schema.induct generalizing d i with
  | string => exact ⟨_, says_of_judge (zod.lawful.string d ▸ h)⟩
  | number coerce =>
    cases coerce with
    | false => exact ⟨_, says_of_judge (zod.lawful.number d ▸ h)⟩
    | true => exact ⟨_, says_of_judge (zod.lawful.number _ ▸ zod.lawful.coerced d ▸ h)⟩
  | boolean => exact ⟨_, says_of_judge (zod.lawful.boolean d ▸ h)⟩
  | enum options => exact says_of_judge (zod.lawful.enum options d ▸ h)
  | record => exact ⟨_, says_of_judge (zod.lawful.record d ▸ h)⟩
  | array item ih =>
    by_cases hd : d.kind = .array
    · obtain ⟨l, rfl⟩ := exists_eq_array hd
      rw [zod.lawful.array, mem_gather] at h
      obtain ⟨_, he, j, hj, rfl⟩ := h
      obtain ⟨e, -, rfl⟩ := List.mem_map.mp he
      exact .inr ⟨e.2, j, ih hj, rfl⟩
    · exact .inl ⟨_, says_of_judge (zod.lawful.noArray item d hd ▸ h)⟩
  | object fields passthrough ih =>
    by_cases hd : d.kind = .object
    · obtain ⟨own, rfl⟩ := exists_eq_object hd
      rw [zod.lawful.object, mem_gather] at h
      obtain ⟨_, he, j, hj, rfl⟩ := h
      obtain ⟨f, hf, rfl⟩ := List.mem_map.mp he
      exact .inr (fieldsSay_iff.mpr ⟨f, hf, j, ih f hf hj, rfl⟩)
    · exact .inl ⟨_, says_of_judge (zod.lawful.noObject fields passthrough d hd ▸ h)⟩
  | checked inner checks ih => exact (List.mem_append.mp (zod.lawful.checkedSays inner checks d h)).imp_left ih
  | optional inner ih =>
    rw [zod.lawful.optional] at h
    split at h
    exacts [absurd h List.not_mem_nil, ih h]
  | default inner value ih =>
    rw [zod.lawful.default] at h
    split at h
    exacts [absurd h List.not_mem_nil, ih h]
  | preprocess f message inner ih =>
    cases hf : f d with
    | none =>
      rw [zod.lawful.unprepared _ _ _ _ hf] at h
      exact .inl (List.mem_singleton.mp h)
    | some v => exact .inr (ih (zod.lawful.preprocess f message inner d v hf ▸ h))
  | union tag options ih =>
    by_cases hd : d.kind = .object
    · obtain ⟨own, rfl⟩ := exists_eq_object hd
      refine .inr ?_
      cases hpick : pickOption options tag (.object own) with
      | none =>
        rw [zod.lawful.noOption _ _ _ hpick] at h
        exact .inl (List.mem_singleton.mp h)
      | some s =>
        obtain ⟨o, ho, -, rfl⟩ := mem_of_pickOption hpick
        exact .inr (optionsSay_iff.mpr ⟨o, ho, ih o ho (zod.lawful.union tag options own _ hpick ▸ h)⟩)
    · exact .inl ⟨_, says_of_judge (zod.lawful.noUnion tag options d hd ▸ h)⟩

end NestDdd.Zod
