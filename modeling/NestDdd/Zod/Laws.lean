import NestDdd.Zod.SafeParse

/-!
# Zod

`safeParse` is not in the repository. `Lawful` says what the program relies on, one law or two for each way to make a
schema, as zod documents them; which issues checks add is left open but for what they can be. `Library` is a `safeParse`
with these laws, and `Schema.safeParse` is one.

## What is proved

* `lawful_safeParse` — `Schema.safeParse` keeps the laws.
* `Library.safeParse_eq_ok_iff` — **the laws say what is accepted**, and what is made of it.
-/

namespace NestDdd.Zod

open NestDdd.Shared NestDdd.Theory

/-! ### What is answered -/

/-- What `safeParse` answers. -/
abbrev Parsed := Except (List Issue) Datum

/-- What is wrong. -/
def Parsed.issues : Parsed → List Issue
  | .ok _ => []
  | .error issues => issues

/-- What has been made of a value that is accepted. -/
def Parsed.value : Parsed → Datum
  | .ok v => v
  | .error _ => .undefined

/-- A value is accepted as it is, or this is wrong with it. -/
def judge (sound : Bool) (d : Datum) (reason : Reason) : Parsed :=
  if sound then .ok d else .error [⟨[], reason, none⟩]

/-- A value is accepted if its parts are; all that is wrong with them is wrong with it, with the part's key in front. -/
def gather (parts : List (Key × Parsed)) (value : Datum) : Parsed :=
  if parts.all fun e => e.2.isOk then .ok value
  else .error (parts.map fun e => (Parsed.issues e.2).map (Issue.within e.1)).flatten

/-- An object of what has been made of the fields of `own`; the rest of it is passed through, or not. -/
def Datum.ofFields (own : List (JsString × Datum)) (passthrough : Bool) (made : List (JsString × Datum)) : Datum :=
  .object ((made.filter fun e => !e.2.isUndefined || (find e.1 own).isSome) ++
    if passthrough then own.filter fun e => !(made.map Prod.fst).contains e.1 else [])

theorem Parsed.isOk_iff {r : Parsed} : r.isOk = true ↔ ∃ v, r = .ok v := by
  cases r <;> simp [Except.isOk, Except.toBool]

theorem gather_eq_ok_iff {parts : List (Key × Parsed)} {value w : Datum} :
    gather parts value = .ok w ↔ (∀ e ∈ parts, ∃ v, e.2 = .ok v) ∧ value = w := by
  simp only [← Parsed.isOk_iff, ← List.all_eq_true, gather]
  split <;> simp [*]

theorem mem_gather {parts : List (Key × Parsed)} {value : Datum} {i : Issue} :
    i ∈ (gather parts value).issues ↔ ∃ e ∈ parts, ∃ j ∈ Parsed.issues e.2, j.within e.1 = i := by
  unfold gather
  split
  · next hall =>
    refine iff_of_false List.not_mem_nil ?_
    rintro ⟨e, he, j, hj, -⟩
    obtain ⟨v, hv⟩ := Parsed.isOk_iff.mp (List.all_eq_true.mp hall e he)
    rw [hv] at hj
    cases hj
  · rw [Parsed.issues, List.mem_flatten]
    constructor
    · rintro ⟨l, hl, hi⟩
      obtain ⟨e, he, rfl⟩ := List.mem_map.mp hl
      exact ⟨e, he, List.mem_map.mp hi⟩
    · rintro ⟨e, he, j, hj, rfl⟩
      exact ⟨_, List.mem_map_of_mem he, List.mem_map_of_mem hj⟩

theorem judge_eq_ok_iff {sound : Bool} {d w : Datum} {reason : Reason} :
    judge sound d reason = .ok w ↔ sound = true ∧ d = w := by
  cases sound <;> simp [judge]

/-! ### The laws -/

/-- What a check can say. -/
def Check.vocabulary : Check → List Issue
  | .int => [⟨[], .invalidType "int" .number, none⟩, ⟨[], .tooBig "int" maxSafeInteger, none⟩,
      ⟨[], .tooSmall "int" (-maxSafeInteger) true, none⟩]
  | .minimum n inclusive => [⟨[], .tooSmall "number" n inclusive, none⟩]
  | .maximum n => [⟨[], .tooBig "number" n, none⟩]
  | .minLength n message => [⟨[], .tooSmall "string" n true, message⟩, ⟨[], .tooSmall "array" n true, message⟩]
  | .regex pattern _ message => [⟨[], .invalidFormat "regex" (some pattern), message⟩]
  | .url _ => [⟨[], .invalidFormat "url" none, none⟩]
  | .refine complaints => complaints.map fun c => ⟨c.path.map .name, .custom, some c.message⟩

/-- **What the program relies on** of `safeParse`. -/
structure Lawful (safeParse : Schema → Datum → Parsed) : Prop where
  /-- `z.string()`. -/
  string : ∀ d, safeParse .string d = judge (d.kind == .string) d (.invalidType "string" d.kind)
  /-- `z.number()`: one that is finite. -/
  number : ∀ d, safeParse (.number false) d = judge (d.kind == .number) d (.invalidType "number" d.kind)
  /-- `z.coerce.number()`. -/
  coerced : ∀ d, safeParse (.number true) d = safeParse (.number false) (.number d.toNumber)
  /-- `z.boolean()`. -/
  boolean : ∀ d, safeParse .boolean d = judge (d.kind == .boolean) d (.invalidType "boolean" d.kind)
  /-- `z.enum(options)`. -/
  enum : ∀ options d, safeParse (.enum options) d = judge (d.isOneOf options) d (.invalidValue options)
  /-- `z.record(z.string(), z.unknown())`. -/
  record : ∀ d, safeParse .record d = judge (d.kind == .object) d (.invalidType "record" d.kind)
  /-- `z.array(item)`, of an array. -/
  array : ∀ item l, safeParse (.array item) (.array l) =
    gather (l.zipIdx.map fun e => (.index e.2, safeParse item e.1)) (.array (l.map fun e => (safeParse item e).value))
  /-- And of anything else. -/
  noArray : ∀ item d, d.kind ≠ .array → safeParse (.array item) d = judge false d (.invalidType "array" d.kind)
  /-- `z.object(fields)`, of an object. -/
  object : ∀ fields passthrough own, safeParse (.object fields passthrough) (.object own) =
    gather (fields.map fun e => (.name e.1, safeParse e.2 ((Datum.object own).get e.1)))
      (.ofFields own passthrough (fields.map fun e => (e.1, (safeParse e.2 ((Datum.object own).get e.1)).value)))
  /-- And of anything else. -/
  noObject : ∀ fields passthrough d, d.kind ≠ .object →
    safeParse (.object fields passthrough) d = judge false d (.invalidType "object" d.kind)
  /-- Checks run one after the other, on what has been accepted before. -/
  checked : ∀ inner checks d w, safeParse (.checked inner checks) d = .ok w ↔
    ∃ v, safeParse inner d = .ok v ∧ Passes checks v w
  /-- What is wrong without them is wrong with them. -/
  checkedIssues : ∀ inner checks d, (safeParse inner d).issues ⊆ (safeParse (.checked inner checks) d).issues
  /-- What else is wrong is what a check can say. -/
  checkedSays : ∀ inner checks d, (safeParse (.checked inner checks) d).issues ⊆
    (safeParse inner d).issues ++ (checks.map Check.vocabulary).flatten
  /-- `.optional()`, behind what takes `undefined` itself, or what does not. -/
  optional : ∀ inner d, safeParse (.optional inner) d =
    if d.isUndefined then .ok (if inner.optin then (safeParse inner d).value else d) else safeParse inner d
  /-- `.default(value)`, which is not looked at. -/
  default : ∀ inner value d, safeParse (.default inner value) d = if d.isUndefined then .ok value else safeParse inner d
  /-- `z.preprocess(f, inner)`. -/
  preprocess : ∀ f message inner d v, f d = some v → safeParse (.preprocess f message inner) d = safeParse inner v
  /-- Where `f` adds its issue. -/
  unprepared : ∀ f message inner d, f d = none →
    safeParse (.preprocess f message inner) d = .error [⟨[], .custom, some message⟩]
  /-- `z.discriminatedUnion(tag, options)`, with the tag of an option. -/
  union : ∀ tag options own s, pickOption options tag (.object own) = some s →
    safeParse (.union tag options) (.object own) = safeParse s (.object own)
  /-- With the tag of none. -/
  noOption : ∀ tag options own, pickOption options tag (.object own) = none →
    safeParse (.union tag options) (.object own) = .error [⟨[.name tag], .invalidUnion, none⟩]
  /-- And of anything but an object. -/
  noUnion : ∀ tag options d, d.kind ≠ .object →
    safeParse (.union tag options) d = judge false d (.invalidType "object" d.kind)

/-- Zod, as the program knows it. -/
structure Library where
  /-- `schema.safeParse(value)`. -/
  safeParse : Schema → Datum → Parsed
  /-- The laws it keeps. -/
  lawful : Lawful safeParse

/-! ### One that keeps them -/

theorem issues_safeParse (s : Schema) (d : Datum) : Parsed.issues (s.safeParse d) = (s.run d).issues := by
  unfold Schema.safeParse
  simp only
  split
  · next h => exact (List.isEmpty_iff.mp h).symm
  · rfl

theorem mem_of_mem_ite {α : Type} {p : Prop} [Decidable p] {x y : α} (h : x ∈ if p then [] else [y]) : x = y := by
  split at h
  exacts [absurd h List.not_mem_nil, List.mem_singleton.mp h]

/-- A check says what it can say. -/
theorem Check.mem_vocabulary {c : Check} {d : Datum} {i : Issue} (h : i ∈ c.issues d) : i ∈ c.vocabulary := by
  unfold Check.issues at h
  split at h
  · unfold intIssues at h
    split_ifs at h <;> simp_all [Check.vocabulary]
  · exact List.mem_singleton.mpr (mem_of_mem_ite h)
  · exact List.mem_singleton.mpr (mem_of_mem_ite h)
  · exact List.mem_cons.mpr (.inl (mem_of_mem_ite h))
  · exact List.mem_cons_of_mem _ (List.mem_singleton.mpr (mem_of_mem_ite h))
  · exact List.mem_singleton.mpr (mem_of_mem_ite h)
  · exact List.mem_singleton.mpr (mem_of_mem_ite h)
  · obtain ⟨c, hc, rfl⟩ := List.mem_map.mp h
    exact List.mem_map_of_mem (List.mem_of_mem_filter hc)
  · cases h

theorem issues_subset_foldl {p : Payload} {checks : List Check} : p.issues ⊆ (checks.foldl Check.apply p).issues := by
  induction checks generalizing p with
  | nil => exact List.Subset.refl _
  | cons c checks ih =>
    refine List.Subset.trans ?_ ih
    unfold Check.apply
    split
    exacts [List.Subset.refl _, List.subset_append_left _ _]

theorem mem_foldl_apply {p : Payload} {checks : List Check} {i : Issue}
    (h : i ∈ (checks.foldl Check.apply p).issues) : i ∈ p.issues ∨ i ∈ (checks.map Check.vocabulary).flatten := by
  induction checks generalizing p with
  | nil => exact .inl h
  | cons c checks ih =>
    rw [List.map_cons, List.flatten_cons, List.mem_append]
    rcases ih h with hi | hi
    · unfold Check.apply at hi
      split at hi
      · exact .inl hi
      · exact (List.mem_append.mp hi).imp_right fun hi => .inl (Check.mem_vocabulary hi)
    · exact .inr (.inr hi)

/-- What has been made of the fields of an object. -/
theorem value_ofFields (own : List (JsString × Datum)) (passthrough : Bool) (l : List (JsString × Payload)) :
    (Payload.ofFields own passthrough l).value = .ofFields own passthrough (l.map fun e => (e.1, e.2.value)) := by
  rw [Payload.ofFields, Datum.ofFields, List.filter_map, List.map_map]
  rfl

theorem value_safeParse {s : Schema} {d : Datum} (h : (s.run d).issues = []) :
    Parsed.value (s.safeParse d) = (s.run d).value := by
  rw [safeParse_eq_ok_iff.mpr ⟨h, rfl⟩]
  rfl

theorem isOk_safeParse (s : Schema) (d : Datum) : (s.safeParse d).isOk = (s.run d).issues.isEmpty := by
  unfold Schema.safeParse
  simp only
  split
  · next h => exact h.symm
  · next h => exact (Bool.eq_false_iff.mpr h).symm

/-- A schema that gathers what is wrong with parts of a value. -/
theorem safeParse_eq_gather {s : Schema} {d value : Datum} {parts : List (Key × Schema × Datum)}
    (hissues : (s.run d).issues = (parts.map fun e => (e.2.1.run e.2.2).issues.map (Issue.within e.1)).flatten)
    (hvalue : (∀ e ∈ parts, (e.2.1.run e.2.2).issues = []) → (s.run d).value = value) :
    s.safeParse d = gather (parts.map fun e => (e.1, e.2.1.safeParse e.2.2)) value := by
  have hnil : (s.run d).issues = [] ↔ ∀ e ∈ parts, (e.2.1.run e.2.2).issues = [] := by
    rw [hissues, List.flatten_eq_nil_iff, List.forall_mem_map]
    simp only [List.map_eq_nil_iff]
  by_cases hall : ∀ e ∈ parts, (e.2.1.run e.2.2).issues = []
  · rw [safeParse_eq_ok_iff.mpr ⟨hnil.mpr hall, hvalue hall⟩, eq_comm, gather_eq_ok_iff]
    refine ⟨List.forall_mem_map.mpr fun e he => ⟨_, safeParse_eq_ok_iff.mpr ⟨hall e he, rfl⟩⟩, rfl⟩
  · have hparts : ¬ (parts.map fun e => (e.1, e.2.1.safeParse e.2.2)).all (fun e => e.2.isOk) = true := by
      rw [List.all_eq_true, List.forall_mem_map]
      intro hok
      exact hall fun e he => List.isEmpty_iff.mp ((isOk_safeParse e.2.1 e.2.2).symm.trans (hok e he))
    rw [gather, if_neg hparts, safeParse_eq_error_iff]
    refine ⟨?_, fun h => hall (hnil.mp ?_)⟩
    · rw [hissues, List.map_map]
      simp only [Function.comp_def, issues_safeParse]
    · rw [hissues, ← h, List.map_map]
      simp only [Function.comp_def, issues_safeParse]

/-- **`Schema.safeParse` keeps the laws.** -/
theorem lawful_safeParse : Lawful Schema.safeParse where
  string d := by
    cases d with
    | number x => cases x <;> rfl
    | _ => rfl
  number d := by
    cases d with
    | number x => cases x <;> rfl
    | _ => rfl
  coerced d := by
    rw [Schema.safeParse, Schema.safeParse, Schema.run, Schema.run]
    rfl
  boolean d := by
    cases d with
    | number x => cases x <;> rfl
    | _ => rfl
  enum options d := by
    rw [Schema.safeParse, Schema.run, judge]
    split <;> rfl
  record d := by
    cases d with
    | number x => cases x <;> rfl
    | _ => rfl
  array item l := by
    have hgather := @safeParse_eq_gather (.array item) (.array l)
      (.array (l.map fun e => Parsed.value (item.safeParse e)))
      (l.zipIdx.map fun e => (.index e.2, item, e.1)) ?_ ?_
    · rw [hgather, List.map_map]
      rfl
    · simp only [Schema.run, Payload.ofElements, List.zipIdx_map, List.map_map, Function.comp_def, Prod.map, id]
    · intro hall
      rw [List.forall_mem_map] at hall
      rw [Schema.run, Payload.ofElements, List.map_map]
      refine congrArg Datum.array (List.map_congr_left fun e he => ?_)
      obtain ⟨n, hn⟩ := List.mem_iff_getElem?.mp he
      exact (value_safeParse (hall (e, n) (List.mk_mem_zipIdx_iff_getElem?.mpr hn))).symm
  noArray item d h := by
    cases d with
    | array l => exact absurd rfl h
    | _ => rfl
  object fields passthrough own := by
    have hgather := @safeParse_eq_gather (.object fields passthrough) (.object own)
      (.ofFields own passthrough (fields.map fun e => (e.1, Parsed.value (e.2.safeParse ((Datum.object own).get e.1)))))
      (fields.map fun e => (.name e.1, e.2, (Datum.object own).get e.1)) ?_ ?_
    · rw [hgather, List.map_map]
      rfl
    · simp only [Schema.run, runFields_eq, Payload.ofFields, List.map_map, Function.comp_def]
    · intro hall
      rw [List.forall_mem_map] at hall
      rw [Schema.run, runFields_eq, value_ofFields, List.map_map]
      refine congrArg (Datum.ofFields own passthrough) (List.map_congr_left fun e he => ?_)
      exact congrArg (Prod.mk e.1) (value_safeParse (hall e he)).symm
  noObject fields passthrough d h := by
    cases d with
    | object l => exact absurd rfl h
    | _ => rfl
  checked _ _ _ _ := safeParse_checked_iff
  checkedIssues inner checks d := by
    rw [issues_safeParse, issues_safeParse, Schema.run]
    exact issues_subset_foldl
  checkedSays inner checks d := by
    rw [issues_safeParse, issues_safeParse, Schema.run]
    exact fun i hi => List.mem_append.mpr (mem_foldl_apply hi)
  optional inner d := by
    have hvalue : Parsed.value (inner.safeParse d) =
        if (inner.run d).issues.isEmpty then (inner.run d).value else .undefined := by
      rw [Schema.safeParse]
      split <;> rfl
    rw [hvalue, Schema.safeParse, Schema.run]
    split
    · next hd =>
      have hundefined : d = .undefined := by cases d <;> first | rfl | cases hd
      cases inner.optin <;> cases (inner.run d).issues.isEmpty <;> simp [Payload.ok, hundefined]
    · rfl
  default inner value d := by
    rw [Schema.safeParse, Schema.run]
    split <;> rfl
  preprocess f message inner d v h := by
    rw [Schema.safeParse, Schema.run, h]
    rfl
  unprepared f message inner d h := by
    rw [Schema.safeParse, Schema.run, h]
    rfl
  union tag options own s h := by
    rw [Schema.safeParse, Schema.run, runOption_of_some h]
    rfl
  noOption tag options own h := by
    rw [Schema.safeParse, Schema.run, runOption_of_none h]
    rfl
  noUnion tag options d h := by
    cases d with
    | object l => exact absurd rfl h
    | _ => rfl

theorem safeParse_preprocess {f : Datum → Option Datum} {message : JsString} {inner : Schema} {d v : Datum}
    (hf : f d = some v) : (Schema.preprocess f message inner).safeParse d = inner.safeParse v :=
  lawful_safeParse.preprocess _ _ _ _ _ hf

theorem safeParse_union {tag : JsString} {options : List (List JsString × Schema)} {own : List (JsString × Datum)}
    {s : Schema} (hs : pickOption options tag (.object own) = some s) :
    (Schema.union tag options).safeParse (.object own) = s.safeParse (.object own) :=
  lawful_safeParse.union _ _ _ _ hs

theorem safeParse_optional {inner : Schema} {d : Datum} (hd : d.isUndefined = false) :
    (Schema.optional inner).safeParse d = inner.safeParse d := by
  rw [lawful_safeParse.optional, hd]
  rfl

theorem safeParse_default {inner : Schema} {value d : Datum} (hd : d.isUndefined = false) :
    (Schema.default inner value).safeParse d = inner.safeParse d := by
  rw [lawful_safeParse.default, hd]
  rfl

/-! ### What they say -/

theorem exists_eq_array {d : Datum} (h : d.kind = .array) : ∃ l, d = .array l := by
  cases d with
  | number x => cases x <;> cases h
  | array l => exact ⟨l, rfl⟩
  | _ => cases h

theorem exists_eq_object {d : Datum} (h : d.kind = .object) : ∃ own, d = .object own := by
  cases d with
  | number x => cases x <;> cases h
  | object own => exact ⟨own, rfl⟩
  | _ => cases h

theorem Parsed.value_congr {r r' : Parsed} (h : ∀ v, r = .ok v ↔ r' = .ok v) : r.value = r'.value := by
  cases r with
  | ok v => rw [(h v).mp rfl]
  | error issues =>
    cases r' with
    | ok v => cases (h v).mpr rfl
    | error issues' => rfl

/-- What one accepts the other accepts. -/
theorem Lawful.ok_of_ok {p q : Schema → Datum → Parsed} (hp : Lawful p) (hq : Lawful q) {s : Schema} {d w : Datum}
    (h : p s d = .ok w) : q s d = .ok w := by
  -- the induction is on the schema, for both directions at once: `.optional()` looks at what is rejected, too
  have hreject {d w : Datum} {reason : Reason} (h : judge false d reason = .ok w) : False :=
    absurd (judge_eq_ok_iff.mp h).1 Bool.false_ne_true
  induction s using Schema.induct generalizing p q d w with
  | string => rwa [hq.string, ← hp.string]
  | number coerce =>
    cases coerce with
    | false => rwa [hq.number, ← hp.number]
    | true => rwa [hq.coerced, hq.number, ← hp.number, ← hp.coerced]
  | boolean => rwa [hq.boolean, ← hp.boolean]
  | enum options => rwa [hq.enum, ← hp.enum]
  | record => rwa [hq.record, ← hp.record]
  | array item ih =>
    by_cases hd : d.kind = .array
    · obtain ⟨l, rfl⟩ := exists_eq_array hd
      rw [hp.array, gather_eq_ok_iff, List.forall_mem_map] at h
      obtain ⟨hall, rfl⟩ := h
      have hsame (e : Datum) (he : e ∈ l) : q item e = p item e := by
        obtain ⟨n, hn⟩ := List.mem_iff_getElem?.mp he
        obtain ⟨v, hv⟩ := hall (e, n) (List.mk_mem_zipIdx_iff_getElem?.mpr hn)
        exact (ih hp hq hv).trans hv.symm
      rw [hq.array, gather_eq_ok_iff, List.forall_mem_map]
      refine ⟨fun e he => ?_, congrArg Datum.array (List.map_congr_left fun e he => by rw [hsame e he])⟩
      rw [hsame e.1 (List.mem_of_getElem? (List.mem_zipIdx_iff_getElem?.mp he))]
      exact hall e he
    · exact absurd (hp.noArray _ _ hd ▸ h) hreject
  | object fields passthrough ih =>
    by_cases hd : d.kind = .object
    · obtain ⟨own, rfl⟩ := exists_eq_object hd
      rw [hp.object, gather_eq_ok_iff, List.forall_mem_map] at h
      obtain ⟨hall, rfl⟩ := h
      have hsame (e : JsString × Schema) (he : e ∈ fields) :
          q e.2 ((Datum.object own).get e.1) = p e.2 ((Datum.object own).get e.1) := by
        obtain ⟨v, hv⟩ := hall e he
        exact (ih e he hp hq hv).trans hv.symm
      rw [hq.object, gather_eq_ok_iff, List.forall_mem_map]
      refine ⟨fun e he => ?_, congrArg (Datum.ofFields own passthrough) (List.map_congr_left fun e he => ?_)⟩
      · rw [hsame e he]
        exact hall e he
      · rw [hsame e he]
    · exact absurd (hp.noObject _ _ _ hd ▸ h) hreject
  | checked inner checks ih =>
    obtain ⟨v, hv, hpasses⟩ := (hp.checked _ _ _ _).mp h
    exact (hq.checked _ _ _ _).mpr ⟨v, ih hp hq hv, hpasses⟩
  | optional inner ih =>
    have hsame : (p inner d).value = (q inner d).value := Parsed.value_congr fun v => ⟨ih hp hq, ih hq hp⟩
    rw [hp.optional, hsame] at h
    rw [hq.optional]
    split at h
    · next hd => rwa [if_pos hd]
    · next hd =>
      rw [if_neg hd]
      exact ih hp hq h
  | default inner value ih =>
    rw [hp.default] at h
    rw [hq.default]
    split at h
    · next hd => rwa [if_pos hd]
    · next hd =>
      rw [if_neg hd]
      exact ih hp hq h
  | preprocess f message inner ih =>
    cases hf : f d with
    | none =>
      rw [hp.unprepared _ _ _ _ hf] at h
      cases h
    | some v =>
      rw [hp.preprocess _ _ _ _ _ hf] at h
      rw [hq.preprocess _ _ _ _ _ hf]
      exact ih hp hq h
  | union tag options ih =>
    by_cases hd : d.kind = .object
    · obtain ⟨own, rfl⟩ := exists_eq_object hd
      cases hpick : pickOption options tag (.object own) with
      | none =>
        rw [hp.noOption _ _ _ hpick] at h
        cases h
      | some s =>
        obtain ⟨o, ho, -, rfl⟩ := mem_of_pickOption hpick
        rw [hp.union _ _ _ _ hpick] at h
        rw [hq.union _ _ _ _ hpick]
        exact ih o ho hp hq h
    · exact absurd (hp.noUnion _ _ _ hd ▸ h) hreject

namespace Library

/-- The one of `Schema.safeParse`. -/
def reference : Library := ⟨Schema.safeParse, lawful_safeParse⟩

variable (zod : Library)

/-- **The laws say what is accepted**, and what is made of it. -/
theorem safeParse_eq_ok_iff {s : Schema} {d w : Datum} : zod.safeParse s d = .ok w ↔ s.safeParse d = .ok w :=
  ⟨zod.lawful.ok_of_ok lawful_safeParse, lawful_safeParse.ok_of_ok zod.lawful⟩

end Library

end NestDdd.Zod
