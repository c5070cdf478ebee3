import Mathlib.Data.List.DropRight
import NestDdd.Zod.Issues

/-!
# What is accepted again

A schema is settled if what it accepts is accepted again, as it is. Its defaults must pass the checks that are behind
it for that, which `safeParse` does not ask of them, and what it makes of a value must be stable.

## What is proved

One rule for each way to make a schema: `settled_array`, `settled_object`, `settled_checked`, `settled_url`,
`settled_optional`, `settled_default`, `settled_preprocess`, `settled_union`.
-/

namespace NestDdd.Zod

open NestDdd.Shared NestDdd.Theory

/-- **What the schema accepts it accepts again**, as it is. -/
def Schema.Settled (s : Schema) : Prop := ∀ d w : Datum, s.safeParse d = .ok w → s.safeParse w = .ok w

/-- The schema makes something of what it accepts. -/
def Schema.Present (s : Schema) : Prop := ∀ d w : Datum, s.safeParse d = .ok w → w.isUndefined = false

/-! ### Simple schemas -/

/-- A string is accepted as it is. -/
theorem safeParse_string {d w : Datum} (h : Schema.string.safeParse d = .ok w) : d = w ∧ ∃ s, w = .string s := by
  obtain ⟨hnil, rfl⟩ := safeParse_eq_ok_iff.mp h
  cases d with
  | string s => exact ⟨rfl, s, rfl⟩
  | _ => cases hnil

theorem safeParse_boolean {d w : Datum} (h : Schema.boolean.safeParse d = .ok w) : d = w ∧ ∃ b, w = .bool b := by
  obtain ⟨hnil, rfl⟩ := safeParse_eq_ok_iff.mp h
  cases d with
  | bool b => exact ⟨rfl, b, rfl⟩
  | _ => cases hnil

theorem safeParse_record {d w : Datum} (h : Schema.record.safeParse d = .ok w) : d = w ∧ ∃ l, w = .object l := by
  obtain ⟨hnil, rfl⟩ := safeParse_eq_ok_iff.mp h
  cases d with
  | object l => exact ⟨rfl, l, rfl⟩
  | _ => cases hnil

theorem safeParse_enum {options : List JsString} {d w : Datum} :
    (Schema.enum options).safeParse d = .ok w ↔ d = w ∧ w.isOneOf options = true := by
  rw [safeParse_eq_ok_iff, Schema.run]
  split
  · next h => exact ⟨fun hw => ⟨hw.2, hw.2 ▸ h⟩, fun hw => ⟨rfl, hw.1⟩⟩
  · next h => exact ⟨fun hw => absurd hw.1 (List.cons_ne_nil _ _), fun hw => absurd hw.2 (hw.1 ▸ h)⟩

/-- A number that is accepted is finite. -/
theorem safeParse_number {coerce : Bool} {d w : Datum} (h : (Schema.number coerce).safeParse d = .ok w) :
    ∃ q, w = .number (.finite q) ∧ (if coerce then .number d.toNumber else d) = w := by
  obtain ⟨hnil, rfl⟩ := safeParse_eq_ok_iff.mp h
  unfold Schema.run at hnil ⊢
  simp only at hnil ⊢
  split
  · next d' q hd => exact ⟨q, hd, rfl⟩
  · next hnot =>
    split at hnil
    · next q hd => exact absurd hd (hnot q)
    · cases hnil

theorem settled_string : Schema.string.Settled := by
  intro d w h
  obtain ⟨-, s, rfl⟩ := safeParse_string h
  rfl

theorem settled_boolean : Schema.boolean.Settled := by
  intro d w h
  obtain ⟨-, b, rfl⟩ := safeParse_boolean h
  rfl

theorem settled_record : Schema.record.Settled := by
  intro d w h
  obtain ⟨-, l, rfl⟩ := safeParse_record h
  rfl

theorem settled_enum (options : List JsString) : (Schema.enum options).Settled :=
  fun _ _ h => safeParse_enum.mpr ⟨rfl, (safeParse_enum.mp h).2⟩

theorem settled_number (coerce : Bool) : (Schema.number coerce).Settled := by
  intro d w h
  obtain ⟨q, rfl, -⟩ := safeParse_number h
  cases coerce <;> rfl

theorem present_string : Schema.string.Present := by
  intro d w h
  obtain ⟨-, s, rfl⟩ := safeParse_string h
  rfl

theorem present_boolean : Schema.boolean.Present := by
  intro d w h
  obtain ⟨-, b, rfl⟩ := safeParse_boolean h
  rfl

theorem present_number (coerce : Bool) : (Schema.number coerce).Present := by
  intro d w h
  obtain ⟨q, rfl, -⟩ := safeParse_number h
  rfl

theorem present_enum (options : List JsString) : (Schema.enum options).Present := by
  intro d w h
  obtain ⟨-, hoption⟩ := safeParse_enum.mp h
  cases w <;> first | rfl | cases hoption

/-! ### Schemas of schemas -/

theorem settled_optional {inner : Schema} (h : inner.Settled) (hin : inner.optin = false) :
    (Schema.optional inner).Settled := by
  intro d w hok
  cases hw : w.isUndefined with
  | true =>
    rw [lawful_safeParse.optional, hw, hin]
    rfl
  | false =>
    rw [safeParse_optional hw]
    cases hd : d.isUndefined with
    | true =>
      rw [lawful_safeParse.optional, hd, hin] at hok
      obtain rfl := Except.ok.inj hok
      exact absurd (hd.symm.trans hw) Bool.false_ne_true.symm
    | false => exact h _ _ (safeParse_optional hd ▸ hok)

/-- A default that passes what is behind it. -/
theorem settled_default {inner : Schema} {value : Datum} (h : inner.Settled) (hpresent : inner.Present)
    (hvalue : inner.safeParse value = .ok value) : (Schema.default inner value).Settled := by
  intro d w hok
  have hboth : w.isUndefined = false ∧ inner.safeParse w = .ok w := by
    cases hd : d.isUndefined with
    | true =>
      obtain ⟨-, heq⟩ := safeParse_eq_ok_iff.mp hok
      rw [Schema.run, hd] at heq
      obtain rfl := heq
      exact ⟨hpresent _ _ hvalue, hvalue⟩
    | false =>
      rw [safeParse_default hd] at hok
      exact ⟨hpresent _ _ hok, h _ _ hok⟩
  rw [safeParse_default hboth.1]
  exact hboth.2

/-- A check that leaves a value as it is. -/
def Check.Keeps (c : Check) : Prop := ∀ d, c.rewrite d = d

/-- Any check does but that of a URL. -/
def Check.keeps : Check → Bool
  | .url _ => false
  | _ => true

theorem keeps_of_all {checks : List Check} (h : checks.all Check.keeps = true) : ∀ c ∈ checks, c.Keeps := by
  intro c hc d
  have hkeeps := List.all_eq_true.mp h c hc
  cases c <;> first | rfl | cases hkeeps

theorem passes_iff_of_keeps {checks : List Check} (hkeeps : ∀ c ∈ checks, c.Keeps) {d w : Datum} :
    Passes checks d w ↔ d = w ∧ ∀ c ∈ checks, c.issues d = [] := by
  induction checks with
  | nil => simp [Passes]
  | cons c checks ih =>
    rw [Passes, hkeeps c List.mem_cons_self, ih fun c hc => hkeeps c (List.mem_cons_of_mem _ hc), List.forall_mem_cons]
    exact and_left_comm

/-- Checks that leave values as they are ask of them only what they ask. -/
theorem safeParse_kept_iff {inner : Schema} {checks : List Check} (hkeeps : ∀ c ∈ checks, c.Keeps) {d w : Datum} :
    (Schema.checked inner checks).safeParse d = .ok w ↔ inner.safeParse d = .ok w ∧ ∀ c ∈ checks, c.issues w = [] := by
  rw [safeParse_checked_iff]
  constructor
  · rintro ⟨v, hv, hpasses⟩
    obtain ⟨rfl, hissues⟩ := (passes_iff_of_keeps hkeeps).mp hpasses
    exact ⟨hv, hissues⟩
  · rintro ⟨hw, hissues⟩
    exact ⟨w, hw, (passes_iff_of_keeps hkeeps).mpr ⟨rfl, hissues⟩⟩

theorem settled_checked {inner : Schema} {checks : List Check} (h : inner.Settled) (hkeeps : ∀ c ∈ checks, c.Keeps) :
    (Schema.checked inner checks).Settled := by
  intro d w hok
  obtain ⟨hw, hissues⟩ := (safeParse_kept_iff hkeeps).mp hok
  exact (safeParse_kept_iff hkeeps).mpr ⟨h _ _ hw, hissues⟩

theorem present_checked {inner : Schema} {checks : List Check} (h : inner.Present) (hkeeps : ∀ c ∈ checks, c.Keeps) :
    (Schema.checked inner checks).Present := by
  intro d w hok
  exact h _ _ ((safeParse_kept_iff hkeeps).mp hok).1

theorem safeParse_array_self {item : Schema} {l : List Datum} (h : ∀ v ∈ l, item.safeParse v = .ok v) :
    (Schema.array item).safeParse (.array l) = .ok (.array l) := by
  rw [safeParse_eq_ok_iff, Schema.run]
  constructor
  · refine List.eq_nil_iff_forall_not_mem.mpr fun i hi => ?_
    obtain ⟨p, n, hp, j, hj, -⟩ := mem_ofElements.mp hi
    obtain ⟨v, hv, rfl⟩ := List.mem_map.mp (List.mem_of_getElem? hp)
    rw [(safeParse_eq_ok_iff.mp (h v hv)).1] at hj
    cases hj
  · have hvalues : (l.map fun e => item.run e).map Payload.value = l := by
      rw [List.map_map]
      exact (List.map_congr_left fun v hv => (safeParse_eq_ok_iff.mp (h v hv)).2).trans (List.map_id l)
    exact congrArg Datum.array hvalues

theorem exists_of_safeParse_array {item : Schema} {d w : Datum} (h : (Schema.array item).safeParse d = .ok w) :
    ∃ l, d = .array l := by
  obtain ⟨hnil, -⟩ := safeParse_eq_ok_iff.mp h
  cases d with
  | array l => exact ⟨l, rfl⟩
  | _ => cases hnil

theorem settled_array {item : Schema} (h : item.Settled) : (Schema.array item).Settled := by
  intro d w hok
  obtain ⟨l, rfl⟩ := exists_of_safeParse_array hok
  obtain ⟨l', rfl, hlength, helements⟩ := safeParse_array hok
  refine safeParse_array_self fun v hv => ?_
  obtain ⟨n, hn⟩ := List.mem_iff_getElem?.mp hv
  have hlt : n < l.length := hlength ▸ (List.getElem?_eq_some_iff.mp hn).1
  obtain ⟨v', hv', hitem⟩ := helements n l[n] (List.getElem?_eq_getElem hlt)
  obtain rfl := Option.some.inj (hv'.symm.trans hn)
  exact h _ _ hitem

theorem present_array (item : Schema) : (Schema.array item).Present := by
  intro d w hok
  obtain ⟨l, rfl⟩ := exists_of_safeParse_array hok
  obtain ⟨l', rfl, -⟩ := safeParse_array hok
  rfl

/-- What is made of the fields, and what is passed through. -/
theorem value_ofFields_map (fields : List (JsString × Schema)) (own : List (JsString × Datum)) (passthrough : Bool)
    (p : JsString × Schema → Payload) :
    (Payload.ofFields own passthrough (fields.map fun e => (e.1, p e))).value = .object
      ((fields.filter fun e => !(p e).value.isUndefined || (find e.1 own).isSome).map (fun e => (e.1, (p e).value)) ++
        if passthrough then own.filter fun x => !(fields.map Prod.fst).contains x.1 else []) := by
  have hkeys : (fields.map fun e => (e.1, p e)).map Prod.fst = fields.map Prod.fst := by
    rw [List.map_map]
    rfl
  simp only [Payload.ofFields, hkeys, List.filter_map, List.map_map]
  rfl

/-- **What has been made of an object is made again** of what it is. -/
theorem value_ofFields_again {fields : List (JsString × Schema)} {own own' : List (JsString × Datum)}
    {passthrough : Bool} {p q : JsString × Schema → Payload} (hnodup : (fields.map Prod.fst).Nodup)
    (h : (Payload.ofFields own passthrough (fields.map fun e => (e.1, p e))).value = .object own')
    (hsame : ∀ e ∈ fields, (q e).value = (p e).value) :
    (Payload.ofFields own' passthrough (fields.map fun e => (e.1, q e))).value = .object own' := by
  rw [value_ofFields_map, Datum.object.injEq] at h
  have hrest (x : JsString × Datum)
      (hx : x ∈ if passthrough then own.filter fun x => !(fields.map Prod.fst).contains x.1 else []) :
      x.1 ∉ fields.map Prod.fst := by
    split at hx
    exacts [not_contains_iff.mp (List.mem_filter.mp hx).2, absurd hx List.not_mem_nil]
  have hkept (e : JsString × Schema) (he : e ∈ fields) : (!(q e).value.isUndefined || (find e.1 own').isSome) =
      (!(p e).value.isUndefined || (find e.1 own).isSome) := by
    rw [hsame e he]
    cases hundefined : (p e).value.isUndefined with
    | false => rfl
    | true =>
      rw [Bool.not_true, Bool.false_or, Bool.false_or, Bool.eq_iff_iff, isSome_find, isSome_find, ← h,
        List.map_append, List.mem_append]
      constructor
      · rintro (hin | hin)
        · obtain ⟨x, hx, hkey⟩ := List.mem_map.mp hin
          obtain ⟨f, hf, rfl⟩ := List.mem_map.mp hx
          obtain ⟨hfmem, hkeep⟩ := List.mem_filter.mp hf
          obtain rfl := List.inj_on_of_nodup_map hnodup hfmem he hkey
          rw [hundefined, Bool.not_true, Bool.false_or] at hkeep
          exact isSome_find.mp hkeep
        · obtain ⟨x, hx, hkey⟩ := List.mem_map.mp hin
          exact absurd (hkey ▸ List.mem_map_of_mem he) (hrest x hx)
      · intro hin
        have hkeep : (!(p e).value.isUndefined || (find e.1 own).isSome) = true := by
          rw [hundefined, Bool.not_true, Bool.false_or]
          exact isSome_find.mpr hin
        exact .inl (List.mem_map.mpr ⟨_, List.mem_map.mpr ⟨e, List.mem_filter.mpr ⟨he, hkeep⟩, rfl⟩, rfl⟩)
  rw [value_ofFields_map, Datum.object.injEq]
  refine Eq.trans (congrArg₂ (· ++ ·) ?_ ?_) h
  · rw [List.filter_congr hkept]
    exact List.map_congr_left fun e he => by rw [hsame e (List.mem_of_mem_filter he)]
  · cases passthrough with
    | false => rfl
    | true =>
      rw [if_pos rfl, ← h, List.filter_append, if_pos rfl, List.filter_filter]
      have hnone : ((fields.filter fun e => !(p e).value.isUndefined || (find e.1 own).isSome).map
          fun e => (e.1, (p e).value)).filter (fun x => !(fields.map Prod.fst).contains x.1) = [] := by
        refine List.filter_eq_nil_iff.mpr fun x hx => ?_
        obtain ⟨e, he, rfl⟩ := List.mem_map.mp hx
        intro hnot
        exact not_contains_iff.mp hnot (List.mem_map_of_mem (List.mem_of_mem_filter he))
      rw [hnone, List.nil_append]
      simp only [Bool.and_self]

theorem present_object (fields : List (JsString × Schema)) (passthrough : Bool) :
    (Schema.object fields passthrough).Present := by
  intro d w hok
  obtain ⟨hnil, rfl⟩ := safeParse_eq_ok_iff.mp hok
  cases d with
  | object l => rfl
  | _ => cases hnil

/-- **An object whose fields are settled** is. -/
theorem settled_object {fields : List (JsString × Schema)} {passthrough : Bool} (hnodup : (fields.map Prod.fst).Nodup)
    (h : ∀ e ∈ fields, e.2.Settled) : (Schema.object fields passthrough).Settled := by
  intro d w hok
  obtain ⟨hd, hw, hfields⟩ := safeParse_object hnodup hok
  obtain ⟨own, rfl⟩ := isRecord_iff.mp hd
  obtain ⟨own', rfl⟩ := isRecord_iff.mp hw
  have hagain (e : JsString × Schema) (he : e ∈ fields) :
      (e.2.run ((Datum.object own').get e.1)).issues = [] ∧
        (e.2.run ((Datum.object own').get e.1)).value = (e.2.run ((Datum.object own).get e.1)).value := by
    obtain ⟨hnil, hvalue⟩ := safeParse_eq_ok_iff.mp (h e he _ _ (hfields e he))
    exact ⟨hnil, hvalue.trans (safeParse_eq_ok_iff.mp (hfields e he)).2.symm⟩
  have hfirst := (safeParse_eq_ok_iff.mp hok).2
  rw [Schema.run, runFields_eq] at hfirst
  rw [safeParse_eq_ok_iff, Schema.run, runFields_eq]
  refine ⟨?_, value_ofFields_again hnodup hfirst fun e he => (hagain e he).2⟩
  refine List.eq_nil_iff_forall_not_mem.mpr fun i hi => ?_
  obtain ⟨e, he, j, hj, -⟩ := mem_ofFields.mp hi
  obtain ⟨f, hf, rfl⟩ := List.mem_map.mp he
  rw [(hagain f hf).1] at hj
  cases hj

/-- **What has been trimmed is trimmed.** -/
theorem trim_trim (s : JsString) : JsString.trim (JsString.trim s) = JsString.trim s := by
  show (((s.dropWhile JsString.isSpace).rdropWhile JsString.isSpace).dropWhile JsString.isSpace).rdropWhile
    JsString.isSpace = (s.dropWhile JsString.isSpace).rdropWhile JsString.isSpace
  have hfront : ((s.dropWhile JsString.isSpace).rdropWhile JsString.isSpace).dropWhile JsString.isSpace =
      (s.dropWhile JsString.isSpace).rdropWhile JsString.isSpace := by
    have hself := List.dropWhile_eq_self_iff.mp (List.dropWhile_idempotent (p := JsString.isSpace) (l := s))
    refine List.dropWhile_eq_self_iff.mpr fun hlength => ?_
    have hinitial := List.rdropWhile_prefix JsString.isSpace (s.dropWhile JsString.isSpace)
    rw [hinitial.getElem hlength]
    exact hself (hlength.trans_le hinitial.length_le)
  rw [hfront, List.rdropWhile_idempotent]

/-- A URL. -/
theorem settled_url (canParse : JsString → Bool) : (Schema.checked .string [.url canParse]).Settled := by
  intro d w hok
  obtain ⟨v, hv, hissues, rfl⟩ := safeParse_checked_iff.mp hok
  obtain ⟨-, s, rfl⟩ := safeParse_string hv
  refine safeParse_checked_iff.mpr ⟨.string (JsString.trim s), rfl, ?_, ?_⟩
  · rw [Check.issues, trim_trim]
    exact hissues
  · rw [Check.rewrite, trim_trim]
    rfl

/-- **What has been prepared**, and is prepared again as something that is accepted as it is. -/
theorem settled_preprocess {f : Datum → Option Datum} {message : JsString} {inner : Schema}
    (h : ∀ d v w, f d = some v → inner.safeParse v = .ok w → ∃ v', f w = some v' ∧ inner.safeParse v' = .ok w) :
    (Schema.preprocess f message inner).Settled := by
  intro d w hok
  cases hf : f d with
  | none =>
    obtain ⟨hnil, -⟩ := safeParse_eq_ok_iff.mp hok
    rw [Schema.run, hf] at hnil
    cases hnil
  | some v =>
    obtain ⟨v', hv', hw⟩ := h d v w hf (safeParse_preprocess hf ▸ hok)
    rwa [safeParse_preprocess hv']

/-- What is accepted is accepted as one of the options. -/
theorem exists_of_safeParse_union {tag : JsString} {options : List (List JsString × Schema)} {d w : Datum}
    (h : (Schema.union tag options).safeParse d = .ok w) :
    ∃ own s, d = .object own ∧ pickOption options tag d = some s ∧ s.safeParse d = .ok w := by
  have hnil := (safeParse_eq_ok_iff.mp h).1
  cases d with
  | object own =>
    cases hpick : pickOption options tag (.object own) with
    | none =>
      rw [Schema.run, runOption_of_none hpick] at hnil
      cases hnil
    | some s => exact ⟨own, s, rfl, rfl, safeParse_union hpick ▸ h⟩
  | _ => cases hnil

/-- **Options that leave the tag as it is.** -/
theorem settled_union {tag : JsString} {options : List (List JsString × Schema)} (h : ∀ o ∈ options, o.2.Settled)
    (htag : ∀ o ∈ options, ∀ d w, o.2.safeParse d = .ok w → w.isRecord = true ∧ w.get tag = d.get tag) :
    (Schema.union tag options).Settled := by
  intro d w hok
  obtain ⟨own, s, rfl, hpick, hs⟩ := exists_of_safeParse_union hok
  obtain ⟨o, ho, -, rfl⟩ := mem_of_pickOption hpick
  obtain ⟨hw, hsame⟩ := htag o ho _ _ hs
  obtain ⟨own', rfl⟩ := isRecord_iff.mp hw
  have hpick' : pickOption options tag (.object own') = some o.2 := by
    rw [← hpick, pickOption, pickOption, hsame]
  rw [safeParse_union hpick']
  exact h o ho _ _ hs

end NestDdd.Zod
