import NestDdd.Zod.Schema

/-!
# What is accepted

What `safeParse` answers, by the schema.

## What is proved

* `sound_run` — an abort has an issue.
* `safeParse_checked_iff` — with checks, what is accepted passes them.
* `safeParse_object`, `exists_safeParse_object`, `get_stripped` — **an object is accepted field by field**, each field
  is found there, and nothing else.
-/

namespace NestDdd.Zod

open NestDdd.Shared NestDdd.Theory

/-! ### Checks, one after the other -/

/-- A check that aborts has found something. -/
theorem Check.issues_of_aborts {c : Check} {d : Datum} (h : c.aborts d = true) : c.issues d ≠ [] := by
  unfold Check.aborts at h
  split at h
  · next q =>
    rw [Check.issues, intIssues, if_pos (of_decide_eq_true h)]
    exact List.cons_ne_nil _ _
  · cases h

/-- An abort has an issue. -/
def Payload.Sound (p : Payload) : Prop := p.aborted = true → p.issues ≠ []

theorem Payload.Sound.apply {p : Payload} (hp : p.Sound) (c : Check) : (c.apply p).Sound := by
  unfold Check.apply
  split
  · exact hp
  · intro habort hnil
    obtain ⟨hbefore, hfound⟩ := List.append_eq_nil_iff.mp hnil
    rcases Bool.or_eq_true_iff.mp habort with h | h
    exacts [hp h hbefore, Check.issues_of_aborts h hfound]

theorem Payload.Sound.foldl {p : Payload} (hp : p.Sound) (checks : List Check) :
    (checks.foldl Check.apply p).Sound := by
  induction checks generalizing p with
  | nil => exact hp
  | cons c checks ih => exact ih (hp.apply c)

/-- **An abort has an issue**, whatever the schema. -/
theorem sound_run (s : Schema) (d : Datum) : (s.run d).Sound := by
  have hfail (d : Datum) (path : List Key) (reason : Reason) (message : Option JsString) :
      Payload.Sound ⟨d, [⟨path, reason, message⟩], true⟩ := fun _ h => List.cons_ne_nil _ _ h
  have hok (d : Datum) : (Payload.ok d).Sound := fun h => (by cases h)
  induction s using Schema.induct generalizing d with
  | string =>
    unfold Schema.run
    split
    exacts [hok _, hfail _ _ _ _]
  | number coerce =>
    unfold Schema.run
    simp only
    split
    exacts [hok _, hfail _ _ _ _]
  | boolean =>
    unfold Schema.run
    split
    exacts [hok _, hfail _ _ _ _]
  | enum options =>
    unfold Schema.run
    split
    exacts [hok _, hfail _ _ _ _]
  | record =>
    unfold Schema.run
    split
    exacts [hok _, hfail _ _ _ _]
  | array item ih =>
    unfold Schema.run
    split
    · next l =>
      intro habort hnil
      obtain ⟨p, hp, hpa⟩ := List.any_eq_true.mp habort
      obtain ⟨e, he, rfl⟩ := List.mem_map.mp hp
      obtain ⟨j, hj⟩ := List.exists_mem_of_ne_nil _ (ih e hpa)
      obtain ⟨n, hn⟩ := List.mem_iff_getElem?.mp hp
      exact List.eq_nil_iff_forall_not_mem.mp hnil _ (mem_ofElements.mpr ⟨_, n, hn, j, hj, rfl⟩)
    · exact hfail _ _ _ _
  | object fields passthrough ih =>
    unfold Schema.run
    split
    · next l =>
      intro habort hnil
      rw [runFields_eq] at habort hnil
      obtain ⟨e, he, hea⟩ := List.any_eq_true.mp habort
      obtain ⟨f, hf, rfl⟩ := List.mem_map.mp he
      obtain ⟨j, hj⟩ := List.exists_mem_of_ne_nil _ (ih f hf _ hea)
      exact List.eq_nil_iff_forall_not_mem.mp hnil _ (mem_ofFields.mpr ⟨_, he, j, hj, rfl⟩)
    · exact hfail _ _ _ _
  | checked inner checks ih =>
    unfold Schema.run
    exact (ih d).foldl checks
  | optional inner ih =>
    unfold Schema.run
    split
    · split
      exacts [hok _, hok _]
    · exact ih d
  | default inner value ih =>
    unfold Schema.run
    split
    exacts [hok _, ih d]
  | preprocess f message inner ih =>
    unfold Schema.run
    split
    exacts [ih _, hfail _ _ _ _]
  | union tag options ih =>
    unfold Schema.run
    split
    · next l =>
      cases h : pickOption options tag (.object l) with
      | none =>
        rw [runOption_of_none h]
        exact hfail _ _ _ _
      | some s =>
        obtain ⟨o, ho, -, rfl⟩ := mem_of_pickOption h
        rw [runOption_of_some h]
        exact ih o ho _
    · exact hfail _ _ _ _

/-! ### What is accepted -/

theorem safeParse_eq_ok_iff {s : Schema} {d w : Datum} :
    s.safeParse d = .ok w ↔ (s.run d).issues = [] ∧ (s.run d).value = w := by
  unfold Schema.safeParse
  simp only
  split
  · next h => simp [List.isEmpty_iff.mp h]
  · next h =>
    rw [List.isEmpty_iff] at h
    simp [h]

theorem safeParse_eq_error_iff {s : Schema} {d : Datum} {issues : List Issue} :
    s.safeParse d = .error issues ↔ (s.run d).issues = issues ∧ issues ≠ [] := by
  unfold Schema.safeParse
  simp only
  split
  · next h =>
    rw [List.isEmpty_iff.mp h]
    simp only [reduceCtorEq, false_iff, not_and, Decidable.not_not]
    exact Eq.symm
  · next h =>
    rw [List.isEmpty_iff] at h
    simp only [Except.error.injEq]
    constructor
    · rintro rfl
      exact ⟨rfl, h⟩
    · exact And.left

/-- The checks find nothing, one after the other, and make this of the value. -/
def Passes : List Check → Datum → Datum → Prop
  | [], d, w => d = w
  | c :: checks, d, w => c.issues d = [] ∧ Passes checks (c.rewrite d) w

theorem foldl_apply_eq_nil_iff {p : Payload} (hp : p.Sound) {checks : List Check} {w : Datum} :
    ((checks.foldl Check.apply p).issues = [] ∧ (checks.foldl Check.apply p).value = w) ↔
      p.issues = [] ∧ Passes checks p.value w := by
  induction checks generalizing p with
  | nil => exact Iff.rfl
  | cons c checks ih =>
    rw [List.foldl_cons, ih (hp.apply c), Passes]
    unfold Check.apply
    split
    · next hskip =>
      have habort : p.aborted = true := (Bool.and_eq_true_iff.mp hskip).1
      exact iff_of_false (fun h => hp habort h.1) fun h => hp habort h.1
    · rw [List.append_eq_nil_iff, and_assoc]
      refine and_congr_right fun _ => and_congr_right fun hfound => ?_
      simp [hfound]

/-- **With checks**, what is accepted passes them. -/
theorem safeParse_checked_iff {inner : Schema} {checks : List Check} {d w : Datum} :
    (Schema.checked inner checks).safeParse d = .ok w ↔ ∃ v, inner.safeParse d = .ok v ∧ Passes checks v w := by
  rw [safeParse_eq_ok_iff, Schema.run, foldl_apply_eq_nil_iff (sound_run inner d)]
  constructor
  · exact fun h => ⟨_, safeParse_eq_ok_iff.mpr ⟨h.1, rfl⟩, h.2⟩
  · rintro ⟨v, hv, hpasses⟩
    obtain ⟨hnil, rfl⟩ := safeParse_eq_ok_iff.mp hv
    exact ⟨hnil, hpasses⟩

theorem isRecord_iff {d : Datum} : d.isRecord = true ↔ ∃ l, d = .object l := by
  cases d <;> simp [Datum.isRecord]

/-- An entry of a list with each key once is found if it has been kept. -/
theorem find_map_filter {α β : Type} {l : List (JsString × α)} (hnodup : (l.map Prod.fst).Nodup) (f : α → β)
    (keep : JsString × α → Bool) {e : JsString × α} (he : e ∈ l) :
    find e.1 ((l.filter keep).map fun x => (x.1, f x.2)) = if keep e then some (f e.2) else none := by
  have hkeys : ((l.filter keep).map fun x => (x.1, f x.2)).map Prod.fst = (l.filter keep).map Prod.fst := by
    rw [List.map_map]
    rfl
  split
  · next hkeep =>
    rw [find_eq_some_iff (hkeys ▸ hnodup.sublist (List.filter_sublist.map _))]
    exact List.mem_map_of_mem (f := fun x : JsString × α => (x.1, f x.2)) (List.mem_filter.mpr ⟨he, hkeep⟩)
  · next hkeep =>
    refine find_eq_none_iff.mpr fun hm => ?_
    rw [hkeys] at hm
    obtain ⟨x, hx, heq⟩ := List.mem_map.mp hm
    obtain ⟨hxl, hxkeep⟩ := List.mem_filter.mp hx
    rw [List.inj_on_of_nodup_map hnodup hxl he heq] at hxkeep
    exact hkeep hxkeep

theorem not_contains_iff {keys : List JsString} {key : JsString} : (!keys.contains key) = true ↔ key ∉ keys := by
  simp

/-- What has been made of a field is found there, unless it is nothing and was not there. -/
theorem find_ofFields {own : List (JsString × Datum)} {passthrough : Bool} {l : List (JsString × Payload)}
    (hnodup : (l.map Prod.fst).Nodup) {e : JsString × Payload} (he : e ∈ l) :
    find e.1 (Payload.ofFields own passthrough l).value.members =
      if !e.2.value.isUndefined || (find e.1 own).isSome then some e.2.value else none := by
  have hrest : find e.1 (if passthrough then own.filter fun x => !(l.map Prod.fst).contains x.1 else []) = none := by
    refine find_eq_none_iff.mpr fun hm => ?_
    split at hm
    · obtain ⟨x, hx, heq⟩ := List.mem_map.mp hm
      have hnot := not_contains_iff.mp (List.mem_filter.mp hx).2
      exact hnot (heq ▸ List.mem_map_of_mem he)
    · exact List.not_mem_nil hm
  simp only [Payload.ofFields, Datum.members, find_append, hrest, Option.or_none]
  exact find_map_filter hnodup Payload.value _ he

theorem get_ofFields {own : List (JsString × Datum)} {passthrough : Bool} {l : List (JsString × Payload)}
    (hnodup : (l.map Prod.fst).Nodup) {e : JsString × Payload} (he : e ∈ l) :
    (Payload.ofFields own passthrough l).value.get e.1 = e.2.value := by
  rw [Datum.get, find_ofFields hnodup he]
  split
  · rfl
  · next hq =>
    rw [Option.getD_none]
    cases hv : e.2.value <;> simp [hv, Datum.isUndefined] at hq ⊢

theorem find_filter {α : Type} {keys : List JsString} {key : JsString} (hkey : key ∉ keys) (l : List (JsString × α)) :
    find key (l.filter fun x => !keys.contains x.1) = find key l := by
  induction l with
  | nil => rfl
  | cons x l ih =>
    rw [List.filter_cons, find_cons]
    split
    · rw [find_cons, ih]
    · next hx =>
      rw [ih, if_neg]
      rintro rfl
      exact hx (not_contains_iff.mpr hkey)

/-- What no field has is passed through, or not there. -/
theorem find_ofFields_of_not_mem {own : List (JsString × Datum)} {passthrough : Bool} {l : List (JsString × Payload)}
    {key : JsString} (hkey : key ∉ l.map Prod.fst) :
    find key (Payload.ofFields own passthrough l).value.members = if passthrough then find key own else none := by
  have hfields (keep : JsString × Payload → Bool) :
      find key ((l.filter keep).map fun e => (e.1, e.2.value)) = none := by
    refine find_eq_none_iff.mpr fun hm => hkey ?_
    obtain ⟨x, hx, rfl⟩ := List.mem_map.mp hm
    obtain ⟨e, he, rfl⟩ := List.mem_map.mp hx
    exact List.mem_map_of_mem (List.mem_of_mem_filter he)
  simp only [Payload.ofFields, Datum.members, find_append, hfields, Option.none_or]
  split
  · exact find_filter hkey own
  · rfl

/-- **An object is accepted** if and only if it is one and each field is accepted. -/
theorem safeParse_object {fields : List (JsString × Schema)} {passthrough : Bool} {d w : Datum}
    (hnodup : (fields.map Prod.fst).Nodup) (h : (Schema.object fields passthrough).safeParse d = .ok w) :
    d.isRecord = true ∧ w.isRecord = true ∧ ∀ e ∈ fields, e.2.safeParse (d.get e.1) = .ok (w.get e.1) := by
  obtain ⟨hnil, rfl⟩ := safeParse_eq_ok_iff.mp h
  unfold Schema.run at hnil ⊢
  split
  · next l =>
    refine ⟨rfl, rfl, fun e he => safeParse_eq_ok_iff.mpr ?_⟩
    simp only [runFields_eq] at hnil ⊢
    have hin : (e.1, e.2.run ((Datum.object l).get e.1)) ∈
        fields.map fun e => (e.1, e.2.run ((Datum.object l).get e.1)) := List.mem_map_of_mem he
    refine ⟨List.eq_nil_iff_forall_not_mem.mpr fun j hj => ?_, ?_⟩
    · exact List.eq_nil_iff_forall_not_mem.mp hnil _ (mem_ofFields.mpr ⟨_, hin, j, hj, rfl⟩)
    · refine (get_ofFields ?_ hin).symm
      rwa [List.map_map]
  · next hnot =>
    split at hnil
    · next l => exact absurd rfl (hnot l)
    · cases hnil

theorem keys_runFields (fields : List (JsString × Schema)) (d : Datum) :
    (runFields fields d).map Prod.fst = fields.map Prod.fst := by
  rw [runFields_eq, List.map_map]
  rfl

/-- A key that no field has is stripped. -/
theorem get_stripped {fields : List (JsString × Schema)} {d w : Datum} {key : JsString}
    (h : (Schema.object fields false).safeParse d = .ok w) (hkey : key ∉ fields.map Prod.fst) :
    w.get key = .undefined := by
  obtain ⟨hnil, rfl⟩ := safeParse_eq_ok_iff.mp h
  cases d with
  | object own =>
    rw [Datum.get, Schema.run, find_ofFields_of_not_mem ((keys_runFields fields (.object own)).symm ▸ hkey)]
    rfl
  | _ => cases hnil

/-- Or it is passed through. -/
theorem find_passed {fields : List (JsString × Schema)} {own : List (JsString × Datum)} {w : Datum} {key : JsString}
    (h : (Schema.object fields true).safeParse (.object own) = .ok w) (hkey : key ∉ fields.map Prod.fst) :
    find key w.members = find key own := by
  obtain ⟨-, rfl⟩ := safeParse_eq_ok_iff.mp h
  rw [Schema.run, find_ofFields_of_not_mem ((keys_runFields fields (.object own)).symm ▸ hkey)]
  rfl

/-- A key of a field stays a key. -/
theorem isSome_find_of_object {fields : List (JsString × Schema)} {passthrough : Bool} {own : List (JsString × Datum)}
    {w : Datum} (hnodup : (fields.map Prod.fst).Nodup)
    (h : (Schema.object fields passthrough).safeParse (.object own) = .ok w) {e : JsString × Schema} (he : e ∈ fields)
    (hown : (find e.1 own).isSome = true) : (find e.1 w.members).isSome = true := by
  obtain ⟨-, rfl⟩ := safeParse_eq_ok_iff.mp h
  have hin : (e.1, e.2.run ((Datum.object own).get e.1)) ∈ runFields fields (.object own) := by
    rw [runFields_eq]
    exact List.mem_map_of_mem he
  rw [Schema.run, find_ofFields ((keys_runFields fields (.object own)).symm ▸ hnodup) hin, hown, Bool.or_true]
  rfl

/-- An object each of whose fields is accepted is accepted. -/
theorem exists_safeParse_object {fields : List (JsString × Schema)} {passthrough : Bool} {d : Datum}
    (hrecord : d.isRecord = true) (h : ∀ e ∈ fields, ∃ v, e.2.safeParse (d.get e.1) = .ok v) :
    ∃ w, (Schema.object fields passthrough).safeParse d = .ok w := by
  obtain ⟨l, rfl⟩ := isRecord_iff.mp hrecord
  refine ⟨_, safeParse_eq_ok_iff.mpr ⟨?_, rfl⟩⟩
  rw [Schema.run, runFields_eq]
  refine List.eq_nil_iff_forall_not_mem.mpr fun i hi => ?_
  obtain ⟨e, he, j, hj, -⟩ := mem_ofFields.mp hi
  obtain ⟨f, hf, rfl⟩ := List.mem_map.mp he
  obtain ⟨v, hv⟩ := h f hf
  rw [(safeParse_eq_ok_iff.mp hv).1] at hj
  cases hj

/-- **An object that differs in one field** is accepted with another value there, and the same elsewhere. -/
theorem safeParse_object_update {fields : List (JsString × Schema)} {d d' w v : Datum} {key : JsString} {s : Schema}
    (hnodup : (fields.map Prod.fst).Nodup) (h : (Schema.object fields false).safeParse d = .ok w)
    (hrecord : d'.isRecord = true) (hkey : (key, s) ∈ fields) (hv : s.safeParse (d'.get key) = .ok v)
    (hrest : ∀ k, k ≠ key → d'.get k = d.get k) :
    ∃ w', (Schema.object fields false).safeParse d' = .ok w' ∧ w'.get key = v ∧
      ∀ k, k ≠ key → w'.get k = w.get k := by
  obtain ⟨-, -, hfields⟩ := safeParse_object hnodup h
  have hall (e : JsString × Schema) (he : e ∈ fields) : ∃ v, e.2.safeParse (d'.get e.1) = .ok v := by
    by_cases heq : e.1 = key
    · have hs : e = (key, s) := List.inj_on_of_nodup_map hnodup he hkey heq
      exact ⟨v, hs ▸ hv⟩
    · exact ⟨w.get e.1, hrest _ heq ▸ hfields e he⟩
  obtain ⟨w', hw'⟩ := exists_safeParse_object hrecord hall
  have hfields' := (safeParse_object hnodup hw').2.2
  refine ⟨w', hw', Except.ok.inj ((hfields' _ hkey).symm.trans hv), fun k hk => ?_⟩
  by_cases hin : k ∈ fields.map Prod.fst
  · obtain ⟨e, he, rfl⟩ := List.mem_map.mp hin
    have hboth := hfields' e he
    rw [hrest _ hk, hfields e he] at hboth
    exact (Except.ok.inj hboth).symm
  · rw [get_stripped hw' hin, get_stripped h hin]

end NestDdd.Zod
