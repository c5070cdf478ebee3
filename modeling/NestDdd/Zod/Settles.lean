import NestDdd.Zod.Settled

/-!
# A check for what is accepted again

`Schema.settles` looks at a schema, down to the defaults in it, and finds most of those that are settled; one that
prepares its values it leaves to the reader.

## What is proved

* `settled_of_settles` — **a schema that passes the check is settled**.
-/

namespace NestDdd.Zod

open NestDdd.Shared NestDdd.Theory

/-! ### The check -/

mutual

/-- Two values are the same. -/
def Datum.same : Datum → Datum → Bool
  | .undefined, .undefined | .null, .null => true
  | .bool a, .bool b => a == b
  | .number x, .number y => decide (x = y)
  | .string s, .string t => s == t
  | .array l, .array m => sameElements l m
  | .object l, .object m => sameMembers l m
  | _, _ => false

/-- Two lists of elements are. -/
def sameElements : List Datum → List Datum → Bool
  | [], [] => true
  | d :: l, e :: m => d.same e && sameElements l m
  | _, _ => false

/-- Two lists of members are. -/
def sameMembers : List (JsString × Datum) → List (JsString × Datum) → Bool
  | [], [] => true
  | (j, d) :: l, (k, e) :: m => j == k && d.same e && sameMembers l m
  | _, _ => false

end

mutual

theorem eq_of_same : ∀ {d e : Datum}, d.same e = true → d = e
  | .undefined, .undefined, _ | .null, .null, _ => rfl
  | .bool _, .bool _, h => congrArg Datum.bool (eq_of_beq h)
  | .number _, .number _, h => congrArg Datum.number (of_decide_eq_true h)
  | .string _, .string _, h => congrArg Datum.string (eq_of_beq h)
  | .array _, .array _, h => congrArg Datum.array (eq_of_sameElements h)
  | .object _, .object _, h => congrArg Datum.object (eq_of_sameMembers h)

theorem eq_of_sameElements : ∀ {l m : List Datum}, sameElements l m = true → l = m
  | [], [], _ => rfl
  | _ :: _, _ :: _, h => by
    obtain ⟨hhead, htail⟩ := Bool.and_eq_true_iff.mp h
    rw [eq_of_same hhead, eq_of_sameElements htail]

theorem eq_of_sameMembers : ∀ {l m : List (JsString × Datum)}, sameMembers l m = true → l = m
  | [], [], _ => rfl
  | (_, _) :: _, (_, _) :: _, h => by
    obtain ⟨hhead, htail⟩ := Bool.and_eq_true_iff.mp h
    obtain ⟨hkey, hvalue⟩ := Bool.and_eq_true_iff.mp hhead
    rw [eq_of_beq hkey, eq_of_same hvalue, eq_of_sameMembers htail]

end

/-- The value is accepted as it is. -/
def Schema.keeps (s : Schema) (value : Datum) : Bool :=
  match s.safeParse value with
  | .ok w => w.same value
  | .error _ => false

/-- It makes something of whatever it accepts. -/
def Schema.presents : Schema → Bool
  | .checked inner checks => inner.presents && checks.all Check.keeps
  | .string | .number _ | .boolean | .enum _ | .array _ | .object _ _ => true
  | _ => false

/-- It makes an object, and leaves the tag of an object as it is. -/
def Schema.tagged (tag : JsString) : Schema → Bool
  | .object fields _ => decide (fields.map Prod.fst).Nodup &&
      fields.any fun e => e.1 == tag && match e.2 with | .enum _ => true | _ => false
  | .checked inner checks => inner.tagged tag && checks.all Check.keeps
  | _ => false

/-- `z.url()`. -/
def isUrl : Schema → List Check → Bool
  | .string, [.url _] => true
  | _, _ => false

mutual

/-- **A check of a schema**: what it accepts it accepts again. -/
def Schema.settles : Schema → Bool
  | .string | .number _ | .boolean | .enum _ | .record => true
  | .array item => item.settles
  | .object fields _ => decide (fields.map Prod.fst).Nodup && fieldsSettle fields
  | .checked inner checks => isUrl inner checks || inner.settles && checks.all Check.keeps
  | .optional inner => inner.settles && !inner.optin
  | .default inner value => inner.settles && inner.presents && inner.keeps value
  | .preprocess _ _ _ => false
  | .union tag options => optionsSettle tag options

/-- So do all fields. -/
def fieldsSettle : List (JsString × Schema) → Bool
  | [] => true
  | (_, s) :: fields => s.settles && fieldsSettle fields

/-- So do all options. -/
def optionsSettle (tag : JsString) : List (List JsString × Schema) → Bool
  | [] => true
  | (_, s) :: options => s.settles && s.tagged tag && optionsSettle tag options

end

/-! ### It is sound -/

theorem safeParse_of_keeps {s : Schema} {value : Datum} (h : s.keeps value = true) : s.safeParse value = .ok value := by
  unfold Schema.keeps at h
  split at h
  · next w hw => rw [hw, eq_of_same h]
  · cases h

theorem fieldsSettle_iff {fields : List (JsString × Schema)} :
    fieldsSettle fields = true ↔ ∀ e ∈ fields, e.2.settles = true := by
  induction fields with
  | nil => simp [fieldsSettle]
  | cons e fields ih => rw [fieldsSettle, Bool.and_eq_true_iff, ih, List.forall_mem_cons]

theorem optionsSettle_iff {tag : JsString} {options : List (List JsString × Schema)} :
    optionsSettle tag options = true ↔ ∀ o ∈ options, o.2.settles = true ∧ o.2.tagged tag = true := by
  induction options with
  | nil => simp [optionsSettle]
  | cons o options ih => rw [optionsSettle, Bool.and_eq_true_iff, Bool.and_eq_true_iff, ih, List.forall_mem_cons]

theorem present_of_presents {s : Schema} (h : s.presents = true) : s.Present := by
  induction s using Schema.induct with
  | string => exact present_string
  | number coerce => exact present_number coerce
  | boolean => exact present_boolean
  | enum options => exact present_enum options
  | array item _ => exact present_array item
  | object fields passthrough _ => exact present_object fields passthrough
  | checked inner checks ih =>
    obtain ⟨hinner, hchecks⟩ := Bool.and_eq_true_iff.mp h
    exact present_checked (ih hinner) (keeps_of_all hchecks)
  | record | optional | default | preprocess | union => cases h

/-- The tag of an object stays as it is. -/
theorem get_of_tagged {s : Schema} {tag : JsString} (h : s.tagged tag = true) {d w : Datum}
    (hok : s.safeParse d = .ok w) : w.isRecord = true ∧ w.get tag = d.get tag := by
  induction s using Schema.induct with
  | object fields passthrough _ =>
    obtain ⟨hnodup, hany⟩ := Bool.and_eq_true_iff.mp h
    obtain ⟨⟨key, s⟩, he, htag⟩ := List.any_eq_true.mp hany
    obtain ⟨hkey, henum⟩ := Bool.and_eq_true_iff.mp htag
    obtain ⟨-, hrecord, hfields⟩ := safeParse_object (of_decide_eq_true hnodup) hok
    obtain rfl := eq_of_beq hkey
    refine ⟨hrecord, ?_⟩
    cases s with
    | enum options => exact (safeParse_enum.mp (hfields _ he)).1.symm
    | _ => cases henum
  | checked inner checks ih =>
    obtain ⟨hinner, hchecks⟩ := Bool.and_eq_true_iff.mp h
    exact ih hinner ((safeParse_kept_iff (keeps_of_all hchecks)).mp hok).1
  | string | number | boolean | enum | record | array | optional | default | preprocess | union => cases h

/-- **A schema that passes the check is settled.** -/
theorem settled_of_settles {s : Schema} (h : s.settles = true) : s.Settled := by
  induction s using Schema.induct with
  | string => exact settled_string
  | number coerce => exact settled_number coerce
  | boolean => exact settled_boolean
  | enum options => exact settled_enum options
  | record => exact settled_record
  | array item ih => exact settled_array (ih h)
  | object fields passthrough ih =>
    obtain ⟨hnodup, hfields⟩ := Bool.and_eq_true_iff.mp h
    exact settled_object (of_decide_eq_true hnodup) fun e he => ih e he (fieldsSettle_iff.mp hfields e he)
  | checked inner checks ih =>
    rw [Schema.settles] at h
    rcases Bool.or_eq_true_iff.mp h with hurl | hkept
    · unfold isUrl at hurl
      split at hurl
      · exact settled_url _
      · cases hurl
    · obtain ⟨hinner, hchecks⟩ := Bool.and_eq_true_iff.mp hkept
      exact settled_checked (ih hinner) (keeps_of_all hchecks)
  | optional inner ih =>
    obtain ⟨hinner, hin⟩ := Bool.and_eq_true_iff.mp h
    exact settled_optional (ih hinner) ((Bool.not_eq_true' _).mp hin)
  | default inner value ih =>
    obtain ⟨hinner, hvalue⟩ := Bool.and_eq_true_iff.mp h
    obtain ⟨hinner, hpresent⟩ := Bool.and_eq_true_iff.mp hinner
    exact settled_default (ih hinner) (present_of_presents hpresent) (safeParse_of_keeps hvalue)
  | preprocess f message inner _ => cases h
  | union tag options ih =>
    have hoptions := optionsSettle_iff.mp h
    exact settled_union (fun o ho => ih o ho (hoptions o ho).1) fun o ho _ _ => get_of_tagged (hoptions o ho).2

end NestDdd.Zod
