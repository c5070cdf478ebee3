import NestDdd.Shared.ToNumber
import NestDdd.Theory.OrderedMap

/-!
# Schemas

A schema of Zod 4, as a value, and `safeParse`: what it makes of a value, and the issues it has with it. A schema of an
object asks each of its fields and gathers their issues; the checks behind a schema run one after the other, those that
need a sound value only while nothing has been aborted.

## The model

An issue has the kind of the value that was received and nothing else of it: the text of an issue is made of that by the
locale. The message of an issue that a check was given is its own.
-/

namespace NestDdd.Zod

open NestDdd.Shared NestDdd.Theory

/-! ### Values -/

/-- A value that is made of objects and arrays. -/
inductive Datum where
  /-- `undefined`. -/
  | undefined
  /-- `null`. -/
  | null
  /-- A boolean. -/
  | bool (b : Bool)
  /-- A number. -/
  | number (x : Number)
  /-- A string. -/
  | string (s : JsString)
  /-- An array. -/
  | array (elements : List Datum)
  /-- An object. -/
  | object (members : List (JsString × Datum))

namespace Datum

/-- The properties of an object. -/
def members : Datum → List (JsString × Datum)
  | .object l => l
  | _ => []

/-- `value?.key`, of an object. -/
def get (d : Datum) (key : JsString) : Datum := (find key d.members).getD .undefined

/-- `value === undefined`. -/
def isUndefined : Datum → Bool
  | .undefined => true
  | _ => false

/-- `isRecord(value)`. -/
def isRecord : Datum → Bool
  | .object _ => true
  | _ => false

/-- The string is one of these. -/
def isOneOf (options : List JsString) : Datum → Bool
  | .string s => options.contains s
  | _ => false

/-- The length of a string or of an array. -/
def length? : Datum → Option ℕ
  | .string s => some s.length
  | .array l => some l.length
  | _ => none

mutual

/-- `Number(String([value]))`: an array is taken for the list of its elements, an object for no number. -/
def elementNumber : Datum → Number
  | .undefined | .null => .finite 0
  | .bool _ => .nan
  | .number x => x
  | .string s => s.toNumber
  | .array l => elementsNumber l
  | .object _ => .nan

/-- `Number(String(elements))`, with a comma between any two of them. -/
def elementsNumber : List Datum → Number
  | [] => .finite 0
  | d :: l => if l.isEmpty then d.elementNumber else .nan

end

/-- `Number(value)`. -/
def toNumber : Datum → Number
  | .undefined => .nan
  | .null => .finite 0
  | .bool b => .finite (if b then 1 else 0)
  | .number x => x
  | .string s => s.toNumber
  | .array l => elementsNumber l
  | .object _ => .nan

end Datum

/-- What `typeof` and its like tell of a value. -/
inductive Kind where
  /-- `undefined`. -/
  | undefined
  /-- `null`. -/
  | null
  /-- A boolean. -/
  | boolean
  /-- `NaN`. -/
  | nan
  /-- An infinity. -/
  | infinity
  /-- Any other number. -/
  | number
  /-- A string. -/
  | string
  /-- An array. -/
  | array
  /-- An object. -/
  | object
  deriving DecidableEq

/-- The kind of a value. -/
def Datum.kind : Datum → Kind
  | .undefined => .undefined
  | .null => .null
  | .bool _ => .boolean
  | .number .nan => .nan
  | .number (.finite _) => .number
  | .number _ => .infinity
  | .string _ => .string
  | .array _ => .array
  | .object _ => .object

/-! ### Issues -/

/-- A step of a path. -/
inductive Key where
  /-- A property. -/
  | name (key : JsString)
  /-- An element. -/
  | index (n : ℕ)
  deriving DecidableEq

/-- A step of a path, as `join` writes it. -/
def Key.text : Key → JsString
  | .name key => key
  | .index n => JsString.ofString (toString n)

/-- What an issue says. -/
inductive Reason where
  /-- Code `invalid_type`: what was expected, and the kind of what was received. -/
  | invalidType (expected : JsString) (received : Kind)
  /-- Code `invalid_value`: none of these. -/
  | invalidValue (options : List JsString)
  /-- Code `invalid_union`. -/
  | invalidUnion
  /-- Code `too_small`: of what, the least value or length, and whether that one is allowed. -/
  | tooSmall (origin : JsString) (minimum : ℚ) (inclusive : Bool)
  /-- Code `too_big`: of what, and the greatest value. -/
  | tooBig (origin : JsString) (maximum : ℚ)
  /-- Code `invalid_format`, with the pattern of a `.regex(..)`. -/
  | invalidFormat (format : JsString) (pattern : Option JsString)
  /-- Code `custom`. -/
  | custom
  deriving DecidableEq

/-- `i.code`. -/
def Reason.code : Reason → JsString
  | .invalidType _ _ => "invalid_type"
  | .invalidValue _ => "invalid_value"
  | .invalidUnion => "invalid_union"
  | .tooSmall _ _ _ => "too_small"
  | .tooBig _ _ => "too_big"
  | .invalidFormat _ _ => "invalid_format"
  | .custom => "custom"

/-- An issue. -/
structure Issue where
  /-- `i.path`. -/
  path : List Key
  /-- What it says. -/
  reason : Reason
  /-- The message the schema was given for it. -/
  message : Option JsString
  deriving DecidableEq

/-- `i.message`; the locale writes the messages that the schema was not given. -/
def Issue.text (locale : Reason → JsString) (i : Issue) : JsString := i.message.getD (locale i.reason)

/-- An issue of a part. -/
def Issue.within (key : Key) (i : Issue) : Issue := { i with path := key :: i.path }

/-! ### Checks -/

/-- What a refinement may complain of. -/
structure Complaint where
  /-- `path`. -/
  path : List JsString
  /-- `message`. -/
  message : JsString
  /-- When it does. -/
  raised : Datum → Bool

/-- A check behind a schema. -/
inductive Check where
  /-- `.int()`. -/
  | int
  /-- `.min(n)` of a number, or `.positive()`. -/
  | minimum (n : ℚ) (inclusive : Bool)
  /-- `.max(n)` of a number. -/
  | maximum (n : ℚ)
  /-- `.min(n)` of a string or an array. -/
  | minLength (n : ℕ) (message : Option JsString)
  /-- `.regex(pattern)`. -/
  | regex (pattern : JsString) (test : JsString → Bool) (message : Option JsString)
  /-- `z.url()`. -/
  | url (canParse : JsString → Bool)
  /-- `.refine(..)` or `.superRefine(..)`. -/
  | refine (complaints : List Complaint)

/-- `Number.MAX_SAFE_INTEGER`. -/
def maxSafeInteger : ℚ := 9007199254740991

/-- What `.int()` finds: a number that is not an integer, or one out of the safe range. -/
def intIssues (q : ℚ) : List Issue :=
  if q.den ≠ 1 then [⟨[], .invalidType "int" .number, none⟩]
  else if maxSafeInteger < q then [⟨[], .tooBig "int" maxSafeInteger, none⟩]
  else if q < -maxSafeInteger then [⟨[], .tooSmall "int" (-maxSafeInteger) true, none⟩]
  else []

/-- What a check finds; a check on a number finds nothing in what is no number, and so on. -/
def Check.issues : Check → Datum → List Issue
  | .int, .number (.finite q) => intIssues q
  | .minimum n inclusive, .number (.finite q) =>
    if n < q ∨ (inclusive = true ∧ q = n) then [] else [⟨[], .tooSmall "number" n inclusive, none⟩]
  | .maximum n, .number (.finite q) => if q ≤ n then [] else [⟨[], .tooBig "number" n, none⟩]
  | .minLength n message, .string s => if n ≤ s.length then [] else [⟨[], .tooSmall "string" n true, message⟩]
  | .minLength n message, .array l => if n ≤ l.length then [] else [⟨[], .tooSmall "array" n true, message⟩]
  | .regex pattern test message, .string s =>
    if test s then [] else [⟨[], .invalidFormat "regex" (some pattern), message⟩]
  | .url canParse, .string s => if canParse (JsString.trim s) then [] else [⟨[], .invalidFormat "url" none, none⟩]
  | .refine complaints, d =>
    (complaints.filter fun c => c.raised d).map fun c => ⟨c.path.map .name, .custom, some c.message⟩
  | _, _ => []

/-- What a check makes of a value it has nothing against: a URL is trimmed. -/
def Check.rewrite : Check → Datum → Datum
  | .url _, .string s => .string (JsString.trim s)
  | _, d => d

/-- Whether it aborts the parse: `.int()` does, of a number that is not an integer. -/
def Check.aborts : Check → Datum → Bool
  | .int, .number (.finite q) => decide (q.den ≠ 1)
  | _, _ => false

/-- Whether it runs after an abort: a check of a length does wherever there is one. -/
def Check.persists : Check → Bool
  | .minLength _ _ => true
  | _ => false

/-- What has been made of a value so far. -/
structure Payload where
  /-- `value`. -/
  value : Datum
  /-- `issues`. -/
  issues : List Issue
  /-- `aborted(payload)`. -/
  aborted : Bool

/-- One check. -/
def Check.apply (p : Payload) (c : Check) : Payload :=
  if p.aborted && !c.persists then p
  else
    let found := c.issues p.value
    { value := if found.isEmpty then c.rewrite p.value else p.value
      issues := p.issues ++ found
      aborted := p.aborted || c.aborts p.value }

/-! ### Schemas -/

/-- A schema. -/
inductive Schema where
  /-- `z.string()`. -/
  | string
  /-- `z.number()`, or `z.coerce.number()`. -/
  | number (coerce : Bool)
  /-- `z.boolean()`. -/
  | boolean
  /-- `z.enum(options)`, or `z.literal(option)`. -/
  | enum (options : List JsString)
  /-- `z.record(z.string(), z.unknown())`. -/
  | record
  /-- `z.array(item)`. -/
  | array (item : Schema)
  /-- `z.object(fields)`, with `.passthrough()` or without. -/
  | object (fields : List (JsString × Schema)) (passthrough : Bool)
  /-- A schema with checks behind it. -/
  | checked (inner : Schema) (checks : List Check)
  /-- `.optional()`. -/
  | optional (inner : Schema)
  /-- `.default(value)`. -/
  | default (inner : Schema) (value : Datum)
  /-- `z.preprocess(f, inner)`; where `f` is `none`, it adds an issue with the message. -/
  | preprocess (f : Datum → Option Datum) (message : JsString) (inner : Schema)
  /-- `z.discriminatedUnion(tag, options)`, each option with its values of the tag. -/
  | union (tag : JsString) (options : List (List JsString × Schema))

/-- `optin`: a schema that takes `undefined` for a value that may be missing. -/
def Schema.optin : Schema → Bool
  | .optional _ | .default _ _ => true
  | .checked inner _ => inner.optin
  | _ => false

/-- The schema has nothing against the value. -/
def Payload.ok (d : Datum) : Payload := ⟨d, [], false⟩

/-- The schema cannot do anything with the value. -/
def Payload.fail (d : Datum) (reason : Reason) : Payload := ⟨d, [⟨[], reason, none⟩], true⟩

/-- What has been made of the elements. -/
def Payload.ofElements (l : List Payload) : Payload where
  value := .array (l.map Payload.value)
  issues := (l.zipIdx.map fun e => e.1.issues.map (Issue.within (.index e.2))).flatten
  aborted := l.any Payload.aborted

/-- What has been made of the fields of an object `own`; the rest of it is passed through, or not. -/
def Payload.ofFields (own : List (JsString × Datum)) (passthrough : Bool) (l : List (JsString × Payload)) :
    Payload where
  value := .object
    ((l.filter fun e => !e.2.value.isUndefined || (find e.1 own).isSome).map (fun e => (e.1, e.2.value)) ++
      if passthrough then own.filter fun e => !(l.map Prod.fst).contains e.1 else [])
  issues := (l.map fun e => e.2.issues.map (Issue.within (.name e.1))).flatten
  aborted := l.any fun e => e.2.aborted

mutual

/-- What a schema makes of a value. -/
def Schema.run : Schema → Datum → Payload
  | .string, d =>
    match d with
    | .string _ => .ok d
    | _ => .fail d (.invalidType "string" d.kind)
  | .number coerce, d =>
    let d := if coerce then .number d.toNumber else d
    match d with
    | .number (.finite _) => .ok d
    | _ => .fail d (.invalidType "number" d.kind)
  | .boolean, d =>
    match d with
    | .bool _ => .ok d
    | _ => .fail d (.invalidType "boolean" d.kind)
  | .enum options, d => if d.isOneOf options then .ok d else .fail d (.invalidValue options)
  | .record, d =>
    match d with
    | .object _ => .ok d
    | _ => .fail d (.invalidType "record" d.kind)
  | .array item, d =>
    match d with
    | .array l => .ofElements (l.map fun e => item.run e)
    | _ => .fail d (.invalidType "array" d.kind)
  | .object fields passthrough, d =>
    match d with
    | .object l => .ofFields l passthrough (runFields fields d)
    | _ => .fail d (.invalidType "object" d.kind)
  | .checked inner checks, d => checks.foldl Check.apply (inner.run d)
  | .optional inner, d =>
    if d.isUndefined then
      if inner.optin && (inner.run d).issues.isEmpty then .ok (inner.run d).value else .ok d
    else inner.run d
  | .default inner value, d => if d.isUndefined then .ok value else inner.run d
  | .preprocess f message inner, d =>
    match f d with
    | some d => inner.run d
    | none => ⟨d, [⟨[], .custom, some message⟩], true⟩
  | .union tag options, d =>
    match d with
    | .object _ => runOption options tag d
    | _ => .fail d (.invalidType "object" d.kind)

/-- What the schemas of the fields make of them. -/
def runFields : List (JsString × Schema) → Datum → List (JsString × Payload)
  | [], _ => []
  | (key, schema) :: fields, d => (key, schema.run (d.get key)) :: runFields fields d

/-- What the option with the value of the tag makes of an object. -/
def runOption : List (List JsString × Schema) → JsString → Datum → Payload
  | [], tag, d => ⟨d, [⟨[.name tag], .invalidUnion, none⟩], true⟩
  | (tags, schema) :: options, tag, d =>
    if (d.get tag).isOneOf tags then schema.run d else runOption options tag d

end

/-- `schema.safeParse(value)`. -/
def Schema.safeParse (schema : Schema) (d : Datum) : Except (List Issue) Datum :=
  let p := schema.run d
  if p.issues.isEmpty then .ok p.value else .error p.issues

/-! ### Inductions -/

/-- Induction on a schema, for the fields of an object and the options of a union. -/
@[elab_as_elim]
theorem Schema.induct {motive : Schema → Prop} (string : motive .string) (number : ∀ coerce, motive (.number coerce))
    (boolean : motive .boolean) (enum : ∀ options, motive (.enum options)) (record : motive .record)
    (array : ∀ item, motive item → motive (.array item))
    (object : ∀ fields passthrough, (∀ e ∈ fields, motive e.2) → motive (.object fields passthrough))
    (checked : ∀ inner checks, motive inner → motive (.checked inner checks))
    (optional : ∀ inner, motive inner → motive (.optional inner))
    (default : ∀ inner value, motive inner → motive (.default inner value))
    (preprocess : ∀ f message inner, motive inner → motive (.preprocess f message inner))
    (union : ∀ tag options, (∀ e ∈ options, motive e.2) → motive (.union tag options)) (s : Schema) : motive s :=
  @Schema.rec motive (fun l => ∀ e ∈ l, motive e.2) (fun l => ∀ e ∈ l, motive e.2) (fun e => motive e.2)
    (fun e => motive e.2) string number boolean enum record array object checked optional default preprocess union
    (fun _ h => absurd h List.not_mem_nil) (fun _ _ he hl => List.forall_mem_cons.mpr ⟨he, hl⟩)
    (fun _ h => absurd h List.not_mem_nil) (fun _ _ he hl => List.forall_mem_cons.mpr ⟨he, hl⟩)
    (fun _ _ h => h) (fun _ _ h => h) s

theorem runFields_eq (fields : List (JsString × Schema)) (d : Datum) :
    runFields fields d = fields.map fun e => (e.1, e.2.run (d.get e.1)) := by
  induction fields with
  | nil => rfl
  | cons e fields ih => rw [runFields, ih, List.map_cons]

/-- The option with the value of the tag. -/
def pickOption (options : List (List JsString × Schema)) (tag : JsString) (d : Datum) : Option Schema :=
  (options.find? fun o => (d.get tag).isOneOf o.1).map Prod.snd

theorem runOption_of_none {options : List (List JsString × Schema)} {tag : JsString} {d : Datum}
    (h : pickOption options tag d = none) :
    runOption options tag d = ⟨d, [⟨[.name tag], .invalidUnion, none⟩], true⟩ := by
  induction options with
  | nil => rfl
  | cons o options ih =>
    rw [pickOption, List.find?_cons] at h
    split at h
    · cases h
    · next htag =>
      rw [runOption, if_neg (Bool.eq_false_iff.mp htag)]
      exact ih h

theorem runOption_of_some {options : List (List JsString × Schema)} {tag : JsString} {d : Datum} {s : Schema}
    (h : pickOption options tag d = some s) : runOption options tag d = s.run d := by
  induction options with
  | nil => cases h
  | cons o options ih =>
    rw [pickOption, List.find?_cons] at h
    split at h
    · next htag =>
      cases h
      rw [runOption, if_pos htag]
    · next htag =>
      rw [runOption, if_neg (Bool.eq_false_iff.mp htag)]
      exact ih h

theorem mem_of_pickOption {options : List (List JsString × Schema)} {tag : JsString} {d : Datum} {s : Schema}
    (h : pickOption options tag d = some s) : ∃ o ∈ options, (d.get tag).isOneOf o.1 = true ∧ o.2 = s := by
  obtain ⟨o, ho, rfl⟩ := Option.map_eq_some_iff.mp h
  have htag := List.find?_some (p := fun o : List JsString × Schema => (d.get tag).isOneOf o.1) ho
  exact ⟨o, List.mem_of_find?_eq_some ho, htag, rfl⟩

/-- An issue of an array is an issue of an element. -/
theorem mem_ofElements {l : List Payload} {i : Issue} : i ∈ (Payload.ofElements l).issues ↔
    ∃ (p : Payload) (n : ℕ), l[n]? = some p ∧ ∃ j ∈ p.issues, j.within (.index n) = i := by
  simp only [Payload.ofElements, List.mem_flatten, List.mem_map]
  constructor
  · rintro ⟨_, ⟨⟨p, n⟩, hp, rfl⟩, hi⟩
    exact ⟨p, n, List.mk_mem_zipIdx_iff_getElem?.mp hp, List.mem_map.mp hi⟩
  · rintro ⟨p, n, hp, j, hj, rfl⟩
    exact ⟨_, ⟨(p, n), List.mk_mem_zipIdx_iff_getElem?.mpr hp, rfl⟩, List.mem_map_of_mem hj⟩

/-- An issue of an object is an issue of a field. -/
theorem mem_ofFields {own : List (JsString × Datum)} {passthrough : Bool} {l : List (JsString × Payload)} {i : Issue} :
    i ∈ (Payload.ofFields own passthrough l).issues ↔ ∃ e ∈ l, ∃ j ∈ e.2.issues, j.within (.name e.1) = i := by
  simp only [Payload.ofFields, List.mem_flatten, List.mem_map]
  constructor
  · rintro ⟨_, ⟨e, he, rfl⟩, hi⟩
    exact ⟨e, he, List.mem_map.mp hi⟩
  · rintro ⟨e, he, j, hj, rfl⟩
    exact ⟨_, ⟨e, he, rfl⟩, List.mem_map_of_mem hj⟩

end NestDdd.Zod
