import NestDdd.Http.DeprecationHeaders
import NestDdd.Http.ErrorBoundary
import NestDdd.Theory.History
import NestDdd.Theory.Machine

/-!
# From the guards to the handler

The interceptors in the order of `interface.module.ts`: `DeprecationInterceptor`, `ZodHttpInterceptor` and
`ResponseFormatterInterceptor`, then the handler with what `@Validated(...)` reads, and the exception filter around
them.

## The model

A schema of Zod is what its `safeParse` makes of a value, and what its `safeParseAsync` may come to. The asynchronous
ones settle in any order, also after the request has been answered; what a handler does is not modelled, nor that it
changes the headers of the response.

## What is proved

* `Underway.Inv.next` — the invariant: what is stored is what the schemas made of the request as it came.
* `rule_throughout` — **the handler is called once, and only with what the schemas have accepted**; any other request is
  answered once, by the first refusal, and every answer has the deprecation headers of its route.
-/

namespace NestDdd.Http.Pipeline

open NestDdd.Shared NestDdd.Theory
open NestDdd.Http.Deprecation (DeprecationHeaders Response)

/-! ### Schemas -/

/-- `Part`. -/
inductive Part where
  /-- `'body'`. -/
  | body
  /-- `'query'`. -/
  | query
  /-- `'params'`. -/
  | params
  /-- `'headers'`. -/
  | headers
  deriving DecidableEq

/-- The name of a part. -/
def Part.name : Part → JsString
  | .body => "body"
  | .query => "query"
  | .params => "params"
  | .headers => "headers"

/-- An issue: `path.map(String)` and the message. -/
structure ZodIssue where
  /-- `path.map(String)`. -/
  path : List JsString
  /-- `message`. -/
  message : JsString

/-- `ZodSafeParseResult`: the issues, or the data. -/
abbrev SafeParse := Except (List ZodIssue) JsValue

/-- `ZodType`; both of its functions may fail otherwise, if a refinement throws. -/
structure ZodType where
  /-- `safeParse(source)`; it throws if it would have to wait. -/
  safeParse : JsValue → Except ErrorValue SafeParse
  /-- What `safeParseAsync(source)` may settle with. -/
  SafeParseAsync : JsValue → Except ErrorValue SafeParse → Prop

/-- `ZodHttpSchema`. -/
structure ZodHttpSchema where
  /-- `body`. -/
  body : Option ZodType
  /-- `query`. -/
  query : Option ZodType
  /-- `params`. -/
  params : Option ZodType
  /-- `headers`. -/
  headers : Option ZodType
  /-- `!!async`. -/
  async : Bool

namespace ZodHttpSchema

variable (schema : ZodHttpSchema)

/-- The schema of a part. -/
def zod : Part → Option ZodType
  | .body => schema.body
  | .query => schema.query
  | .params => schema.params
  | .headers => schema.headers

/-- `parts.filter(isSchema)`, without the schemas. -/
def parts : List Part := [Part.body, .query, .params, .headers].filter fun part => (schema.zod part).isSome

/-- The schema of the part may make this of a source. -/
def Judges (part : Part) (source : JsValue) (parsed : Except ErrorValue SafeParse) : Prop :=
  ∃ zod, schema.zod part = some zod ∧
    if schema.async then zod.SafeParseAsync source parsed else zod.safeParse source = parsed

theorem mem_parts {part : Part} : part ∈ schema.parts ↔ (schema.zod part).isSome = true := by
  rw [parts, List.mem_filter]
  exact ⟨And.right, fun h => ⟨by cases part <;> simp, h⟩⟩

theorem nodup_parts : schema.parts.Nodup := List.Nodup.filter _ (by decide)

end ZodHttpSchema

/-- The line of an issue in `formatZodError`. -/
def issueLine (part : JsString) (i : ZodIssue) : JsString :=
  let path := (JsString.ofString ".").intercalate ((part :: i.path).filter fun segment => !segment.isEmpty)
  if path.isEmpty then i.message else path ++ JsString.ofString ": " ++ i.message

/-- `formatZodError(error, part)`. -/
def formatZodError (issues : List ZodIssue) (part : JsString) : JsValue :=
  .object .plain [("message", .string "Validation failed"),
    ("details", .array (issues.map fun i => .string (issueLine part i)))]

/-- `new BadRequestException(response)`. -/
def badRequestException (response : JsValue) : ErrorValue where
  value := .object (.other "HttpException")
    [("name", .string "BadRequestException"), ("status", .int 400), ("response", response),
      ("message", if (response.get "message").isString then response.get "message"
        else .string "Bad Request Exception")]
  toProblem := none
  http := some { status := 400, response := response }

/-- What `validate` stores, or throws. -/
def verdict (part : Part) : Except ErrorValue SafeParse → Except ErrorValue JsValue
  | .ok (.ok data) => .ok data
  | .ok (.error issues) => .error (badRequestException (formatZodError issues part.name))
  | .error e => .error e

/-! ### The headers -/

/-- The `TypeError` of `setHeader`. -/
def invalidCharError (message : JsString) : ErrorValue where
  value := .object .error
    [("name", .string "TypeError"), ("code", .string "ERR_INVALID_CHAR"), ("message", .string message)]
  toProblem := none
  http := none

/-! ### One request -/

/-- What the interceptors read of a route and of the service. -/
structure Handling where
  /-- The metadata of `@Deprecated(...)`. -/
  deprecation : Option DeprecationHeaders
  /-- The metadata of `@UseZodHttp(...)`. -/
  schema : Option ZodHttpSchema
  /-- The filter. -/
  env : Env

/-- A request, as the guards have let it through. -/
structure Admitted where
  /-- What the formatter and the filter read; its time is not the one of the formatter yet. -/
  exchange : Exchange
  /-- `req[part]`. -/
  part : Part → JsValue
  /-- The headers of the response. -/
  res : Response

/-- What a handler may read. -/
structure View where
  /-- What `@Validated(part)` gives. -/
  validated : Part → JsValue
  /-- `req[part]`. -/
  part : Part → JsValue

/-- What happens to a request. -/
inductive Moment where
  /-- `DeprecationInterceptor` throws. -/
  | threw (e : ErrorValue)
  /-- A part has been judged. -/
  | judged (part : Part) (v : Except ErrorValue JsValue)
  /-- The handler is called; the formatter has read the time. -/
  | called (view : View) (now : JsString)
  /-- The client is answered, with these headers. -/
  | replied (reply : Reply) (res : Response)

/-- What is thrown. -/
def Moment.error? : Moment → Option ErrorValue
  | .threw e | .judged _ (.error e) => some e
  | _ => none

/-- The part that is judged. -/
def Moment.part? : Moment → Option Part
  | .judged part _ => some part
  | _ => none

/-- Where a request is. -/
inductive Stage where
  /-- Before the interceptors. -/
  | admitted
  /-- In the interceptors. -/
  | intercepting
  /-- At the handler. -/
  | handling (now : JsString)
  /-- Answered. -/
  | over

/-- A request under way. -/
structure Underway where
  /-- Where it is. -/
  stage : Stage
  /-- `req[part]`. -/
  part : Part → JsValue
  /-- `req.validated`. -/
  validated : Part → Option JsValue
  /-- The parts whose `safeParseAsync` has not settled, each with its `source`. -/
  pending : List (Part × JsValue)
  /-- What the interceptors have failed with: `Promise.all` takes the first. -/
  rejection : Option ErrorValue
  /-- The headers of the response. -/
  res : Response
  /-- What has happened. -/
  history : List Moment

/-- What may happen next. -/
inductive Event where
  /-- The interceptors run, up to their `await`. -/
  | intercepts
  /-- A `safeParseAsync` settles. -/
  | settles (part : Part) (source : JsValue) (parsed : Except ErrorValue SafeParse)
  /-- The filter answers what they failed with. -/
  | rejects (now : JsString)
  /-- They have let the request through. -/
  | proceeds (now : JsString)
  /-- The handler is over. -/
  | finishes (now : JsString) (outcome : Except ErrorValue HandlerBody)

namespace Underway

variable (h : Handling) (a : Admitted)

/-- At the first interceptor. -/
def start : Underway := ⟨.admitted, a.part, fun _ => none, [], none, a.res, []⟩

/-- `store`. -/
def store (u : Underway) (part : Part) (value : JsValue) : Underway :=
  { u with
    validated := Function.update u.validated part (some value)
    part := if part = .body ∨ part = .params then Function.update u.part part value else u.part }

/-- More has happened. -/
def record (u : Underway) (m : Moment) : Underway := { u with history := u.history ++ [m] }

/-- `validate`, from where the schema has judged the part. -/
def judge (u : Underway) (part : Part) (parsed : Except ErrorValue SafeParse) : Underway :=
  match verdict part parsed with
  | .ok value => (u.store part value).record (.judged part (.ok value))
  | .error e => { u with rejection := u.rejection.or (some e) }.record (.judged part (.error e))

/-- `validate` of a part without `async`. -/
def validate (schema : ZodHttpSchema) (u : Underway) (part : Part) : Underway :=
  match schema.zod part with
  | none => u
  | some zod => u.judge part (zod.safeParse (u.part part))

/-- `ZodHttpInterceptor.intercept`, up to its `await`. -/
def interceptZod (u : Underway) : Underway :=
  match h.schema with
  | none => u
  | some schema =>
    if schema.async then { u with pending := schema.parts.map fun part => (part, u.part part) }
    else schema.parts.foldl (validate schema) u

/-- `DeprecationInterceptor.intercept`, and what its `next.handle()` begins. -/
def intercept (u : Underway) : Underway :=
  let deprecated := Deprecation.intercept h.deprecation u.res
  let u := { u with stage := .intercepting, res := deprecated.1 }
  match deprecated.2 with
  | some message =>
    { u with rejection := some (invalidCharError message) }.record (.threw (invalidCharError message))
  | none => u.interceptZod h

/-- What `@Validated(part)` reads. -/
def view (u : Underway) : View := ⟨fun part => (u.validated part).getD (u.part part), u.part⟩

/-- What may happen. -/
def Enabled (u : Underway) : Event → Prop
  | .intercepts => u.stage = .admitted
  | .settles part source parsed =>
    (part, source) ∈ u.pending ∧ ∃ schema, h.schema = some schema ∧ schema.Judges part source parsed
  | .rejects _ => u.stage = .intercepting ∧ u.rejection.isSome = true
  | .proceeds _ => u.stage = .intercepting ∧ u.rejection = none ∧ u.pending = []
  | .finishes _ _ => ∃ now, u.stage = .handling now

/-- The client is answered. -/
def reply (u : Underway) (r : Reply) : Underway := { u with stage := .over }.record (.replied r u.res)

/-- What comes of it. -/
def next (u : Underway) : Event → Underway
  | .intercepts => u.intercept h
  | .settles part _ parsed => { u with pending := u.pending.filter fun p => p.1 ≠ part }.judge part parsed
  | .rejects now =>
    match u.rejection with
    | some e => u.reply (catchException h.env a.exchange.req now false e).1
    | none => u
  | .proceeds now => { u with stage := .handling now }.record (.called u.view now)
  | .finishes now outcome =>
    match u.stage with
    | .handling then_ => u.reply (respond h.env { a.exchange with now := then_ } now outcome)
    | _ => u

/-- The machine of a request. -/
def machine : Machine Underway Event where
  Initial u := u = start a
  Enabled := Enabled h
  next := next h a

end Underway

/-! ### What is expected -/

/-- The parts that have been judged, in order. -/
def judgedParts (history : List Moment) : List Part := history.filterMap Moment.part?

/-- The first error that was thrown. -/
def firstError (history : List Moment) : Option ErrorValue := history.findSome? Moment.error?

/-- The handler has been called. -/
def Called (history : List Moment) : Prop := ∃ view now, .called view now ∈ history

/-- The client has been answered. -/
def Answered (history : List Moment) : Prop := ∃ reply res, .replied reply res ∈ history

section

variable (h : Handling) (a : Admitted)

/-- What a handler is to see: what the schemas have accepted, and the parts without a schema as they came. -/
structure Sees (past : List Moment) (view : View) : Prop where
  /-- A part with a schema. -/
  accepted : ∀ schema, h.schema = some schema → ∀ part ∈ schema.parts, .judged part (.ok (view.validated part)) ∈ past
  /-- A part without one. -/
  raw : ∀ part, (∀ schema, h.schema = some schema → part ∉ schema.parts) → view.validated part = a.part part
  /-- The parts that are replaced. -/
  replaced : ∀ part, part = .body ∨ part = .params → view.part part = view.validated part
  /-- Those that are not. -/
  kept : ∀ part, part = .query ∨ part = .headers → view.part part = a.part part

/-- **What has to have happened before a moment.** -/
def Rule (past : List Moment) : Moment → Prop
  | .threw e => past = [] ∧
      ∃ message, (Deprecation.intercept h.deprecation a.res).2 = some message ∧ e = invalidCharError message
  | .judged part v => part ∉ judgedParts past ∧
      ∃ schema parsed, h.schema = some schema ∧ schema.Judges part (a.part part) parsed ∧ v = verdict part parsed ∧
        (schema.async = false → judgedParts past ++ [part] <+: schema.parts)
  | .called view _ => firstError past = none ∧ ¬ Called past ∧ ¬ Answered past ∧ Sees h a past view
  | .replied reply res => ¬ Answered past ∧ res = (Deprecation.intercept h.deprecation a.res).1 ∧
      ((∃ e now, firstError past = some e ∧ ¬ Called past ∧
          reply = (catchException h.env a.exchange.req now false e).1) ∨
        ∃ view since now outcome, .called view since ∈ past ∧ firstError past = none ∧
          reply = respond h.env { a.exchange with now := since } now outcome)

end

namespace Underway

variable {h : Handling} {a : Admitted} {u : Underway}

/-! ### The invariant -/

/-- What is stored is what has been judged. -/
structure Stored (h : Handling) (a : Admitted) (u : Underway) : Prop where
  /-- Each moment keeps the rule. -/
  rule : Throughout (Rule h a) u.history
  /-- `Promise.all` has failed with the first error. -/
  rejection : u.rejection = firstError u.history
  /-- A value that is stored has been accepted. -/
  accepted : ∀ part value, u.validated part = some value → .judged part (.ok value) ∈ u.history
  /-- Where nothing has been refused, what has been judged is stored. -/
  whole : u.rejection = none → ∀ part ∈ judgedParts u.history, (u.validated part).isSome = true
  /-- `body` and `params` are replaced. -/
  part : ∀ part, u.part part =
    if part = .body ∨ part = .params then (u.validated part).getD (a.part part) else a.part part

theorem mem_judgedParts {history : List Moment} {part : Part} {v : Except ErrorValue JsValue}
    (hm : .judged part v ∈ history) : part ∈ judgedParts history :=
  List.mem_filterMap.mpr ⟨_, hm, rfl⟩

theorem Stored.validated_eq_none (hs : Stored h a u) {part : Part} (hnot : part ∉ judgedParts u.history) :
    u.validated part = none := by
  cases hv : u.validated part with
  | none => rfl
  | some value => exact absurd (mem_judgedParts (hs.accepted part value hv)) hnot

/-- A part that has not been judged is as it came. -/
theorem Stored.part_eq (hs : Stored h a u) {part : Part} (hnot : part ∉ judgedParts u.history) :
    u.part part = a.part part := by
  rw [hs.part, hs.validated_eq_none hnot, Option.getD_none, ite_self]

/-- It is about what is stored only. -/
theorem Stored.of_eq {u' : Underway} (hs : Stored h a u) (hhistory : u'.history = u.history)
    (hrejection : u'.rejection = u.rejection) (hvalidated : u'.validated = u.validated) (hpart : u'.part = u.part) :
    Stored h a u' := by
  constructor
  · rw [hhistory]
    exact hs.rule
  · rw [hrejection, hhistory]
    exact hs.rejection
  · rw [hvalidated, hhistory]
    exact hs.accepted
  · rw [hrejection, hvalidated, hhistory]
    exact hs.whole
  · rw [hvalidated, hpart]
    exact hs.part

theorem judge_stage (part : Part) (parsed : Except ErrorValue SafeParse) : (u.judge part parsed).stage = u.stage := by
  unfold judge
  cases verdict part parsed <;> rfl

theorem judge_pending (part : Part) (parsed : Except ErrorValue SafeParse) :
    (u.judge part parsed).pending = u.pending := by
  unfold judge
  cases verdict part parsed <;> rfl

theorem judge_res (part : Part) (parsed : Except ErrorValue SafeParse) : (u.judge part parsed).res = u.res := by
  unfold judge
  cases verdict part parsed <;> rfl

theorem judge_history (part : Part) (parsed : Except ErrorValue SafeParse) :
    (u.judge part parsed).history = u.history ++ [.judged part (verdict part parsed)] := by
  unfold judge
  cases verdict part parsed <;> rfl

theorem judgedParts_concat (history : List Moment) (m : Moment) :
    judgedParts (history ++ [m]) = judgedParts history ++ m.part?.toList := by
  cases m <;> simp [judgedParts, Moment.part?]

theorem firstError_concat (history : List Moment) (m : Moment) :
    firstError (history ++ [m]) = (firstError history).or m.error? := by
  rw [firstError, List.findSome?_append, firstError]
  cases hm : m.error? <;> simp [hm]

/-- Something else has happened. -/
theorem Stored.record (hs : Stored h a u) {m : Moment} (hrule : Rule h a u.history m) (herror : m.error? = none)
    (hpart : m.part? = none) : Stored h a (u.record m) := by
  constructor
  · exact throughout_concat.mpr ⟨hs.rule, hrule⟩
  · rw [Underway.record, firstError_concat, herror, Option.or_none]
    exact hs.rejection
  · exact fun part value hv => List.mem_append_left _ (hs.accepted part value hv)
  · intro hnone part hp
    rw [Underway.record, judgedParts_concat, hpart, Option.toList_none, List.append_nil] at hp
    exact hs.whole hnone part hp
  · exact hs.part

/-- **A part is judged.** -/
theorem Stored.judge (hs : Stored h a u) {part : Part} {parsed : Except ErrorValue SafeParse}
    (hrule : Rule h a u.history (.judged part (verdict part parsed))) : Stored h a (u.judge part parsed) := by
  have hhistory := throughout_concat.mpr ⟨hs.rule, hrule⟩
  unfold Underway.judge
  cases hv : verdict part parsed with
  | ok value =>
    rw [hv] at hhistory
    constructor
    · exact hhistory
    · simp only [Underway.record, store, firstError_concat, ← hs.rejection]
      simp [Moment.error?]
    · intro p w hw
      simp only [Underway.record, store, Function.update_apply] at hw
      split at hw
      · next hp =>
        subst hp
        rw [Option.some_inj.mp hw]
        exact List.mem_append_right _ (List.mem_singleton_self _)
      · exact List.mem_append_left _ (hs.accepted p w hw)
    · intro hnone p hp
      simp only [Underway.record, store, judgedParts_concat, Moment.part?, Option.toList_some, List.mem_append,
        List.mem_singleton, Function.update_apply] at hp ⊢
      split
      · rfl
      · next hne => exact hs.whole hnone p (hp.resolve_right hne)
    · intro p
      have hpart := hs.part p
      simp only [Underway.record, store, Function.update_apply]
      by_cases hp : p = part
      · subst hp
        by_cases hin : p = .body ∨ p = .params
        · simp [hin]
        · simp [hin, hpart]
      · by_cases hin : part = .body ∨ part = .params
        · simp [hin, hp, hpart]
        · simp [hin, hp, hpart]
  | error e =>
    rw [hv] at hhistory
    constructor
    · exact hhistory
    · simp only [Underway.record, firstError_concat, ← hs.rejection]
      rfl
    · intro p w hw
      exact List.mem_append_left _ (hs.accepted p w hw)
    · intro hnone p hp
      simp [Underway.record] at hnone
    · exact hs.part

/-- What holds of a request under way. -/
structure Inv (h : Handling) (a : Admitted) (u : Underway) : Prop extends Stored h a u where
  /-- Before the interceptors nothing has happened. -/
  admitted : u.stage = .admitted → u = start a
  /-- The headers are there from then on. -/
  res : u.stage ≠ .admitted → u.res = (Deprecation.intercept h.deprecation a.res).1
  /-- What is pending has not been judged, and will be, as it came. -/
  pending : ∀ p ∈ u.pending, p.2 = a.part p.1 ∧ p.1 ∉ judgedParts u.history ∧
    ∀ schema, h.schema = some schema → schema.async = true
  /-- No schema is left out. -/
  covered : u.stage = .intercepting → u.rejection = none → ∀ schema, h.schema = some schema →
    ∀ part ∈ schema.parts, part ∈ u.pending.map Prod.fst ∨ part ∈ judgedParts u.history
  /-- Only what is stored there comes of parts with a schema. -/
  schemas : ∀ part ∈ judgedParts u.history, ∃ schema, h.schema = some schema ∧ part ∈ schema.parts
  /-- In the interceptors, the handler has not been called. -/
  uncalled : u.stage = .intercepting → ¬ Called u.history ∧ ¬ Answered u.history
  /-- At the handler, it has been called. -/
  called : ∀ now, u.stage = .handling now →
    (∃ view, .called view now ∈ u.history) ∧ u.rejection = none ∧ u.pending = [] ∧ ¬ Answered u.history

theorem called_concat {history : List Moment} {m : Moment} :
    Called (history ++ [m]) ↔ Called history ∨ ∃ view now, m = .called view now := by
  simp only [Called, List.mem_append, List.mem_singleton]
  constructor
  · rintro ⟨view, now, hm | hm⟩
    exacts [.inl ⟨view, now, hm⟩, .inr ⟨view, now, hm.symm⟩]
  · rintro (⟨view, now, hm⟩ | ⟨view, now, rfl⟩)
    exacts [⟨view, now, .inl hm⟩, ⟨view, now, .inr rfl⟩]

theorem answered_concat {history : List Moment} {m : Moment} :
    Answered (history ++ [m]) ↔ Answered history ∨ ∃ reply res, m = .replied reply res := by
  simp only [Answered, List.mem_append, List.mem_singleton]
  constructor
  · rintro ⟨reply, res, hm | hm⟩
    exacts [.inl ⟨reply, res, hm⟩, .inr ⟨reply, res, hm.symm⟩]
  · rintro (⟨reply, res, hm⟩ | ⟨reply, res, rfl⟩)
    exacts [⟨reply, res, .inl hm⟩, ⟨reply, res, .inr rfl⟩]

theorem start_stored : Stored h a (start a) where
  rule := throughout_nil _
  rejection := rfl
  accepted part value hv := by cases hv
  whole _ part hp := absurd hp List.not_mem_nil
  part part := by simp [start]

theorem start_inv : Inv h a (start a) where
  toStored := start_stored
  admitted _ := rfl
  res hne := absurd rfl hne
  pending p hp := absurd hp List.not_mem_nil
  covered hstage := by cases hstage
  schemas part hp := absurd hp List.not_mem_nil
  uncalled hstage := by cases hstage
  called now hstage := by cases hstage

/-! ### One step -/

theorem judge_called (part : Part) (parsed : Except ErrorValue SafeParse) :
    Called (u.judge part parsed).history ↔ Called u.history := by
  rw [judge_history, called_concat, or_iff_left]
  rintro ⟨view, now, hm⟩
  cases hm

theorem judge_answered (part : Part) (parsed : Except ErrorValue SafeParse) :
    Answered (u.judge part parsed).history ↔ Answered u.history := by
  rw [judge_history, answered_concat, or_iff_left]
  rintro ⟨reply, res, hm⟩
  cases hm

theorem judge_judgedParts (part : Part) (parsed : Except ErrorValue SafeParse) :
    judgedParts (u.judge part parsed).history = judgedParts u.history ++ [part] := by
  rw [judge_history, judgedParts_concat]
  rfl

/-- A refusal stays. -/
theorem rejection_of_judge {part : Part} {parsed : Except ErrorValue SafeParse}
    (hnone : (u.judge part parsed).rejection = none) : u.rejection = none := by
  unfold judge at hnone
  cases hv : verdict part parsed with
  | ok value =>
    rw [hv] at hnone
    exact hnone
  | error e => simp [hv, record] at hnone

/-- What the parts that remain are judged to be, one after the other. -/
structure Validated (schema : ZodHttpSchema) (u u' : Underway) : Prop where
  /-- All of them have been judged. -/
  parts : judgedParts u'.history = schema.parts
  /-- The request is where it was. -/
  stage : u'.stage = u.stage
  /-- Nothing is pending that was not. -/
  pending : u'.pending = u.pending
  /-- The headers are as they were. -/
  res : u'.res = u.res
  /-- The handler has not been called. -/
  called : Called u'.history ↔ Called u.history
  /-- The client has not been answered. -/
  answered : Answered u'.history ↔ Answered u.history

theorem validate_foldl {schema : ZodHttpSchema} (hschema : h.schema = some schema) (hsync : schema.async = false)
    {before rest : List Part} (hparts : before ++ rest = schema.parts) (hs : Stored h a u)
    (hjudged : judgedParts u.history = before) :
    Stored h a (rest.foldl (validate schema) u) ∧ Validated schema u (rest.foldl (validate schema) u) := by
  induction rest generalizing before u with
  | nil =>
    rw [List.append_nil] at hparts
    exact ⟨hs, hjudged.trans hparts, rfl, rfl, rfl, Iff.rfl, Iff.rfl⟩
  | cons part rest ih =>
    have hmem : part ∈ schema.parts := hparts ▸ List.mem_append_right _ List.mem_cons_self
    obtain ⟨zod, hzod⟩ := Option.isSome_iff_exists.mp (schema.mem_parts.mp hmem)
    have hnew : part ∉ judgedParts u.history := by
      have hnodup := hparts ▸ schema.nodup_parts
      rw [hjudged]
      exact fun hin => (List.nodup_append.mp hnodup).2.2 part hin part List.mem_cons_self rfl
    have hparts' : (before ++ [part]) ++ rest = schema.parts := by
      rw [List.append_assoc]
      exact hparts
    have hjudge : validate schema u part = u.judge part (zod.safeParse (u.part part)) := by
      rw [validate, hzod]
    have hrule : Rule h a u.history (.judged part (verdict part (zod.safeParse (u.part part)))) := by
      refine ⟨hnew, schema, _, hschema, ⟨zod, hzod, ?_⟩, rfl, fun _ => ?_⟩
      · rw [if_neg (by simp [hsync]), hs.part_eq hnew]
      · rw [hjudged, ← hparts']
        exact List.prefix_append _ _
    rw [List.foldl_cons, hjudge]
    obtain ⟨hstored, hvalidated⟩ := ih hparts' (hs.judge hrule) (by rw [judge_judgedParts, hjudged])
    exact ⟨hstored, hvalidated.parts, hvalidated.stage.trans (judge_stage ..),
      hvalidated.pending.trans (judge_pending ..), hvalidated.res.trans (judge_res ..),
      hvalidated.called.trans (judge_called ..), hvalidated.answered.trans (judge_answered ..)⟩

/-- A `safeParseAsync` settles. -/
theorem Inv.settles (hi : Inv h a u) {part : Part} {source : JsValue} {parsed : Except ErrorValue SafeParse}
    (he : Enabled h u (.settles part source parsed)) : Inv h a (next h a u (.settles part source parsed)) := by
  obtain ⟨hmem, schema, hschema, hjudges⟩ := he
  obtain ⟨hsource, hnew, hasync⟩ := hi.pending _ hmem
  have hin : part ∈ schema.parts := by
    obtain ⟨zod, hzod, -⟩ := hjudges
    exact schema.mem_parts.mpr (by rw [hzod]; rfl)
  have hstage : u.stage ≠ .admitted := by
    intro hadmitted
    rw [hi.admitted hadmitted] at hmem
    cases hmem
  simp only at hsource hnew
  subst hsource
  have hstored : Stored h a { u with pending := u.pending.filter fun p => p.1 ≠ part } :=
    hi.toStored.of_eq rfl rfl rfl rfl
  constructor
  · refine hstored.judge ⟨hnew, schema, parsed, hschema, hjudges, rfl, fun hsync => ?_⟩
    rw [hasync schema hschema] at hsync
    cases hsync
  · exact fun hadmitted => absurd ((judge_stage part parsed).symm.trans hadmitted) hstage
  · exact fun _ => (judge_res part parsed).trans (hi.res hstage)
  · intro p hp
    rw [next, judge_pending, List.mem_filter, decide_eq_true_eq] at hp
    obtain ⟨hraw, hnot, hsync⟩ := hi.pending p hp.1
    refine ⟨hraw, ?_, hsync⟩
    rw [next, judge_judgedParts, List.mem_append, List.mem_singleton]
    exact not_or.mpr ⟨hnot, hp.2⟩
  · intro hintercepting hnone schema' hschema' p hp
    rw [next, judge_stage] at hintercepting
    rw [next, judge_pending, judge_judgedParts]
    by_cases hpart : p = part
    · exact .inr (List.mem_append_right _ (hpart ▸ List.mem_singleton_self _))
    · have hbefore : ({ u with pending := u.pending.filter fun p => p.1 ≠ part } : Underway).rejection = none :=
        rejection_of_judge hnone
      refine (hi.covered hintercepting hbefore schema' hschema' p hp).imp (fun hpending => ?_) (List.mem_append_left _)
      obtain ⟨q, hq, rfl⟩ := List.mem_map.mp hpending
      exact List.mem_map_of_mem (List.mem_filter.mpr ⟨hq, decide_eq_true hpart⟩)
  · intro p hp
    rw [next, judge_judgedParts, List.mem_append, List.mem_singleton] at hp
    rcases hp with hp | rfl
    exacts [hi.schemas p hp, ⟨schema, hschema, hin⟩]
  · intro hintercepting
    rw [next, judge_stage] at hintercepting
    rw [next, judge_called, judge_answered]
    exact hi.uncalled hintercepting
  · intro now hhandling
    rw [next, judge_stage] at hhandling
    obtain ⟨-, -, hpending, -⟩ := hi.called now hhandling
    rw [hpending] at hmem
    cases hmem

theorem not_called_nil : ¬ Called [] := fun ⟨_, _, hm⟩ => List.not_mem_nil hm

theorem not_answered_nil : ¬ Answered [] := fun ⟨_, _, hm⟩ => List.not_mem_nil hm

/-- `DeprecationInterceptor` throws. -/
theorem Inv.threw {message : JsString} (hd : (Deprecation.intercept h.deprecation a.res).2 = some message) :
    Inv h a ((Underway.record { start a with
      stage := .intercepting
      res := (Deprecation.intercept h.deprecation a.res).1
      rejection := some (invalidCharError message) }) (.threw (invalidCharError message))) := by
  constructor
  · constructor
    · exact throughout_concat.mpr ⟨throughout_nil _, rfl, message, hd, rfl⟩
    · rfl
    · exact fun part value hv => (by cases hv)
    · exact fun hnone => (by cases hnone)
    · exact (start_stored (h := h) (a := a)).part
  · exact fun hadmitted => (by cases hadmitted)
  · exact fun _ => rfl
  · exact fun p hp => absurd hp List.not_mem_nil
  · exact fun _ hnone => (by cases hnone)
  · exact fun part hp => absurd hp List.not_mem_nil
  · intro _
    rw [record, called_concat, answered_concat, not_or, not_or]
    exact ⟨⟨not_called_nil, fun ⟨_, _, hm⟩ => (by cases hm)⟩, not_answered_nil, fun ⟨_, _, hm⟩ => (by cases hm)⟩
  · exact fun now hhandling => (by cases hhandling)

/-- `ZodHttpInterceptor` runs. -/
theorem Inv.interceptZod (hstored : Stored h a u) (hstage : u.stage = .intercepting)
    (hres : u.res = (Deprecation.intercept h.deprecation a.res).1) (hpending : u.pending = []) (hempty : u.history = []) :
    Inv h a (u.interceptZod h) := by
  have hnew (part : Part) : part ∉ judgedParts u.history := by
    rw [hempty]
    exact List.not_mem_nil
  have huncalled : ¬ Called u.history ∧ ¬ Answered u.history := by
    rw [hempty]
    exact ⟨not_called_nil, not_answered_nil⟩
  have hlater : u.stage ≠ .admitted := by
    rw [hstage]
    exact fun heq => (by cases heq)
  have hearlier (now : JsString) : u.stage ≠ .handling now := by
    rw [hstage]
    exact fun heq => (by cases heq)
  unfold Underway.interceptZod
  cases hschema : h.schema with
  | none =>
    simp only
    constructor
    · exact hstored
    · exact fun hadmitted => absurd hadmitted hlater
    · exact fun _ => hres
    · intro p hp
      rw [hpending] at hp
      exact absurd hp List.not_mem_nil
    · intro _ _ schema hsome
      rw [hschema] at hsome
      cases hsome
    · exact fun part hp => absurd hp (hnew part)
    · exact fun _ => huncalled
    · exact fun now hhandling => absurd hhandling (hearlier now)
  | some schema =>
    have hone {schema' : ZodHttpSchema} (hsome : h.schema = some schema') : schema = schema' :=
      Option.some_inj.mp (hschema.symm.trans hsome)
    simp only
    split
    · next hasync =>
      constructor
      · exact hstored.of_eq rfl rfl rfl rfl
      · exact fun hadmitted => absurd hadmitted hlater
      · exact fun _ => hres
      · intro p hp
        obtain ⟨part, -, rfl⟩ := List.mem_map.mp hp
        exact ⟨hstored.part_eq (hnew part), hnew part, fun schema' hsome => hone hsome ▸ hasync⟩
      · intro _ _ schema' hsome part hpart
        refine .inl (List.mem_map.mpr ⟨_, List.mem_map_of_mem (hone hsome ▸ hpart), rfl⟩)
      · exact fun part hp => absurd hp (hnew part)
      · exact fun _ => huncalled
      · exact fun now hhandling => absurd hhandling (hearlier now)
    · next hsync =>
      have hnone : judgedParts u.history = [] := by
        rw [hempty]
        rfl
      obtain ⟨hall, hv⟩ :=
        validate_foldl hschema (Bool.eq_false_iff.mpr hsync) (List.nil_append schema.parts) hstored hnone
      constructor
      · exact hall
      · exact fun hadmitted => absurd (hv.stage.symm.trans hadmitted) hlater
      · exact fun _ => hv.res.trans hres
      · intro p hp
        rw [hv.pending, hpending] at hp
        exact absurd hp List.not_mem_nil
      · intro _ _ schema' hsome part hpart
        rw [← hone hsome] at hpart
        exact .inr (hv.parts.symm ▸ hpart)
      · exact fun part hp => ⟨schema, hschema, hv.parts ▸ hp⟩
      · exact fun _ => ⟨fun hc => huncalled.1 (hv.called.mp hc), fun ha => huncalled.2 (hv.answered.mp ha)⟩
      · exact fun now hhandling => absurd (hv.stage.symm.trans hhandling) (hearlier now)

/-- The interceptors run. -/
theorem Inv.intercepts (hi : Inv h a u) (he : u.stage = .admitted) : Inv h a (u.intercept h) := by
  rw [hi.admitted he]
  simp only [intercept]
  split
  · next message hd => exact Inv.threw hd
  · exact Inv.interceptZod (start_stored.of_eq rfl rfl rfl rfl) rfl rfl rfl rfl

/-- The client is answered. -/
theorem Inv.reply (hi : Inv h a u) {r : Reply} (hrule : Rule h a u.history (.replied r u.res))
    (hstage : u.stage ≠ .admitted) : Inv h a (u.reply r) := by
  constructor
  · exact (hi.toStored.record hrule rfl rfl).of_eq rfl rfl rfl rfl
  · exact fun hadmitted => (by cases hadmitted)
  · exact fun _ => hi.res hstage
  · intro p hp
    rw [Underway.reply, Underway.record, judgedParts_concat]
    simpa [Moment.part?] using hi.pending p hp
  · exact fun hintercepting => (by cases hintercepting)
  · intro part hp
    rw [Underway.reply, Underway.record, judgedParts_concat] at hp
    exact hi.schemas part (by simpa [Moment.part?] using hp)
  · exact fun hintercepting => (by cases hintercepting)
  · exact fun now hhandling => (by cases hhandling)

/-- The filter answers. -/
theorem Inv.rejects (hi : Inv h a u) {now : JsString} (he : Enabled h u (.rejects now)) :
    Inv h a (next h a u (.rejects now)) := by
  obtain ⟨hstage, hsome⟩ := he
  obtain ⟨e, herror⟩ := Option.isSome_iff_exists.mp hsome
  obtain ⟨huncalled, hunanswered⟩ := hi.uncalled hstage
  have hlater : u.stage ≠ .admitted := by
    rw [hstage]
    exact fun heq => (by cases heq)
  simp only [next, herror]
  refine hi.reply ⟨hunanswered, hi.res hlater, .inl ⟨e, now, ?_, huncalled, rfl⟩⟩ hlater
  rw [← hi.rejection, herror]

/-- The handler is over. -/
theorem Inv.finishes (hi : Inv h a u) {now : JsString} {outcome : Except ErrorValue HandlerBody}
    (he : Enabled h u (.finishes now outcome)) : Inv h a (next h a u (.finishes now outcome)) := by
  obtain ⟨since, hstage⟩ := he
  obtain ⟨⟨view, hview⟩, hnone, -, hunanswered⟩ := hi.called since hstage
  have hlater : u.stage ≠ .admitted := by
    rw [hstage]
    exact fun heq => (by cases heq)
  simp only [next, hstage]
  refine hi.reply ⟨hunanswered, hi.res hlater, .inr ⟨view, since, now, outcome, hview, ?_, rfl⟩⟩ hlater
  rw [← hi.rejection, hnone]

/-- What the handler is called with. -/
theorem Inv.sees (hi : Inv h a u) (hstage : u.stage = .intercepting) (hnone : u.rejection = none)
    (hpending : u.pending = []) : Sees h a u.history u.view where
  accepted schema hschema part hpart := by
    have hjudged : part ∈ judgedParts u.history := by
      rcases hi.covered hstage hnone schema hschema part hpart with hp | hp
      · rw [hpending] at hp
        exact absurd hp List.not_mem_nil
      · exact hp
    obtain ⟨value, hvalue⟩ := Option.isSome_iff_exists.mp (hi.whole hnone part hjudged)
    have hin := hi.accepted part value hvalue
    rwa [← Option.getD_some (a := value) (b := u.part part), ← hvalue] at hin
  raw part hno := by
    have hnot : part ∉ judgedParts u.history := fun hp => by
      obtain ⟨schema, hschema, hpart⟩ := hi.schemas part hp
      exact hno schema hschema hpart
    simp only [view, hi.validated_eq_none hnot, Option.getD_none, hi.part_eq hnot]
  replaced part hp := by
    have hpart := hi.part part
    rw [if_pos hp] at hpart
    simp only [view]
    cases hv : u.validated part with
    | none => rfl
    | some value => rw [hpart, hv, Option.getD_some, Option.getD_some]
  kept part hp := by
    have hpart := hi.part part
    rwa [if_neg (by rcases hp with rfl | rfl <;> decide)] at hpart

/-- The handler is called. -/
theorem Inv.proceeds (hi : Inv h a u) {now : JsString} (he : Enabled h u (.proceeds now)) :
    Inv h a (next h a u (.proceeds now)) := by
  obtain ⟨hstage, hnone, hpending⟩ := he
  obtain ⟨huncalled, hunanswered⟩ := hi.uncalled hstage
  have hrule : Rule h a u.history (.called u.view now) :=
    ⟨by rw [← hi.rejection, hnone], huncalled, hunanswered, hi.sees hstage hnone hpending⟩
  constructor
  · exact (hi.toStored.record hrule rfl rfl).of_eq rfl rfl rfl rfl
  · exact fun hadmitted => (by cases hadmitted)
  · exact fun _ => hi.res (by rw [hstage]; exact fun heq => (by cases heq))
  · intro p hp
    simp only [next, record, hpending] at hp
    exact absurd hp List.not_mem_nil
  · exact fun hintercepting => (by cases hintercepting)
  · intro part hp
    rw [next, record, judgedParts_concat] at hp
    exact hi.schemas part (by simpa [Moment.part?] using hp)
  · exact fun hintercepting => (by cases hintercepting)
  · intro since hhandling
    cases hhandling
    refine ⟨⟨u.view, List.mem_append_right _ (List.mem_singleton_self _)⟩, hnone, hpending, ?_⟩
    rw [next, record, answered_concat, not_or]
    exact ⟨hunanswered, fun ⟨_, _, hm⟩ => (by cases hm)⟩

/-- **One step.** -/
theorem Inv.next (hi : Inv h a u) {e : Event} (he : Enabled h u e) : Inv h a (Underway.next h a u e) := by
  cases e with
  | intercepts => exact hi.intercepts he
  | settles part source parsed => exact hi.settles he
  | rejects now => exact hi.rejects he
  | proceeds now => exact hi.proceeds he
  | finishes now outcome => exact hi.finishes he

end Underway

/-! ### Every run -/

/-- **What happens to a request**, from the guards to its answer: the handler is called at most once, after every part
with a schema has been accepted, and sees what has been accepted; the client is answered at most once, by the first
refusal or else by what the handler was over with, and with the deprecation headers of the route. -/
theorem rule_throughout (h : Handling) (a : Admitted) {es : List Event} {u : Underway}
    (hr : (Underway.machine h a).Run es u) : Throughout (Rule h a) u.history := by
  have hinv : Underway.Inv h a u := hr.invariant (fun u hu => hu ▸ Underway.start_inv) fun u e hi he => hi.next he
  exact hinv.rule

/-- A schema that takes objects, once it has been asked to wait. -/
def objectSchema : ZodType where
  safeParse v := if v.isRecord then .ok (.ok v) else .ok (.error [⟨[], "Invalid input"⟩])
  SafeParseAsync v parsed := parsed = if v.isRecord then .ok (.ok v) else .ok (.error [⟨[], "Invalid input"⟩])

/-- A route with a schema of its body and one of its query. -/
def objectRoute : Handling where
  deprecation := none
  schema := some ⟨some objectSchema, some objectSchema, none, none, true⟩
  env := plainEnv

/-- A request with a text for its body. -/
def textRequest : Admitted where
  exchange := plainExchange
  part
    | .body => .string "text"
    | _ => .object .plain []
  res := .empty

/-- The query is accepted, then the body is refused. -/
def textEvents : List Event :=
  [.intercepts, .settles .query (.object .plain []) (.ok (.ok (.object .plain []))),
    .settles .body (.string "text") (.ok (.error [⟨[], "Invalid input"⟩])), .rejects "now"]

theorem rule_throughout_text : ∃ u, (Underway.machine objectRoute textRequest).Run textEvents u ∧
    u.history.length = 3 ∧ Throughout (Rule objectRoute textRequest) u.history := by
  have hplay : (Underway.machine objectRoute textRequest).Playable (Underway.start textRequest) textEvents := by
    refine ⟨rfl, ⟨List.mem_cons_of_mem _ List.mem_cons_self, _, rfl, objectSchema, rfl, rfl⟩,
      ⟨List.mem_cons_self, _, rfl, objectSchema, rfl, rfl⟩, ⟨rfl, rfl⟩, trivial⟩
  have hrun := Machine.Run.play (rfl : (Underway.machine objectRoute textRequest).Initial _) hplay
  exact ⟨_, hrun, rfl, rule_throughout objectRoute textRequest hrun⟩

end NestDdd.Http.Pipeline
