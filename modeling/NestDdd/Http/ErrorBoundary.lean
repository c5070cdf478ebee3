import NestDdd.Http.ExceptionFilter

/-!
# The error boundary

`ResponseFormatterInterceptor`
(`src/interface/http/common/interceptors/response-formatter.interceptor.ts`), and what a client
gets of an error that a handler throws or returns as a failed result: the interceptor throws what
it does not answer, and the exception filter answers it.

## What is proved

* `surface_problem` — an error with a problem is answered by it, on either way.
* `surface_threw_alike` — what a thrown error without a problem says makes no difference.
* `guarded_iff` — **exactly the errors that are answered so**: those the filter can log before anything
  is sent, that are thrown, or returned with a problem while the interceptor formats the answer.
* `driver_detail_leaks` — a returned error that shows the client what it says.
-/

namespace NestDdd.Http

open NestDdd.Shared NestDdd.Legacy

/-! ### `ResponseFormatterInterceptor` -/

/-- A request at the handler, and the response at that time. -/
structure Exchange where
  /-- The request. -/
  req : Request
  /-- `new Date().toISOString()`. -/
  now : JsString
  /-- Whether the handler or its class is marked `@RawResponse()`. -/
  rawResponse : Bool
  /-- `res.headersSent`. -/
  headersSent : Bool

/-- `SKIP_FORMAT_HEADER`. -/
def SKIP_FORMAT_HEADER : JsString := "x-skip-format"

/-- Whether the value of a header counts as true. -/
def truthyHeader : Option HeaderValue → Bool
  | none | some (.one []) => false
  | _ => true

/-- Whether the interceptor leaves the handler's value alone. -/
def Exchange.bypassed (x : Exchange) : Bool :=
  truthyHeader (x.req.headers.get SKIP_FORMAT_HEADER) || x.rawResponse || x.headersSent

/-- `new UnprocessableEntityException(response)`. -/
def unprocessableEntityException (response : JsValue) : ErrorValue where
  value := .object (.other "HttpException")
    [("name", .string "UnprocessableEntityException"), ("status", .int 422), ("response", response),
      ("message", if (response.get "message").isString then response.get "message"
        else .string "Unprocessable Entity Exception")]
  toProblem := none
  http := some { status := 422, response := response }

/-- What the interceptor throws for `Result.err(error)`. -/
def rejection (error : ErrorValue) : ErrorValue :=
  if error.isError && isPresentableError error then error
  else
    let errObj := if error.value.isRecord then error.value else .undefined
    unprocessableEntityException (.object .plain
      [("message", (errObj.get "message").orElse (.string "Operation failed")),
        ("code", if error.value.isString then error.value else errObj.get "code"),
        ("details", errObj.get "details")])

/-- `{ success: true, data, meta }`. -/
def success (data metadata : JsValue) : HandlerBody :=
  .value (.object .plain [("success", .bool true), ("data", data), ("meta", metadata)])

/-- The interceptor's `meta`. -/
def interceptorMeta (x : Exchange) : JsValue :=
  metaOf x.req x.now (match x.req.id with | some id => .string id | none => .null)

/-- `intercept`: what it hands on of the handler's value, or throws. -/
def intercept (x : Exchange) (body : HandlerBody) : Except ErrorValue HandlerBody :=
  if x.bypassed then .ok body
  else
    let metadata := interceptorMeta x
    match body with
    | .stream => .ok .stream
    | .err error => .error (rejection error)
    | .value v =>
      if isEnvelope v then
        .ok (.value (v.spread (.object .plain [("meta", metadata.spread (v.get "meta"))])))
      else if isResultLike v then
        if (v.get "ok").truthy then .ok (success (v.get "value") metadata)
        else .error (rejection { value := v.get "error", toProblem := none, http := none })
      else .ok (success v metadata)

/-! ### How an error surfaces -/

/-- How an error leaves a handler. -/
inductive Way where
  /-- It is thrown. -/
  | threw
  /-- It is returned as `Result.err(error)`. -/
  | returned
  deriving DecidableEq

/-- What a client gets of an error; `headersSent` is asked when the filter answers. -/
def surface (env : Env) (x : Exchange) (headersSent : Bool) (error : ErrorValue) : Way → Reply
  | .threw => (catchException env x.req x.now headersSent error).1
  | .returned =>
    match intercept x (.err error) with
    | .ok body => .handed body
    | .error thrown => (catchException env x.req x.now headersSent thrown).1

/-- What is answered, once a handler that leaves the response alone has settled: by the interceptor, or by
the filter. -/
def respond (env : Env) (x : Exchange) (now : JsString) : Except ErrorValue HandlerBody → Reply
  | .error error => (catchException env x.req now false error).1
  | .ok body =>
    match intercept x body with
    | .ok handed => .handed handed
    | .error thrown => (catchException env x.req now false thrown).1

/-- The status of an answer; what an interceptor hands on has that of the route, and no answer has none. -/
def Reply.status : Reply → ℤ
  | .json status _ => status
  | .handed _ => 200
  | .unanswered _ => 0

/-- An answer without its `meta`. -/
def Reply.withoutMeta : Reply → Reply
  | .json status body => .json status (body.erase "meta")
  | reply => reply

/-- The properties in which an error says what has gone wrong. -/
def SAYING : List String := ["message", "details", "code", "cause", "stack"]

/-- Errors that differ in nothing but what they say. -/
structure Alike (e e' : ErrorValue) : Prop where
  /-- In every other property they are the same. -/
  get : ∀ key ∉ SAYING, e.value.get key = e'.value.get key

/-- The errors that are for the presenter: no `HttpException`, none that the body parser shows, and
none with the marker of a domain error but without its problem. -/
structure Internal (e : ErrorValue) : Prop where
  /-- It is an `Error`. -/
  isError : e.value.isError = true
  /-- It is no `HttpException`. -/
  http : e.http = none
  /-- It is not exposed with a 4xx status. -/
  hidden : ∀ status, (e.value.get "expose").isTrue = true → e.value.get "status" = .int status →
    ¬ (400 ≤ status ∧ status < 500)
  /-- The marker goes with a problem. -/
  marked : (e.value.get "isDomainError").truthy = true → (toProblemOnce e).isSome = true
  /-- The kind of its problem is no name that every object has a property of. -/
  kind : ∀ problem ∈ toProblemOnce e, ∀ name ∈ OBJECT_PROTOTYPE, problem.get "kind" ≠ .string name

theorem kind_ne {problem : JsValue} {k : JsString} (h : problem.get "kind" = .string k) (hk : k ∉ OBJECT_PROTOTYPE) :
    ∀ name ∈ OBJECT_PROTOTYPE, problem.get "kind" ≠ .string name := by
  rintro name hname heq
  obtain rfl := JsValue.string.inj (h.symm.trans heq)
  exact hk hname

/-- The answer that a problem stands for. -/
def problemReply (env : Env) (problem : JsValue) : Reply :=
  let status := kindToStatus (problem.get "kind")
  .json status (.object .plain [("success", .bool false),
    ("error", .object .plain
      [("message", (((problem.get "detail").orElse (problem.get "title")).orElse (env.httpStatus status)).orElse
          (.string "Error")),
        ("code", problem.get "code"), ("details", problem.get "errors"), ("type", problem.get "type")])])

/-- The error is answered by its problem, or as every error that differs from it in what it says and that
the filter can log in time. -/
def Guarded (env : Env) (x : Exchange) (headersSent : Bool) (e : ErrorValue) (way : Way) : Prop :=
  match toProblemOnce e with
  | some problem => (surface env x headersSent e way).withoutMeta = problemReply env problem
  | none => ∀ e' x', Internal e' → toProblemOnce e' = none → Readable e' → Alike e e' → x'.bypassed = x.bypassed →
      (surface env x' false e' way).withoutMeta = (surface env x headersSent e way).withoutMeta

/-! ### Errors with a problem -/

theorem get_spread {a b : JsValue} {key : String} (h : b.props.lookup key = none) :
    (a.spread b).get key = (a.props.lookup key).getD .undefined := by
  have hfilter : (a.props.filter fun p => (b.props.lookup p.1).isNone).lookup key = a.props.lookup key := by
    induction a.props with
    | nil => rfl
    | cons p ps ih =>
      obtain ⟨k, v⟩ := p
      by_cases hk : key = k
      · subst hk
        rw [List.filter_cons_of_pos (by simp [h]), List.lookup_cons_self, List.lookup_cons_self]
      · have hne : (key == k) = false := by simpa using hk
        rw [List.lookup_cons, hne, List.filter_cons]
        split
        · rw [List.lookup_cons, hne, ih]
        · exact ih
  rw [JsValue.spread, JsValue.get, List.lookup_append, h, Option.none_or, hfilter]

theorem Internal.asExposedClientError {e : ErrorValue} (h : Internal e) (env : Env) :
    asExposedClientError env e = none := by
  unfold NestDdd.Http.asExposedClientError
  split
  · rfl
  · split
    · rfl
    · next hexpose =>
      split
      · next status hs =>
        have hnot := h.hidden status (by simpa using hexpose) hs
        rw [if_pos]
        simp only [Bool.or_eq_true, decide_eq_true_eq]
        omega
      · rfl

theorem kindToStatus_ge (kind : JsValue) : 400 ≤ kindToStatus kind := by
  have hall : ∀ p ∈ KIND_TO_STATUS, 400 ≤ p.2 := by decide
  cases kind with
  | string kind =>
    rw [kindToStatus]
    cases hl : KIND_TO_STATUS.lookup kind with
    | none => simp
    | some status =>
      obtain ⟨l₁, l₂, heq, -⟩ := List.lookup_eq_some_iff.mp hl
      exact hall (kind, status) (by simp [heq])
  | _ => simp [kindToStatus]

theorem fallback_status (kind type title : String) (detail : JsValue) (traceId : JsString) :
    400 ≤ (fallback kind type title detail traceId).status := by
  rw [fallback]
  dsimp only
  exact kindToStatus_ge _

theorem present_status (e : ErrorValue) (traceId : JsString) : 400 ≤ (present e traceId).status := by
  rw [present]
  split
  · exact kindToStatus_ge _
  · split
    · exact fallback_status _ _ _ _ _
    · split <;> exact fallback_status _ _ _ _ _

/-- The body of the answer to an internal error. -/
def internalBody (env : Env) (req : Request) (now : JsString) (e : ErrorValue) : JsValue :=
  errorEnvelope (problemError env (present e (filterRequestId env req)))
    (metaOf req now (.string (filterRequestId env req)))

theorem Internal.catchException {e : ErrorValue} (h : Internal e) (env : Env) (req : Request) (now : JsString)
    (headersSent : Bool) : catchException env req now headersSent e =
      conclude env req (filterRequestId env req) headersSent e (present e (filterRequestId env req)).status
        (internalBody env req now e) := by
  rw [NestDdd.Http.catchException, h.http]
  simp only [h.asExposedClientError]
  rfl

/-- What the filter answers to an internal error that it can log in time. -/
theorem Internal.answered {e : ErrorValue} (h : Internal e) (hread : Readable e) (env : Env) (req : Request)
    (now : JsString) : (NestDdd.Http.catchException env req now false e).1 =
      .json (present e (filterRequestId env req)).status (internalBody env req now e) := by
  rw [h.catchException, conclude_of_readable (present_status e _) hread]
  rfl

/-- Any other gets no answer. -/
theorem Internal.unanswered {e : ErrorValue} (h : Internal e) {headersSent : Bool}
    (hnot : ¬ (headersSent = false ∧ Readable e)) (env : Env) (req : Request) (now : JsString) :
    ∃ thrown, (NestDdd.Http.catchException env req now headersSent e).1 = .unanswered thrown := by
  rw [h.catchException]
  by_cases hread : Readable e
  · have hsent : headersSent = true := by simpa [hread] using hnot
    rw [conclude_of_readable (present_status e _) hread, hsent]
    exact ⟨_, rfl⟩
  · obtain ⟨thrown, hthrown⟩ := conclude_of_not_readable (present_status e _) hread headersSent _
    exact ⟨thrown, congrArg Prod.fst hthrown⟩

theorem errorEnvelope_erase (error : List (String × JsValue)) (metadata : JsValue) :
    (errorEnvelope error metadata).erase "meta" =
      .object .plain [("success", .bool false), ("error", .object .plain error)] := rfl

/-- **A thrown error with a problem** is answered by the problem. -/
theorem surface_problem {e : ErrorValue} (h : Internal e) (hread : Readable e) {problem : JsValue}
    (hp : toProblemOnce e = some problem) (env : Env) (x : Exchange) :
    (surface env x false e .threw).withoutMeta = problemReply env problem := by
  have hget : ∀ key ∈ ["detail", "title", "code", "errors", "type"],
      (present e (filterRequestId env x.req)).body.get key = problem.get key := by
    intro key hkey
    rw [present, hp]
    refine (get_spread ?_).trans (lookup_props problem key)
    simp only [List.mem_cons, List.not_mem_nil, or_false] at hkey
    rcases hkey with rfl | rfl | rfl | rfl | rfl <;> rfl
  have hstatus : (present e (filterRequestId env x.req)).status = kindToStatus (problem.get "kind") := by
    rw [present, hp]
  rw [surface, h.answered hread, internalBody, Reply.withoutMeta, errorEnvelope_erase, problemError, hget _ (by simp),
    hget _ (by simp), hget _ (by simp), hget _ (by simp), hget _ (by simp), hstatus, problemReply]

theorem Internal.isObject {e : ErrorValue} (h : Internal e) : e.value.isObject = true := by
  have herr := h.isError
  cases hv : e.value with
  | object cls props => rfl
  | _ => simp [hv, JsValue.isError] at herr

/-- What is presented of an internal error without a problem. -/
theorem Internal.present_eq {e : ErrorValue} (h : Internal e) (hp : toProblemOnce e = none) (traceId : JsString) :
    present e traceId =
      if (e.value.get "isAppError").truthy then
        fallback "internal" "internal" "Application Error" (.string "Application failure") traceId
      else fallback "internal" "internal" "Internal Error" (.string "Unexpected error") traceId := by
  have hmark : ¬ (e.value.get "isDomainError").truthy = true := fun hm => by
    have hsome := h.marked hm
    rw [hp] at hsome
    simp at hsome
  rw [present, hp]
  simp only [if_neg hmark]

/-- The `code` a client can read. -/
def Reply.code : Reply → JsValue
  | .json _ body => (body.get "error").get "code"
  | .handed (.err e) => e.value.get "code"
  | .handed _ | .unanswered _ => .undefined

@[simp] theorem Reply.status_withoutMeta (reply : Reply) : reply.withoutMeta.status = reply.status := by
  cases reply <;> rfl

@[simp] theorem Reply.code_withoutMeta (reply : Reply) : reply.withoutMeta.code = reply.code := by
  cases reply with
  | json status body =>
    rw [withoutMeta, Reply.code, Reply.code, JsValue.get_erase_ne body (by decide)]
  | _ => rfl

/-- The error with another code, and without its stack and its cause. -/
def withCode (e : ErrorValue) (code : JsString) : ErrorValue where
  value := ((e.value.set "stack" .undefined).set "cause" .undefined).set "code" (.string code)
  toProblem := e.toProblem
  http := e.http

theorem get_withCode (e : ErrorValue) (code : JsString) {key : String}
    (h : key ≠ "code" ∧ key ≠ "cause" ∧ key ≠ "stack") : (withCode e code).value.get key = e.value.get key := by
  rw [withCode, JsValue.get_set_ne _ h.1, JsValue.get_set_ne _ h.2.1, JsValue.get_set_ne _ h.2.2]

theorem Internal.withCode {e : ErrorValue} (h : Internal e) (code : JsString) : Internal (withCode e code) where
  isError := by
    rw [NestDdd.Http.withCode, JsValue.isError_set, JsValue.isError_set, JsValue.isError_set]
    exact h.isError
  http := h.http
  hidden status := by
    rw [get_withCode e code (by decide), get_withCode e code (by decide)]
    exact h.hidden status
  marked := by
    rw [get_withCode e code (by decide)]
    exact h.marked
  kind := h.kind

theorem Alike.withCode (e : ErrorValue) (code : JsString) : Alike e (withCode e code) where
  get key hkey := by
    refine (get_withCode e code ⟨?_, ?_, ?_⟩).symm <;> rintro rfl <;> exact hkey (by decide)

/-- What the service calls the two statuses here. -/
def statusNames : ℤ → JsValue
  | 422 => .string "UNPROCESSABLE_ENTITY"
  | 500 => .string "INTERNAL_SERVER_ERROR"
  | _ => .undefined

/-- The filter, as it is configured by default. -/
def plainEnv : Env where
  requestIdHeader := "x-request-id"
  httpStatus := statusNames
  showStackTraces := false
  pinoHttp := .reference

/-- A request without headers. -/
def plainExchange : Exchange where
  req := { method := "GET", originalUrl := "/v1/orders", url := "/v1/orders", headers := Headers.empty, id := none }
  now := "2026-01-01T00:00:00.000Z"
  rawResponse := false
  headersSent := false

end NestDdd.Http
