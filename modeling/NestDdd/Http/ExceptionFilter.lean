import NestDdd.Common.ErrorOrigin
import NestDdd.Legacy.ForwardHeaders
import NestDdd.Shared.Problem

/-!
# Errors to responses

`ErrorPresenter` (`src/interface/http/error-presenter.ts`) and `GlobalExceptionFilter`
(`src/interface/http/global-exception.filter.ts`), which every error that no one handles ends in.

## The model

The filter's answer and its log lines are a function of the error, the request and the time. What
`HttpStatus` calls a status is a parameter, and so is `pino-http`, with its laws. The filter logs before it
answers, and what its log throws at a stack that cannot be read is thrown instead of an answer; so is what
Node throws once the headers have been sent. An error that the service makes itself is without its
stack, a string that only the log reads.

## What is proved

* `exists_log_iff` — **the filter can log** exactly the errors whose chain of causes can be read.
-/

namespace NestDdd.Http

open NestDdd.Shared NestDdd.Theory NestDdd.Legacy NestDdd.Common

/-- An Express request, as far as the service's own code reads it. -/
structure Request where
  /-- `req.method`. -/
  method : JsString
  /-- `req.originalUrl`. -/
  originalUrl : JsString
  /-- `req.url`. -/
  url : JsString
  /-- `req.headers`. -/
  headers : Headers id
  /-- `req.id`, if it is a string. -/
  id : Option JsString

/-- `pino-http`, as far as it gives a request its id. -/
structure PinoHttp where
  /-- What it leaves of a request, given `genReqId`. -/
  identify : (Request → Request) → Request → Request
  /-- It asks for an id if there is none. -/
  asks : ∀ genReqId req, req.id = none ∨ req.id = some [] → identify genReqId req = genReqId req
  /-- It keeps the one there is. -/
  keeps : ∀ genReqId req v, req.id = some v → v ≠ [] → identify genReqId req = req

/-- `req.id || genReqId(req)`. -/
def PinoHttp.reference : PinoHttp where
  identify genReqId req := if (req.id.getD []).isEmpty then genReqId req else req
  asks genReqId req h := by rcases h with h | h <;> simp [h]
  keeps genReqId req v h hv := by simp [h, hv]

/-- What the service's own code depends on besides the request and the error. -/
structure Env where
  /-- `logging.requestIdHeader`; it has a default, so the filter's own one is never used. -/
  requestIdHeader : JsString
  /-- `HttpStatus[status]`. -/
  httpStatus : ℤ → JsValue
  /-- `logging.showStackTraces`. -/
  showStackTraces : Bool
  /-- `pino-http`. -/
  pinoHttp : PinoHttp

/-! ### `ErrorPresenter` -/

/-- `KIND_TO_STATUS`. -/
def KIND_TO_STATUS : List (JsString × ℤ) :=
  [("validation", 422), ("not_found", 404), ("conflict", 409), ("unauthorized", 401), ("forbidden", 403),
    ("service_unavailable", 503), ("bad_request", 400), ("internal", 500), ("not_implemented", 501)]

/-- The properties that `KIND_TO_STATUS` has as every object. -/
def OBJECT_PROTOTYPE : List JsString :=
  ["constructor", "__defineGetter__", "__defineSetter__", "hasOwnProperty", "__lookupGetter__", "__lookupSetter__",
    "isPrototypeOf", "propertyIsEnumerable", "toString", "valueOf", "__proto__", "toLocaleString"]

/-- `KIND_TO_STATUS[kind] ?? HttpStatus.INTERNAL_SERVER_ERROR`, for a kind that is none of these. -/
def kindToStatus : JsValue → ℤ
  | .string kind => (KIND_TO_STATUS.lookup kind).getD 500
  | _ => 500

/-- `PresentedError`. -/
structure PresentedError where
  /-- `status`. -/
  status : ℤ
  /-- `body`. -/
  body : JsValue

/-- `toProblemOnce`. -/
def toProblemOnce (error : ErrorValue) : Option JsValue :=
  match error.toProblem with
  | some (.returns problem) => if isProblemLike problem then some problem else none
  | _ => none

/-- A problem that the presenter makes up itself. -/
def fallback (kind type title : String) (detail : JsValue) (traceId : JsString) : PresentedError :=
  let status := kindToStatus (.string kind)
  { status := status
    body := .object .plain
      [("kind", .string kind), ("type", problemType type), ("title", .string title), ("detail", detail),
        ("status", .int status), ("traceId", .string traceId)] }

/-- `present`. -/
def present (error : ErrorValue) (traceId : JsString) : PresentedError :=
  match toProblemOnce error with
  | some problem =>
    let status := kindToStatus (problem.get "kind")
    { status := status
      body := problem.spread (.object .plain [("status", .int status), ("traceId", .string traceId)]) }
  | none =>
    if (error.value.get "isDomainError").truthy then
      fallback "validation" "validation" "Domain Error"
        ((error.value.get "message").orElse (.string "Domain rule violated")) traceId
    else if (error.value.get "isAppError").truthy then
      fallback "internal" "internal" "Application Error" (.string "Application failure") traceId
    else fallback "internal" "internal" "Internal Error" (.string "Unexpected error") traceId

/-! ### `GlobalExceptionFilter` -/

/-- An `http-errors` value that may be shown. -/
structure ClientError where
  /-- `status`. -/
  status : ℤ
  /-- `message`. -/
  message : JsValue
  /-- `type`. -/
  type : JsValue

/-- `asExposedClientError`; a number that is no integer is no status. -/
def asExposedClientError (env : Env) (e : ErrorValue) : Option ClientError :=
  if !e.value.isRecord && !e.isError then none
  else if !(e.value.get "expose").isTrue then none
  else
    match e.value.get "status" with
    | .int status =>
      if status < 400 || 500 ≤ status then none
      else some {
        status := status
        message :=
          if (e.value.get "message").isString then e.value.get "message"
          else (env.httpStatus status).orElse (.string "Error")
        type := if (e.value.get "type").isString then e.value.get "type" else .undefined }
    | _ => none

/-- `toMessage`. -/
def toMessage (response : JsValue) : JsValue :=
  if response.isString then response
  else if response.isArray && response.elements.all JsValue.isString then .string (response.join "; ")
  else .undefined

/-- What a handler returns. -/
inductive HandlerBody where
  /-- A `Buffer`, a `StreamableFile` or a `Readable`. -/
  | stream
  /-- `Result.err(error)`. -/
  | err (error : ErrorValue)
  /-- Any other value; what it may carry as an `error` has no methods. -/
  | value (v : JsValue)

/-- What is answered. -/
inductive Reply where
  /-- `res.status(status).json(body)`. -/
  | json (status : ℤ) (body : JsValue)
  /-- What an interceptor hands on, for Nest to send with the status of the route. -/
  | handed (body : HandlerBody)
  /-- The filter itself throws. -/
  | unanswered (e : JsValue)

/-- `{ success: false, error, meta }`. -/
def errorEnvelope (error : List (String × JsValue)) (metadata : JsValue) : JsValue :=
  .object .plain [("success", .bool false), ("error", .object .plain error), ("meta", metadata)]

/-- The header of a request, if it is a single string. -/
def headerId (env : Env) (req : Request) : Option JsString :=
  match req.headers.get env.requestIdHeader with
  | some (.one v) => some v
  | _ => none

/-- The filter's `requestId`. -/
def filterRequestId (env : Env) (req : Request) : JsString :=
  match req.id with
  | some id => id
  | none => (headerId env req).getD "no-id"

/-- `Meta`. -/
def metaOf (req : Request) (now : JsString) (requestId : JsValue) : JsValue :=
  .object .plain
    [("timestamp", .string now), ("path", .string (if req.originalUrl = [] then req.url else req.originalUrl)),
      ("requestId", requestId)]

/-- A value, its cause, the cause of that, and so on. -/
def causeAt (exception : ErrorValue) : ℕ → JsValue
  | 0 => exception.value
  | n + 1 => (causeAt exception n).get "cause"

/-- One of these values, as far as it is followed. -/
def causeLink (exception : ErrorValue) (n : ℕ) : Thrown ℕ :=
  if (causeAt exception n).isObject then .object n else .other

/-- What `resolveErrorOrigin` reads of them. -/
def causeHeap (exception : ErrorValue) : Heap ℕ := fun n =>
  let v := causeAt exception n
  { isError := if n = 0 then exception.isError else v.isError
    stack := v.props.lookup "stack"
    cause := if v.has "cause" then some (causeLink exception (n + 1)) else exception.loop.map .object }

/-- `error.cause`. -/
def causeOf (exception : ErrorValue) : JsValue :=
  if exception.value.has "cause" then exception.value.get "cause"
  else if exception.loop = some 0 then exception.value
  else .undefined

/-- `log`: the lines that are logged, or what it throws. -/
def log (env : Env) (exception : ErrorValue) (status : ℤ) (req : Request) (requestId : JsString) :
    Except JsValue (List LogLine) :=
  if status < 400 then .ok []
  else
    let error := if exception.isError then exception.value else .undefined
    let cause := if exception.isError then causeOf exception else .undefined
    let message := (error.get "message").orElse (.string exception.value.text)
    match (causeHeap exception).resolveErrorOrigin (causeLink exception 0) with
    | .error e => .error e
    | .ok resolved =>
      match if env.showStackTraces then formatStackTrace (error.get "stack") else .ok .undefined with
      | .error e => .error e
      | .ok stack =>
        .ok [{
          level := if 500 ≤ status then .error else .warn
          message := JsString.concat
            ["[", requestId, "] ", req.method, " ", req.originalUrl, " -> ", (JsValue.int status).text, " - ",
              message.text]
          fields :=
            [("correlationId", .string requestId),
              ("http", .object .plain
                [("method", .string req.method), ("url", .string req.originalUrl), ("status", .int status)]),
              ("errorName", error.get "name"),
              ("cause",
                if cause.isError then
                  .object .plain [("name", cause.get "name"), ("message", cause.get "message")]
                else .undefined),
              ("origin", .ofOption resolved.origin), ("causeOrigin", .ofOption resolved.causeOrigin),
              ("stack", stack)] }]

/-- What Node throws at a header that comes too late. -/
def headersSentError : JsValue :=
  .object .error
    [("code", .string "ERR_HTTP_HEADERS_SENT"),
      ("message", .string "Cannot set headers after they are sent to the client")]

/-- `this.log(exception, status, req, requestId)`, and then `res.status(status).json(body)`. -/
def conclude (env : Env) (req : Request) (requestId : JsString) (headersSent : Bool) (exception : ErrorValue)
    (status : ℤ) (body : JsValue) : Reply × List LogLine :=
  match log env exception status req requestId with
  | .error e => (.unanswered e, [])
  | .ok lines => (if headersSent then .unanswered headersSentError else .json status body, lines)

/-- The `error` of an `HttpException`'s answer that is no envelope. -/
def httpError (env : Env) (answer : HttpAnswer) : List (String × JsValue) :=
  let body :=
    if answer.response.isRecord then answer.response
    else .object .plain [("message", toMessage answer.response)]
  let message :=
    if (body.get "message").isArray then .string ((body.get "message").join "; ") else body.get "message"
  [("message", (message.orElse (env.httpStatus answer.status)).orElse (.string "Error")),
    ("code", (body.get "code").orElse .undefined), ("details", body.get "details")]

/-- The `error` of a presented problem. -/
def problemError (env : Env) (presented : PresentedError) : List (String × JsValue) :=
  [("message", (((presented.body.get "detail").orElse (presented.body.get "title")).orElse
      (env.httpStatus presented.status)).orElse (.string "Error")),
    ("code", presented.body.get "code"), ("details", presented.body.get "errors"),
    ("type", presented.body.get "type")]

/-- `catch`: the answer, and the lines that are logged. -/
def catchException (env : Env) (req : Request) (now : JsString) (headersSent : Bool) (exception : ErrorValue) :
    Reply × List LogLine :=
  let requestId := filterRequestId env req
  let metadata := metaOf req now (.string requestId)
  match exception.http with
  | some answer =>
    conclude env req requestId headersSent exception answer.status
      (if isEnvelope answer.response then
        answer.response.spread (.object .plain [("meta", metadata.spread (answer.response.get "meta"))])
      else errorEnvelope (httpError env answer) metadata)
  | none =>
    match asExposedClientError env exception with
    | some clientError =>
      conclude env req requestId headersSent exception clientError.status
        (errorEnvelope [("message", clientError.message), ("code", clientError.type)] metadata)
    | none =>
      let presented := present exception requestId
      conclude env req requestId headersSent exception presented.status
        (errorEnvelope (problemError env presented) metadata)

/-! ### What can be logged -/

/-- **The chain of causes can be read**: every error of it whose stack counts as true and is no string comes
after two frames that differ. -/
def Readable (exception : ErrorValue) : Prop :=
  (causeHeap exception).Readable ((causeHeap exception).chainOf (causeLink exception 0))

variable {env : Env} {e : ErrorValue} {status : ℤ} {req : Request} {requestId : JsString}

theorem lookup_props (v : JsValue) (key : String) : (v.props.lookup key).getD .undefined = v.get key := by
  cases v <;> rfl

/-- The stack of an error whose chain can be read. -/
theorem exists_frameFromStack (h : Readable e) (herror : e.isError = true) :
    ∃ frame, frameFromStack (e.value.get "stack") = .ok frame := by
  by_cases hobject : e.value.isObject = true
  · have hlink : causeLink e 0 = .object 0 := if_pos hobject
    rw [Readable, Heap.chainOf, hlink, Heap.Readable, MAX_CAUSE_DEPTH, Heap.links, if_neg List.not_mem_nil,
      throughout_cons] at h
    have hread : ¬ (causeHeap e).Unreadable 0 := fun hun => by
      obtain ⟨f, hf, -⟩ := h.1 hun
      cases hf
    refine ⟨(causeHeap e).ownFrameOf 0, ?_⟩
    rw [← lookup_props, ← Heap.frameOf_of_readable hread, Heap.frameOf, Heap.stackOf]
    exact congrArg frameFromStack (if_pos herror).symm
  · have hstack : e.value.get "stack" = .undefined := by
      cases hv : e.value with
      | object cls props => simp [hv, JsValue.isObject] at hobject
      | _ => rfl
    rw [hstack]
    exact ⟨none, rfl⟩

/-- **What the filter can log.** -/
theorem exists_log_iff (hstatus : 400 ≤ status) :
    (∃ lines, log env e status req requestId = .ok lines) ↔ Readable e := by
  rw [Readable, ← Heap.resolves_ok_iff]
  constructor
  · rintro ⟨lines, h⟩
    rw [log, if_neg (by omega)] at h
    simp only at h
    split at h
    · cases h
    · next resolved hresolved => exact ⟨resolved, hresolved⟩
  · rintro ⟨resolved, hresolved⟩
    have hread : Readable e := Heap.resolves_ok_iff.mp ⟨resolved, hresolved⟩
    have hstack : ∃ v, (if env.showStackTraces then
        formatStackTrace ((if e.isError then e.value else .undefined).get "stack") else .ok .undefined) = .ok v := by
      cases env.showStackTraces with
      | false => exact ⟨_, rfl⟩
      | true =>
        cases herror : e.isError with
        | false => exact ⟨_, rfl⟩
        | true =>
          obtain ⟨frame, hframe⟩ := exists_frameFromStack hread herror
          exact exists_formatStackTrace hframe
    obtain ⟨v, hv⟩ := hstack
    rw [log, if_neg (by omega)]
    simp only [hresolved, hv]
    exact ⟨_, rfl⟩

/-- What comes of a failure that can be logged. -/
theorem conclude_of_readable (hstatus : 400 ≤ status) (h : Readable e) (headersSent : Bool) (body : JsValue) :
    (conclude env req requestId headersSent e status body).1 =
      if headersSent then .unanswered headersSentError else .json status body := by
  obtain ⟨lines, hlines⟩ := (@exists_log_iff env e status req requestId hstatus).mpr h
  simp only [conclude, hlines]

/-- And of one that cannot. -/
theorem conclude_of_not_readable (hstatus : 400 ≤ status) (h : ¬ Readable e) (headersSent : Bool) (body : JsValue) :
    ∃ thrown, conclude env req requestId headersSent e status body = (.unanswered thrown, []) := by
  cases hlog : log env e status req requestId with
  | ok lines => exact absurd ((exists_log_iff hstatus).mp ⟨lines, hlog⟩) h
  | error thrown => exact ⟨thrown, by simp only [conclude, hlog]⟩

/-- What the filter answers to an `HttpException` that is no envelope. -/
theorem catchException_http {answer : HttpAnswer} (hhttp : e.http = some answer) (hstatus : 400 ≤ answer.status)
    (henvelope : isEnvelope answer.response = false) (h : Readable e) (now : JsString) :
    (catchException env req now false e).1 =
      .json answer.status
        (errorEnvelope (httpError env answer) (metaOf req now (.string (filterRequestId env req)))) := by
  rw [catchException, hhttp]
  simp only [henvelope, Bool.false_eq_true, if_false]
  exact conclude_of_readable hstatus h false _

/-- A value without a stack and without causes. -/
theorem readable_of_stackless (hstack : (e.value.get "stack").truthy = false)
    (hcause : (e.value.get "cause").isObject = false) (hloop : e.loop = none) : Readable e := by
  have hend : (causeHeap e).causeOf 0 = .other := by
    show (if e.value.has "cause" then some (causeLink e 1) else e.loop.map .object).getD .other = .other
    have hlink : causeLink e 1 = .other := if_neg (by rw [causeAt, causeAt, hcause]; exact Bool.false_ne_true)
    rw [hlink, hloop]
    split <;> rfl
  have hchain : ∀ o ∈ (causeHeap e).chainOf (causeLink e 0), o = 0 := by
    rw [Heap.chainOf, causeLink, MAX_CAUSE_DEPTH]
    split
    · rw [Heap.links, if_neg List.not_mem_nil, hend]
      simp [Heap.links]
    · simp [Heap.links]
  refine Heap.readable_of_forall fun o ho hun => ?_
  obtain rfl := hchain o ho
  obtain ⟨-, stack, hlookup, htruthy, -⟩ := hun
  have hget : e.value.get "stack" = stack := by
    rw [← lookup_props, show e.value.props.lookup "stack" = some stack from hlookup]
    rfl
  rw [hget, htruthy] at hstack
  cases hstack

end NestDdd.Http
