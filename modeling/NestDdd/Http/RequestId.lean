import NestDdd.Http.ErrorBoundary
import NestDdd.Legacy.Exchange
import NestDdd.Legacy.Forward

/-!
# The ids a request leaves behind

Where the correlation id of a request comes from, and where it is written: `genReqId`
(`src/infrastructure/logging/pino.options.ts`), `RequestIdMiddleware`
(`src/interface/http/middleware/request-id.middleware.ts`), `LegacyForwarder`, the interceptor and
the exception filter.

## The model

A `Visit` is one request as a `Machine`: what the steps that have been taken have left on it, and
every id that has been written so far, with the place. An event is one step with its random UUID.
The steps come in any order that lets the request have them, and a request may fail at any time and
more than once. What `pino-http` binds to the logger of the request is in every line of that logger.

## What is proved

* `ids_safe_iff` — what one step writes can be printed exactly if it meets `Printable`.
* `written_safe_iff` — **every id written in a run is safe exactly if all of its steps meet
  `Printable`**: the filter does not run on a request that has no id and an unsafe one in its
  header, and no envelope brings an unsafe id of its own.
* `unsafe_id_written` — a run in which the filter does.
-/

namespace NestDdd.Http

open NestDdd.Shared NestDdd.Theory NestDdd.Legacy

/-! ### The state -/

/-- Where an id is written. -/
inductive Place where
  /-- A log line. -/
  | log
  /-- A header of the response. -/
  | responseHeader
  /-- The forwarded request. -/
  | forwarded
  /-- `meta.requestId`. -/
  | envelope
  deriving DecidableEq

/-- A request on its way. -/
structure Visit where
  /-- The request, as the steps have left it. -/
  req : Request
  /-- The id that `forward` has taken for it. -/
  forwarded : Option JsString
  /-- The ids bound to the request's logger, once there is one. -/
  bound : Option (List JsString)
  /-- What has been written. -/
  written : List (Place × JsString)

/-- A step. -/
inductive Step where
  /-- `LegacyForwarder.forward`. -/
  | forward (uuid : Uuid)
  /-- `logOutcome`. -/
  | logOutcome (outcome : ForwardOutcome) (status : Option ℕ) (path : JsString) (startedAt now : ℤ)
    (logRequests : Bool)
  /-- `pino-http`. -/
  | pinoHttp (uuid : Uuid)
  /-- `RequestIdMiddleware.use`. -/
  | requestId (uuid : Uuid)
  /-- A line of the request's logger: one of the application, or the access log. -/
  | line
  /-- The handler returns. -/
  | answer (body : HandlerBody) (now : JsString) (rawResponse headersSent : Bool)
  /-- An error reaches the filter. -/
  | catchException (e : ErrorValue) (now : JsString) (headersSent : Bool)

/-! ### What the steps do -/

/-- `Array.isArray(header) ? header[0] : header`, where it is safe. -/
def safeCandidate (env : Env) (req : Request) : Option JsString :=
  let candidate := (req.headers.get env.requestIdHeader).bind HeaderValue.first
  if isSafeCorrelationId candidate then candidate else none

/-- `req.headers[requestIdHeader] = requestId; req.id = requestId`. -/
def Request.identify (env : Env) (req : Request) (requestId : JsString) : Request :=
  { req with headers := req.headers.set env.requestIdHeader (.one requestId), id := some requestId }

/-- `genReqId`. -/
def genReqId (env : Env) (uuid : Uuid) (req : Request) : Request :=
  req.identify env ((safeCandidate env req).getD uuid.value)

/-- What `pino-http` leaves of a request. -/
def pinoHttp (env : Env) (uuid : Uuid) (req : Request) : Request := env.pinoHttp.identify (genReqId env uuid) req

/-- `RequestIdMiddleware.requestIdFor`. -/
def middlewareId (env : Env) (uuid : Uuid) (req : Request) : JsString :=
  if isSafeCorrelationId req.id then req.id.getD [] else (safeCandidate env req).getD uuid.value

/-- The values of a header. -/
def headerIds : Option HeaderValue → List JsString
  | none => []
  | some (.one v) => [v]
  | some (.many vs) => vs

/-- The id in a field, if it is a string. -/
def idOf : JsValue → List JsString
  | .string v => [v]
  | _ => []

/-- The ids in a log line. -/
def lineIds (l : LogLine) : List JsString :=
  l.fields.flatMap fun f => if f.1 ∈ ["requestId", "correlationId"] then idOf f.2 else []

/-- The id in an envelope. -/
def envelopeIds (body : JsValue) : List JsString := idOf ((body.get "meta").get "requestId")

/-- The options of the forwarder. -/
structure Forwarder where
  /-- `targetHost`. -/
  targetHost : JsString
  /-- `preserveHostHeader`. -/
  preserveHostHeader : Bool

/-- `LegacyForwarderOptions`. -/
def Forwarder.options (env : Env) (f : Forwarder) : ForwardOptions where
  targetHost := f.targetHost
  preserveHostHeader := f.preserveHostHeader
  requestIdHeader := env.requestIdHeader

/-- What the handler of a request returns to. -/
def exchangeOf (s : Visit) (now : JsString) (rawResponse headersSent : Bool) : Exchange where
  req := s.req
  now := now
  rawResponse := rawResponse
  headersSent := headersSent

variable (env : Env) (f : Forwarder) (client : IncomingRequest)

/-- The ids a step writes. -/
def ids (s : Visit) : Step → List (Place × JsString)
  | .forward uuid =>
    match outbound (f.options env) uuid client with
    | none => []
    | some c => (headerIds (c.headers.get env.requestIdHeader)).map (.forwarded, ·)
  | .logOutcome outcome status path startedAt now logRequests =>
    match s.forwarded with
    | none => []
    | some requestId =>
      let context : ForwardContext := ⟨client.method, path, requestId, startedAt, logRequests⟩
      ((NestDdd.Legacy.logOutcome context outcome status now).toList.flatMap lineIds).map (.log, ·)
  | .pinoHttp _ => []
  | .requestId uuid => [(.responseHeader, middlewareId env uuid s.req)]
  | .line => ((s.bound.getD []) ++ s.req.id.toList).map (.log, ·)
  | .answer body now rawResponse headersSent =>
    let x := exchangeOf s now rawResponse headersSent
    if x.bypassed then []
    else
      match intercept x body with
      | .ok (.value v) => (envelopeIds v).map (.envelope, ·)
      | _ => []
  | .catchException e now headersSent =>
    let caught := catchException env s.req now headersSent e
    let reply := match caught.1 with
      | .json _ body => envelopeIds body
      | _ => []
    (caught.2.flatMap fun l => lineIds l ++ s.bound.getD []).map (.log, ·) ++ reply.map (.envelope, ·)

/-- What a step leaves on the request. -/
def step (s : Visit) (e : Step) : Visit :=
  let s := { s with written := s.written ++ ids env f client s e }
  match e with
  | .forward uuid => { s with forwarded := some (requestIdFor (f.options env) uuid client) }
  | .pinoHttp uuid =>
    let req := pinoHttp env uuid s.req
    { s with req := req, bound := some (headerIds (req.headers.get env.requestIdHeader) ++ req.id.toList) }
  | .requestId uuid => { s with req := s.req.identify env (middlewareId env uuid s.req) }
  | _ => s

/-- The request, as Express makes it of the client's. -/
def arrival (url : JsString) : Visit where
  req := { method := client.method, originalUrl := client.originalUrl, url := url,
           headers := client.headers.toHeaders, id := none }
  forwarded := none
  bound := none
  written := []

/-- **The way of a request.** The forwarder comes before there is an id; a line of its own or of
the request's logger needs what makes it. -/
def visits (url : JsString) : Machine Visit Step where
  Initial s := s = arrival client url
  Enabled s e :=
    match e with
    | .forward _ => s.req.id = none ∧ s.forwarded = none
    | .logOutcome .. => s.forwarded.isSome = true
    | .line => s.bound.isSome = true
    | _ => True
  next := step env f client

/-! ### The condition -/

/-- Whether the filter logs nothing: an `HttpException` that is no failure. -/
def quiet (e : ErrorValue) : Bool :=
  match e.http with
  | some answer => decide (answer.status < 400)
  | none => false

/-- The `requestId` that an envelope brings. -/
def ownId (v : JsValue) : Option JsValue :=
  if isEnvelope v then (v.get "meta").props.lookup "requestId" else none

/-- The `requestId` that an error's own envelope brings. -/
def errorId (e : ErrorValue) : Option JsValue := e.http.bind fun answer => ownId answer.response

/-- The `requestId` that a handler's envelope brings. -/
def bodyId : HandlerBody → Option JsValue
  | .value v => ownId v
  | _ => none

/-- A string in the pattern, or no string. -/
def SafeId (v : JsValue) : Prop := ∀ id ∈ idOf v, SAFE_CORRELATION_ID id = true

/-- **The steps that write nothing unsafe**: no envelope brings an unsafe id, and the filter does
not use the header of a request that has no id while it is unsafe. A filter that cannot log writes
nothing, and one that comes too late does not answer. -/
def Printable (env : Env) (s : Visit) : Step → Prop
  | .answer body now rawResponse headersSent =>
    (exchangeOf s now rawResponse headersSent).bypassed = false → ∀ v ∈ bodyId body, SafeId v
  | .catchException e _ headersSent =>
    quiet e = true ∨ Readable e →
      (s.req.id = none → ∀ v ∈ headerId env s.req,
        SAFE_CORRELATION_ID v = true ∨ quiet e = true ∧ (headersSent = true ∨ (errorId e).isSome = true)) ∧
        (headersSent = false → ∀ v ∈ errorId e, SafeId v)
  | _ => True

/-! ### What holds of a request on its way -/

/-- The id of a request is safe once it has one, and so is its copy in the header. -/
structure Identified (env : Env) (s : Visit) : Prop where
  /-- The id. -/
  id : ∀ v ∈ s.req.id, SAFE_CORRELATION_ID v = true
  /-- The header. -/
  header : ∀ v ∈ s.req.id, s.req.headers.get env.requestIdHeader = some (.one v)
  /-- What the logger writes. -/
  bound : ∀ ids ∈ s.bound, ∀ v ∈ ids, SAFE_CORRELATION_ID v = true
  /-- What the forwarder writes. -/
  forwarded : ∀ v ∈ s.forwarded, SAFE_CORRELATION_ID v = true

theorem safe_of_isSafe {v : Option JsString} (h : isSafeCorrelationId v = true) :
    SAFE_CORRELATION_ID (v.getD []) = true := by
  cases v with
  | none => simp [isSafeCorrelationId] at h
  | some v => rwa [isSafeCorrelationId_some] at h

theorem safeCandidate_safe (env : Env) (req : Request) (uuid : Uuid) :
    SAFE_CORRELATION_ID ((safeCandidate env req).getD uuid.value) = true := by
  rw [safeCandidate]
  split
  · next h =>
    obtain ⟨v, hv⟩ : ∃ v, (req.headers.get env.requestIdHeader).bind HeaderValue.first = some v := by
      cases hc : (req.headers.get env.requestIdHeader).bind HeaderValue.first with
      | none => simp [hc, isSafeCorrelationId] at h
      | some v => exact ⟨v, rfl⟩
    have hsafe := safe_of_isSafe h
    rwa [hv] at hsafe ⊢
  · exact uuid.safe

theorem middlewareId_safe (env : Env) (uuid : Uuid) (req : Request) :
    SAFE_CORRELATION_ID (middlewareId env uuid req) = true := by
  rw [middlewareId]
  split
  · next h => exact safe_of_isSafe h
  · exact safeCandidate_safe env req uuid

theorem requestIdFor_safe (opts : ForwardOptions) (uuid : Uuid) (client : IncomingRequest) :
    SAFE_CORRELATION_ID (requestIdFor opts uuid client) = true := by
  rw [requestIdFor]
  split
  · next h => exact safe_of_isSafe h
  · exact uuid.safe

theorem get_identify (env : Env) (req : Request) (v : JsString) :
    (req.identify env v).headers.get env.requestIdHeader = some (.one v) := by
  rw [Request.identify, Headers.get_set, if_pos rfl]

variable {env : Env} {f : Forwarder} {client : IncomingRequest}

/-- **`pino-http` leaves a safe id**, in the header too. -/
theorem pinoHttp_spec {s : Visit} (h : Identified env s) (uuid : Uuid) :
    ∃ v, (pinoHttp env uuid s.req).id = some v ∧ SAFE_CORRELATION_ID v = true ∧
      (pinoHttp env uuid s.req).headers.get env.requestIdHeader = some (.one v) := by
  have hgen : ∃ v, (genReqId env uuid s.req).id = some v ∧ SAFE_CORRELATION_ID v = true ∧
      (genReqId env uuid s.req).headers.get env.requestIdHeader = some (.one v) :=
    ⟨_, rfl, safeCandidate_safe env s.req uuid, get_identify env s.req _⟩
  rw [pinoHttp]
  cases hid : s.req.id with
  | none =>
    rw [env.pinoHttp.asks _ _ (.inl hid)]
    exact hgen
  | some v =>
    by_cases hv : v = []
    · rw [env.pinoHttp.asks _ _ (.inr (hv ▸ hid))]
      exact hgen
    · rw [env.pinoHttp.keeps _ _ v hid hv]
      exact ⟨v, hid, h.id v hid, h.header v hid⟩

theorem arrival_identified (env : Env) (client : IncomingRequest) (url : JsString) :
    Identified env (arrival client url) where
  id := nofun
  header := nofun
  bound := nofun
  forwarded := nofun

/-- Every step keeps it. -/
theorem Identified.step {s : Visit} (h : Identified env s) (e : Step) : Identified env (step env f client s e) := by
  cases e with
  | forward uuid =>
    refine ⟨h.id, h.header, h.bound, fun v hv => ?_⟩
    obtain rfl : requestIdFor (f.options env) uuid client = v := Option.some.inj hv
    exact requestIdFor_safe _ uuid client
  | pinoHttp uuid =>
    obtain ⟨v, hid, hsafe, hheader⟩ := pinoHttp_spec h uuid
    refine ⟨fun w hw => ?_, fun w hw => ?_, fun ids hids w hw => ?_, h.forwarded⟩
    · obtain rfl : v = w := Option.some.inj (hid.symm.trans hw)
      exact hsafe
    · obtain rfl : v = w := Option.some.inj (hid.symm.trans hw)
      exact hheader
    · obtain rfl : headerIds ((pinoHttp env uuid s.req).headers.get env.requestIdHeader) ++
          (pinoHttp env uuid s.req).id.toList = ids := Option.some.inj hids
      have heq : w = v := by simpa [hid, hheader, headerIds] using hw
      exact heq ▸ hsafe
  | requestId uuid =>
    refine ⟨fun w hw => ?_, fun w hw => ?_, h.bound, h.forwarded⟩
    · obtain rfl : middlewareId env uuid s.req = w := Option.some.inj hw
      exact middlewareId_safe env uuid s.req
    · obtain rfl : middlewareId env uuid s.req = w := Option.some.inj hw
      exact get_identify env s.req _
  | _ => exact ⟨h.id, h.header, h.bound, h.forwarded⟩

/-! ### What a step writes -/

/-- The forwarded request has the id that `forward` has taken. -/
theorem get_outbound {uuid : Uuid} {c : ClientRequest} (h : outbound (f.options env) uuid client = some c) :
    c.headers.get env.requestIdHeader = some (.one (requestIdFor (f.options env) uuid client)) := by
  obtain ⟨-, -, hheaders⟩ := ClientRequest.request_spec h client.method_upper
  have hlast : Headers.lookup JsString.toLowerCase env.requestIdHeader.toLowerCase _ = _ :=
    buildForwardHeaders_requestId (forwardHeadersInput (f.options env) uuid client)
  rw [hheaders, Headers.get_setAll, hlast]
  rfl

theorem lineIds_logOutcome (context : ForwardContext) (outcome : ForwardOutcome) (status : Option ℕ) (now : ℤ) :
    ∀ v ∈ (NestDdd.Legacy.logOutcome context outcome status now).toList.flatMap lineIds, v = context.requestId := by
  intro v hv
  rw [NestDdd.Legacy.logOutcome] at hv
  split at hv
  · simp at hv
  · cases status <;> simpa [lineIds, idOf] using hv

/-- The id of an envelope that brings none is the one it is given. -/
theorem envelopeIds_spread (v : JsValue) (req : Request) (now : JsString) (requestId : JsValue)
    (hv : isEnvelope v = true) :
    envelopeIds (v.spread (.object .plain [("meta", (metaOf req now requestId).spread (v.get "meta"))])) =
      idOf ((ownId v).getD requestId) := by
  have hmeta (w : JsValue) : (v.spread (.object .plain [("meta", w)])).get "meta" = w := rfl
  rw [envelopeIds, hmeta, ownId, if_pos hv]
  cases hown : (v.get "meta").props.lookup "requestId" with
  | none =>
    rw [get_spread hown]
    rfl
  | some w =>
    rw [JsValue.spread, JsValue.get, List.lookup_append, hown]
    rfl

theorem asExposedClientError_status {env : Env} {e : ErrorValue} {c : ClientError}
    (h : asExposedClientError env e = some c) : 400 ≤ c.status := by
  unfold asExposedClientError at h
  split at h
  · cases h
  · split at h
    · cases h
    · split at h
      · split at h
        · cases h
        · next hin =>
          cases h
          simp only [Bool.or_eq_true, decide_eq_true_eq] at hin
          dsimp only
          omega
      · cases h

theorem lineIds_log {env : Env} {e : ErrorValue} {status : ℤ} {req : Request} {requestId : JsString}
    {lines : List LogLine} (h : 400 ≤ status) (hlog : log env e status req requestId = .ok lines) :
    ∃ l, lines = [l] ∧ lineIds l = [requestId] := by
  rw [log, if_neg (by omega)] at hlog
  simp only at hlog
  split at hlog
  · cases hlog
  · split at hlog
    · cases hlog
    · cases hlog
      exact ⟨_, rfl, by simp [lineIds, idOf]⟩

theorem envelopeIds_errorEnvelope (error : List (String × JsValue)) (req : Request) (now requestId : JsString) :
    envelopeIds (errorEnvelope error (metaOf req now (.string requestId))) = [requestId] := rfl

/-- What the filter writes, in any of its branches. -/
structure Writes (env : Env) (req : Request) (headersSent : Bool) (e : ErrorValue) (caught : Reply × List LogLine) :
    Prop where
  /-- One envelope, unless it comes too late. -/
  reply : if headersSent then ∃ thrown, caught.1 = .unanswered thrown
    else ∃ status body, caught.1 = .json status body ∧
      envelopeIds body = idOf ((errorId e).getD (.string (filterRequestId env req)))
  /-- One line, unless the error is no failure. -/
  lines : if quiet e then caught.2 = [] else ∃ l, caught.2 = [l] ∧ lineIds l = [filterRequestId env req]

theorem conclude_writes {env : Env} {req : Request} {headersSent : Bool} {e : ErrorValue} {status : ℤ}
    {body : JsValue} {lines : List LogLine} (hlog : log env e status req (filterRequestId env req) = .ok lines)
    (hquiet : quiet e = decide (status < 400))
    (hbody : envelopeIds body = idOf ((errorId e).getD (.string (filterRequestId env req)))) :
    Writes env req headersSent e (conclude env req (filterRequestId env req) headersSent e status body) := by
  simp only [conclude, hlog]
  constructor
  · cases headersSent with
    | true => exact ⟨_, rfl⟩
    | false => exact ⟨_, _, rfl, hbody⟩
  · rw [hquiet]
    split
    · next hs =>
      rw [log, if_pos (by simpa using hs)] at hlog
      exact (Except.ok.inj hlog).symm
    · next hs => exact lineIds_log (by simpa using hs) hlog

/-- **What the filter writes** if it can log: one line, unless the error is no failure, and one envelope. -/
theorem catchException_spec (env : Env) (req : Request) (now : JsString) (headersSent : Bool) {e : ErrorValue}
    (h : quiet e = true ∨ Readable e) : Writes env req headersSent e (catchException env req now headersSent e) := by
  have hlog {status : ℤ} (hquiet : quiet e = decide (status < 400)) :
      ∃ lines, log env e status req (filterRequestId env req) = .ok lines := by
    by_cases hs : status < 400
    · exact ⟨[], by rw [log, if_pos hs]⟩
    · refine (exists_log_iff (not_lt.mp hs)).mpr (h.resolve_left ?_)
      simp [hquiet, hs]
  rw [catchException]
  cases he : e.http with
  | some answer =>
    have hquiet : quiet e = decide (answer.status < 400) := by rw [quiet, he]
    have herror : errorId e = ownId answer.response := by rw [errorId, he]; rfl
    obtain ⟨lines, hlines⟩ := hlog hquiet
    refine conclude_writes hlines hquiet ?_
    rw [herror]
    split
    · next henv => exact envelopeIds_spread _ _ _ _ henv
    · next henv =>
      rw [ownId, if_neg henv, envelopeIds_errorEnvelope]
      rfl
  | none =>
    have herror : errorId e = none := by rw [errorId, he]; rfl
    have hquiet {status : ℤ} (hs : 400 ≤ status) : quiet e = decide (status < 400) := by
      rw [quiet, he, eq_comm, decide_eq_false_iff_not]
      omega
    have hbody (error : List (String × JsValue)) :
        envelopeIds (errorEnvelope error (metaOf req now (.string (filterRequestId env req)))) =
          idOf ((errorId e).getD (.string (filterRequestId env req))) := by
      rw [herror]
      exact envelopeIds_errorEnvelope _ _ _ _
    cases hexposed : asExposedClientError env e with
    | some clientError =>
      have hs := hquiet (asExposedClientError_status hexposed)
      obtain ⟨lines, hlines⟩ := hlog hs
      exact conclude_writes hlines hs (hbody _)
    | none =>
      have hs := hquiet (present_status e (filterRequestId env req))
      obtain ⟨lines, hlines⟩ := hlog hs
      exact conclude_writes hlines hs (hbody _)

/-- And if it cannot: nothing. -/
theorem catchException_nothing (env : Env) (req : Request) (now : JsString) (headersSent : Bool) {e : ErrorValue}
    (h : ¬ (quiet e = true ∨ Readable e)) :
    ∃ thrown, catchException env req now headersSent e = (.unanswered thrown, []) := by
  obtain ⟨hloud, hread⟩ := not_or.mp h
  rw [catchException]
  cases he : e.http with
  | some answer =>
    have hs : 400 ≤ answer.status := by simpa [quiet, he] using hloud
    exact conclude_of_not_readable hs hread _ _
  | none =>
    cases hexposed : asExposedClientError env e with
    | some clientError => exact conclude_of_not_readable (asExposedClientError_status hexposed) hread _ _
    | none => exact conclude_of_not_readable (present_status e _) hread _ _

/-- What the interceptor writes. -/
theorem intercept_spec {x : Exchange} (hx : x.bypassed = false) {body : HandlerBody} {v : JsValue}
    (h : intercept x body = .ok (.value v)) :
    envelopeIds v = idOf ((bodyId body).getD (match x.req.id with | some id => .string id | none => .null)) := by
  simp only [intercept, hx, Bool.false_eq_true, if_false] at h
  cases body with
  | stream => cases h
  | err e => cases h
  | value w =>
    by_cases henv : isEnvelope w = true
    · simp only [henv, if_true] at h
      cases h
      exact envelopeIds_spread _ _ _ _ henv
    · have hown : bodyId (.value w) = none := by rw [bodyId, ownId, if_neg henv]
      have hsuccess (data : JsValue) : envelopeIds (.object .plain
          [("success", .bool true), ("data", data), ("meta", interceptorMeta x)]) =
          idOf (match x.req.id with | some id => .string id | none => .null) := rfl
      simp only [henv, Bool.false_eq_true, if_false] at h
      rw [hown, Option.getD_none]
      split at h
      · split at h
        · cases h
          exact hsuccess _
        · cases h
      · cases h
        exact hsuccess _

/-- An envelope is answered. -/
theorem intercept_envelope {x : Exchange} (hx : x.bypassed = false) {body : HandlerBody} {v : JsValue}
    (h : bodyId body = some v) : ∃ w, intercept x body = .ok (.value w) := by
  cases body with
  | stream => cases h
  | err e => cases h
  | value w =>
    rw [bodyId, ownId] at h
    split at h
    · next henv => exact ⟨_, by simp only [intercept, hx, henv, Bool.false_eq_true, if_false, if_true]; rfl⟩
    · cases h

theorem safe_getD_iff {own : Option JsValue} {d : JsValue} :
    SafeId (own.getD d) ↔ (own = none → SafeId d) ∧ ∀ v ∈ own, SafeId v := by
  cases own with
  | none => simp
  | some v => simp

/-- The id the filter uses is safe, unless it is an unsafe one of the header. -/
theorem filterRequestId_safe_iff {s : Visit} (h : Identified env s) :
    SAFE_CORRELATION_ID (filterRequestId env s.req) = true ↔
      (s.req.id = none → ∀ v ∈ headerId env s.req, SAFE_CORRELATION_ID v = true) := by
  rw [filterRequestId]
  cases hid : s.req.id with
  | some id => simpa using h.id id hid
  | none =>
    cases hheader : headerId env s.req with
    | none =>
      refine iff_of_true ?_ (by simp)
      decide
    | some v => simp

/-- What the interceptor writes is safe, unless an envelope brings an id that is not. -/
theorem answer_safe_iff {s : Visit} (h : Identified env s) (body : HandlerBody) (now : JsString)
    (rawResponse headersSent : Bool) :
    (∀ w ∈ ids env f client s (.answer body now rawResponse headersSent), SAFE_CORRELATION_ID w.2 = true) ↔
      Printable env s (.answer body now rawResponse headersSent) := by
  rw [ids, Printable]
  by_cases hx : (exchangeOf s now rawResponse headersSent).bypassed = true
  · simp [hx]
  · have hformat : (exchangeOf s now rawResponse headersSent).bypassed = false := by simpa using hx
    have hdefault : SafeId (match s.req.id with | some id => .string id | none => .null) := by
      intro v hv
      cases hid : s.req.id with
      | none => simp [hid, idOf] at hv
      | some id => exact h.id v (by simpa [hid, idOf, eq_comm] using hv)
    simp only [hformat, Bool.false_eq_true, if_false, forall_const]
    split
    · next v hv =>
      rw [intercept_spec hformat hv, List.forall_mem_map]
      exact safe_getD_iff.trans (and_iff_right fun _ => hdefault)
    · next hv =>
      refine iff_of_true nofun fun v hbody => ?_
      obtain ⟨w, hw⟩ := intercept_envelope hformat hbody
      exact absurd hw (hv w)

/-- What the filter writes is safe, unless it uses an unsafe id of the header, or an envelope brings one. -/
theorem catch_safe_iff {s : Visit} (h : Identified env s) (e : ErrorValue) (now : JsString) (headersSent : Bool) :
    (∀ w ∈ ids env f client s (.catchException e now headersSent), SAFE_CORRELATION_ID w.2 = true) ↔
      Printable env s (.catchException e now headersSent) := by
  rw [ids, Printable]
  by_cases hcan : quiet e = true ∨ Readable e
  swap
  · obtain ⟨thrown, hnothing⟩ := catchException_nothing env s.req now headersSent hcan
    simp [hnothing, hcan]
  obtain ⟨hreply, hlines⟩ := catchException_spec env s.req now headersSent hcan
  have hid := filterRequestId_safe_iff h
  have hown := @safe_getD_iff (errorId e) (.string (filterRequestId env s.req))
  have hbound : ∀ v ∈ s.bound.getD [], SAFE_CORRELATION_ID v = true := by
    cases hb : s.bound with
    | none => exact nofun
    | some ids => exact h.bound ids hb
  have hstring : SafeId (.string (filterRequestId env s.req)) ↔
      SAFE_CORRELATION_ID (filterRequestId env s.req) = true := by simp [SafeId, idOf]
  have hlog : (∀ v ∈ (catchException env s.req now headersSent e).2.flatMap fun l => lineIds l ++ s.bound.getD [],
      SAFE_CORRELATION_ID v = true) ↔
        (quiet e = false → SAFE_CORRELATION_ID (filterRequestId env s.req) = true) := by
    split at hlines
    · next hq => simp [hlines, hq]
    · next hq =>
      obtain ⟨l, hl, hids⟩ := hlines
      have hq' : quiet e = false := by simpa using hq
      rw [hl, List.flatMap_singleton, hids, List.forall_mem_append, and_iff_left hbound]
      simp [hq']
  simp only [List.forall_mem_append, List.forall_mem_map, hlog, hcan, forall_const]
  cases headersSent with
  | true =>
    obtain ⟨thrown, hthrown⟩ := hreply
    simp only [hthrown, List.not_mem_nil, false_implies, implies_true, and_true, true_or, Bool.true_eq_false]
    cases hq : quiet e with
    | true => simp
    | false => simpa using hid
  | false =>
    obtain ⟨status, body, hjson, henvelope⟩ := hreply
    simp only [hjson, henvelope, forall_const, Bool.false_eq_true, false_or]
    rw [← SafeId, hown, hstring]
    constructor
    · rintro ⟨hline, hnone, hsome⟩
      refine ⟨fun hreq v hv => ?_, hsome⟩
      by_cases hq : quiet e = true ∧ (errorId e).isSome = true
      · exact .inr hq
      · refine .inl (hid.mp ?_ hreq v hv)
        by_cases hquiet : quiet e = true
        · exact hnone (by simpa [hquiet] using hq)
        · exact hline (by simpa using hquiet)
    · rintro ⟨hheader, hsome⟩
      have hsafe (hq : ¬ (quiet e = true ∧ (errorId e).isSome = true)) :
          SAFE_CORRELATION_ID (filterRequestId env s.req) = true :=
        hid.mpr fun hreq v hv => (hheader hreq v hv).resolve_right hq
      exact ⟨fun hq => hsafe (by simp [hq]), fun hnone => hsafe (by simp [hnone]), hsome⟩

/-- **What one step writes** is safe exactly if the step is `Printable`. -/
theorem ids_safe_iff {s : Visit} (h : Identified env s) (e : Step) :
    (∀ w ∈ ids env f client s e, SAFE_CORRELATION_ID w.2 = true) ↔ Printable env s e := by
  cases e with
  | forward uuid =>
    refine iff_of_true (fun w hw => ?_) trivial
    rw [ids] at hw
    split at hw
    · simp at hw
    · next c hc =>
      rw [get_outbound hc, headerIds, List.map_singleton, List.mem_singleton] at hw
      subst hw
      exact requestIdFor_safe _ _ _
  | logOutcome outcome status path startedAt now logRequests =>
    refine iff_of_true (fun w hw => ?_) trivial
    rw [ids] at hw
    split at hw
    · simp at hw
    · next requestId hf =>
      obtain ⟨v, hv, rfl⟩ := List.mem_map.mp hw
      rw [lineIds_logOutcome _ _ _ _ v hv]
      exact h.forwarded requestId hf
  | pinoHttp uuid => exact iff_of_true nofun trivial
  | requestId uuid =>
    refine iff_of_true (fun w hw => ?_) trivial
    rw [ids, List.mem_singleton] at hw
    subst hw
    exact middlewareId_safe env uuid s.req
  | line =>
    refine iff_of_true (fun w hw => ?_) trivial
    obtain ⟨v, hv, rfl⟩ := List.mem_map.mp hw
    rcases List.mem_append.mp hv with hv | hv
    · cases hb : s.bound with
      | none => simp [hb] at hv
      | some ids => exact h.bound ids hb v (by simpa [hb] using hv)
    · exact h.id v (by simpa using hv)
  | answer body now rawResponse headersSent => exact answer_safe_iff h body now rawResponse headersSent
  | catchException e now headersSent => exact catch_safe_iff h e now headersSent

/-! ### Runs -/

theorem Run.identified {url : JsString} {es : List Step} {s : Visit} (h : (visits env f client url).Run es s) :
    Identified env s := by
  refine h.invariant (P := Identified env) ?_ fun s e hs _ => hs.step e
  rintro s rfl
  exact arrival_identified env client url

/-- What a step leaves has what it has written. -/
theorem written_step (s : Visit) (e : Step) :
    (step env f client s e).written = s.written ++ ids env f client s e := by
  cases e <;> rfl

/-- **Every id that a run writes is safe** exactly if every step of it is `Printable`. -/
theorem written_safe_iff {url : JsString} {es : List Step} {s : Visit} (h : (visits env f client url).Run es s) :
    (∀ w ∈ s.written, SAFE_CORRELATION_ID w.2 = true) ↔
      ((visits env f client url).restrict (Printable env)).Run es s := by
  induction h with
  | init hi =>
    refine iff_of_true ?_ (.init hi)
    obtain rfl := hi
    exact nofun
  | @snoc es s e hr he ih =>
    have hwritten : ((visits env f client url).next s e).written = s.written ++ ids env f client s e :=
      written_step s e
    rw [hwritten, List.forall_mem_append, ids_safe_iff (Run.identified hr) e, ih]
    constructor
    · rintro ⟨hrun, hprint⟩
      exact hrun.snoc ⟨he, hprint⟩
    · intro hrun
      obtain ⟨s', hr', ⟨-, hprint⟩, -⟩ := hrun.of_concat
      obtain rfl : s = s' := hr.unique (fun _ hi => hi) hr'.of_restrict
      exact ⟨hr', hprint⟩

/-! ### A request with an unsafe id -/

/-- A forwarder. -/
def plainForwarder : Forwarder := ⟨"legacy-host:8080", false⟩

/-- A UUID. -/
def freshUuid : Uuid := ⟨"9b2f0e6a-3c41-4d58-8f7e-1a6c5d2b9e04", by decide⟩

/-- A request whose id has a blank in it. -/
def blankId : IncomingRequest where
  method := "PATCH"
  method_upper := by decide
  originalUrl := "/v1/orders"
  protocol := "http"
  remoteAddress := none
  headers := { entries := [("x-request-id", .one "a b")], nodup := by decide, lower := by decide }
  chunks := []
  chunks_ne := nofun
  delimiter := .none
  delimited := ⟨by decide, by decide, rfl⟩

/-- What the body parser throws at a body that is no JSON. -/
def parseError : ErrorValue where
  value := .object .error
    [("message", .string "Unexpected token"), ("expose", .bool true), ("status", .int 400),
      ("type", .string "entity.parse.failed")]
  toProblem := none
  http := none

/-- Once the request has an id, a failure writes that. -/
theorem written_safe_late :
    ∃ s, (visits plainEnv plainForwarder blankId "/v1/orders").Run
        [.pinoHttp freshUuid, .requestId freshUuid, .catchException parseError "now" false] s ∧
      ∀ w ∈ s.written, SAFE_CORRELATION_ID w.2 = true := by
  have hrun : (visits plainEnv plainForwarder blankId "/v1/orders").Run
      [.pinoHttp freshUuid, .requestId freshUuid, .catchException parseError "now" false] _ :=
    Machine.Run.play rfl ⟨trivial, trivial, trivial, trivial⟩
  have hprint : ((visits plainEnv plainForwarder blankId "/v1/orders").restrict (Printable plainEnv)).Run
      [.pinoHttp freshUuid, .requestId freshUuid, .catchException parseError "now" false] _ :=
    Machine.Run.play rfl ⟨⟨trivial, trivial⟩, ⟨trivial, trivial⟩, ⟨trivial, fun _ => ⟨nofun, nofun⟩⟩, trivial⟩
  exact ⟨_, hrun, (written_safe_iff hrun).mpr hprint⟩

/-- The parser fails before there is an id: the log and the answer have the caller's. -/
theorem unsafe_id_written :
    ∃ s, (visits plainEnv plainForwarder blankId "/v1/orders").Run [.catchException parseError "now" false] s ∧
      s.written = [(Place.log, JsString.ofString "a b"), (Place.envelope, JsString.ofString "a b")] ∧
      SAFE_CORRELATION_ID "a b" = false := by
  have hrun : (visits plainEnv plainForwarder blankId "/v1/orders").Run [.catchException parseError "now" false] _ :=
    Machine.Run.play rfl ⟨trivial, trivial⟩
  exact ⟨_, hrun, rfl, by decide⟩

end NestDdd.Http
