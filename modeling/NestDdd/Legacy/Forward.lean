import NestDdd.Legacy.ClientRequest
import NestDdd.Shared.Correlation

/-!
# What the forwarder sends

The first half of `LegacyForwarder.forward` (`src/infrastructure/legacy/legacy-forwarder.ts`):
the correlation id, the headers, the outbound request, and the client's body piped into
it.

## The model

A request of the client is what Node's server hands on: the headers in lower case, and
the body decoded, in the pieces it arrives in. `Delimited` says how the client had
delimited it. The random UUID is an argument.
-/

namespace NestDdd.Legacy

open NestDdd.Shared NestDdd.Theory NestDdd.Theory.Http

/-! ### The client's request -/

/-- How the client delimited its body. -/
inductive Delimiter where
  /-- There is no body. -/
  | none
  /-- By `Content-Length`. -/
  | contentLength
  /-- By `Transfer-Encoding: chunked`. -/
  | chunked
  deriving DecidableEq

/-- What the delimiter says about the headers and the body. -/
def Delimited (headers : IncomingHttpHeaders) (body : Bytes) : Delimiter → Prop
  | .none => headers.get "content-length" = .none ∧ headers.get "transfer-encoding" = .none ∧ body = []
  | .contentLength =>
    headers.get "transfer-encoding" = .none ∧
      ∃ v, headers.get "content-length" = some (.one v) ∧ readNat 10 (latin1 v) = some body.length
  | .chunked =>
    headers.get "content-length" = .none ∧
      ∃ v, headers.get "transfer-encoding" = some (.one v) ∧ v.toLowerCase = "chunked"

/-- The client's request, as Node's server hands it on. -/
structure IncomingRequest where
  /-- `req.method`. -/
  method : JsString
  /-- Node knows its methods in capitals. -/
  method_upper : method.toUpperCase = method
  /-- `req.originalUrl`. -/
  originalUrl : JsString
  /-- `req.protocol`. -/
  protocol : JsString
  /-- `req.socket.remoteAddress`. -/
  remoteAddress : Option JsString
  /-- `req.headers`. -/
  headers : IncomingHttpHeaders
  /-- The `data` events. -/
  chunks : List Bytes
  /-- None of them is empty. -/
  chunks_ne : ∀ chunk ∈ chunks, chunk ≠ []
  /-- How the client delimited its body. -/
  delimiter : Delimiter
  /-- And so it did. -/
  delimited : Delimited headers chunks.flatten delimiter

/-- The bytes of the body. -/
def IncomingRequest.body (req : IncomingRequest) : Bytes := req.chunks.flatten

/-! ### `forward` -/

/-- `LegacyForwarderOptions`, as far as the outbound request depends on them, and `targetHost`. -/
structure ForwardOptions where
  /-- `targetHost`. -/
  targetHost : JsString
  /-- `preserveHostHeader`. -/
  preserveHostHeader : Bool
  /-- `requestIdHeader`. -/
  requestIdHeader : JsString

/-- `Array.isArray(header) ? header[0] : header`. -/
def HeaderValue.first : HeaderValue → Option JsString
  | .one value => some value
  | .many values => values.head?

/-- The id the caller supplies. -/
def candidate (opts : ForwardOptions) (req : IncomingRequest) : Option JsString :=
  (req.headers.get opts.requestIdHeader.toLowerCase).bind HeaderValue.first

/-- `requestIdFor`. -/
def requestIdFor (opts : ForwardOptions) (uuid : Uuid) (req : IncomingRequest) : JsString :=
  if isSafeCorrelationId (candidate opts req) then (candidate opts req).getD [] else uuid.value

/-- `req.headers.host`. -/
def hostHeader (req : IncomingRequest) : Option JsString := (req.headers.get "host").bind HeaderValue.first

/-- What `forward` hands to `buildForwardHeaders`. -/
def forwardHeadersInput (opts : ForwardOptions) (uuid : Uuid) (req : IncomingRequest) :
    ForwardHeadersInput where
  headers := req.headers
  remoteAddress := req.remoteAddress.getD "unknown"
  protocol := if req.protocol = "https" then "https" else "http"
  hostHeader := hostHeader req
  targetHost := opts.targetHost
  preserveHostHeader := opts.preserveHostHeader
  requestIdHeader := opts.requestIdHeader
  requestIdValue := requestIdFor opts uuid req

/-- `this.client.request(…)`. -/
def outbound (opts : ForwardOptions) (uuid : Uuid) (req : IncomingRequest) : Option ClientRequest :=
  request req.method req.originalUrl (buildForwardHeaders (forwardHeadersInput opts uuid req))

/-- The bytes on the legacy connection after `req.pipe(outbound)`; `none` if Node refuses to send
the request. -/
def forward (opts : ForwardOptions) (uuid : Uuid) (req : IncomingRequest) : Option Bytes :=
  (outbound opts uuid req).bind fun c => c.stream req.chunks

end NestDdd.Legacy
