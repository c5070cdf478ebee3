import NestDdd.Shared.Js
import NestDdd.Theory.Machine

/-!
# The events of a forwarded request

The second half of `LegacyForwarder.forward` (`src/infrastructure/legacy/legacy-forwarder.ts`):
the listeners on the outbound request, on the client's request and on the response to
the client, and `logOutcome`.

## The model

A forwarded request is a `Machine`. Its state holds the variables of `forward`
(`timedOut`, `settled`), what has been logged, and what the listeners can see or change
of the streams Node keeps: the client's connection, the response, the outbound request
and the upstream message. An event is one Node emits, and the code's reaction is the
listener that is registered for it at that moment; an event without a listener only
changes the streams.

`first` is kept for the specification only: which of three things happened first, that
the client left, that the response was fully written, or that the hop broke.

## Honest scope

* `res.writeHead` throws at a status that is none. Nothing catches what it throws, so the process ends
  there, and with it the run.
* `res.writableFinished` is what is meant by a response that was fully written.
* The time-out listener destroys the outbound request with an error, and Node emits
  that error before it turns to any other event; the two are one event here.
* After `destroy()` without an error Node emits `error` ("socket hang up") on an
  outbound request that has no response yet (`hangUp`), and only `close` on one that has.
* The bytes of the bodies are left out, and so are interim responses and upgrades.
-/

namespace NestDdd.Legacy

open NestDdd.Shared NestDdd.Theory

/-! ### The log -/

/-- `ForwardOutcome`. -/
inductive ForwardOutcome where
  /-- The legacy service answered. -/
  | completed
  /-- The client hung up first. -/
  | aborted
  /-- This hop failed. -/
  | failed
  deriving DecidableEq

/-- The level and the message of an outcome. -/
def ForwardOutcome.line : ForwardOutcome → Level × JsString
  | .completed => (.info, "legacy.forward.completed")
  | .aborted => (.warn, "legacy.forward.aborted")
  | .failed => (.error, "legacy.forward.failed")

/-- What `logOutcome` knows of a request, whatever its outcome, and `options.logRequests`. -/
structure ForwardContext where
  /-- `req.method`. -/
  method : JsString
  /-- `req.path`. -/
  path : JsString
  /-- `requestId`. -/
  requestId : JsString
  /-- `startedAt`. -/
  startedAt : ℤ
  /-- `options.logRequests`. -/
  logRequests : Bool

/-- `logOutcome`: the line it logs, if it logs one. -/
def logOutcome (ctx : ForwardContext) (outcome : ForwardOutcome) (status : Option ℕ) (now : ℤ) :
    Option LogLine :=
  if outcome ≠ .failed ∧ ctx.logRequests = false then none
  else some {
    level := outcome.line.1
    message := outcome.line.2
    fields := [("method", .string ctx.method), ("path", .string ctx.path),
      ("requestId", .string ctx.requestId), ("latencyMs", .int (now - ctx.startedAt))] ++
        (status.map fun n => ("status", JsValue.int n)).toList }

/-! ### The state -/

/-- The upstream message. -/
inductive Upstream where
  /-- There is no response yet. -/
  | none
  /-- Its body is coming in, and is piped to the client. -/
  | streaming
  /-- It has come in whole, and the rest of it is piped. -/
  | complete
  /-- It has ended. -/
  | ended
  /-- It was cut off before its end. -/
  | cut
  deriving DecidableEq

/-- What may happen first. -/
inductive Cause where
  /-- The client disconnected. -/
  | clientLeft
  /-- The response was fully written to the client. -/
  | finished
  /-- The hop to the legacy service broke or timed out. -/
  | hopBroke
  deriving DecidableEq

/-- The state of a forwarded request. -/
structure Exchange where
  /-- `timedOut`. -/
  timedOut : Bool
  /-- `settled`. -/
  settled : Bool
  /-- The lines logged. -/
  logs : List LogLine
  /-- `req` is complete and has been read to its end. -/
  requestComplete : Bool
  /-- The client's connection is gone. -/
  clientGone : Bool
  /-- The status of the head written to `res`. -/
  head : Option ℕ
  /-- `res.end()` was called. -/
  ended : Bool
  /-- `res.writableFinished`. -/
  finished : Bool
  /-- `res.destroy()` was called. -/
  destroyed : Bool
  /-- `res` has emitted `close`. -/
  closed : Bool
  /-- The listener for `close` on `res` is registered, with the status it has captured. -/
  listener : Option ℕ
  /-- The upstream message. -/
  upstream : Upstream
  /-- `outbound.writableFinished`: the request has been sent in full. -/
  outboundFinished : Bool
  /-- `outbound` is destroyed. -/
  outboundDestroyed : Bool
  /-- `outbound` is about to emit the error of its own `destroy()`. -/
  hangUpPending : Bool
  /-- `outbound` has emitted `close`. -/
  outboundClosed : Bool
  /-- What happened first. -/
  first : Option Cause
  /-- An exception that nothing catches has ended the process. -/
  crashed : Bool

/-- What Node emits. -/
inductive ExchangeEvent where
  /-- The client's request has been read to its end. -/
  | requestEnd
  /-- The client's connection closes; `req` emits `aborted` if it has not been read to its end. -/
  | clientLeft (now : ℤ)
  /-- `outbound` emits `finish`. -/
  | outboundFinish
  /-- `outbound` emits `response`. -/
  | response (statusCode : Option ℕ)
  /-- `outbound` emits `timeout`, and the error it is then destroyed with. -/
  | timeout (now : ℤ)
  /-- `outbound` emits `error`, because the connection failed. -/
  | error (now : ℤ)
  /-- `outbound` emits `error`, because it was destroyed before any response. -/
  | hangUp (now : ℤ)
  /-- The upstream message has come in whole. -/
  | upstreamComplete
  /-- It ends: all of it has been read. -/
  | upstreamEnd
  /-- The upstream connection ends before the upstream message does. -/
  | upstreamCut
  /-- `outbound` emits `close`. -/
  | outboundClose
  /-- `res` is fully written. -/
  | resFinish
  /-- `res` emits `close`. -/
  | resClose (now : ℤ)

namespace Exchange

variable (ctx : ForwardContext)

/-- `forward`, when the listeners have been registered. -/
def start : Exchange where
  timedOut := false
  settled := false
  logs := []
  requestComplete := false
  clientGone := false
  head := none
  ended := false
  finished := false
  destroyed := false
  closed := false
  listener := none
  upstream := .none
  outboundFinished := false
  outboundDestroyed := false
  hangUpPending := false
  outboundClosed := false
  first := none
  crashed := false

/-- `settle`. -/
def settle (s : Exchange) (outcome : ForwardOutcome) (status : Option ℕ) (now : ℤ) : Exchange :=
  if s.settled then s
  else { s with settled := true, logs := s.logs ++ (logOutcome ctx outcome status now).toList }

/-- `outbound.destroy()`. -/
def destroyOutbound (s : Exchange) : Exchange :=
  if s.outboundDestroyed || s.outboundClosed then s
  else { s with outboundDestroyed := true, hangUpPending := s.upstream == .none }

/-- `res.writeHead(status, …)` and `res.end(…)` if the head is not written yet, or `res.destroy()`. -/
def answer (s : Exchange) (status : ℕ) : Exchange :=
  if s.head.isNone then { s with head := some status, ended := true } else { s with destroyed := true }

/-- The listener for `error` on `outbound`. -/
def onError (s : Exchange) (now : ℤ) : Exchange :=
  let status := if s.timedOut then 504 else 502
  (s.settle ctx .failed (some status) now).answer status

/-- The statuses that `res.writeHead` takes. -/
def ValidStatus (status : ℕ) : Prop := 100 ≤ status ∧ status ≤ 999
  deriving Decidable

/-- The listener for `response` on `outbound`. -/
def onResponse (s : Exchange) (statusCode : Option ℕ) : Exchange :=
  let status := statusCode.getD 502
  if ValidStatus status then
    { s with head := some status, listener := some status, upstream := .streaming }
  else { s with upstream := .streaming, crashed := true }

/-- The listener for `close` on `res`. -/
def onClose (s : Exchange) (status : ℕ) (now : ℤ) : Exchange :=
  if s.finished then s.settle ctx .completed (some status) now
  else (s.settle ctx .aborted (some status) now).destroyOutbound

/-- The listener for `aborted` on `req`. -/
def onAborted (s : Exchange) (now : ℤ) : Exchange := (s.settle ctx .aborted none now).destroyOutbound

/-- Something happened, perhaps first. -/
def note (s : Exchange) (cause : Cause) : Exchange := { s with first := s.first.or (some cause) }

/-- What an event changes, and what the listeners do about it. -/
def step (s : Exchange) : ExchangeEvent → Exchange
  | .requestEnd => { s with requestComplete := true }
  | .clientLeft now =>
    -- a request whose response is fully written is no longer aborted
    if s.requestComplete || s.finished then { s.note .clientLeft with clientGone := true }
    else { s.note .clientLeft with clientGone := true }.onAborted ctx now
  | .outboundFinish => { s with outboundFinished := true }
  | .response statusCode => s.onResponse statusCode
  | .timeout now =>
    { s.note .hopBroke with timedOut := true, outboundDestroyed := true }.onError ctx now
  | .error now => { s.note .hopBroke with outboundDestroyed := true }.onError ctx now
  | .hangUp now => { s with hangUpPending := false }.onError ctx now
  | .upstreamComplete => { s with upstream := .complete }
  -- `upstream.pipe(res)` ends `res`
  | .upstreamEnd => { s with upstream := .ended, ended := true }
  -- and does nothing to it when `upstream` is destroyed
  | .upstreamCut => { s.note .hopBroke with upstream := .cut, outboundClosed := true }
  | .outboundClose =>
    { s with outboundClosed := true, upstream := if s.upstream = .streaming then .cut else s.upstream }
  | .resFinish => { s.note .finished with finished := true }
  | .resClose now =>
    match s.listener with
    | none => { s with closed := true }
    | some status => { s with closed := true }.onClose ctx status now

/-- The outbound request is neither destroyed nor closed. -/
def OutboundOpen (s : Exchange) : Prop := s.outboundDestroyed = false ∧ s.outboundClosed = false

/-- When Node can emit an event. -/
def Emits (s : Exchange) : ExchangeEvent → Prop
  | .requestEnd => s.requestComplete = false ∧ s.clientGone = false
  | .clientLeft _ => s.clientGone = false
  | .outboundFinish => s.requestComplete = true ∧ s.outboundFinished = false ∧ s.OutboundOpen
  | .response _ => s.upstream = .none ∧ s.OutboundOpen
  | .timeout _ | .error _ => s.OutboundOpen
  | .hangUp _ => s.hangUpPending = true
  | .upstreamComplete | .upstreamCut => s.upstream = .streaming ∧ s.OutboundOpen
  -- a message that has come in whole is read to its end even if the connection is gone
  | .upstreamEnd => s.upstream = .complete
  | .outboundClose =>
    s.outboundClosed = false ∧ s.hangUpPending = false ∧
      (s.outboundDestroyed = true ∨ s.upstream = .complete ∨ s.upstream = .ended)
  | .resFinish =>
    s.ended = true ∧ s.finished = false ∧ s.destroyed = false ∧ s.clientGone = false ∧ s.closed = false
  | .resClose _ => s.closed = false ∧ (s.finished = true ∨ s.destroyed = true ∨ s.clientGone = true)

/-- As long as there is a process. -/
def Enabled (s : Exchange) (e : ExchangeEvent) : Prop := s.crashed = false ∧ s.Emits e

end Exchange

/-- A forwarded request. -/
def exchange (ctx : ForwardContext) : Machine Exchange ExchangeEvent where
  Initial s := s = .start
  Enabled := Exchange.Enabled
  next := Exchange.step ctx

/-! ### The specification -/

namespace Exchange

/-- The response to the client and the outbound request have both closed. -/
def Over (s : Exchange) : Prop := s.closed = true ∧ s.outboundClosed = true

/-- **Exactly one truthful line**: `completed` only if the response was fully written, `aborted` only
if the client disconnected first, and `failed` whenever the hop broke first. -/
def Truthful (s : Exchange) : Prop :=
  ∃ (outcome : ForwardOutcome) (line : LogLine),
    s.logs = [line] ∧ (line.level, line.message) = outcome.line ∧
    (outcome = .completed → s.finished = true) ∧ (outcome = .aborted → s.first = some .clientLeft) ∧
      (s.first = some .hopBroke → outcome = .failed)

end Exchange

end NestDdd.Legacy
