import NestDdd.Database.Health
import NestDdd.Http.ErrorBoundary
import NestDdd.Lifecycle.Closing

/-!
# Requests while a worker comes to its end

`HealthController` (`src/interface/http/controllers/health.controller.ts`) tells the load balancer whether to route
here. It reads the flag that the shutdown raises, and pings the pools that the shutdown closes; every other handler uses
the same pools.

## The model

`serving` is the machine of a worker with the requests at its handlers. A probe runs to its pings at once, hears their
answers in any order and replies when `health` has settled; any other handler uses the pools when it likes. Between two
of these anything may happen to the worker, and `app.close()` destroys the pools while the shutdown awaits it. The
history is kept for the specification only.

## Assumptions

* A request comes in on an open connection that has no other request. The connection may close at any time, because the
  client leaves or stays idle for too long, or because the server cuts it.
* A handler whose connection has closed goes on.

## What is proved

* `Serving.Inv.next` — the invariant: a handler under way has a connection that is open, or that closed before.
* `requests_meet_open_pools` — **no handler meets a closed pool** unless its connection closed before it was over.
* `readiness_truthful` — **what a probe is told is true**, whatever comes between its question and its reply.
-/

namespace NestDdd.Http

open NestDdd.Theory NestDdd.Shared NestDdd.Database NestDdd.Lifecycle

/-! ### `HealthController` -/

/-- What the probe reads of the configuration. -/
structure HealthConfig where
  /-- `database.health.timeoutMs`, if there is a database. -/
  timeoutMs : Option ℕ
  /-- `isProduction()`. -/
  isProduction : Bool

/-- The `timeoutMs` that `health` is called with. -/
def HealthConfig.pingTimeoutMs (cfg : HealthConfig) : ℕ := cfg.timeoutMs.getD 3000

/-- `new ServiceUnavailableException(response)`. -/
def serviceUnavailableException (response : JsValue) : ErrorValue where
  value := .object (.other "HttpException")
    [("name", .string "ServiceUnavailableException"), ("status", .int 503), ("response", response),
      ("message", if (response.get "message").isString then response.get "message"
        else .string "Service Unavailable Exception")]
  toProblem := none
  http := some { status := 503, response := response }

/-- What `ready` throws while the process drains. -/
def shuttingDownException : ErrorValue :=
  serviceUnavailableException (.object .plain
    [("message", .string "Shutting down"), ("code", .string "SHUTTING_DOWN")])

/-- `{ ...source, error: hideErrors ? undefined : source.error }`. -/
def shownSource (cfg : HealthConfig) (source : SourceHealth) : JsValue :=
  source.value.spread (.object .plain
    [("error", if cfg.isProduction then .undefined else .ofOption source.error)])

/-- `ready`, once `health` has resolved. -/
def readiness (cfg : HealthConfig) (health : List SourceHealth) : Except ErrorValue HandlerBody :=
  let sources := JsValue.array (health.map (shownSource cfg))
  if (health.filter (·.implemented)).all (·.ok) then
    .ok (.value (.object .plain [("status", .string "ok"), ("sources", sources)]))
  else
    .error (serviceUnavailableException (.object .plain
      [("message", .string "Not ready"), ("code", .string "NOT_READY"), ("details", sources)]))

/-- An `UnknownSourceKeyError` that `health` rejects with. -/
def healthRejection (e : JsValue) : ErrorValue where
  value := e
  toProblem := some (.returns (.object .plain
    [("kind", .string "service_unavailable"), ("type", problemType "service-unavailable"),
      ("title", .string "Unknown data source"),
      ("detail", .string (JsString.concat
        ["The data source key \"", (e.get "sourceKey").text, "\" is not configured."]))]))
  http := none

/-- `ready`, once `health` has settled. -/
def readyOutcome (cfg : HealthConfig) : Except JsValue (List SourceHealth) → Except ErrorValue HandlerBody
  | .ok health => readiness cfg health
  | .error e => .error (healthRejection e)

/-! ### The machine -/

/-- What a worker that serves is configured with. -/
structure ServingConfig where
  /-- The worker. -/
  worker : WorkerConfig
  /-- The probe. -/
  health : HealthConfig
  /-- The filter. -/
  env : Env
  /-- The pools, as they were made at boot. -/
  registry : Registry
  /-- They were made by calls of the pool manager. -/
  booted : ∃ calls, Registry.machine.Run calls registry

/-- A handler under way. -/
inductive Handler where
  /-- `ready`, in its call of `health`. -/
  | ready (x : Exchange) (tasks : List SourceTask) (answers : Answers)
  /-- Any other. -/
  | other

/-- What happens. -/
inductive Moment where
  /-- The shutdown raises its flag. -/
  | raised
  /-- A request comes to its handler. -/
  | arrived (id : ℕ)
  /-- A probe pings a source. -/
  | pinged (id : ℕ) (sourceKey : JsString) (timeoutMs : ℕ)
  /-- What came of it. -/
  | heard (id : ℕ) (sourceKey : JsString) (p : Pinged)
  /-- A probe replies. -/
  | replied (id : ℕ) (reply : Reply)
  /-- Another handler uses a pool. -/
  | used (id : ℕ) (sourceKey : JsString)
  /-- Another handler is over. -/
  | finished (id : ℕ)
  /-- The connection of a request closes: it is left, or cut. -/
  | closed (id : ℕ)
  /-- The pools are destroyed. -/
  | destroyed

/-- A worker and the requests at its handlers. -/
structure Serving where
  /-- The worker. -/
  worker : Worker
  /-- The pools. -/
  registry : Registry
  /-- The handlers that are under way. -/
  handler : ℕ → Option Handler
  /-- Those whose connection is open. -/
  connected : List ℕ
  /-- What has happened. -/
  history : List Moment

namespace Serving

variable (cfg : ServingConfig)

/-- What may happen. -/
inductive Happening where
  /-- Something happens to the worker. -/
  | works (e : Worker.Happening)
  /-- A client leaves before it has been answered, or the server's time-out closes its connection. -/
  | leaves (id : ℕ)
  /-- `GET /health/ready`. -/
  | probe (id : ℕ) (x : Exchange)
  /-- A ping is answered. -/
  | hears (id : ℕ) (sourceKey : JsString) (p : Pinged)
  /-- The probe replies. -/
  | replies (id : ℕ) (now : JsString)
  /-- Any other request. -/
  | request (id : ℕ)
  /-- Its handler uses a pool. -/
  | uses (id : ℕ) (sourceKey : JsString)
  /-- Its handler is over. -/
  | finishes (id : ℕ)
  /-- `PoolManager.onModuleDestroy`. -/
  | destroys (close : JsString → Except JsValue Unit)

/-- More has happened. -/
def record (s : Serving) (moments : List Moment) : Serving := { s with history := s.history ++ moments }

/-- A request may come in. -/
def Free (s : Serving) (id : ℕ) : Prop := .arrived id ∉ s.history ∧ s.connected.length < s.worker.connections

/-- When it may happen. -/
def Enabled (s : Serving) : Happening → Prop
  | .works e =>
    Worker.Enabled cfg.worker s.worker e ∧ (e = .disconnect → s.connected.length < s.worker.connections) ∧
      (e = .appClosed → .destroyed ∈ s.history)
  | .leaves id => id ∈ s.connected
  | .probe id _ | .request id => s.Free id
  | .hears id key _ => ∃ x tasks answers, s.handler id = some (.ready x tasks answers) ∧
      key ∈ tasks.filterMap SourceTask.pinged? ∧ answers key = none
  | .replies id _ => ∃ x tasks answers, s.handler id = some (.ready x tasks answers) ∧
      (healthSettled answers tasks).isSome = true
  | .uses id _ | .finishes id => s.handler id = some .other
  | .destroys _ => (∃ rest, s.worker.thread = some ⟨.closeApp, rest⟩) ∧ .destroyed ∉ s.history

/-- The worker goes on. -/
def work (s : Serving) (e : Worker.Happening) : Serving :=
  let worker := s.worker.step cfg.worker e
  let raised : List Moment := if !s.worker.shuttingDown && worker.shuttingDown then [.raised] else []
  match e with
  | .forceTimer => { s with worker := worker, connected := [] }.record (raised ++ s.connected.map Moment.closed)
  | _ => { s with worker := worker }.record raised

/-- `ready`, up to its `await`. -/
def probe (s : Serving) (id : ℕ) (x : Exchange) : Serving :=
  if s.worker.shuttingDown then
    s.record [.arrived id, .replied id (respond cfg.env x x.now (.error shuttingDownException))]
  else
    let tasks := s.registry.healthTasks
    { s with
      handler := Function.update s.handler id (some (.ready x tasks fun _ => none))
      connected := id :: s.connected }.record
      (.arrived id :: (tasks.filterMap SourceTask.pinged?).map fun key => .pinged id key cfg.health.pingTimeoutMs)

/-- A connection closes while its request is being handled. -/
def depart (s : Serving) (id : ℕ) : Serving :=
  { s with worker := s.worker.step cfg.worker .disconnect, connected := s.connected.erase id }.record [.closed id]

/-- A handler is over. -/
def leave (s : Serving) (id : ℕ) : Serving :=
  { s with handler := Function.update s.handler id none, connected := s.connected.erase id }

/-- What comes of what happens. -/
def next (s : Serving) : Happening → Serving
  | .works e => s.work cfg e
  | .leaves id => s.depart cfg id
  | .probe id x => s.probe cfg id x
  | .hears id key p =>
    match s.handler id with
    | some (.ready x tasks answers) =>
      { s with
        handler := Function.update s.handler id
          (some (.ready x tasks (Function.update answers key (some p)))) }.record [.heard id key p]
    | _ => s
  | .replies id now =>
    match s.handler id with
    | some (.ready x tasks answers) =>
      match healthSettled answers tasks with
      | some outcome =>
        (s.leave id).record [.replied id (respond cfg.env x now (readyOutcome cfg.health outcome))]
      | none => s
    | _ => s
  | .request id =>
    { s with
      handler := Function.update s.handler id (some .other)
      connected := id :: s.connected }.record [.arrived id]
  | .uses id key => s.record [.used id key]
  | .finishes id => (s.leave id).record [.finished id]
  | .destroys close => { s with registry := s.registry.onModuleDestroy close }.record [.destroyed]

/-- A worker that has just started. -/
def started (connections : ℕ) : Serving where
  worker := .started connections
  registry := cfg.registry
  handler := fun _ => none
  connected := []
  history := []

end Serving

/-- **A worker that serves requests.** -/
def serving (cfg : ServingConfig) : Machine Serving Serving.Happening where
  Initial s := ∃ connections, s = .started cfg connections
  Enabled := Serving.Enabled cfg
  next := Serving.next cfg

/-! ### The specification -/

/-- The handler of a request is over. -/
def Over (past : List Moment) (id : ℕ) : Prop := .finished id ∈ past ∨ ∃ reply, .replied id reply ∈ past

/-- **What has to come before what**, for the pools. -/
def Sheltered (past : List Moment) : Moment → Prop
  | .arrived _ => .destroyed ∉ past
  | .pinged _ _ _ => .destroyed ∉ past
  | .closed id => .arrived id ∈ past ∧ ¬ Over past id
  | .used id _ => .destroyed ∉ past ∨ .closed id ∈ past
  | .destroyed => ∀ id, .arrived id ∈ past → Over past id ∨ .closed id ∈ past
  | _ => True

/-- The flag was raised when the request came. -/
def TooLate (history : List Moment) (id : ℕ) : Prop :=
  ∃ past future, history = past ++ .arrived id :: future ∧ .raised ∈ past

/-- What a probe tells of the sources. -/
def Reply.sources : Reply → List JsValue
  | .json _ body => ((body.get "error").get "details").elements
  | .handed (.value v) => (((v.get "data").orElse v).get "sources").elements
  | .handed _ | .unanswered _ => []

/-- **What a probe is told** that came in time. -/
structure Verdict (cfg : ServingConfig) (past : List Moment) (id : ℕ) (reply : Reply) : Prop where
  /-- It is ready if and only if every implemented source answered this probe. -/
  ready : reply.status = 200 ↔ ∀ e ∈ cfg.registry.clients.entries, e.2.implemented = true →
    ∃ p, .heard id e.1 p ∈ past ∧ p.Fine
  /-- Otherwise it is not. -/
  notReady : reply.status ≠ 200 → reply.status = 503 ∧ reply.code = .string "NOT_READY"
  /-- Every source is there once, in order. -/
  complete : reply.sources.map (·.get "sourceKey") = cfg.registry.clients.keys.map .string
  /-- In production no source has an error. -/
  discreet : cfg.health.isProduction = true → ∀ source ∈ reply.sources, source.get "error" = .undefined

/-- **What has to come before what**, for the probes. -/
def Truthful (cfg : ServingConfig) (past : List Moment) : Moment → Prop
  | .pinged id key timeoutMs =>
    .arrived id ∈ past ∧ .raised ∉ past ∧ timeoutMs = cfg.health.pingTimeoutMs ∧
      cfg.registry.clients.get? key = some .oracleClient
  | .heard id key _ => .pinged id key cfg.health.pingTimeoutMs ∈ past ∧ ∀ p, .heard id key p ∉ past
  | .replied id reply =>
    (TooLate past id → reply.status = 503 ∧ reply.code = .string "SHUTTING_DOWN" ∧
      ∀ key timeoutMs, .pinged id key timeoutMs ∉ past) ∧ (¬ TooLate past id → Verdict cfg past id reply)
  | _ => True

/-! ### What is answered -/

section Answers

variable (env : Env) (x : Exchange) (now : JsString)

/-- While the process drains. -/
theorem respond_shuttingDown : (respond env x now (.error shuttingDownException)).status = 503 ∧
    (respond env x now (.error shuttingDownException)).code = .string "SHUTTING_DOWN" := by
  rw [respond, catchException_http rfl (by decide) rfl (readable_of_stackless rfl rfl rfl)]
  exact ⟨rfl, rfl⟩

theorem elements_array (values : List JsValue) : (JsValue.array values).elements = values := by
  rw [JsValue.array, JsValue.elements, JsValue.props, List.map_map]
  exact List.zipIdx_map_fst 0 values

variable (cfg : HealthConfig) {health : List SourceHealth}

/-- Not every source has answered. -/
theorem respond_notReady (h : ¬ (health.filter (·.implemented)).all (·.ok) = true) :
    (respond env x now (readiness cfg health)).status = 503 ∧
      (respond env x now (readiness cfg health)).code = .string "NOT_READY" ∧
      (respond env x now (readiness cfg health)).sources = health.map (shownSource cfg) := by
  rw [readiness, if_neg h, respond,
    catchException_http rfl (show (400 : ℤ) ≤ 503 by decide) rfl (readable_of_stackless rfl rfl rfl)]
  exact ⟨rfl, rfl, elements_array _⟩

/-- Every source has. -/
theorem respond_ready (h : (health.filter (·.implemented)).all (·.ok) = true) :
    (respond env x now (readiness cfg health)).status = 200 ∧
      (respond env x now (readiness cfg health)).sources = health.map (shownSource cfg) := by
  rw [readiness, if_pos h, respond, intercept]
  by_cases hx : x.bypassed = true
  · rw [if_pos hx]
    exact ⟨rfl, elements_array _⟩
  · rw [if_neg hx]
    exact ⟨rfl, elements_array _⟩

theorem sourceKey_shownSource (source : SourceHealth) :
    (shownSource cfg source).get "sourceKey" = .string source.sourceKey := by
  rw [shownSource, get_spread rfl]
  rfl

theorem error_shownSource (hp : cfg.isProduction = true) (source : SourceHealth) :
    (shownSource cfg source).get "error" = .undefined := by
  rw [shownSource, hp]
  rfl

end Answers

/-! ### When a request came -/

variable {cfg : ServingConfig} {s : Serving} {history more : List Moment} {id : ℕ}

theorem tooLate_append (hmore : .arrived id ∉ more) : TooLate (history ++ more) id ↔ TooLate history id := by
  constructor
  · rintro ⟨past, future, heq, hraised⟩
    rcases List.append_eq_append_iff.mp heq with ⟨rest, hpast, hrest⟩ | ⟨rest, hpast, hrest⟩
    · exact absurd (hrest ▸ List.mem_append_right rest List.mem_cons_self) hmore
    · cases rest with
      | nil =>
        rw [List.nil_append] at hrest
        exact absurd (hrest ▸ List.mem_cons_self) hmore
      | cons m rest =>
        obtain ⟨rfl, -⟩ := List.cons.inj hrest
        exact ⟨past, rest, hpast, hraised⟩
  · rintro ⟨past, future, rfl, hraised⟩
    exact ⟨past, future ++ more, by rw [List.append_assoc, List.cons_append], hraised⟩

/-- A request that has just come. -/
theorem tooLate_arrived (hnew : .arrived id ∉ history) (hmore : .arrived id ∉ more) :
    TooLate (history ++ .arrived id :: more) id ↔ .raised ∈ history := by
  constructor
  · rintro ⟨past, future, heq, hraised⟩
    rcases List.append_eq_append_iff.mp heq with ⟨rest, hpast, hrest⟩ | ⟨rest, hpast, hrest⟩
    · cases rest with
      | nil =>
        rw [List.append_nil] at hpast
        rwa [← hpast]
      | cons m rest =>
        obtain ⟨-, hmem⟩ := List.cons.inj hrest
        exact absurd (hmem ▸ List.mem_append_right rest List.mem_cons_self) hmore
    · cases rest with
      | nil =>
        rw [List.append_nil] at hpast
        rwa [hpast]
      | cons m rest =>
        obtain ⟨rfl, -⟩ := List.cons.inj hrest
        exact absurd (hpast ▸ List.mem_append_right past List.mem_cons_self) hnew
  · intro hraised
    exact ⟨history, more, rfl, hraised⟩

/-! ### The handlers and the history -/

/-- The request a moment is about. -/
def Moment.about : Moment → Option ℕ
  | .arrived id | .pinged id _ _ | .heard id _ _ | .replied id _ | .used id _ | .finished id | .closed id => some id
  | .raised | .destroyed => none

/-- A probe in its call of `health`. -/
structure Asking (cfg : ServingConfig) (history : List Moment) (id : ℕ) (tasks : List SourceTask) (answers : Answers) :
    Prop where
  /-- It asked the pools that were made at boot. -/
  asked : tasks = cfg.registry.healthTasks
  /-- It came in time. -/
  inTime : ¬ TooLate history id
  /-- Its pings are out. -/
  pinged : ∀ key ∈ tasks.filterMap SourceTask.pinged?, .pinged id key cfg.health.pingTimeoutMs ∈ history
  /-- What it has heard. -/
  heard : ∀ key p, answers key = some p ↔ .heard id key p ∈ history

theorem Asking.append {tasks : List SourceTask} {answers : Answers} (h : Asking cfg history id tasks answers)
    (hmore : .arrived id ∉ more) (hheard : ∀ key p, .heard id key p ∉ more) :
    Asking cfg (history ++ more) id tasks answers where
  asked := h.asked
  inTime := mt (tooLate_append hmore).mp h.inTime
  pinged key hkey := List.mem_append_left _ (h.pinged key hkey)
  heard key p := by
    rw [List.mem_append, or_iff_left (hheard key p)]
    exact h.heard key p

/-- What the handlers, their connections and the history say of each other. -/
structure Books (cfg : ServingConfig) (handler : ℕ → Option Handler) (connected : List ℕ) (history : List Moment) :
    Prop where
  /-- What happens to a request happens once it has come. -/
  about : ∀ m ∈ history, ∀ id, m.about = some id → .arrived id ∈ history
  /-- Who is at a handler has come. -/
  known : ∀ id, handler id ≠ none → .arrived id ∈ history
  /-- Who has come is at its handler until that is over. -/
  handled : ∀ id, .arrived id ∈ history → handler id ≠ none ∨ Over history id
  /-- Its connection is open, or has closed. -/
  attached : ∀ id, handler id ≠ none → id ∈ connected ∨ .closed id ∈ history
  /-- A connection has one request. -/
  nodup : connected.Nodup
  /-- It has come. -/
  arrived : ∀ id ∈ connected, .arrived id ∈ history
  /-- The probes. -/
  asking : ∀ id x tasks answers, handler id = some (.ready x tasks answers) → Asking cfg history id tasks answers

variable {handler : ℕ → Option Handler} {connected : List ℕ}

theorem over_append : Over (history ++ more) id ↔ Over history id ∨ Over more id := by
  simp only [Over, List.mem_append, exists_or]
  tauto

theorem Over.append (h : Over history id) (more : List Moment) : Over (history ++ more) id :=
  over_append.mpr (.inl h)

/-- Nobody comes, and nothing is heard. -/
theorem Books.append (h : Books cfg handler connected history)
    (hmore : ∀ m ∈ more, ∀ id, m ≠ .arrived id ∧ (∀ key p, m ≠ .heard id key p) ∧
      (m.about = some id → .arrived id ∈ history)) :
    Books cfg handler connected (history ++ more) where
  about m hm id hid := by
    refine List.mem_append_left _ ((List.mem_append.mp hm).elim (fun hold => h.about m hold id hid) fun hnew => ?_)
    exact (hmore m hnew id).2.2 hid
  known id hid := List.mem_append_left _ (h.known id hid)
  handled id hid := by
    have hold := (List.mem_append.mp hid).resolve_right fun hnew => (hmore _ hnew id).1 rfl
    exact (h.handled id hold).imp_right (·.append more)
  attached id hid := (h.attached id hid).imp_right (List.mem_append_left _)
  nodup := h.nodup
  arrived id hid := List.mem_append_left _ (h.arrived id hid)
  asking id x tasks answers hid :=
    (h.asking id x tasks answers hid).append (fun hnew => (hmore _ hnew id).1 rfl)
      fun key p hnew => (hmore _ hnew id).2.1 key p rfl

/-- Connections close. -/
theorem Books.close (h : Books cfg handler connected history) {rest : List ℕ} (hrest : rest.Sublist connected)
    (hclosed : ∀ id ∈ connected, id ∈ rest ∨ .closed id ∈ history) : Books cfg handler rest history where
  about := h.about
  known := h.known
  handled := h.handled
  attached id hid := (h.attached id hid).elim (hclosed id) .inr
  nodup := h.nodup.sublist hrest
  arrived id hid := h.arrived id (hrest.subset hid)
  asking := h.asking

/-- A request comes to its handler. -/
theorem Books.arrive (h : Books cfg handler connected history) (hnew : .arrived id ∉ history) {started : Handler}
    (hmore : ∀ m ∈ more, m.about = some id ∧ m ≠ .arrived id ∧ ∀ key p, m ≠ .heard id key p)
    (hasking : ∀ x tasks answers, started = .ready x tasks answers →
      Asking cfg (history ++ .arrived id :: more) id tasks answers) :
    Books cfg (Function.update handler id (some started)) (id :: connected) (history ++ .arrived id :: more) where
  about m hm i hi := by
    rcases List.mem_append.mp hm with hold | hnew'
    · exact List.mem_append_left _ (h.about m hold i hi)
    · have hid : m.about = some id := by
        rcases List.mem_cons.mp hnew' with rfl | hin
        · rfl
        · exact (hmore m hin).1
      obtain rfl : id = i := Option.some.inj (hid.symm.trans hi)
      exact List.mem_append_right _ List.mem_cons_self
  known i hi := by
    by_cases hid : i = id
    · rw [hid]
      exact List.mem_append_right _ List.mem_cons_self
    · rw [Function.update_of_ne hid] at hi
      exact List.mem_append_left _ (h.known i hi)
  handled i hi := by
    by_cases hid : i = id
    · rw [hid, Function.update_self]
      exact .inl nofun
    · rw [Function.update_of_ne hid]
      have hold : .arrived i ∈ history := by
        refine (List.mem_append.mp hi).resolve_right fun hin => ?_
        rcases List.mem_cons.mp hin with heq | hin
        · exact hid (Moment.arrived.inj heq)
        · exact hid (Option.some.inj (hmore _ hin).1)
      exact (h.handled i hold).imp_right (·.append _)
  attached i hi := by
    by_cases hid : i = id
    · exact .inl (hid ▸ List.mem_cons_self)
    · rw [Function.update_of_ne hid] at hi
      exact (h.attached i hi).imp (List.mem_cons_of_mem _) (List.mem_append_left _)
  nodup := List.nodup_cons.mpr ⟨fun hin => hnew (h.arrived id hin), h.nodup⟩
  arrived i hi := by
    rcases List.mem_cons.mp hi with rfl | hin
    · exact List.mem_append_right _ List.mem_cons_self
    · exact List.mem_append_left _ (h.arrived i hin)
  asking i x tasks answers hi := by
    by_cases hid : i = id
    · subst hid
      rw [Function.update_self] at hi
      exact hasking x tasks answers (Option.some.inj hi)
    · rw [Function.update_of_ne hid] at hi
      refine (h.asking i x tasks answers hi).append (fun hin => ?_) fun key p hin => ?_
      · rcases List.mem_cons.mp hin with heq | hin
        · exact hid (Moment.arrived.inj heq)
        · exact hid (Option.some.inj (hmore _ hin).1)
      · rcases List.mem_cons.mp hin with heq | hin
        · cases heq
        · exact hid (Option.some.inj (hmore _ hin).1)

/-- A handler is over. -/
theorem Books.leave (h : Books cfg handler connected history) {m : Moment} (hm : m.about = some id)
    (hknown : .arrived id ∈ history) (hover : Over [m] id) :
    Books cfg (Function.update handler id none) (connected.erase id) (history ++ [m]) := by
  have hmore : ∀ a ∈ [m], ∀ i, a ≠ .arrived i ∧ (∀ key p, a ≠ .heard i key p) ∧
      (a.about = some i → .arrived i ∈ history) := by
    intro a ha i
    obtain rfl := List.mem_singleton.mp ha
    refine ⟨?_, fun key p => ?_, fun hi => ?_⟩
    · rintro rfl
      rcases hover with hf | ⟨reply, hr⟩
      · cases List.mem_singleton.mp hf
      · cases List.mem_singleton.mp hr
    · rintro rfl
      rcases hover with hf | ⟨reply, hr⟩
      · cases List.mem_singleton.mp hf
      · cases List.mem_singleton.mp hr
    · obtain rfl : id = i := Option.some.inj (hm.symm.trans hi)
      exact hknown
  have hall := h.append hmore
  have hsub (i : ℕ) (hi : Function.update handler id none i ≠ none) : i ≠ id ∧ handler i ≠ none := by
    by_cases hid : i = id
    · rw [hid, Function.update_self] at hi
      exact absurd rfl hi
    · rw [Function.update_of_ne hid] at hi
      exact ⟨hid, hi⟩
  refine ⟨hall.about, fun i hi => hall.known i (hsub i hi).2, fun i hi => ?_, fun i hi => ?_, hall.nodup.erase _,
    fun i hi => hall.arrived i (List.mem_of_mem_erase hi), fun i x tasks answers hi => ?_⟩
  · by_cases hid : i = id
    · rw [hid]
      exact .inr (hover.imp (List.mem_append_right _) fun ⟨r, hr⟩ => ⟨r, List.mem_append_right _ hr⟩)
    · rw [Function.update_of_ne hid]
      exact hall.handled i hi
  · obtain ⟨hid, hh⟩ := hsub i hi
    exact (hall.attached i hh).imp_left (List.mem_erase_of_ne hid).mpr
  · obtain ⟨hid, -⟩ := hsub i (by rw [hi]; nofun)
    rw [Function.update_of_ne hid] at hi
    exact hall.asking i x tasks answers hi

/-- A probe hears of a source. -/
theorem Books.hear (h : Books cfg handler connected history) {x : Exchange} {tasks : List SourceTask}
    {answers : Answers} (hid : handler id = some (.ready x tasks answers)) {key : JsString} (hkey : answers key = none)
    (p : Pinged) :
    Books cfg (Function.update handler id (some (.ready x tasks (Function.update answers key (some p))))) connected
      (history ++ [.heard id key p]) := by
  have hknown : .arrived id ∈ history := h.known id (by rw [hid]; nofun)
  have hsame (i : ℕ) : Function.update handler id (some (.ready x tasks (Function.update answers key (some p)))) i ≠
      none ↔ handler i ≠ none := by
    by_cases hi : i = id
    · rw [hi, Function.update_self, hid]
      exact iff_of_true nofun nofun
    · rw [Function.update_of_ne hi]
  refine ⟨fun m hm i hi => ?_, fun i hi => List.mem_append_left _ (h.known i ((hsame i).mp hi)), fun i hi => ?_,
    fun i hi => (h.attached i ((hsame i).mp hi)).imp_right (List.mem_append_left _), h.nodup,
    fun i hi => List.mem_append_left _ (h.arrived i hi), fun i y ts as hi => ?_⟩
  · rcases List.mem_append.mp hm with hold | hnew
    · exact List.mem_append_left _ (h.about m hold i hi)
    · obtain rfl := List.mem_singleton.mp hnew
      obtain rfl : id = i := Option.some.inj hi
      exact List.mem_append_left _ hknown
  · have hold : .arrived i ∈ history := by simpa using hi
    exact (h.handled i hold).imp (hsame i).mpr (·.append _)
  · by_cases hi' : i = id
    · subst hi'
      rw [Function.update_self] at hi
      obtain ⟨rfl, rfl, rfl⟩ := Handler.ready.inj (Option.some.inj hi)
      have hold := h.asking i x tasks answers hid
      refine ⟨hold.asked, mt (tooLate_append (by simp)).mp hold.inTime,
        fun k hk => List.mem_append_left _ (hold.pinged k hk), fun k q => ?_⟩
      by_cases hk : k = key
      · subst hk
        have hnone : .heard i k q ∉ history := by
          rw [← hold.heard, hkey]
          nofun
        rw [Function.update_self, List.mem_append, or_iff_right hnone, List.mem_singleton]
        simp [eq_comm]
      · rw [Function.update_of_ne hk, hold.heard]
        simp [hk]
    · rw [Function.update_of_ne hi'] at hi
      exact (h.asking i y ts as hi).append (by simp) fun k q => by simp [hi']

/-! ### The worker and the pools -/

/-- What the worker, its pools and the history say of each other. -/
structure Gate (cfg : ServingConfig) (s : Serving) : Prop where
  /-- The shutdown. -/
  shutdown : Lifecycle.Inv cfg.worker s.worker
  /-- Its end. -/
  closing : Closing s.worker
  /-- The server. -/
  doors : Doors s.worker
  /-- The flag. -/
  raised : .raised ∈ s.history ↔ s.worker.shuttingDown = true
  /-- The requests are on open connections. -/
  room : s.connected.length ≤ s.worker.connections
  /-- The pools are destroyed while the application closes. -/
  destroyed : .destroyed ∈ s.history → .closeApp ∈ s.worker.history
  /-- They are those of the boot until then. -/
  registry : .destroyed ∉ s.history → s.registry = cfg.registry

/-- Once the pools are destroyed nobody is connected. -/
theorem Gate.alone (h : Gate cfg s) (hcalled : .closeApp ∈ s.worker.history) : s.worker.connections = 0 :=
  (h.doors.closed (h.doors.closed_of_closeApp h.shutdown hcalled)).2

theorem Gate.connected_nil (h : Gate cfg s) (hcalled : .closeApp ∈ s.worker.history) : s.connected = [] := by
  have hroom := h.room
  rw [h.alone hcalled] at hroom
  exact List.eq_nil_of_length_eq_zero (Nat.le_zero.mp hroom)

/-- Whoever comes in finds the pools as they were made. -/
theorem Gate.open_of_free (h : Gate cfg s) (hfree : s.Free id) : .destroyed ∉ s.history := by
  intro hdestroyed
  have hroom := hfree.2
  rw [h.alone (h.destroyed hdestroyed)] at hroom
  exact absurd hroom (Nat.not_lt_zero _)

/-- Something happens to the requests only. -/
theorem Gate.move (h : Gate cfg s) {handler : ℕ → Option Handler} {connected : List ℕ} {more : List Moment}
    (hroom : connected.length ≤ s.worker.connections) (hraised : .raised ∉ more) (hdestroyed : .destroyed ∉ more) :
    Gate cfg ({ s with handler := handler, connected := connected }.record more) where
  shutdown := h.shutdown
  closing := h.closing
  doors := h.doors
  raised := by
    show .raised ∈ s.history ++ more ↔ _
    rw [List.mem_append, or_iff_left hraised]
    exact h.raised
  room := hroom
  destroyed hd := h.destroyed ((List.mem_append.mp hd).resolve_right hdestroyed)
  registry hd := h.registry fun hold => hd (List.mem_append_left _ hold)

/-- What raises the flag. -/
def raisedBy (cfg : ServingConfig) (s : Serving) (e : Worker.Happening) : List Moment :=
  if !s.worker.shuttingDown && (s.worker.step cfg.worker e).shuttingDown then [.raised] else []

theorem mem_raisedBy {e : Worker.Happening} {m : Moment} (h : m ∈ raisedBy cfg s e) : m = .raised := by
  rw [raisedBy] at h
  split at h
  · exact List.mem_singleton.mp h
  · cases h

/-- Something happens to the worker. -/
theorem Gate.work (h : Gate cfg s) {e : Worker.Happening} (he : Worker.Enabled cfg.worker s.worker e)
    {connected : List ℕ} {more : List Moment} (hmore : ∀ m ∈ more, ∃ id, m = .closed id)
    (hroom : connected.length ≤ (s.worker.step cfg.worker e).connections) :
    Gate cfg ({ s with worker := s.worker.step cfg.worker e, connected := connected }.record
      (raisedBy cfg s e ++ more)) := by
  have honward := onward_step h.shutdown e he
  have hnot {m : Moment} (hm : m ≠ .raised) (hm' : ∀ id, m ≠ .closed id) : m ∉ raisedBy cfg s e ++ more := by
    intro hin
    rcases List.mem_append.mp hin with hin | hin
    · exact hm (mem_raisedBy hin)
    · obtain ⟨id, heq⟩ := hmore m hin
      exact hm' id heq
  refine ⟨h.shutdown.step e he, h.closing.step h.shutdown e he, h.doors.step h.shutdown e he, ?_, hroom,
    fun hd => ?_, fun hd => h.registry fun hold => hd (List.mem_append_left _ hold)⟩
  · show .raised ∈ s.history ++ (raisedBy cfg s e ++ more) ↔ _
    have hclosed : Moment.raised ∉ more := fun hin => by
      obtain ⟨id, heq⟩ := hmore _ hin
      cases heq
    rw [List.mem_append, h.raised, List.mem_append, or_iff_left hclosed, raisedBy]
    cases hflag : s.worker.shuttingDown with
    | true => exact iff_of_true (.inl rfl) (honward.flag hflag)
    | false =>
      show _ ↔ (s.worker.step cfg.worker e).shuttingDown = true
      cases (s.worker.step cfg.worker e).shuttingDown <;> simp
  · exact honward.history _ (h.destroyed ((List.mem_append.mp hd).resolve_right (hnot nofun nofun)))

/-! ### The invariant -/

/-- What holds of a worker that serves. -/
structure Serving.Inv (cfg : ServingConfig) (s : Serving) : Prop where
  /-- The worker and its pools. -/
  gate : Gate cfg s
  /-- The handlers. -/
  books : Books cfg s.handler s.connected s.history
  /-- Those that are connected are not over. -/
  pending : ∀ id ∈ s.connected, ¬ Over s.history id
  /-- The pools outlive the handlers. -/
  sheltered : Throughout Sheltered s.history
  /-- The probes are told the truth. -/
  truthful : Throughout (Truthful cfg) s.history

namespace Serving

theorem inv_started (cfg : ServingConfig) (connections : ℕ) : Inv cfg (.started cfg connections) where
  gate := {
    shutdown := .started cfg.worker connections
    closing := closing_started connections
    doors := doors_started connections
    raised := iff_of_false List.not_mem_nil nofun
    room := Nat.zero_le _
    destroyed := nofun
    registry := fun _ => rfl }
  books := {
    about := nofun
    known := fun _ hid => absurd rfl hid
    handled := nofun
    attached := fun _ hid => absurd rfl hid
    nodup := List.nodup_nil
    arrived := nofun
    asking := nofun }
  pending := nofun
  sheltered := throughout_nil _
  truthful := throughout_nil _

/-- Who is connected, or has yet to come, is not over. -/
theorem Inv.still (h : Inv cfg s) {more : List Moment} (hid : id ∈ s.connected ∨ .arrived id ∉ s.history)
    (hmore : ¬ Over more id) : ¬ Over (s.history ++ more) id := by
  rw [over_append]
  refine not_or.mpr ⟨?_, hmore⟩
  rcases hid with hid | hnew
  · exact h.pending id hid
  · rintro (hin | ⟨reply, hin⟩)
    · exact hnew (h.books.about _ hin id rfl)
    · exact hnew (h.books.about _ hin id rfl)

/-- Nor are the others when one is over. -/
theorem Inv.others_still (h : Inv cfg s) {more : List Moment} (hmore : ∀ i, i ≠ id → ¬ Over more i) :
    ∀ i ∈ s.connected.erase id, ¬ Over (s.history ++ more) i := fun i hi =>
  have hin := (h.books.nodup.mem_erase_iff).mp hi
  h.still (.inl hin.2) (hmore i hin.1)

/-- Something happens to the worker, and connections may close with it. -/
theorem Inv.turn (h : Inv cfg s) {e : Worker.Happening} (he : Worker.Enabled cfg.worker s.worker e) (rest : List ℕ)
    (more : List Moment) (hmore : ∀ m ∈ more, ∃ id ∈ s.connected, m = .closed id) (hrest : rest.Sublist s.connected)
    (hclosed : ∀ id ∈ s.connected, id ∈ rest ∨ .closed id ∈ more)
    (hroom : rest.length ≤ (s.worker.step cfg.worker e).connections) :
    Inv cfg ({ s with worker := s.worker.step cfg.worker e, connected := rest }.record
      (raisedBy cfg s e ++ more)) := by
  have hplain : ∀ m ∈ raisedBy cfg s e ++ more, m = .raised ∨ ∃ id ∈ s.connected, m = .closed id := fun m hm =>
    (List.mem_append.mp hm).imp mem_raisedBy (hmore m)
  have hover (id : ℕ) {part : List Moment} (hpart : part ⊆ raisedBy cfg s e ++ more) : ¬ Over part id := by
    rintro (hin | ⟨reply, hin⟩)
    · rcases hplain _ (hpart hin) with heq | ⟨i, -, heq⟩ <;> cases heq
    · rcases hplain _ (hpart hin) with heq | ⟨i, -, heq⟩ <;> cases heq
  have hbooks : Books cfg s.handler s.connected (s.history ++ (raisedBy cfg s e ++ more)) := by
    refine h.books.append fun m hm id => ?_
    rcases hplain m hm with rfl | ⟨i, hi, rfl⟩
    · exact ⟨nofun, nofun, nofun⟩
    · refine ⟨nofun, nofun, fun hid => ?_⟩
      obtain rfl : i = id := Option.some.inj hid
      exact h.books.arrived i hi
  refine ⟨h.gate.work he (fun m hm => (hmore m hm).imp fun _ hid => hid.2) hroom,
    hbooks.close hrest fun id hid => (hclosed id hid).imp_right fun hin =>
      List.mem_append_right _ (List.mem_append_right _ hin),
    fun id hid => ?_, throughout_append h.sheltered fun past m future heq => ?_,
    throughout_append h.truthful fun past m future heq => ?_⟩
  · exact h.still (.inl (hrest.subset hid)) (hover id (List.Subset.refl _))
  · rcases hplain m (heq ▸ List.mem_append_right past List.mem_cons_self) with rfl | ⟨id, hid, rfl⟩
    · trivial
    · refine ⟨List.mem_append_left _ (h.books.arrived id hid), fun hin => ?_⟩
      have hpart : past ⊆ raisedBy cfg s e ++ more := heq ▸ List.subset_append_left past _
      exact (over_append.mp hin).elim (h.pending id hid) (hover id hpart)
  · rcases hplain m (heq ▸ List.mem_append_right past List.mem_cons_self) with rfl | ⟨id, -, rfl⟩ <;> trivial

/-- **Something happens to the worker.** -/
theorem Inv.work (h : Inv cfg s) {e : Worker.Happening} (he : s.Enabled cfg (.works e)) : Inv cfg (s.work cfg e) := by
  obtain ⟨henabled, hdisconnect, -⟩ := he
  by_cases hforce : e = .forceTimer
  · subst hforce
    refine h.turn henabled [] (s.connected.map .closed) (fun m hm => ?_) (List.nil_sublist _)
      (fun id hid => .inr (List.mem_map_of_mem hid)) (Nat.zero_le _)
    obtain ⟨id, hid, rfl⟩ := List.mem_map.mp hm
    exact ⟨id, hid, rfl⟩
  · have hwork : s.work cfg e = { s with worker := s.worker.step cfg.worker e }.record (raisedBy cfg s e ++ []) := by
      rw [List.append_nil]
      cases e with
      | forceTimer => exact absurd rfl hforce
      | _ => rfl
    rw [hwork]
    refine h.turn henabled s.connected [] nofun (List.Sublist.refl _) (fun id hid => .inl hid) ?_
    by_cases hconnect : e = .connect
    · rw [hconnect]
      exact Nat.le_succ_of_le h.gate.room
    · by_cases hdisc : e = .disconnect
      · have hless := hdisconnect hdisc
        rw [hdisc]
        exact Nat.le_sub_one_of_lt hless
      · rw [connections_step h.gate.shutdown e henabled hconnect hdisc hforce]
        exact h.gate.room

/-- **A connection closes** while its request is being handled. -/
theorem Inv.leaves (h : Inv cfg s) (hid : id ∈ s.connected) : Inv cfg (s.depart cfg id) := by
  have hroom := h.gate.room
  have hsome : 0 < s.connected.length := List.length_pos_of_mem hid
  have hraised : raisedBy cfg s .disconnect = [] := if_neg (by
    show ¬ (!s.worker.shuttingDown && s.worker.shuttingDown) = true
    cases s.worker.shuttingDown <;> decide)
  have hturn := h.turn (e := .disconnect) (lt_of_lt_of_le hsome hroom) (s.connected.erase id) [.closed id]
    (fun m hm => ⟨id, hid, List.mem_singleton.mp hm⟩) List.erase_sublist
    (fun i hi => ?_) ?_
  · rw [hraised] at hturn
    exact hturn
  · by_cases heq : i = id
    · exact .inr (heq ▸ List.mem_singleton_self _)
    · exact .inl ((List.mem_erase_of_ne heq).mpr hi)
  · rw [List.length_erase_of_mem hid]
    exact Nat.sub_le_sub_right hroom 1

/-- A source whose ping is out has a pool. -/
theorem pinged_task {r : Registry} (hr : r.Inv) {key : JsString}
    (h : key ∈ r.healthTasks.filterMap SourceTask.pinged?) : r.clients.get? key = some .oracleClient := by
  obtain ⟨task, htask, hkey⟩ := List.mem_filterMap.mp h
  obtain ⟨e, he, rfl⟩ := List.mem_map.mp htask
  obtain ⟨dialect, hdialect⟩ := hr.dialect he
  rw [Registry.task, hdialect] at hkey
  obtain ⟨sourceKey, client⟩ := e
  cases client with
  | oracleClient =>
    obtain rfl : sourceKey = key := Option.some.inj hkey
    exact OrderedMap.get?_eq_some_iff.mpr he
  | notImplementedClient => cases hkey

theorem booted_inv (cfg : ServingConfig) : cfg.registry.Inv := by
  obtain ⟨calls, hcalls⟩ := cfg.booted
  exact Registry.inv_run hcalls

/-- The pings of a probe, to sources that have a pool. -/
def Pings (cfg : ServingConfig) (id : ℕ) (pings : List Moment) : Prop :=
  ∀ m ∈ pings, ∃ key, cfg.registry.clients.get? key = some .oracleClient ∧ m = .pinged id key cfg.health.pingTimeoutMs

section Pings

variable {pings history : List Moment}

/-- A probe that comes in time leaves nothing else. -/
theorem Pings.not_mem (hp : Pings cfg id pings) {m : Moment} (hm : ∀ key ms, m ≠ .pinged id key ms)
    (harrived : m ≠ .arrived id) : m ∉ Moment.arrived id :: pings := by
  intro hin
  rcases List.mem_cons.mp hin with heq | hin
  · exact harrived heq
  · obtain ⟨key, -, heq⟩ := hp m hin
    exact hm key _ heq

/-- The pools are open for it. -/
theorem Pings.sheltered (hp : Pings cfg id pings) (h : Throughout Sheltered history) (hopen : .destroyed ∉ history) :
    Throughout Sheltered (history ++ .arrived id :: pings) := by
  refine throughout_append h fun past m future heq => ?_
  have hin : m ∈ Moment.arrived id :: pings := heq ▸ List.mem_append_right past List.mem_cons_self
  have hstill : Moment.destroyed ∉ history ++ past := by
    intro hd
    rcases List.mem_append.mp hd with hold | hnew
    · exact hopen hold
    · exact hp.not_mem (m := .destroyed) nofun nofun (heq ▸ List.mem_append_left _ hnew)
  rcases List.mem_cons.mp hin with rfl | hin
  · exact hstill
  · obtain ⟨key, -, rfl⟩ := hp m hin
    exact hstill

/-- And it pings before the flag is raised. -/
theorem Pings.truthful (hp : Pings cfg id pings) (h : Throughout (Truthful cfg) history) (hraised : .raised ∉ history) :
    Throughout (Truthful cfg) (history ++ .arrived id :: pings) := by
  refine throughout_append h fun past m future heq => ?_
  cases past with
  | nil =>
    obtain ⟨rfl, -⟩ := List.cons.inj heq
    trivial
  | cons a past =>
    obtain ⟨rfl, hrest⟩ := List.cons.inj heq
    have hin : m ∈ pings := hrest ▸ List.mem_append_right past List.mem_cons_self
    obtain ⟨key, hkey, rfl⟩ := hp m hin
    refine ⟨List.mem_append_right _ List.mem_cons_self, fun hr => ?_, rfl, hkey⟩
    rcases List.mem_append.mp hr with hold | hnew
    · exact hraised hold
    · refine hp.not_mem (m := .raised) nofun nofun ?_
      rcases List.mem_cons.mp hnew with hcase | hnew
      · cases hcase
      · exact List.mem_cons_of_mem _ (hrest ▸ List.mem_append_left _ hnew)

end Pings

/-- **A probe comes in time**: it pings the pools that are open. -/
theorem Inv.probe_inTime (h : Inv cfg s) (hfree : s.Free id) (hflag : s.worker.shuttingDown = false) (x : Exchange) :
    Inv cfg (s.probe cfg id x) := by
  have hopen := h.gate.open_of_free hfree
  have hraised : .raised ∉ s.history := by
    rw [h.gate.raised, hflag]
    exact Bool.false_ne_true
  have hpools := h.gate.registry hopen
  generalize hpings : (s.registry.healthTasks.filterMap SourceTask.pinged?).map
    (fun key => Moment.pinged id key cfg.health.pingTimeoutMs) = pings
  have hp : Pings cfg id pings := by
    intro m hm
    rw [← hpings, hpools] at hm
    obtain ⟨key, hkey, rfl⟩ := List.mem_map.mp hm
    exact ⟨key, pinged_task (booted_inv cfg) hkey, rfl⟩
  have hprobe : s.probe cfg id x = { s with
      handler := Function.update s.handler id (some (.ready x s.registry.healthTasks fun _ => none))
      connected := id :: s.connected }.record (.arrived id :: pings) := by
    rw [probe, hflag, if_neg Bool.false_ne_true, ← hpings]
  have harrived : Moment.arrived id ∉ pings := by
    intro hin
    obtain ⟨key, -, heq⟩ := hp _ hin
    cases heq
  rw [hprobe]
  refine ⟨h.gate.move (Nat.succ_le_of_lt hfree.2) (hp.not_mem nofun nofun) (hp.not_mem nofun nofun), ?_,
    fun i hi => ?_, hp.sheltered h.sheltered hopen, hp.truthful h.truthful hraised⟩
  · refine h.books.arrive hfree.1 (fun m hm => ?_) fun y tasks answers heq => ?_
    · obtain ⟨key, -, rfl⟩ := hp m hm
      exact ⟨rfl, nofun, nofun⟩
    · obtain ⟨rfl, rfl, rfl⟩ := Handler.ready.inj heq
      refine ⟨by rw [hpools], mt (tooLate_arrived hfree.1 harrived).mp hraised, fun key hkey => ?_, fun key p => ?_⟩
      · refine List.mem_append_right _ (List.mem_cons_of_mem _ ?_)
        rw [← hpings]
        exact List.mem_map_of_mem hkey
      · refine iff_of_false nofun fun hin => ?_
        rcases List.mem_append.mp hin with hold | hnew
        · exact hfree.1 (h.books.about _ hold id rfl)
        · exact hp.not_mem (m := .heard id key p) nofun nofun hnew
  · refine h.still ((List.mem_cons.mp hi).elim (fun heq => .inr (heq ▸ hfree.1)) .inl) ?_
    rintro (hin | ⟨reply, hin⟩)
    · exact absurd hin (hp.not_mem nofun nofun)
    · exact absurd hin (hp.not_mem nofun nofun)

/-- **A probe comes too late**: it is told so, and pings nothing. -/
theorem Inv.probe_tooLate (h : Inv cfg s) (hfree : s.Free id) (hflag : s.worker.shuttingDown = true) (x : Exchange) :
    Inv cfg (s.probe cfg id x) := by
  have hopen := h.gate.open_of_free hfree
  generalize hreply : respond cfg.env x x.now (.error shuttingDownException) = reply
  have hprobe : s.probe cfg id x = s.record [.arrived id, .replied id reply] := by
    rw [probe, hflag, if_pos rfl, hreply]
  have hfresh : s.handler id = none := by
    by_contra hh
    exact hfree.1 (h.books.known id hh)
  rw [hprobe]
  refine ⟨h.gate.move h.gate.room (by simp) (by simp), ?_, fun i hi => h.still (.inl hi) ?_, ?_, ?_⟩
  · -- it comes and leaves at once
    have harrive : Books cfg (Function.update s.handler id (some .other)) (id :: s.connected)
        (s.history ++ [.arrived id]) := h.books.arrive hfree.1 nofun nofun
    have hleave := harrive.leave (m := .replied id reply) rfl (List.mem_append_right _ List.mem_cons_self)
      (.inr ⟨reply, List.mem_singleton_self _⟩)
    rw [Function.update_idem, ← hfresh, Function.update_eq_self, List.erase_cons_head, List.append_assoc] at hleave
    exact hleave
  · simp only [Over, List.mem_cons, reduceCtorEq, Moment.replied.injEq, List.not_mem_nil, or_false, false_or]
    rintro ⟨_, rfl, -⟩
    exact hfree.1 (h.books.arrived i hi)
  · refine throughout_append h.sheltered fun past m future heq => ?_
    rcases past with _ | ⟨a, _ | ⟨b, past⟩⟩
    · obtain ⟨rfl, -⟩ := List.cons.inj heq
      rwa [List.append_nil]
    · obtain ⟨-, heq⟩ := List.cons.inj heq
      obtain ⟨rfl, -⟩ := List.cons.inj heq
      trivial
    · simp at heq
  · refine throughout_append h.truthful fun past m future heq => ?_
    rcases past with _ | ⟨a, _ | ⟨b, past⟩⟩
    · obtain ⟨rfl, -⟩ := List.cons.inj heq
      trivial
    · obtain ⟨ha, hrest⟩ := List.cons.inj heq
      obtain ⟨rfl, -⟩ := List.cons.inj hrest
      rw [← ha]
      have hlate : TooLate (s.history ++ [.arrived id]) id :=
        (tooLate_arrived hfree.1 List.not_mem_nil).mpr (h.gate.raised.mpr hflag)
      refine ⟨fun _ => ?_, fun hnot => absurd hlate hnot⟩
      have hanswer := respond_shuttingDown cfg.env x x.now
      rw [hreply] at hanswer
      refine ⟨hanswer.1, hanswer.2, fun key ms hin => ?_⟩
      have hold : Moment.pinged id key ms ∈ s.history := by simpa using hin
      exact hfree.1 (h.books.about _ hold id rfl)
    · simp at heq

/-- A probe hears of a source. -/
theorem Inv.hears (h : Inv cfg s) {key : JsString} {p : Pinged} (he : s.Enabled cfg (.hears id key p)) :
    Inv cfg (s.next cfg (.hears id key p)) := by
  obtain ⟨x, tasks, answers, hid, hkey, hnone⟩ := he
  have hnext : s.next cfg (.hears id key p) = { s with
      handler := Function.update s.handler id
        (some (.ready x tasks (Function.update answers key (some p)))) }.record [.heard id key p] := by
    rw [next, hid]
  have hasking := h.books.asking id x tasks answers hid
  rw [hnext]
  refine ⟨h.gate.move h.gate.room (by simp) (by simp), h.books.hear hid hnone p,
    fun i hi => h.still (.inl hi) (by simp [Over]),
    throughout_concat.mpr ⟨h.sheltered, trivial⟩, throughout_concat.mpr ⟨h.truthful, ?_⟩⟩
  refine ⟨hasking.pinged key hkey, fun q hq => ?_⟩
  rw [← hasking.heard, hnone] at hq
  cases hq

/-- What a probe replies that came in time. -/
theorem verdict_of_settled {x : Exchange} {tasks : List SourceTask} {answers : Answers}
    (h : Asking cfg history id tasks answers) {outcome : Except JsValue (List SourceHealth)}
    (hsettled : healthSettled answers tasks = some outcome) (now : JsString) :
    Verdict cfg history id (respond cfg.env x now (readyOutcome cfg.health outcome)) := by
  have hinv := booted_inv cfg
  rw [h.asked] at hsettled
  obtain ⟨values, rfl, hvalues⟩ := hinv.settled_iff.mp hsettled
  have hready := Registry.ready_iff hvalues
  have hheard : (∀ e ∈ cfg.registry.clients.entries, e.2.implemented = true → ∃ p, answers e.1 = some p ∧ p.Fine) ↔
      ∀ e ∈ cfg.registry.clients.entries, e.2.implemented = true → ∃ p, .heard id e.1 p ∈ history ∧ p.Fine := by
    simp only [h.heard]
  have hkeys := Registry.keys_of_settled hvalues
  -- both ways the sources are shown alike
  have hshown {reply : Reply} (hsources : reply.sources = values.map (shownSource cfg.health)) :
      reply.sources.map (·.get "sourceKey") = cfg.registry.clients.keys.map .string ∧
        (cfg.health.isProduction = true → ∀ source ∈ reply.sources, source.get "error" = .undefined) := by
    refine ⟨?_, fun hproduction source hsource => ?_⟩
    · rw [hsources, ← hkeys, List.map_map, List.map_map]
      exact List.map_congr_left fun v _ => sourceKey_shownSource cfg.health v
    · rw [hsources] at hsource
      obtain ⟨v, -, rfl⟩ := List.mem_map.mp hsource
      exact error_shownSource cfg.health hproduction v
  by_cases hall : (values.filter (·.implemented)).all (·.ok) = true
  · obtain ⟨hstatus, hsources⟩ := respond_ready cfg.env x now cfg.health hall
    have hshow := hshown hsources
    exact ⟨iff_of_true hstatus (hheard.mp (hready.mp hall)), fun hne => absurd hstatus hne, hshow.1, hshow.2⟩
  · obtain ⟨hstatus, hcode, hsources⟩ := respond_notReady cfg.env x now cfg.health hall
    have hshow := hshown hsources
    refine ⟨iff_of_false (fun h200 => ?_) (mt (hready.mpr ∘ hheard.mpr) hall), fun _ => ⟨hstatus, hcode⟩,
      hshow.1, hshow.2⟩
    have hdiff := hstatus.symm.trans h200
    exact absurd hdiff (by decide)

/-- **A probe replies.** -/
theorem Inv.replies (h : Inv cfg s) {now : JsString} (he : s.Enabled cfg (.replies id now)) :
    Inv cfg (s.next cfg (.replies id now)) := by
  obtain ⟨x, tasks, answers, hid, hsome⟩ := he
  obtain ⟨outcome, hsettled⟩ := Option.isSome_iff_exists.mp hsome
  generalize hreply : respond cfg.env x now (readyOutcome cfg.health outcome) = reply
  have hnext : s.next cfg (.replies id now) = (s.leave id).record [.replied id reply] := by
    simp only [next, hid, hsettled, hreply]
  have hasking := h.books.asking id x tasks answers hid
  have hknown : .arrived id ∈ s.history := h.books.known id (by rw [hid]; nofun)
  rw [hnext]
  refine ⟨h.gate.move (List.length_erase_le.trans h.gate.room) (by simp) (by simp),
    h.books.leave rfl hknown (.inr ⟨reply, List.mem_singleton_self _⟩), h.others_still (by simp [Over]),
    throughout_concat.mpr ⟨h.sheltered, trivial⟩, throughout_concat.mpr ⟨h.truthful, ?_⟩⟩
  refine ⟨fun hlate => absurd hlate hasking.inTime, fun _ => ?_⟩
  rw [← hreply]
  exact verdict_of_settled hasking hsettled now

/-- Any other request comes in. -/
theorem Inv.request (h : Inv cfg s) (hfree : s.Free id) : Inv cfg (s.next cfg (.request id)) :=
  ⟨h.gate.move (Nat.succ_le_of_lt hfree.2) (by simp) (by simp), h.books.arrive hfree.1 nofun nofun,
    fun _ hi => h.still ((List.mem_cons.mp hi).elim (fun heq => .inr (heq ▸ hfree.1)) .inl) (by simp [Over]),
    throughout_concat.mpr ⟨h.sheltered, h.gate.open_of_free hfree⟩, throughout_concat.mpr ⟨h.truthful, trivial⟩⟩

/-- **A handler uses a pool.** -/
theorem Inv.uses (h : Inv cfg s) (hid : s.handler id = some .other) (key : JsString) :
    Inv cfg (s.next cfg (.uses id key)) := by
  have hthere : s.handler id ≠ none := by
    rw [hid]
    nofun
  have hmore : ∀ m ∈ [Moment.used id key], ∀ i, m ≠ .arrived i ∧ (∀ key p, m ≠ .heard i key p) ∧
      (m.about = some i → .arrived i ∈ s.history) := by
    intro m hm i
    obtain rfl := List.mem_singleton.mp hm
    refine ⟨nofun, nofun, fun hi => ?_⟩
    obtain rfl : id = i := Option.some.inj hi
    exact h.books.known id hthere
  refine ⟨h.gate.move h.gate.room (by simp) (by simp), h.books.append hmore,
    fun i hi => h.still (.inl hi) (by simp [Over]),
    throughout_concat.mpr ⟨h.sheltered, ?_⟩, throughout_concat.mpr ⟨h.truthful, trivial⟩⟩
  refine (h.books.attached id hthere).imp_left fun hin hdestroyed => ?_
  rw [h.gate.connected_nil (h.gate.destroyed hdestroyed)] at hin
  cases hin

/-- A handler is over. -/
theorem Inv.finishes (h : Inv cfg s) (hid : s.handler id = some .other) : Inv cfg (s.next cfg (.finishes id)) := by
  have hknown : .arrived id ∈ s.history := h.books.known id (by rw [hid]; nofun)
  exact ⟨h.gate.move (List.length_erase_le.trans h.gate.room) (by simp) (by simp),
    h.books.leave rfl hknown (.inl (List.mem_singleton_self _)), h.others_still (by simp [Over]),
    throughout_concat.mpr ⟨h.sheltered, trivial⟩, throughout_concat.mpr ⟨h.truthful, trivial⟩⟩

/-- **The pools are destroyed.** -/
theorem Inv.destroys (h : Inv cfg s) {close : JsString → Except JsValue Unit}
    (he : s.Enabled cfg (.destroys close)) : Inv cfg (s.next cfg (.destroys close)) := by
  obtain ⟨⟨rest, hthread⟩, -⟩ := he
  have hcalled := h.gate.closing.called rest hthread
  have hnil := h.gate.connected_nil hcalled
  have hmore : ∀ m ∈ [Moment.destroyed], ∀ i, m ≠ .arrived i ∧ (∀ key p, m ≠ .heard i key p) ∧
      (m.about = some i → .arrived i ∈ s.history) := by
    intro m hm i
    obtain rfl := List.mem_singleton.mp hm
    exact ⟨nofun, nofun, nofun⟩
  refine ⟨⟨h.gate.shutdown, h.gate.closing, h.gate.doors, ?_, h.gate.room, fun _ => hcalled, fun hd => ?_⟩,
    h.books.append hmore, fun i hi => h.still (.inl hi) (by simp [Over]),
    throughout_concat.mpr ⟨h.sheltered, fun id hid => ?_⟩,
    throughout_concat.mpr ⟨h.truthful, trivial⟩⟩
  · show .raised ∈ s.history ++ [.destroyed] ↔ s.worker.shuttingDown = true
    rw [← h.gate.raised]
    simp
  · exact absurd (List.mem_append_right _ (List.mem_singleton_self _)) hd
  · -- whoever is still at a handler has no connection
    rcases h.books.handled id hid with hthere | hover
    · refine .inr ((h.books.attached id hthere).resolve_left fun hin => ?_)
      rw [hnil] at hin
      cases hin
    · exact .inl hover

/-- **Every event keeps it.** -/
theorem Inv.next (h : Inv cfg s) {e : Happening} (he : s.Enabled cfg e) : Inv cfg (s.next cfg e) := by
  cases e with
  | works e => exact h.work he
  | leaves id => exact h.leaves he
  | probe id x =>
    cases hflag : s.worker.shuttingDown with
    | false => exact h.probe_inTime he hflag x
    | true => exact h.probe_tooLate he hflag x
  | hears id key p => exact h.hears he
  | replies id now => exact h.replies he
  | request id => exact h.request he
  | uses id key => exact h.uses he key
  | finishes id => exact h.finishes he
  | destroys close => exact h.destroys he

theorem inv_run {es : List Happening} (h : (serving cfg).Run es s) : Inv cfg s := by
  refine h.invariant (P := Inv cfg) ?_ fun s e hs he => hs.next he
  rintro s ⟨connections, rfl⟩
  exact inv_started cfg connections

end Serving

/-! ### What is proved of every run -/

/-- **No handler meets a closed pool**, unless its connection was cut. -/
theorem requests_meet_open_pools {es : List Serving.Happening} (h : (serving cfg).Run es s) :
    Throughout Sheltered s.history :=
  (Serving.inv_run h).sheltered

/-- A boot with one source. -/
def oneSource : Attempt where
  sources := [⟨⟨"main", .oracle⟩, none⟩]
  unique := List.nodup_singleton _
  initOracleDriver _ := .ok ()
  createPool _ := .ok ()

/-- A worker with one job and one source. -/
def probed : ServingConfig where
  worker := sweeper
  health := { timeoutMs := some 2000, isProduction := true }
  env := plainEnv
  registry := (Registry.new.init oneSource).1
  booted := ⟨[.init oneSource], Machine.Run.play (M := Registry.machine) rfl ⟨trivial, trivial⟩⟩

/-- A probe, a request, another whose client leaves, and the end of the worker. -/
def lastVisits : List Serving.Happening :=
  [.works .connect, .works .connect, .works .connect, .request 1, .probe 2 plainExchange, .uses 1 "main",
    .request 4, .leaves 4, .hears 2 "main" ⟨.ok (), .ok (.object .plain []), 3⟩, .replies 2 "2026-01-01T00:00:01.000Z",
    .works (.signal "SIGTERM"), .probe 3 plainExchange, .finishes 1, .works .disconnect, .works .disconnect,
    .works .delayTimer, .works (.resume 5000 []), .works .serverClosed, .works (.resume 1 []), .works .cronsStopped,
    .works (.resume 1 []), .destroys fun _ => .ok (), .uses 4 "main"]

theorem lastVisits_run :
    (serving probed).Run lastVisits (lastVisits.foldl (serving probed).next (.started probed 0)) :=
  Machine.Run.play ⟨0, rfl⟩ (by
    refine ⟨⟨rfl, nofun, nofun⟩, ⟨rfl, nofun, nofun⟩, ⟨rfl, nofun, nofun⟩, ⟨List.not_mem_nil, Nat.zero_lt_succ 2⟩,
      ⟨?_, Nat.succ_lt_succ Nat.zero_lt_two⟩, rfl, ⟨?_, Nat.lt_succ_self 2⟩, List.mem_cons_self,
      ⟨_, _, _, rfl, List.mem_singleton_self _, rfl⟩, ⟨_, _, _, rfl, rfl⟩, ⟨trivial, nofun, nofun⟩,
      ⟨?_, Nat.one_lt_two⟩, rfl, ⟨Nat.zero_lt_two, fun _ => Nat.zero_lt_two, nofun⟩,
      ⟨Nat.zero_lt_one, fun _ => Nat.zero_lt_one, nofun⟩, ⟨⟨_, _, rfl⟩, nofun, nofun⟩,
      ⟨⟨_, rfl, rfl⟩, nofun, nofun⟩, ⟨⟨rfl, rfl, rfl⟩, nofun, nofun⟩,
      ⟨⟨_, rfl, rfl⟩, nofun, nofun⟩, ⟨⟨_, rfl⟩, nofun, nofun⟩, ⟨⟨_, rfl, rfl⟩, nofun, nofun⟩,
      ⟨⟨_, rfl⟩, ?_⟩, rfl, trivial⟩
    all_goals nofun)

/-- A request uses the pool that the end destroys, and so does one whose client has left, afterwards. -/
theorem lastVisits_meet_open_pools : ∃ s, (serving probed).Run lastVisits s ∧
    s.history[3]? = some (.used 1 "main") ∧ s.history[5]? = some (.closed 4) ∧ s.history[12]? = some .destroyed ∧
      s.history[13]? = some (.used 4 "main") ∧ Throughout Sheltered s.history :=
  ⟨_, lastVisits_run, rfl, rfl, rfl, rfl, requests_meet_open_pools lastVisits_run⟩

/-- **What a probe is told is true**; and as long as the drain delay is not over, there is a server to tell it. -/
theorem readiness_truthful {es : List Serving.Happening} (h : (serving cfg).Run es s) :
    Throughout (Truthful cfg) s.history ∧ (s.worker.delayOver = false → s.worker.listening = true) :=
  ⟨(Serving.inv_run h).truthful, (Serving.inv_run h).gate.doors.listening⟩

/-- One probe comes in time, another too late. -/
theorem lastVisits_truthful : ∃ s reply reply', (serving probed).Run lastVisits s ∧
    s.history[7]? = some (.replied 2 reply) ∧ reply.status = 200 ∧
    s.history[10]? = some (.replied 3 reply') ∧ reply'.status = 503 ∧ Throughout (Truthful probed) s.history ∧
    (s.worker.delayOver = false → s.worker.listening = true) :=
  ⟨_, _, _, lastVisits_run, rfl, rfl, rfl, rfl, readiness_truthful lastVisits_run⟩

end NestDdd.Http
