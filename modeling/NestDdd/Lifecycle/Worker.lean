import NestDdd.Lifecycle.GracefulShutdown
import NestDdd.Scheduler.JobRunner
import NestDdd.Theory.History
import NestDdd.Theory.Machine

/-!
# A worker on its way to its end

`installShutdownHandlers` (`src/main.ts`) puts three parts together: the shutdown sequence, the
scheduler whose jobs it drains, and the HTTP server. They go on side by side with the requests, the
cron ticks and the jobs.

## The model

A worker is a `Machine`. Each signal starts `runGracefulShutdown`, which goes on until it awaits
something, and again when what it has awaited is there (`advance`): the shutdown that is under way
is the rest of its program. What the rest of the process does to the worker is an event of its own:
signals, ticks, the settling of jobs, connections, timers, callbacks. Any of them may come between
what is awaited and the continuation.

The history has what the shutdown is about, in order: the readiness flag, the start of the drain
delay, the server's callback, the start and the end of each job's run, the calls, and the log.

## Assumptions

* Node calls the server back when it accepts no connections and none is open.
* `stop()` of a cron job prevents further ticks at once, and its promise does not reject.
* The logger does not throw.
-/

namespace NestDdd.Lifecycle

open NestDdd.Theory NestDdd.Shared NestDdd.Scheduler

/-! ### The state -/

/-- What happens. -/
inductive Act where
  /-- Readiness fails. -/
  | readiness
  /-- The drain delay starts. -/
  | delayStarted
  /-- The server's close callback is called. -/
  | serverClosed
  /-- A run of a job starts. -/
  | runStarted (job : JsString)
  /-- A run of a job ends. -/
  | runEnded (job : JsString)
  /-- `JobScheduler.stop` is called. -/
  | stopCalled
  /-- `JobScheduler.stop` resolves. -/
  | stopResolved
  /-- `closeApp` is called. -/
  | closeApp
  /-- A line is logged. -/
  | log (line : LogLine)

/-- A shutdown at an `await`: the call it awaits, and how it goes on. -/
structure Parked where
  /-- The call. -/
  op : HostOp
  /-- The rest. -/
  rest : Host.Ans op → Prog Host Bool

/-- A worker. -/
structure Worker where
  /-- `ShutdownState`. -/
  shuttingDown : Bool
  /-- The shutdown that is under way. -/
  thread : Option Parked
  /-- The timer of the drain delay has gone off. -/
  delayOver : Bool
  /-- The timer that cuts connections is set. -/
  forceTimer : Bool
  /-- The server accepts connections. -/
  listening : Bool
  /-- The open connections. -/
  connections : ℕ
  /-- The server's close callback has been called. -/
  closed : Bool
  /-- The scheduler. -/
  scheduler : SchedulerState
  /-- `app.close()` has resolved. -/
  appClosed : Bool
  /-- What has happened. -/
  history : List Act

/-- What a worker is configured with. -/
structure WorkerConfig where
  /-- The registered jobs. -/
  registered : List JsString
  /-- `shutdown.drainDelayMs`. -/
  drainDelayMs : ℕ
  /-- `shutdown.forceAfterMs`. -/
  forceAfterMs : ℕ
  /-- `shutdown.jobDrainMs`. -/
  jobDrainMs : ℕ

namespace Worker

/-- More has happened. -/
def record (w : Worker) (acts : List Act) : Worker := { w with history := w.history ++ acts }

/-- The scheduler goes on, and `stop` may have resolved. -/
def setScheduler (w : Worker) (s : SchedulerState) : Worker :=
  { w with
    scheduler := s
    history := w.history ++ match s.stop with
      | .resolved => [.stopResolved]
      | _ => [] }

variable (cfg : WorkerConfig)

/-! ### The shutdown -/

/-- The shutdown goes on to its next `await`. -/
def advance : Prog Host Bool → Worker → Worker
  | .done _, w => w
  | .call .begin rest, w =>
    if w.shuttingDown then advance (rest false) w
    else advance (rest true) ({ w with shuttingDown := true }.record [.readiness])
  | .call (.log line) rest, w => advance (rest ()) (w.record [.log line])
  | .call (.delay ms) rest, w => { w with thread := some ⟨.delay ms, rest⟩ }.record [.delayStarted]
  | .call (.startForceTimer _) rest, w => advance (rest ()) { w with forceTimer := true }
  | .call .closeIdleConnections rest, w => advance (rest ()) w
  | .call .closeServer rest, w => { w with thread := some ⟨.closeServer, rest⟩, listening := false }
  | .call .clearForceTimer rest, w => advance (rest ()) { w with forceTimer := false }
  | .call .drainJobs rest, w =>
    ({ w with thread := some ⟨.drainJobs, rest⟩ }.record [.stopCalled]).setScheduler
      (w.scheduler.callStop cfg.registered)
  | .call .closeApp rest, w => { w with thread := some ⟨.closeApp, rest⟩ }.record [.closeApp]

/-- `process.on(signal, …)`. -/
def onSignal (signal : JsString) (w : Worker) : Worker :=
  advance cfg (runGracefulShutdown {
    signal := signal
    drainDelayMs := cfg.drainDelayMs
    forceAfterMs := cfg.forceAfterMs
    drainJobs := true }) w

/-- Whether what is awaited is there. -/
def Ready (w : Worker) : HostOp → Prop
  | .delay _ => w.delayOver = true
  | .closeServer => w.closed = true
  | .drainJobs => w.scheduler.stop = .resolved
  | .closeApp => w.appClosed = true
  | _ => False

/-- The answer to an awaited call, by the times it took. -/
def answer (ms : ℕ) (pools : List ℕ) : (op : HostOp) → Host.Ans op
  | .begin => false
  | .delay _ | .closeServer | .drainJobs => ms
  | .closeApp => pools
  | .log _ | .startForceTimer _ | .closeIdleConnections | .clearForceTimer => ()

/-- The shutdown goes on. -/
def resume (ms : ℕ) (pools : List ℕ) (w : Worker) : Worker :=
  match w.thread with
  | none => w
  | some p => advance cfg (p.rest (answer ms pools p.op)) { w with thread := none }

/-! ### The worker -/

/-- What may happen to a worker. -/
inductive Happening where
  /-- `SIGTERM` or `SIGINT`. -/
  | signal (name : JsString)
  /-- A cron job ticks. -/
  | tick (job : JsString)
  /-- The job of a run settles. -/
  | settle (job : JsString) (error : Option JsValue) (durationMs : ℕ)
  /-- The `finally` of a run. -/
  | clear (job : JsString)
  /-- A client connects. -/
  | connect
  /-- A connection is over, its requests answered. -/
  | disconnect
  /-- The timer of the drain delay goes off. -/
  | delayTimer
  /-- The timer that cuts connections goes off. -/
  | forceTimer
  /-- The server calls back. -/
  | serverClosed
  /-- Every cron job has stopped. -/
  | cronsStopped
  /-- The race of `stop` is decided. -/
  | decideRace (race : Race)
  /-- `stop` goes on after the race. -/
  | conclude (durationMs : ℕ)
  /-- `app.close()` resolves. -/
  | appClosed
  /-- The shutdown goes on. -/
  | resume (ms : ℕ) (pools : List ℕ)

/-- When it may. -/
def Enabled (w : Worker) : Happening → Prop
  | .signal _ => True
  | .tick job => job ∈ cfg.registered ∧ w.scheduler.cronStopped = false
  | .settle job _ _ => w.scheduler.runner job = .running
  | .clear job => w.scheduler.runner job = .settled
  | .connect => w.listening = true
  | .disconnect => 0 < w.connections
  | .delayTimer => ∃ ms rest, w.thread = some ⟨.delay ms, rest⟩
  | .forceTimer => w.forceTimer = true
  | .serverClosed => w.listening = false ∧ w.connections = 0 ∧ w.closed = false
  | .cronsStopped => ∃ running, w.scheduler.stop = .stopping running
  | .decideRace race =>
    ∃ running, w.scheduler.stop = .waiting running .undecided ∧ race ≠ .undecided ∧
      (race = .idle → ∀ job ∈ running, w.scheduler.runner job = .idle)
  | .conclude _ => ∃ running race, w.scheduler.stop = .waiting running race ∧ race ≠ .undecided
  | .appClosed => ∃ rest, w.thread = some ⟨.closeApp, rest⟩
  | .resume _ _ => ∃ p, w.thread = some p ∧ w.Ready p.op

/-- What comes of it. -/
def step (w : Worker) : Happening → Worker
  | .signal name => w.onSignal cfg name
  | .tick job =>
    let ran := w.scheduler.run job
    { w with scheduler := ran.1 }.record (match ran.2 with
      | none => [.runStarted job]
      | some line => [.log line])
  | .settle job error durationMs =>
    let settled := w.scheduler.settle job error durationMs
    { w with scheduler := settled.1 }.record [.runEnded job, .log settled.2]
  | .clear job => { w with scheduler := w.scheduler.clear job }
  | .connect => { w with connections := w.connections + 1 }
  | .disconnect => { w with connections := w.connections - 1 }
  | .delayTimer => { w with delayOver := true }
  | .forceTimer =>
    { w with forceTimer := false, connections := 0 }.record
      [.log ⟨.warn, "shutdown.forced", [("forceAfterMs", .int cfg.forceAfterMs)]⟩]
  | .serverClosed => { w with closed := true }.record [.serverClosed]
  | .cronsStopped =>
    match w.scheduler.stop with
    | .stopping running => w.setScheduler (w.scheduler.cronsStopped running)
    | _ => w
  | .decideRace race =>
    match w.scheduler.stop with
    | .waiting running _ => { w with scheduler := w.scheduler.decideRace running race }
    | _ => w
  | .conclude durationMs =>
    match w.scheduler.stop with
    | .waiting running race =>
      let concluded := w.scheduler.conclude running race durationMs cfg.jobDrainMs
      (w.record [.log concluded.2]).setScheduler concluded.1
    | _ => w
  | .appClosed => { w with appClosed := true }
  | .resume ms pools => w.resume cfg ms pools

/-- A worker that has just started. -/
def started (connections : ℕ) : Worker where
  shuttingDown := false
  thread := none
  delayOver := false
  forceTimer := false
  listening := true
  connections := connections
  closed := false
  scheduler := { runner := fun _ => .idle, cronStopped := false, stop := .uncalled }
  appClosed := false
  history := []

end Worker

/-- **The life of a worker.** -/
def worker (cfg : WorkerConfig) : Machine Worker Worker.Happening where
  Initial w := ∃ connections, w = .started connections
  Enabled := Worker.Enabled cfg
  next := Worker.step cfg

end NestDdd.Lifecycle
