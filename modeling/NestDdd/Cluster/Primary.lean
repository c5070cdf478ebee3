import NestDdd.Shared.Js

/-!
# The cluster primary

`startPrimary` (`src/infrastructure/cluster/cluster-primary.ts`) forks the workers,
respawns those that exit and fans a shutdown signal out to them. Everything it does
happens in one event handler after another, so it is a state machine: the variables
its closures share are the state `Primary`, and each event is handled by one function.

## The model

* `Input` — the events: a worker's exit, a signal, the expiry of the shutdown's
  bounded wait. An exit carries what the handler would read while it runs: two readings
  of the clock, and the worker `fork` would return.
* `boot` — everything up to the registration of the handlers.
* `onExit`, `shutdown`, `timerExpired` — the handlers. The end of `shutdown` runs after
  an `await`, that is, as soon as the handler that settled the race has returned
  (`settle`).
* `Admissible` — what the outside keeps: a forked worker exits at most once, the ids of
  workers are unique, the timer expires at most once.
* `Run` — the runs, each with the states its inputs found.

## Honest scope

A worker is live until its exit has been handled. `worker.process.kill` returns and
`fork` does not throw.
-/

namespace NestDdd.Cluster

open NestDdd.Shared

/-! ### Configuration -/

/-- `SHUTDOWN_SLACK_MS`. -/
def SHUTDOWN_SLACK_MS : ℕ := 2000

/-- `RESPAWN_WINDOW_MS`. -/
def RESPAWN_WINDOW_MS : ℤ := 60000

/-- A database source, as far as the boot rails read it. -/
structure PoolCapacity where
  /-- Its key. -/
  key : JsString
  /-- The most connections of one worker's pool. -/
  poolMax : ℕ

/-- `StartPrimaryConfig`. -/
structure StartPrimaryConfig where
  /-- `database.sources`. -/
  sources : List PoolCapacity
  /-- `cluster.workers`; 0 is one for each core. -/
  workers : ℕ
  /-- `cluster.respawn`. -/
  respawn : Bool
  /-- `cluster.respawnMaxPerMinute`. -/
  respawnMaxPerMinute : ℕ
  /-- The schema's lower bound. -/
  one_le : 1 ≤ respawnMaxPerMinute
  /-- `shutdown.drainDelayMs`. -/
  drainDelayMs : ℕ
  /-- `shutdown.forceAfterMs`. -/
  forceAfterMs : ℕ
  /-- The schema's lower bound. -/
  forceAfter_pos : 1 ≤ forceAfterMs
  /-- `shutdown.jobDrainMs`. -/
  jobDrainMs : ℕ

/-- `workers` workers, of which `limit` a minute are respawned; all else as the schema's defaults. -/
def StartPrimaryConfig.default (workers limit : ℕ) (h : 1 ≤ limit) : StartPrimaryConfig where
  sources := []
  workers := workers
  respawn := true
  respawnMaxPerMinute := limit
  one_le := h
  drainDelayMs := 5000
  forceAfterMs := 10000
  forceAfter_pos := by decide
  jobDrainMs := 10000

/-- `resolveWorkerCount`. -/
def resolveWorkerCount (configuredWorkers cpuCount : ℕ) : ℕ :=
  max 1 (if 0 < configuredWorkers then configuredWorkers else cpuCount)

theorem one_le_resolveWorkerCount (configuredWorkers cpuCount : ℕ) :
    1 ≤ resolveWorkerCount configuredWorkers cpuCount := le_max_left _ _

/-- The primary's bounded wait before it kills. -/
def waitMs (cfg : StartPrimaryConfig) : ℕ :=
  cfg.drainDelayMs + cfg.forceAfterMs + cfg.jobDrainMs + SHUTDOWN_SLACK_MS

/-! ### State -/

/-- What `fork` returns. -/
structure Forked where
  /-- The worker's id. -/
  id : ℕ
  /-- Its process id, if it has one. -/
  pid : Option ℕ

/-- A live worker, and the value of `CLUSTER_LEADER` it was forked with. -/
structure Worker where
  /-- The worker's id. -/
  id : ℕ
  /-- Its process id, if it has one. -/
  pid : Option ℕ
  /-- Whether it was forked with `CLUSTER_LEADER=true`. -/
  leader : Bool

/-- A signal. -/
inductive Signal where
  | SIGTERM
  | SIGINT
  | SIGKILL
  deriving DecidableEq

/-- A signal's name. -/
def Signal.name : Signal → String
  | .SIGTERM => "SIGTERM"
  | .SIGINT => "SIGINT"
  | .SIGKILL => "SIGKILL"

/-- What the primary does to the world. -/
inductive Action where
  /-- A log line. -/
  | log (line : LogLine)
  /-- `clusterApi.fork({ CLUSTER_LEADER })`, which returned a worker of this id. -/
  | fork (id : ℕ) (clusterLeader : JsString)
  /-- `worker.process.kill(signal)`. -/
  | kill (id : ℕ) (signal : Signal)
  /-- `processApi.exit(code)`. -/
  | exit (code : ℤ)

/-- How the race of the shutdown ended. -/
inductive RaceOutcome where
  | drained
  | timeout
  deriving DecidableEq

/-- The variables of `startPrimary`, and all it has done. -/
structure Primary where
  /-- `liveWorkers`, in the order of insertion. -/
  liveWorkers : List Worker
  /-- `respawnTimestamps`, oldest first. -/
  respawnTimestamps : List ℤ
  /-- `leaderId`. -/
  leaderId : Option ℕ
  /-- `shuttingDown`. -/
  shuttingDown : Bool
  /-- Whether `notifyDrained` is set. -/
  notifyDrained : Bool
  /-- The signal `shutdown` is running for. -/
  signal : Option Signal
  /-- Whether the timer of the bounded wait is pending. -/
  timerPending : Bool
  /-- How the race ended, once it has. -/
  outcome : Option RaceOutcome
  /-- Whether `shutdown` has run to its end. -/
  finished : Bool
  /-- What has been done, in order. -/
  actions : List Action

namespace Primary

/-- The variables as they are declared. -/
def declared : Primary where
  liveWorkers := []
  respawnTimestamps := []
  leaderId := none
  shuttingDown := false
  notifyDrained := false
  signal := none
  timerPending := false
  outcome := none
  finished := false
  actions := []

/-- One more action. -/
def act (p : Primary) (a : Action) : Primary := { p with actions := p.actions ++ [a] }

/-- One more log line. -/
def log (p : Primary) (level : Level) (message : JsString) (fields : List (String × JsValue)) :
    Primary :=
  p.act (.log ⟨level, message, fields⟩)

/-- The ids of the live workers. -/
def liveIds (p : Primary) : List ℕ := p.liveWorkers.map Worker.id

/-- The ids of all workers ever forked. -/
def forkedIds (p : Primary) : List ℕ :=
  p.actions.filterMap fun
    | .fork id _ => some id
    | _ => none

/-- The live workers forked with `CLUSTER_LEADER=true`. -/
def liveLeaders (p : Primary) : List Worker := p.liveWorkers.filter Worker.leader

end Primary

/-! ### Forking -/

/-- An id, or `undefined`. -/
def idValue : Option ℕ → JsValue
  | some id => .int id
  | none => .undefined

/-- The value of `CLUSTER_LEADER`. -/
def clusterLeader (isLeader : Bool) : JsString := if isLeader then "true" else "false"

/-- `forkWorker`. -/
def forkWorker (p : Primary) (forked : Forked) (isLeader : Bool) : Primary :=
  Primary.log
    { p.act (.fork forked.id (clusterLeader isLeader)) with
      liveWorkers := p.liveWorkers ++ [⟨forked.id, forked.pid, isLeader⟩]
      leaderId := if isLeader then some forked.id else p.leaderId }
    .info "cluster.worker.started"
    [("id", .int forked.id), ("pid", idValue forked.pid), ("leader", .bool isLeader)]

/-- `runClusterBootRails`. -/
def runClusterBootRails (sources : List PoolCapacity) (workerCount : ℕ) (p : Primary) : Primary :=
  sources.foldl (fun p source => p.log .info "cluster.pool.capacity"
    [("source", .string source.key), ("poolMax", .int source.poolMax), ("workers", .int workerCount),
      ("totalSessions", .int (source.poolMax * workerCount))]) p

/-- The boot rails only log. -/
theorem runClusterBootRails_eq {β : Type} {f : Primary → β}
    (hlog : ∀ p level message fields, f (Primary.log p level message fields) = f p) (sources : List PoolCapacity)
    (workerCount : ℕ) (p : Primary) : f (runClusterBootRails sources workerCount p) = f p := by
  unfold runClusterBootRails
  induction sources generalizing p with
  | nil => rfl
  | cons source rest ih => rw [List.foldl_cons, ih, hlog]

/-- The loop that forks the first workers, from `index` on. -/
def forkAll (p : Primary) (index : ℕ) : List Forked → Primary
  | [] => p
  | forked :: rest => forkAll (forkWorker p forked (index == 0)) (index + 1) rest

/-- `startPrimary` up to its handlers, where `forked` is what its calls of `fork` returned. -/
def boot (cfg : StartPrimaryConfig) (cpuCount : ℕ) (forked : List Forked) : Primary :=
  let workerCount := resolveWorkerCount cfg.workers cpuCount
  let p := forkAll (runClusterBootRails cfg.sources workerCount .declared) 0 forked
  p.log .info "cluster.leader.elected" [("id", idValue p.leaderId), ("workers", .int workerCount)]

/-! ### Events -/

/-- A worker's exit, and what the handler would read. -/
structure Exit where
  /-- The worker. -/
  worker : Forked
  /-- Its exit code. -/
  code : ℤ
  /-- The signal that killed it, if one did. -/
  signal : Option JsString
  /-- The clock, when old timestamps are dropped. -/
  now₁ : ℤ
  /-- The clock, when the respawn is recorded. -/
  now₂ : ℤ
  /-- The replacement `fork` would return. -/
  fresh : Forked

/-- The events. -/
inductive Input where
  /-- A worker exited. -/
  | exit (e : Exit)
  /-- The process was sent a signal it handles. -/
  | signal (s : Signal)
  /-- The bounded wait of the shutdown is over. -/
  | timer

/-! ### Exits -/

/-- `notifyDrained?.()`: it settles the race, unless the race is settled. -/
def notify (p : Primary) : Primary :=
  if p.notifyDrained then { p with outcome := p.outcome.or (some .drained) } else p

/-- `if (wasLeader) { leaderId = undefined; … }`. -/
def loseLeader (p : Primary) (wasLeader : Bool) (id : ℕ) : Primary :=
  if wasLeader then Primary.log { p with leaderId := none } .warn "cluster.leader.lost" [("id", .int id)]
  else p

/-- The respawns still in the window at `now`. -/
def inWindow (respawnTimestamps : List ℤ) (now : ℤ) : List ℤ :=
  respawnTimestamps.dropWhile fun t => decide (t < now - RESPAWN_WINDOW_MS)

/-- `liveWorkers.delete(worker.id)`, with its log line. -/
def deleteWorker (p : Primary) (e : Exit) : Primary :=
  Primary.log { p with liveWorkers := p.liveWorkers.filter fun w => w.id != e.worker.id } .warn
    "cluster.worker.exited"
    [("id", .int e.worker.id), ("pid", idValue e.worker.pid), ("code", .int e.code),
      ("signal", (e.signal.map JsValue.string).getD .null),
      ("leader", .bool (p.leaderId == some e.worker.id))]

/-- What `onExit` does before it looks at the configuration. -/
def removeWorker (p : Primary) (e : Exit) : Primary :=
  if (deleteWorker p e).liveWorkers.isEmpty then notify (deleteWorker p e) else deleteWorker p e

/-- The line about a replacement that leads. -/
def elected (cfg : StartPrimaryConfig) (cpuCount : ℕ) (e : Exit) (wasLeader : Bool) (p : Primary) : Primary :=
  if wasLeader then
    p.log .info "cluster.leader.elected"
      [("id", .int e.fresh.id), ("workers", .int (resolveWorkerCount cfg.workers cpuCount))]
  else p

/-- The part of `onExit` that respawns, when there is neither a shutdown nor a reason not to. -/
def respawn (cfg : StartPrimaryConfig) (cpuCount : ℕ) (p : Primary) (e : Exit) (wasLeader : Bool) :
    Primary :=
  let kept := inWindow p.respawnTimestamps e.now₁
  if cfg.respawnMaxPerMinute ≤ kept.length then
    loseLeader
      (Primary.log { p with respawnTimestamps := kept } .warn "cluster.respawn.rate_limited"
        [("limit", .int cfg.respawnMaxPerMinute)])
      wasLeader e.worker.id
  else
    elected cfg cpuCount e wasLeader
      (forkWorker { p with respawnTimestamps := kept ++ [e.now₂] } e.fresh wasLeader)

/-- `onExit`. -/
def onExit (cfg : StartPrimaryConfig) (cpuCount : ℕ) (p : Primary) (e : Exit) : Primary :=
  let wasLeader := p.leaderId == some e.worker.id
  let q := removeWorker p e
  if q.shuttingDown then q
  else if !cfg.respawn then loseLeader q wasLeader e.worker.id
  else respawn cfg cpuCount q e wasLeader

/-! ### Shutdown -/

/-- `for (const worker of liveWorkers.values()) worker.process.kill(signal)`. -/
def killAll (p : Primary) (signal : Signal) : Primary :=
  { p with actions := p.actions ++ p.liveWorkers.map fun w => .kill w.id signal }

/-- The promises `shutdown` races: `drained` is settled at once when nobody is live, and waits to
be notified otherwise; the timer starts. -/
def race (p : Primary) : Primary :=
  if p.liveWorkers.isEmpty then { p with outcome := some .drained, timerPending := true }
  else { p with notifyDrained := true, timerPending := true }

/-- `shutdown`, up to its `await`. -/
def shutdown (p : Primary) (signal : Signal) : Primary :=
  if p.shuttingDown then p
  else
    race <| killAll
      (Primary.log { p with shuttingDown := true, signal := some signal } .info "cluster.shutdown.started"
        [("signal", .string signal.name), ("workers", .int p.liveWorkers.length)])
      signal

/-- The timer of the bounded wait: it settles the race, unless the race is settled. -/
def timerExpired (p : Primary) : Primary :=
  { p with timerPending := false, outcome := p.outcome.or (some .timeout) }

/-- `shutdown` after its `await`. -/
def finishShutdown (cfg : StartPrimaryConfig) (p : Primary) (outcome : RaceOutcome) : Primary :=
  let q :=
    if outcome = .timeout ∧ p.liveWorkers ≠ [] then
      killAll
        (p.log .warn "cluster.drain.timeout"
          [("remaining", .array (p.liveWorkers.map fun w => .int w.id)), ("waitMs", .int (waitMs cfg))])
        .SIGKILL
    else p
  Primary.act
    { q.log .info "cluster.shutdown.finished"
        [("signal", ((q.signal.map Signal.name).map fun s => JsValue.string s).getD .undefined)] with
      finished := true }
    (.exit 0)

/-- What is waiting for the race runs as soon as the handler that settled it has returned. -/
def settle (cfg : StartPrimaryConfig) (p : Primary) : Primary :=
  match p.outcome with
  | some outcome => if p.finished then p else finishShutdown cfg p outcome
  | none => p

/-! ### Runs -/

/-- One event. -/
def handle (cfg : StartPrimaryConfig) (cpuCount : ℕ) (p : Primary) : Input → Primary
  | .exit e => settle cfg (onExit cfg cpuCount p e)
  | .signal s => settle cfg (shutdown p s)
  | .timer => settle cfg (timerExpired p)

/-- What the outside keeps. -/
inductive Admissible (p : Primary) : Input → Prop where
  /-- A live worker exits; a replacement would have an id of its own. -/
  | exit {e : Exit} : e.worker.id ∈ p.liveIds → e.fresh.id ∉ p.forkedIds → Admissible p (.exit e)
  /-- A signal that is handled. -/
  | signal {s : Signal} : s ≠ .SIGKILL → Admissible p (.signal s)
  /-- A pending timer expires. -/
  | timer : p.timerPending = true → Admissible p .timer

/-- What the calls of `fork` at boot return: one worker for each call, no id twice. -/
structure BootForks (cfg : StartPrimaryConfig) (cpuCount : ℕ) (forked : List Forked) : Prop where
  /-- One for each call. -/
  length_eq : forked.length = resolveWorkerCount cfg.workers cpuCount
  /-- No id twice. -/
  nodup : (forked.map Forked.id).Nodup

/-- A run of the primary: the events it handled, each with the state that it found, and the
state it is in. -/
inductive Run (cfg : StartPrimaryConfig) (cpuCount : ℕ) : List (Primary × Input) → Primary → Prop where
  /-- Booted. -/
  | boot {forked : List Forked} : BootForks cfg cpuCount forked → Run cfg cpuCount [] (boot cfg cpuCount forked)
  /-- One more event. -/
  | snoc {h : List (Primary × Input)} {p : Primary} {i : Input} : Run cfg cpuCount h p → Admissible p i →
      Run cfg cpuCount (h ++ [(p, i)]) (handle cfg cpuCount p i)

/-- The states that the events of a list find, from `p` on. -/
def historyOf (cfg : StartPrimaryConfig) (cpuCount : ℕ) (p : Primary) : List Input → List (Primary × Input)
  | [] => []
  | i :: is => (p, i) :: historyOf cfg cpuCount (handle cfg cpuCount p i) is

/-- The events of a list are admissible, one after the other, from `p` on. -/
def Playable (cfg : StartPrimaryConfig) (cpuCount : ℕ) (p : Primary) : List Input → Prop
  | [] => True
  | i :: is => Admissible p i ∧ Playable cfg cpuCount (handle cfg cpuCount p i) is

/-- Playable events continue a run. -/
theorem Run.play {cfg : StartPrimaryConfig} {cpuCount : ℕ} {history : List (Primary × Input)}
    {p : Primary} {is : List Input} (hr : Run cfg cpuCount history p) (h : Playable cfg cpuCount p is) :
    Run cfg cpuCount (history ++ historyOf cfg cpuCount p is) (is.foldl (handle cfg cpuCount) p) := by
  induction is generalizing history p with
  | nil => rwa [historyOf, List.append_nil]
  | cons i is ih =>
    have hi := ih (hr.snoc h.1) h.2
    rwa [List.append_assoc] at hi

/-- The states the primary can go on to from `p`. -/
inductive Later (cfg : StartPrimaryConfig) (cpuCount : ℕ) (p : Primary) : Primary → Prop where
  /-- At once. -/
  | now : Later cfg cpuCount p p
  /-- After one more event. -/
  | snoc {q : Primary} {i : Input} : Later cfg cpuCount p q → Admissible q i →
      Later cfg cpuCount p (handle cfg cpuCount q i)

/-- The readings of the clock in a run, in order. -/
def readings (history : List (Primary × Input)) : List ℤ :=
  history.flatMap fun
    | (_, .exit e) => [e.now₁, e.now₂]
    | _ => []

end NestDdd.Cluster
