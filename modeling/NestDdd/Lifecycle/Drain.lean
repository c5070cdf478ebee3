import NestDdd.Lifecycle.Worker
import Mathlib.Data.List.Induction

/-!
# Pools outlive the work that uses them

What the history of a worker's end is like in every run (`Orderly`): the application closes its
pools once, after the server has called back and the jobs were drained; no run of a job starts once
the scheduler was told to stop; and the log says the truth about what is still running.

## What is proved

* `Inv.step` — every event keeps the invariant: what the scheduler's state says of the history
  (`Scheduled`), and where the shutdown is (`Stage`).
* `pools_outlive_work` — **the run lemma**: in every run each entry of the history comes after what
  `Orderly` says, and readiness, once it fails, stays so.
-/

namespace NestDdd.Lifecycle

open NestDdd.Theory NestDdd.Shared NestDdd.Scheduler

/-! ### Histories -/

/-- What an act makes of a job's being in flight. -/
def flightStep (job : JsString) (flying : Bool) : Act → Bool
  | .runStarted j => if j = job then true else flying
  | .runEnded j => if j = job then false else flying
  | _ => flying

/-- Whether a run of the job is in flight. -/
def inFlight (history : List Act) (job : JsString) : Bool := history.foldl (flightStep job) false

@[simp] theorem inFlight_concat (history : List Act) (a : Act) (job : JsString) :
    inFlight (history ++ [a]) job = flightStep job (inFlight history job) a := by
  rw [inFlight, List.foldl_append, List.foldl_cons, List.foldl_nil, inFlight]

/-- A run that has not ended is still in flight. -/
theorem inFlight_append {before since : List Act} {job : JsString} (h : inFlight before job = true)
    (hend : .runEnded job ∉ since) : inFlight (before ++ since) job = true := by
  induction since using List.reverseRecOn with
  | nil => simpa using h
  | append_singleton since a ih =>
    rw [List.mem_append, not_or, List.mem_singleton] at hend
    rw [← List.append_assoc, inFlight_concat, flightStep.eq_def]
    have hflying := ih hend.1
    split
    · split
      · rfl
      · exact hflying
    · next j =>
      have hne : j ≠ job := fun he => hend.2 (by rw [he])
      rw [if_neg hne]
      exact hflying
    · exact hflying

/-- A `scheduler.drain.timeout` line has named the job. -/
def Named (history : List Act) (job : JsString) : Prop :=
  ∃ jobs timeoutMs, .log (drainTimeoutLine jobs timeoutMs) ∈ history ∧ job ∈ jobs

theorem Named.append {history : List Act} {job : JsString} (h : Named history job) (acts : List Act) :
    Named (history ++ acts) job := by
  obtain ⟨jobs, timeoutMs, hmem, hjob⟩ := h
  exact ⟨jobs, timeoutMs, List.mem_append_left _ hmem, hjob⟩

/-- **What has to come before what.** -/
def Orderly (past : List Act) : Act → Prop
  | .delayStarted => .readiness ∈ past
  | .runStarted _ => .stopCalled ∉ past
  | .closeApp =>
    .closeApp ∉ past ∧ .serverClosed ∈ past ∧ .stopResolved ∈ past ∧
      ∀ job, inFlight past job = true → Named past job
  | .log line =>
    line.message = "scheduler.drained" → ∀ before since job, past = before ++ .stopCalled :: since →
      inFlight before job = true → .runEnded job ∈ since
  | _ => True

/-! ### The scheduler and the history -/

/-- What the state of `stop` says. -/
def Stopped (s : SchedulerState) (history : List Act) : Prop :=
  match s.stop with
  | .uncalled => .stopCalled ∉ history
  | .stopping running => ∀ job, s.runner job ≠ .idle → job ∈ running
  | .waiting running race =>
    (∀ job, s.runner job ≠ .idle → job ∈ running) ∧ (race = .idle → ∀ job ∈ running, s.runner job = .idle)
  | .resolved => ∀ job, s.runner job = .running → Named history job

/-- The scheduler's state, and what has happened. -/
structure Scheduled (cfg : WorkerConfig) (s : SchedulerState) (history : List Act) : Prop where
  /-- The runs in flight. -/
  flight : ∀ job, inFlight history job = true ↔ s.runner job = .running
  /-- They are runs of registered jobs. -/
  known : ∀ job, s.runner job ≠ .idle → job ∈ cfg.registered
  /-- No job ticks once `stop` was called. -/
  crons : s.stop ≠ .uncalled → cfg.registered = [] ∨ s.cronStopped = true
  /-- How far `stop` has come. -/
  stopped : Stopped s history

/-- The acts that are about neither the jobs nor `stop`. -/
def Plain : Act → Prop
  | .runStarted _ | .runEnded _ | .stopCalled => False
  | _ => True

variable {cfg : WorkerConfig} {s : SchedulerState} {history : List Act}

theorem Scheduled.plain (h : Scheduled cfg s history) {a : Act} (ha : Plain a) :
    Scheduled cfg s (history ++ [a]) where
  flight job := by
    rw [inFlight_concat, ← h.flight job]
    cases a <;> first | exact ha.elim | rfl
  known := h.known
  crons := h.crons
  stopped := by
    have hs := h.stopped
    unfold Stopped at hs ⊢
    split at hs
    · rw [List.mem_append, List.mem_singleton, not_or]
      refine ⟨hs, ?_⟩
      rintro rfl
      exact ha
    · exact hs
    · exact hs
    · intro job hjob
      exact (hs job hjob).append _

/-- The runners that are none of a job's are as they were. -/
theorem runner_setRunner (s : SchedulerState) (name : JsString) (r : Runner) (job : JsString) :
    (s.setRunner name r).runner job = if job = name then r else s.runner job := rfl

theorem isRunning_iff {r : Runner} : r.isRunning = true ↔ r ≠ .idle := by
  cases r <;> simp [Runner.isRunning]

theorem mem_mid {jobs : List JsString} {job : JsString} :
    job ∈ s.mid jobs ↔ job ∈ jobs ∧ s.runner job ≠ .idle := by
  rw [SchedulerState.mid, List.mem_filter, isRunning_iff]

/-- **A tick**: the run starts, since `stop` was not called. -/
theorem Scheduled.start (h : Scheduled cfg s history) {job : JsString} (hjob : job ∈ cfg.registered)
    (hcron : s.cronStopped = false) : Scheduled cfg (s.setRunner job .running) (history ++ [.runStarted job]) ∧
      .stopCalled ∉ history := by
  have hstop : s.stop = .uncalled := by
    by_contra hcalled
    rcases h.crons hcalled with hnil | hstopped
    · rw [hnil] at hjob
      exact List.not_mem_nil hjob
    · rw [hcron] at hstopped
      cases hstopped
  have huncalled : .stopCalled ∉ history := by
    have hs := h.stopped
    rwa [Stopped, hstop] at hs
  refine ⟨⟨fun j => ?_, fun j hj => ?_, fun hc => absurd hstop hc, ?_⟩, huncalled⟩
  · rw [inFlight_concat, flightStep, runner_setRunner]
    by_cases hj : j = job
    · simp [hj]
    · rw [if_neg (Ne.symm hj), if_neg hj]
      exact h.flight j
  · rw [runner_setRunner] at hj
    by_cases he : j = job
    · rw [he]
      exact hjob
    · rw [if_neg he] at hj
      exact h.known j hj
  · have hkept : (s.setRunner job .running).stop = .uncalled := hstop
    rw [Stopped, hkept]
    simpa using huncalled

/-- **A job settles**, or its `finally` has run: fewer runners are running. -/
theorem Scheduled.setRunner (h : Scheduled cfg s history) {job : JsString} {r : Runner} (hr : r ≠ .running)
    (hlast : r ≠ .idle → s.runner job ≠ .idle) {acts : List Act}
    (hflight : ∀ j, inFlight (history ++ acts) j = if j = job then false else inFlight history j)
    (hcalled : .stopCalled ∉ acts) : Scheduled cfg (s.setRunner job r) (history ++ acts) := by
  have hsub (j : JsString) (hj : (s.setRunner job r).runner j ≠ .idle) : s.runner j ≠ .idle := by
    rw [runner_setRunner] at hj
    split at hj
    · next he => exact he ▸ hlast hj
    · exact hj
  have hrun (j : JsString) (hj : (s.setRunner job r).runner j = .running) : s.runner j = .running := by
    rw [runner_setRunner] at hj
    split at hj
    · exact absurd hj hr
    · exact hj
  refine ⟨fun j => ?_, fun j hj => h.known j (hsub j hj), h.crons, ?_⟩
  · rw [hflight, runner_setRunner]
    split
    · simp [hr]
    · exact h.flight j
  · have hs := h.stopped
    have hstop : (s.setRunner job r).stop = s.stop := rfl
    unfold Stopped at hs ⊢
    rw [hstop]
    split at hs
    · simpa using ⟨hs, hcalled⟩
    · intro j hj
      exact hs j (hsub j hj)
    · refine ⟨fun j hj => hs.1 j (hsub j hj), fun hrace j hj => ?_⟩
      by_contra hj'
      exact hsub j hj' (hs.2 hrace j hj)
    · intro j hj
      exact (hs j (hrun j hj)).append _

theorem Scheduled.settle (h : Scheduled cfg s history) {job : JsString} (hjob : s.runner job = .running) :
    Scheduled cfg (s.setRunner job .settled) (history ++ [.runEnded job]) := by
  refine h.setRunner (by decide) (fun _ => by rw [hjob]; decide) (fun j => ?_) (by simp)
  rw [inFlight_concat, flightStep]
  simp only [eq_comm]

theorem Scheduled.clear (h : Scheduled cfg s history) {job : JsString} (hjob : s.runner job = .settled) :
    Scheduled cfg (s.clear job) history := by
  have hnot : inFlight history job = false := by
    rw [← Bool.not_eq_true, h.flight job, hjob]
    decide
  have hflight (j : JsString) : inFlight (history ++ []) j = if j = job then false else inFlight history j := by
    rw [List.append_nil]
    split
    · next he => rw [he, hnot]
    · rfl
  have hs : Scheduled cfg (s.setRunner job .idle) (history ++ []) :=
    h.setRunner (by decide) (fun hne => absurd rfl hne) hflight List.not_mem_nil
  rwa [List.append_nil] at hs

/-! ### `stop` -/

/-- **`stop` is called**: who is in flight is in its snapshot. -/
theorem Scheduled.callStop (h : Scheduled cfg s history) :
    Scheduled cfg (s.callStop cfg.registered) (history ++ [.stopCalled]) := by
  have hflight (job : JsString) : inFlight (history ++ [.stopCalled]) job = true ↔ s.runner job = .running := by
    rw [inFlight_concat]
    exact h.flight job
  rw [SchedulerState.callStop]
  split
  · next hnil =>
    refine ⟨hflight, h.known, fun _ => .inl hnil, fun job hjob => ?_⟩
    have hmem := h.known job (by rw [hjob]; decide)
    rw [hnil] at hmem
    exact absurd hmem List.not_mem_nil
  · exact ⟨hflight, h.known, fun _ => .inr rfl, fun job hjob => mem_mid.mpr ⟨h.known job hjob, hjob⟩⟩

theorem Scheduled.cronsStopped (h : Scheduled cfg s history) {running : List JsString}
    (hstop : s.stop = .stopping running) : Scheduled cfg (s.cronsStopped running) history := by
  have hs := h.stopped
  rw [Stopped, hstop] at hs
  refine ⟨h.flight, h.known, fun _ => h.crons (by rw [hstop]; nofun), ?_⟩
  rw [Stopped, SchedulerState.cronsStopped]
  by_cases hnil : running = []
  · rw [if_pos hnil]
    intro job hjob
    have hmem := hs job (by rw [hjob]; decide)
    rw [hnil] at hmem
    exact absurd hmem List.not_mem_nil
  · rw [if_neg hnil]
    exact ⟨hs, nofun⟩

theorem Scheduled.decideRace (h : Scheduled cfg s history) {running : List JsString} {race race' : Race}
    (hstop : s.stop = .waiting running race) (hidle : race' = .idle → ∀ job ∈ running, s.runner job = .idle) :
    Scheduled cfg (s.decideRace running race') history := by
  have hs := h.stopped
  rw [Stopped, hstop] at hs
  exact ⟨h.flight, h.known, fun _ => h.crons (by rw [hstop]; nofun), hs.1, hidle⟩

/-- **`stop` concludes**: it names who is still in flight, and says that the jobs are drained only
if none is. -/
theorem Scheduled.conclude (h : Scheduled cfg s history) {running : List JsString} {race : Race}
    (hstop : s.stop = .waiting running race) (hrace : race ≠ .undecided) (durationMs timeoutMs : ℕ) :
    Scheduled cfg (s.conclude running race durationMs timeoutMs).1
        (history ++ [.log (s.conclude running race durationMs timeoutMs).2]) ∧
      Orderly history (.log (s.conclude running race durationMs timeoutMs).2) := by
  have hs := h.stopped
  rw [Stopped, hstop] at hs
  obtain ⟨hsnap, hidle⟩ := hs
  have hplain := h.plain (a := .log (s.conclude running race durationMs timeoutMs).2) trivial
  have hresolved (hnamed : ∀ job, s.runner job = .running →
      Named (history ++ [.log (s.conclude running race durationMs timeoutMs).2]) job) :
      Scheduled cfg (s.conclude running race durationMs timeoutMs).1
        (history ++ [.log (s.conclude running race durationMs timeoutMs).2]) :=
    ⟨hplain.flight, h.known, fun _ => h.crons (by rw [hstop]; nofun), by
      unfold Stopped
      exact hnamed⟩
  cases race with
  | undecided => exact absurd rfl hrace
  | idle =>
    have hnone (job : JsString) : s.runner job = .idle := by
      by_contra hjob
      exact hjob (hidle rfl job (hsnap job hjob))
    refine ⟨hresolved fun job hjob => ?_, fun _ before since job hpast hflying => ?_⟩
    · rw [hnone job] at hjob
      cases hjob
    · by_contra hend
      have hnot : .runEnded job ∉ .stopCalled :: since := by simpa using hend
      have hstill := inFlight_append hflying hnot
      rw [← hpast, h.flight job, hnone job] at hstill
      cases hstill
  | timedOut =>
    have hother : JsString.ofString "scheduler.drain.timeout" ≠ JsString.ofString "scheduler.drained" := by decide
    refine ⟨hresolved fun job hjob => ?_, fun hmessage => absurd hmessage hother⟩
    have hne : s.runner job ≠ .idle := by rw [hjob]; decide
    exact ⟨s.mid running, timeoutMs, by simp [SchedulerState.conclude], mem_mid.mpr ⟨hsnap job hne, hne⟩⟩

/-! ### The stages of the shutdown -/

/-- The options of the shutdown that a signal starts. -/
def signalOptions (cfg : WorkerConfig) (signal : JsString) : GracefulShutdownOptions where
  signal := signal
  drainDelayMs := cfg.drainDelayMs
  forceAfterMs := cfg.forceAfterMs
  drainJobs := true

/-- The rest of the shutdown, once the application is closed. -/
def afterApp (o : GracefulShutdownOptions) : Prog Host Bool := do
  Host.log .info "shutdown.finished" [("signal", .string o.signal)]
  return true

/-- The rest, once the jobs are drained. -/
def afterJobs (o : GracefulShutdownOptions) : Prog Host Bool := do
  let _ ← Host.closeApp
  afterApp o

/-- The rest, once the server has called back. -/
def afterServer (o : GracefulShutdownOptions) : Prog Host Bool := do
  Host.clearForceTimer
  let _ ← drainJobsIfAny o.drainJobs
  afterJobs o

/-- The rest, after the drain delay. -/
def afterDelay (o : GracefulShutdownOptions) : Prog Host Bool := do
  Host.log .info "shutdown.draining" [("forceAfterMs", .int o.forceAfterMs)]
  Host.startForceTimer o.forceAfterMs
  Host.closeIdleConnections
  let _ ← Host.closeServer
  afterServer o

/-- What the first signal does. -/
theorem onSignal_first {w : Worker} (h : w.shuttingDown = false) (signal : JsString) :
    w.onSignal cfg signal = { w with
      shuttingDown := true
      thread := some ⟨.delay cfg.drainDelayMs, fun _ => afterDelay (signalOptions cfg signal)⟩
      history := w.history ++ [.readiness] ++ [.log ⟨.info, "shutdown.started",
        [("signal", .string signal), ("drainDelayMs", .int cfg.drainDelayMs)]⟩] ++ [.delayStarted] } := by
  obtain ⟨shuttingDown, thread, delayOver, forceTimer, listening, connections, closed, scheduler, appClosed,
    history⟩ := w
  obtain rfl : shuttingDown = false := h
  rfl

/-- What any other signal does. -/
theorem onSignal_again {w : Worker} (h : w.shuttingDown = true) (signal : JsString) :
    w.onSignal cfg signal = w.record [.log ⟨.debug, "shutdown.signal.ignored", [("signal", .string signal)]⟩] := by
  obtain ⟨shuttingDown, thread, delayOver, forceTimer, listening, connections, closed, scheduler, appClosed,
    history⟩ := w
  obtain rfl : shuttingDown = true := h
  rfl

variable {w : Worker} {signal : JsString} {ms : ℕ} {pools : List ℕ}

theorem resume_delay (h : w.thread = some ⟨.delay cfg.drainDelayMs, fun _ => afterDelay (signalOptions cfg signal)⟩) :
    w.resume cfg ms pools = { w with
      thread := some ⟨.closeServer, fun _ => afterServer (signalOptions cfg signal)⟩
      forceTimer := true
      listening := false
      history := w.history ++ [.log ⟨.info, "shutdown.draining", [("forceAfterMs", .int cfg.forceAfterMs)]⟩] } := by
  rw [Worker.resume, h]
  rfl

theorem resume_server (h : w.thread = some ⟨.closeServer, fun _ => afterServer (signalOptions cfg signal)⟩) :
    w.resume cfg ms pools = ({ w with
      thread := some ⟨.drainJobs, fun _ => afterJobs (signalOptions cfg signal)⟩
      forceTimer := false
      history := w.history ++ [.stopCalled] } : Worker).setScheduler (w.scheduler.callStop cfg.registered) := by
  rw [Worker.resume, h]
  rfl

theorem resume_jobs (h : w.thread = some ⟨.drainJobs, fun _ => afterJobs (signalOptions cfg signal)⟩) :
    w.resume cfg ms pools = { w with
      thread := some ⟨.closeApp, fun _ => afterApp (signalOptions cfg signal)⟩
      history := w.history ++ [.closeApp] } := by
  rw [Worker.resume, h]
  rfl

theorem resume_app (h : w.thread = some ⟨.closeApp, fun _ => afterApp (signalOptions cfg signal)⟩) :
    w.resume cfg ms pools = { w with
      thread := none
      history := w.history ++ [.log ⟨.info, "shutdown.finished", [("signal", .string signal)]⟩] } := by
  rw [Worker.resume, h]
  rfl

/-- Where the shutdown is, with the flag, the thread, `stop` and the history. -/
inductive Stage (cfg : WorkerConfig) : Bool → Option Parked → StopState → List Act → Prop where
  /-- There was no signal. -/
  | before {past : List Act} : .closeApp ∉ past → Stage cfg false none .uncalled past
  /-- It is in the drain delay. -/
  | delaying {name : JsString} {past : List Act} : .closeApp ∉ past →
      Stage cfg true (some ⟨.delay cfg.drainDelayMs, fun _ => afterDelay (signalOptions cfg name)⟩) .uncalled past
  /-- It awaits the server. -/
  | closing {name : JsString} {past : List Act} : .closeApp ∉ past →
      Stage cfg true (some ⟨.closeServer, fun _ => afterServer (signalOptions cfg name)⟩) .uncalled past
  /-- It awaits the jobs. -/
  | draining {name : JsString} {stop : StopState} {past : List Act} : .closeApp ∉ past → .serverClosed ∈ past →
      stop ≠ .uncalled →
      Stage cfg true (some ⟨.drainJobs, fun _ => afterJobs (signalOptions cfg name)⟩) stop past
  /-- It awaits the application. -/
  | closingApp {name : JsString} {past : List Act} :
      Stage cfg true (some ⟨.closeApp, fun _ => afterApp (signalOptions cfg name)⟩) .resolved past
  /-- It is over. -/
  | finished {past : List Act} : Stage cfg true none .resolved past

theorem Stage.append {flag : Bool} {thread : Option Parked} {stop : StopState}
    (h : Stage cfg flag thread stop history) {acts : List Act} (hacts : .closeApp ∉ acts) :
    Stage cfg flag thread stop (history ++ acts) := by
  have hmem : .closeApp ∉ history → .closeApp ∉ history ++ acts := fun hnot => by simpa using ⟨hnot, hacts⟩
  cases h with
  | before hnot => exact .before (hmem hnot)
  | delaying hnot => exact .delaying (hmem hnot)
  | closing hnot => exact .closing (hmem hnot)
  | draining hnot hserver hstop => exact .draining (hmem hnot) (List.mem_append_left _ hserver) hstop
  | closingApp => exact .closingApp
  | finished => exact .finished

/-- `stop` goes on while the shutdown awaits it. -/
theorem Stage.setStop {flag : Bool} {thread : Option Parked} {stop stop' : StopState}
    (h : Stage cfg flag thread stop history) (h₁ : stop ≠ .uncalled) (h₂ : stop ≠ .resolved)
    (h' : stop' ≠ .uncalled) :
    Stage cfg flag thread stop' history := by
  cases h with
  | before => exact absurd rfl h₁
  | delaying => exact absurd rfl h₁
  | closing => exact absurd rfl h₁
  | draining hnot hserver _ => exact .draining hnot hserver h'
  | closingApp => exact absurd rfl h₂
  | finished => exact absurd rfl h₂

/-! ### The invariant -/

/-- What holds of a worker. -/
structure Inv (cfg : WorkerConfig) (w : Worker) : Prop where
  /-- Its history is in order. -/
  throughout : Throughout Orderly w.history
  /-- The scheduler is where the history says. -/
  scheduled : Scheduled cfg w.scheduler w.history
  /-- The readiness flag. -/
  flag : .readiness ∈ w.history ↔ w.shuttingDown = true
  /-- `stop`. -/
  resolved : w.scheduler.stop = .resolved → .stopResolved ∈ w.history
  /-- The server's callback. -/
  closed : w.closed = true → .serverClosed ∈ w.history
  /-- Where the shutdown is. -/
  stage : Stage cfg w.shuttingDown w.thread w.scheduler.stop w.history

theorem Inv.started (cfg : WorkerConfig) (connections : ℕ) : Inv cfg (.started connections) where
  throughout := throughout_nil Orderly
  scheduled := {
    flight := fun _ => ⟨nofun, nofun⟩
    known := fun _ hjob => absurd rfl hjob
    crons := fun hstop => absurd rfl hstop
    stopped := List.not_mem_nil }
  flag := ⟨nofun, nofun⟩
  resolved := nofun
  closed := nofun
  stage := .before List.not_mem_nil

/-- The invariant is not about the timers, the connections and the listeners; of the thread it says
where it is. -/
theorem Inv.move (h : Inv cfg w) {thread : Option Parked} {delayOver forceTimer listening appClosed : Bool}
    {connections : ℕ} (hstage : Stage cfg w.shuttingDown thread w.scheduler.stop w.history) :
    Inv cfg { w with
      thread := thread
      delayOver := delayOver
      forceTimer := forceTimer
      listening := listening
      connections := connections
      appClosed := appClosed } :=
  ⟨h.throughout, h.scheduled, h.flag, h.resolved, h.closed, hstage⟩

/-- The scheduler goes on, and `stop` stays where it is. -/
theorem Inv.update (h : Inv cfg w) {s : SchedulerState} {acts : List Act}
    (hthroughout : Throughout Orderly (w.history ++ acts)) (hs : Scheduled cfg s (w.history ++ acts))
    (hstop : s.stop = w.scheduler.stop) (happ : .closeApp ∉ acts) (hready : .readiness ∉ acts) :
    Inv cfg { w with scheduler := s, history := w.history ++ acts } where
  throughout := hthroughout
  scheduled := hs
  flag := Iff.trans (by simp [hready]) h.flag
  resolved hres := List.mem_append_left _ (h.resolved (hstop ▸ hres))
  closed hclosed := List.mem_append_left _ (h.closed hclosed)
  stage := by
    dsimp only
    rw [hstop]
    exact h.stage.append happ

/-- A line that does not say that the jobs are drained. -/
theorem Inv.log (h : Inv cfg w) {line : LogLine} (hline : line.message ≠ "scheduler.drained") :
    Inv cfg (w.record [.log line]) :=
  h.update (throughout_concat.mpr ⟨h.throughout, fun hmessage => absurd hmessage hline⟩)
    (h.scheduled.plain trivial) rfl (by simp) (by simp)

/-- The scheduler goes on, and `stop` may have resolved. -/
theorem Inv.setScheduler {s : SchedulerState} (hthroughout : Throughout Orderly w.history)
    (hscheduled : Scheduled cfg s w.history) (hflag : .readiness ∈ w.history ↔ w.shuttingDown = true)
    (hclosed : w.closed = true → .serverClosed ∈ w.history)
    (hstage : Stage cfg w.shuttingDown w.thread s.stop w.history) : Inv cfg (w.setScheduler s) := by
  by_cases hstop : s.stop = .resolved
  · have hset : w.setScheduler s = { w with scheduler := s, history := w.history ++ [.stopResolved] } := by
      rw [Worker.setScheduler, hstop]
    rw [hset]
    exact {
      throughout := throughout_concat.mpr ⟨hthroughout, trivial⟩
      scheduled := hscheduled.plain trivial
      flag := Iff.trans (by simp) hflag
      resolved := fun _ => List.mem_append_right _ (List.mem_singleton_self _)
      closed := fun hc => List.mem_append_left _ (hclosed hc)
      stage := hstage.append (by simp) }
  · have hset : w.setScheduler s = { w with scheduler := s } := by
      rw [Worker.setScheduler]
      split
      · next h => exact absurd h hstop
      · rw [List.append_nil]
    rw [hset]
    exact {
      throughout := hthroughout
      scheduled := hscheduled
      flag := hflag
      resolved := fun h => absurd h hstop
      closed := hclosed
      stage := hstage }

/-- **A signal** starts the shutdown, or is ignored. -/
theorem Inv.onSignal (h : Inv cfg w) (signal : JsString) : Inv cfg (w.onSignal cfg signal) := by
  cases hflag : w.shuttingDown with
  | true =>
    rw [onSignal_again hflag]
    exact h.log (show JsString.ofString "shutdown.signal.ignored" ≠ JsString.ofString "scheduler.drained" by decide)
  | false =>
    rw [onSignal_first hflag]
    have hstage := h.stage
    rw [hflag] at hstage
    generalize hstop : w.scheduler.stop = stop at hstage
    generalize w.thread = thread at hstage
    cases hstage with
    | before hnot =>
      have hmem : .readiness ∈ w.history ++ [.readiness] ++ [.log ⟨.info, "shutdown.started",
          [("signal", .string signal), ("drainDelayMs", .int cfg.drainDelayMs)]⟩] :=
        List.mem_append_left _ (List.mem_append_right _ (List.mem_singleton_self _))
      have hother : JsString.ofString "shutdown.started" ≠ JsString.ofString "scheduler.drained" := by decide
      exact {
        throughout := throughout_concat.mpr ⟨throughout_concat.mpr ⟨throughout_concat.mpr ⟨h.throughout, trivial⟩,
          fun hmessage => absurd hmessage hother⟩, hmem⟩
        scheduled := ((h.scheduled.plain (a := .readiness) trivial).plain (a := .log _) trivial).plain
          (a := .delayStarted) trivial
        flag := ⟨fun _ => rfl, fun _ => List.mem_append_left _ hmem⟩
        resolved := fun hres => by rw [hstop] at hres; cases hres
        closed := fun hc =>
          List.mem_append_left _ (List.mem_append_left _ (List.mem_append_left _ (h.closed hc)))
        stage := by
          rw [hstop]
          exact .delaying (by simpa using hnot) }

/-- **The shutdown goes on**, from one stage to the next. -/
theorem Inv.resume (h : Inv cfg w) {p : Parked} (hp : w.thread = some p) (hready : w.Ready p.op) :
    Inv cfg (w.resume cfg ms pools) := by
  have hstage := h.stage
  generalize hflag : w.shuttingDown = flag at hstage
  generalize hstop : w.scheduler.stop = stop at hstage
  rw [hp] at hstage
  cases hstage with
  | delaying hnot =>
    rw [resume_delay hp]
    have hother : JsString.ofString "shutdown.draining" ≠ JsString.ofString "scheduler.drained" := by decide
    have hlog : Inv cfg (w.record
        [.log ⟨.info, "shutdown.draining", [("forceAfterMs", .int cfg.forceAfterMs)]⟩]) := h.log hother
    refine hlog.move ?_
    show Stage cfg w.shuttingDown _ w.scheduler.stop _
    rw [hflag, hstop]
    exact .closing (by simpa [Worker.record] using hnot)
  | closing hnot =>
    rw [resume_server hp]
    have hserver : .serverClosed ∈ w.history := h.closed hready
    refine Inv.setScheduler (throughout_concat.mpr ⟨h.throughout, trivial⟩) h.scheduled.callStop
      (Iff.trans (by simp) h.flag) (fun hc => List.mem_append_left _ (h.closed hc)) ?_
    dsimp only
    rw [hflag]
    refine .draining (by simpa using hnot) (List.mem_append_left _ hserver) ?_
    rw [SchedulerState.callStop]
    split <;> nofun
  | draining hnot hserver hcalled =>
    rw [resume_jobs hp]
    have hresolved : w.scheduler.stop = .resolved := hready
    have hnamed (job : JsString) (hjob : inFlight w.history job = true) : Named w.history job := by
      have hs := h.scheduled.stopped
      rw [Stopped, hresolved] at hs
      exact hs job ((h.scheduled.flight job).mp hjob)
    exact {
      throughout := throughout_concat.mpr ⟨h.throughout, hnot, hserver, h.resolved hresolved, hnamed⟩
      scheduled := h.scheduled.plain trivial
      flag := Iff.trans (by simp) h.flag
      resolved := fun hres => List.mem_append_left _ (h.resolved hres)
      closed := fun hc => List.mem_append_left _ (h.closed hc)
      stage := by
        rw [hflag, hresolved]
        exact .closingApp }
  | @closingApp name _ =>
    rw [resume_app hp]
    have hother : JsString.ofString "shutdown.finished" ≠ JsString.ofString "scheduler.drained" := by decide
    have hlog : Inv cfg (w.record [.log ⟨.info, "shutdown.finished", [("signal", .string name)]⟩]) := h.log hother
    refine hlog.move ?_
    show Stage cfg w.shuttingDown _ w.scheduler.stop _
    rw [hflag, hstop]
    exact .finished

/-- **A tick** starts a run, or skips it. -/
theorem Inv.tick (h : Inv cfg w) {job : JsString} (hjob : job ∈ cfg.registered)
    (hcron : w.scheduler.cronStopped = false) : Inv cfg (w.step cfg (.tick job)) := by
  by_cases hrun : (w.scheduler.runner job).isRunning = true
  · have hother : JsString.ofString "scheduler.job.skipped" ≠ JsString.ofString "scheduler.drained" := by decide
    have hskip : w.step cfg (.tick job) = w.record [.log ⟨.warn, "scheduler.job.skipped",
        [("job", .string job), ("reason", .string "still running")]⟩] := by
      simp only [Worker.step, SchedulerState.run, hrun, if_true]
    rw [hskip]
    exact h.log hother
  · have hstart : w.step cfg (.tick job) = { w with
        scheduler := w.scheduler.setRunner job .running
        history := w.history ++ [.runStarted job] } := by
      simp only [Worker.step, SchedulerState.run, hrun, Bool.false_eq_true, if_false]
      rfl
    obtain ⟨hscheduled, huncalled⟩ := h.scheduled.start hjob hcron
    rw [hstart]
    exact h.update (throughout_concat.mpr ⟨h.throughout, huncalled⟩) hscheduled rfl (by simp) (by simp)

/-- **A job settles.** -/
theorem Inv.settle (h : Inv cfg w) {job : JsString} (hjob : w.scheduler.runner job = .running)
    (error : Option JsValue) (durationMs : ℕ) : Inv cfg (w.step cfg (.settle job error durationMs)) := by
  have hended : Inv cfg { w with
      scheduler := w.scheduler.setRunner job .settled
      history := w.history ++ [.runEnded job] } :=
    h.update (throughout_concat.mpr ⟨h.throughout, trivial⟩) (h.scheduled.settle hjob) rfl (by simp) (by simp)
  have hother : (w.scheduler.settle job error durationMs).2.message ≠ "scheduler.drained" := by
    cases error with
    | none => exact show JsString.ofString "scheduler.job.finished" ≠ JsString.ofString "scheduler.drained" by decide
    | some error =>
      exact show JsString.ofString "scheduler.job.failed" ≠ JsString.ofString "scheduler.drained" by decide
  have hstep : w.step cfg (.settle job error durationMs) = Worker.record { w with
      scheduler := w.scheduler.setRunner job .settled
      history := w.history ++ [.runEnded job] } [.log (w.scheduler.settle job error durationMs).2] := by
    simp only [Worker.step, Worker.record, List.append_assoc]
    rfl
  rw [hstep]
  exact hended.log hother

/-- **Every event** keeps the invariant. -/
theorem Inv.step (h : Inv cfg w) (e : Worker.Happening) (he : Worker.Enabled cfg w e) : Inv cfg (w.step cfg e) := by
  cases e with
  | signal name => exact h.onSignal name
  | tick job => exact h.tick he.1 he.2
  | settle job error durationMs => exact h.settle he error durationMs
  | clear job =>
    exact ⟨h.throughout, h.scheduled.clear he, h.flag, h.resolved, h.closed, h.stage⟩
  | connect => exact h.move h.stage
  | disconnect => exact h.move h.stage
  | delayTimer => exact h.move h.stage
  | forceTimer =>
    have hother : JsString.ofString "shutdown.forced" ≠ JsString.ofString "scheduler.drained" := by decide
    have hlog : Inv cfg (w.record [.log ⟨.warn, "shutdown.forced", [("forceAfterMs", .int cfg.forceAfterMs)]⟩]) :=
      h.log hother
    exact hlog.move hlog.stage
  | serverClosed =>
    exact {
      throughout := throughout_concat.mpr ⟨h.throughout, trivial⟩
      scheduled := h.scheduled.plain trivial
      flag := Iff.trans (by simp [Worker.step, Worker.record]) h.flag
      resolved := fun hres => List.mem_append_left _ (h.resolved hres)
      closed := fun _ => List.mem_append_right _ (List.mem_singleton_self _)
      stage := h.stage.append (by simp) }
  | cronsStopped =>
    obtain ⟨running, hstop⟩ := he
    simp only [Worker.step, hstop]
    refine Inv.setScheduler h.throughout (h.scheduled.cronsStopped hstop) h.flag h.closed
      (h.stage.setStop (by rw [hstop]; nofun) (by rw [hstop]; nofun) ?_)
    rw [SchedulerState.cronsStopped]
    split <;> nofun
  | decideRace race =>
    obtain ⟨running, hstop, hrace, hidle⟩ := he
    simp only [Worker.step, hstop]
    exact {
      throughout := h.throughout
      scheduled := h.scheduled.decideRace hstop hidle
      flag := h.flag
      resolved := nofun
      closed := h.closed
      stage := h.stage.setStop (by rw [hstop]; nofun) (by rw [hstop]; nofun) nofun }
  | conclude durationMs =>
    obtain ⟨running, race, hstop, hrace⟩ := he
    simp only [Worker.step, hstop]
    obtain ⟨hscheduled, horderly⟩ := h.scheduled.conclude hstop hrace durationMs cfg.jobDrainMs
    refine Inv.setScheduler (throughout_concat.mpr ⟨h.throughout, horderly⟩) hscheduled
      (Iff.trans (by simp [Worker.record]) h.flag) (fun hc => List.mem_append_left _ (h.closed hc)) ?_
    have hstage : Stage cfg w.shuttingDown w.thread .resolved w.history :=
      h.stage.setStop (by rw [hstop]; nofun) (by rw [hstop]; nofun) nofun
    exact hstage.append (by simp)
  | appClosed => exact h.move h.stage
  | resume ms pools =>
    obtain ⟨p, hp, hready⟩ := he
    exact h.resume hp hready

/-! ### Runs -/

theorem worker_inv {es : List Worker.Happening} (h : (worker cfg).Run es w) : Inv cfg w := by
  refine h.invariant (P := Inv cfg) ?_ fun w e hw he => hw.step e he
  rintro w ⟨connections, rfl⟩
  exact Inv.started cfg connections

/-- **Pools outlive the work that uses them.** -/
theorem pools_outlive_work {es : List Worker.Happening} (h : (worker cfg).Run es w) :
    Throughout Orderly w.history ∧ (.readiness ∈ w.history → w.shuttingDown = true) :=
  ⟨(worker_inv h).throughout, (worker_inv h).flag.mp⟩

/-- A worker with one job. -/
def sweeper : WorkerConfig where
  registered := ["sweep"]
  drainDelayMs := 5000
  forceAfterMs := 10000
  jobDrainMs := 10000

/-- Two signals, and a job that takes too long: it is named before the pools are closed. -/
theorem pools_outlive_sweep :
    ∃ es w, (worker sweeper).Run es w ∧ .closeApp ∈ w.history ∧ inFlight w.history "sweep" = true ∧
      Throughout Orderly w.history ∧ (.readiness ∈ w.history → w.shuttingDown = true) := by
  let es : List Worker.Happening :=
    [.connect, .tick "sweep", .signal "SIGTERM", .signal "SIGINT", .delayTimer, .resume 5000 [], .disconnect,
      .serverClosed, .resume 20 [], .cronsStopped, .decideRace .timedOut, .conclude 10000, .resume 10000 []]
  have hrun : (worker sweeper).Run es (es.foldl (worker sweeper).next (.started 0)) :=
    Machine.Run.play ⟨0, rfl⟩ ⟨rfl, ⟨List.mem_singleton_self _, rfl⟩, trivial, trivial, ⟨_, _, rfl⟩, ⟨_, rfl, rfl⟩,
      Nat.zero_lt_one, ⟨rfl, rfl, rfl⟩, ⟨_, rfl, rfl⟩, ⟨_, rfl⟩, ⟨_, rfl, nofun, nofun⟩, ⟨_, _, rfl, nofun⟩,
      ⟨_, rfl, rfl⟩, trivial⟩
  exact ⟨es, _, hrun, List.mem_append_right _ (List.mem_singleton_self _), rfl, pools_outlive_work hrun⟩

end NestDdd.Lifecycle
