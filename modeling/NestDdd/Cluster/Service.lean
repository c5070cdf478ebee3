import NestDdd.Cluster.Farewell
import NestDdd.Cluster.Leader
import NestDdd.Lifecycle.Closing

/-!
# The primary and its worker processes

In cluster mode the service is one primary and the processes it forks. Each process boots an
application by the environment it was forked with (`bootstrap` in `src/main.ts`,
`JobScheduler.onApplicationBootstrap`), lives as a worker does, and closes its channel to the primary
once its shutdown is over (`releaseWorkerChannel`).

## The model

The service is a `Machine`. Its state is the primary's and that of every process; what the primary
does in a handler is done to the processes (`perform`): a fork makes one, a signal is on its way to
one. A process goes on by itself between the primary's handlers, and the primary hears of the end of a
process some time after it, if at all.

* Until `installShutdownHandlers` has run, a signal ends the process; so does `SIGKILL` at any time.
* A terminal signals processes itself, so a signal may arrive that the primary has not sent.
* A process may crash at any time. It ends by itself only if its channel is closed.

## What is proved

* `Linked.step` — the invariant: what goes on is a live worker's process, with the environment it was forked with.
* `one_scheduler` — **one process at most has jobs**, before the shutdown the leader's, whatever crashes when.
* `nobody_left_behind` — **when the primary is gone every worker is accounted for**, and if its wait was not over,
  every worker has ended and none was killed.
-/

namespace NestDdd.Cluster

open NestDdd.Theory NestDdd.Shared NestDdd.Scheduler NestDdd.Config

/-! ### The processes -/

/-- How a process ended. -/
inductive Ending where
  /-- There was nothing left for it to do. -/
  | idle
  /-- By a signal it does not handle. -/
  | signal (s : Signal)
  /-- It crashed. -/
  | crash
  deriving DecidableEq

/-- A worker process. -/
structure Process where
  /-- `CLUSTER_LEADER` in its environment. -/
  clusterLeader : JsString
  /-- Its application, once that has booted. -/
  app : Option Lifecycle.Worker
  /-- Whether `installShutdownHandlers` has run. -/
  handlers : Bool
  /-- `process.connected`. -/
  connected : Bool
  /-- How it ended, if it has. -/
  ended : Option Ending

/-- A process that has just been forked. -/
def Process.forked (clusterLeader : JsString) : Process where
  clusterLeader := clusterLeader
  app := none
  handlers := false
  connected := true
  ended := none

/-- What the processes are configured with: they inherit the primary's environment. -/
structure ServiceConfig where
  /-- What `startPrimary` reads. -/
  primary : StartPrimaryConfig
  /-- `cpus().length`. -/
  cpuCount : ℕ
  /-- `scheduler.enabled`. -/
  schedulerEnabled : Bool
  /-- `scheduler.timezone`. -/
  timezone : Option JsString
  /-- The jobs of the service. -/
  jobs : List ScheduledJob
  /-- What the cron library says of the next run of a job. -/
  nextRun : ScheduledJob → JsValue

namespace ServiceConfig

variable (cfg : ServiceConfig)

/-- What the scheduler of a process reads. -/
def scheduler (clusterLeader : JsString) : SchedulerConfig where
  enabled := cfg.schedulerEnabled
  clusterEnabled := true
  isLeader := ((envBool (some clusterLeader)).parse false).getD false
  timezone := cfg.timezone

/-- The jobs a process registers. -/
def registered (clusterLeader : JsString) : List JsString :=
  (onApplicationBootstrap (cfg.scheduler clusterLeader) cfg.nextRun cfg.jobs).1.map ScheduledJob.name

/-- What the application of a process is configured with. -/
def worker (clusterLeader : JsString) : Lifecycle.WorkerConfig where
  registered := cfg.registered clusterLeader
  drainDelayMs := cfg.primary.drainDelayMs
  forceAfterMs := cfg.primary.forceAfterMs
  jobDrainMs := cfg.primary.jobDrainMs

end ServiceConfig

/-! ### The service -/

/-- The worker that an action forks, with its `CLUSTER_LEADER`. -/
def Action.fork? : Action → Option (ℕ × JsString)
  | .fork id clusterLeader => some (id, clusterLeader)
  | _ => none

/-- The workers forked so far, with their `CLUSTER_LEADER`. -/
def Primary.forks (p : Primary) : List (ℕ × JsString) := p.actions.filterMap Action.fork?

/-- The primary and its processes. -/
structure Service where
  /-- The primary. -/
  primary : Primary
  /-- The process of each worker's id. -/
  process : ℕ → Option Process

namespace Service

/-- What may happen. -/
inductive Happening where
  /-- The primary handles an event. -/
  | primary (i : Input)
  /-- The application of a process has booted: its jobs are registered, and its server listens. -/
  | boots (id : ℕ)
  /-- `installShutdownHandlers`. -/
  | installs (id : ℕ)
  /-- A signal arrives at a process. -/
  | receives (id : ℕ) (s : Signal)
  /-- Something else happens to its application. -/
  | works (id : ℕ) (e : Lifecycle.Worker.Happening)
  /-- `releaseWorkerChannel`. -/
  | releases (id : ℕ)
  /-- A process ends, as there is nothing left for it to do. -/
  | ends (id : ℕ)
  /-- A process crashes. -/
  | crashes (id : ℕ)

/-- A process that has not ended. -/
def Alive (s : Service) (id : ℕ) (q : Process) : Prop := s.process id = some q ∧ q.ended = none

/-- A process is forked. -/
def launch (process : ℕ → Option Process) (forked : ℕ × JsString) : ℕ → Option Process :=
  Function.update process forked.1 (some (.forked forked.2))

/-- A process in another state. -/
def set (s : Service) (id : ℕ) (f : Process → Process) : Service :=
  { s with process := Function.update s.process id ((s.process id).map f) }

variable (cfg : ServiceConfig)

/-- A signal at a process: it is handled, or ends it. -/
def receive (signal : Signal) (q : Process) : Process :=
  if signal = .SIGKILL ∨ q.handlers = false then { q with ended := some (.signal signal) }
  else { q with app := q.app.map fun w => w.step (cfg.worker q.clusterLeader) (.signal signal.name) }

/-- When it may. -/
def Enabled (s : Service) : Happening → Prop
  | .primary i =>
    s.primary.finished = false ∧ Admissible s.primary i ∧
      ∀ e, i = .exit e → ∃ q, s.process e.worker.id = some q ∧ q.ended.isSome = true
  | .boots id => ∃ q, s.Alive id q ∧ q.app = none
  | .installs id => ∃ q w, s.Alive id q ∧ q.app = some w
  | .receives id signal => ∃ q, s.Alive id q ∧ (signal = .SIGKILL → (id, signal) ∈ s.primary.sent)
  | .works id e => ∃ q w, s.Alive id q ∧ q.app = some w ∧ Lifecycle.Worker.Enabled (cfg.worker q.clusterLeader) w e ∧
      ∀ name, e ≠ .signal name
  | .releases id => ∃ q w, s.Alive id q ∧ q.app = some w ∧ w.ran = true
  | .ends id => ∃ q, s.Alive id q ∧ q.connected = false
  | .crashes id => ∃ q, s.Alive id q

/-- What comes of it. -/
def next (s : Service) : Happening → Service
  | .primary i =>
    let p := handle cfg.primary cfg.cpuCount s.primary i
    ⟨p, (p.forks.drop s.primary.forks.length).foldl launch s.process⟩
  | .boots id => s.set id fun q => { q with app := some (.started 0) }
  | .installs id => s.set id fun q => { q with handlers := true }
  | .receives id signal => s.set id (receive cfg signal)
  | .works id e => s.set id fun q => { q with app := q.app.map fun w => w.step (cfg.worker q.clusterLeader) e }
  | .releases id => s.set id fun q => { q with connected := false }
  | .ends id => s.set id fun q => { q with ended := some .idle }
  | .crashes id => s.set id fun q => { q with ended := some .crash }

/-- The service has started: the primary has forked its first workers. -/
def start (forked : List Forked) : Service :=
  let p := boot cfg.primary cfg.cpuCount forked
  ⟨p, p.forks.foldl launch fun _ => none⟩

end Service

/-- **The service in cluster mode.** -/
def service (cfg : ServiceConfig) : Machine Service Service.Happening where
  Initial s := ∃ forked, BootForks cfg.primary cfg.cpuCount forked ∧ s = .start cfg forked
  Enabled := Service.Enabled cfg
  next := Service.next cfg

/-! ### What the primary forks -/

section Forks

variable {cfg : StartPrimaryConfig} {cpuCount : ℕ} (p : Primary)

@[simp] theorem forks_log (level : Level) (message : JsString) (fields : List (String × JsValue)) :
    (p.log level message fields).forks = p.forks := by
  simp [Primary.forks, Primary.log, Primary.act, Action.fork?]

@[simp] theorem forks_exit (code : ℤ) : (p.act (.exit code)).forks = p.forks := by
  simp [Primary.forks, Primary.act, Action.fork?]

@[simp] theorem forks_killAll (signal : Signal) : (killAll p signal).forks = p.forks := by
  simp [Primary.forks, killAll, Action.fork?]

@[simp] theorem forks_forkWorker (forked : Forked) (isLeader : Bool) :
    (forkWorker p forked isLeader).forks = p.forks ++ [(forked.id, clusterLeader isLeader)] := by
  rw [forkWorker, forks_log]
  simp [Primary.forks, Primary.act, Action.fork?]

@[simp] theorem forks_settle : (settle cfg p).forks = p.forks := by
  unfold settle finishShutdown
  split
  · split
    · rfl
    · rw [forks_exit]
      split
      · exact ((forks_log _ _ _ _).trans (forks_killAll _ _)).trans (forks_log _ _ _ _)
      · exact forks_log _ _ _ _
  · rfl

@[simp] theorem forks_removeWorker (e : Exit) : (removeWorker p e).forks = p.forks := by
  have hdelete : (deleteWorker p e).forks = p.forks := forks_log _ _ _ _
  unfold removeWorker notify
  split
  · split <;> exact hdelete
  · exact hdelete

@[simp] theorem forks_loseLeader (wasLeader : Bool) (id : ℕ) : (loseLeader p wasLeader id).forks = p.forks := by
  unfold loseLeader
  split
  · exact forks_log _ _ _ _
  · rfl

@[simp] theorem forks_elected (e : Exit) (wasLeader : Bool) :
    (elected cfg cpuCount e wasLeader p).forks = p.forks := by
  unfold elected
  split <;> simp

@[simp] theorem forks_shutdown (signal : Signal) : (shutdown p signal).forks = p.forks := by
  have hkilled (q : Primary) : (race (killAll q signal)).forks = q.forks := by
    rw [← forks_killAll q signal]
    unfold race
    split <;> rfl
  unfold shutdown
  split
  · rfl
  · rw [hkilled, forks_log]
    rfl

/-- The worker that the handler of an event forks, if it forks one. -/
def replacement (cfg : StartPrimaryConfig) (p : Primary) : Input → Option (ℕ × JsString)
  | .exit e =>
    if p.shuttingDown = false ∧ cfg.respawn = true ∧ p.crew.full cfg e.now₁ = false then
      some (e.fresh.id, clusterLeader (p.leaderId == some e.worker.id))
    else none
  | _ => none

theorem forks_onExit (e : Exit) :
    (onExit cfg cpuCount p e).forks = p.forks ++ (replacement cfg p (.exit e)).toList := by
  have hcrew := crew_removeWorker p e
  have hdown : (removeWorker p e).shuttingDown = p.shuttingDown := congrArg Crew.down hcrew
  have hstamps : (removeWorker p e).respawnTimestamps = p.respawnTimestamps := congrArg Crew.stamps hcrew
  unfold onExit replacement
  simp only [hdown]
  by_cases hd : p.shuttingDown = true
  · simp [hd]
  · cases hresp : cfg.respawn with
    | false => simp [hd]
    | true =>
      have hfull : p.crew.full cfg e.now₁ =
        decide (cfg.respawnMaxPerMinute ≤ (inWindow p.respawnTimestamps e.now₁).length) := rfl
      simp only [hd, Bool.not_true, Bool.false_eq_true, if_false, respawn, hstamps, hfull, true_and]
      split
      · next h =>
        rw [forks_loseLeader, forks_log, if_neg (by simp [h]), Option.toList_none, List.append_nil]
        exact forks_removeWorker p e
      · next h =>
        rw [forks_elected, forks_forkWorker, if_pos (by simpa using h)]
        exact congrArg (· ++ _) (forks_removeWorker p e)

theorem forks_handle (i : Input) :
    (handle cfg cpuCount p i).forks = p.forks ++ (replacement cfg p i).toList := by
  cases i with
  | exit e => exact (forks_settle _).trans (forks_onExit p e)
  | signal s => exact ((forks_settle _).trans (forks_shutdown p s)).trans (List.append_nil _).symm
  | timer => exact (forks_settle _).trans (List.append_nil _).symm

theorem crew_forked : p.crew.forked = p.forks.map Prod.fst := by
  rw [Primary.forks, List.map_filterMap]
  show p.actions.filterMap _ = _
  congr 1
  funext a
  cases a <;> rfl

end Forks

/-! ### What a handler does to the workers and the shutdown -/

/-- Who has not exited stays. -/
theorem Crew.Step.stays {cfg : StartPrimaryConfig} {c c' : Crew} {i : Input} (hs : Crew.Step cfg c i c') {w : Worker}
    (hw : w ∈ c.live) (hne : ∀ e, i = .exit e → w.id ≠ e.worker.id) : w ∈ c'.live := by
  have hkept {e : Exit} (hi : i = .exit e) : w ∈ c.without e.worker.id :=
    List.mem_filter.mpr ⟨hw, bne_iff_ne.mpr (hne e hi)⟩
  cases hs with
  | gone | unreplaced | refused => exact hkept rfl
  | replaced => exact List.mem_append_left _ (hkept rfl)
  | signal | timer => exact hw

/-- A replacement is live. -/
theorem Crew.Step.hires {cfg : StartPrimaryConfig} {c c' : Crew} {e : Exit} (hs : Crew.Step cfg c (.exit e) c')
    (hd : c.down = false) (hr : cfg.respawn = true) (hf : c.full cfg e.now₁ = false) :
    ⟨e.fresh.id, e.fresh.pid, c.leader == some e.worker.id⟩ ∈ c'.live := by
  cases hs with
  | gone hd' => rw [hd] at hd'; cases hd'
  | unreplaced _ hr' => rw [hr] at hr'; cases hr'
  | refused _ _ hf' => rw [hf] at hf'; cases hf'
  | replaced => exact List.mem_append_right _ (List.mem_singleton_self _)

/-- What was done stays done. -/
theorem Farewell.Step.keeps {f f' : Farewell} {i : Input} (hs : Farewell.Step f i f') :
    ∀ a ∈ f.fates, a ∈ f'.fates := by
  intro a ha
  cases hs with
  | before | deaf | gone | late => exact ha
  | begin | alone | drained | timeout => exact List.mem_append_left _ ha

/-- Who is left at the end is sent `SIGKILL`. -/
theorem Farewell.Step.sweeps {f f' : Farewell} {i : Input} (hs : Farewell.Step f i f') (h : f.finished = false)
    (h' : f'.finished = true) : ∀ id ∈ f'.live, .kill id .SIGKILL ∈ f'.fates := by
  intro id hid
  cases hs with
  | before | begin | deaf | gone => exact absurd (h.symm.trans h') Bool.false_ne_true
  | late hf => exact absurd (h.symm.trans hf) Bool.false_ne_true
  | alone _ hnobody =>
    have hid' : id ∈ f.live := hid
    rw [hnobody] at hid'
    exact absurd hid' List.not_mem_nil
  | drained => exact absurd hid List.not_mem_nil
  | timeout =>
    exact List.mem_append_right _ (List.mem_append_left _ (List.mem_map.mpr ⟨id, hid, rfl⟩))

/-- `SIGKILL` is sent only when the wait is over. -/
theorem Farewell.Step.unforced {f f' : Farewell} {i : Input} (hs : Farewell.Step f i f') (hc : f.Coherent)
    (hi : i ≠ .signal .SIGKILL) (h : f.outcome ≠ some .timeout → ∀ id, .kill id .SIGKILL ∉ f.fates)
    (h' : f'.outcome ≠ some .timeout) : ∀ id, .kill id .SIGKILL ∉ f'.fates := by
  intro id hkill
  cases hs with
  | before | deaf | gone | late => exact h h' id hkill
  | @begin s =>
    rcases List.mem_append.mp hkill with hkill | hkill
    · exact h h' id hkill
    · obtain ⟨_, -, heq⟩ := List.mem_map.mp hkill
      obtain ⟨-, rfl⟩ := Action.kill.inj heq
      exact hi rfl
  | alone hb =>
    rcases List.mem_append.mp hkill with hkill | hkill
    · rw [show f.fates = [] from (hc.calm hb).2.2.2] at hkill
      exact absurd hkill List.not_mem_nil
    · simp at hkill
  | drained _ hf =>
    rcases List.mem_append.mp hkill with hkill | hkill
    · refine h ?_ id hkill
      have hundecided : f.outcome.isSome = false := hc.settled.symm.trans hf
      cases houtcome : f.outcome with
      | none => nofun
      | some outcome => rw [houtcome] at hundecided; cases hundecided
    · simp at hkill
  | timeout => exact h' rfl

/-! ### The invariant -/

namespace Service

variable {cfg : ServiceConfig} {s : Service}

/-- What holds of one process. -/
structure Lives (cfg : ServiceConfig) (q : Process) : Prop where
  /-- Its application is in order. -/
  app : ∀ w, q.app = some w → Lifecycle.Inv (cfg.worker q.clusterLeader) w ∧ Lifecycle.Closing w
  /-- Its channel is closed after its shutdown. -/
  released : q.connected = false → ∃ w, q.app = some w ∧ w.ran = true
  /-- It ends by itself after that. -/
  idle : q.ended = some .idle → q.connected = false
  /-- A signal that ends it is `SIGKILL`, or finds it without handlers. -/
  signal : ∀ signal, q.ended = some (.signal signal) → signal = .SIGKILL ∨ q.handlers = false

/-- What holds of the primary and its processes. -/
structure Linked (cfg : ServiceConfig) (s : Service) : Prop where
  /-- The primary's workers. -/
  sound : s.primary.crew.Sound (resolveWorkerCount cfg.primary.workers cfg.cpuCount)
  /-- The primary's shutdown. -/
  coherent : s.primary.farewell.Coherent
  /-- A process was forked. -/
  forked : ∀ id q, s.process id = some q → id ∈ s.primary.crew.forked
  /-- A worker that was forked has a process. -/
  launched : ∀ id ∈ s.primary.crew.forked, (s.process id).isSome = true
  /-- A process that has not ended is a live worker's. -/
  running : ∀ id q, s.Alive id q → ∃ w ∈ s.primary.crew.live, w.id = id ∧ q.clusterLeader = clusterLeader w.leader
  /-- Every process. -/
  lives : ∀ id q, s.process id = some q → Lives cfg q
  /-- Once the primary has shut down, what goes on has been sent `SIGKILL`. -/
  swept : s.primary.finished = true → ∀ id q, s.Alive id q → (id, .SIGKILL) ∈ s.primary.sent
  /-- What `SIGKILL` has ended was sent it. -/
  killed : ∀ id q, s.process id = some q → q.ended = some (.signal .SIGKILL) → (id, .SIGKILL) ∈ s.primary.sent

theorem lives_forked (cfg : ServiceConfig) (clusterLeader : JsString) : Lives cfg (.forked clusterLeader) :=
  ⟨fun _ hw => (by cases hw), nofun, nofun, nofun⟩

/-! #### A process goes on -/

theorem process_set (id i : ℕ) (f : Process → Process) :
    (s.set id f).process i = if i = id then (s.process id).map f else s.process i :=
  Function.update_apply _ _ _ _

/-- **A process goes on**: what is said of it is kept, and it does not come back to life. -/
theorem Linked.set (h : Linked cfg s) {id : ℕ} {q : Process} {f : Process → Process} (hq : s.process id = some q)
    (hlives : Lives cfg q → Lives cfg (f q)) (hleader : (f q).clusterLeader = q.clusterLeader)
    (hended : (f q).ended = none → q.ended = none)
    (hkilled : (f q).ended = some (.signal .SIGKILL) →
      q.ended = some (.signal .SIGKILL) ∨ (id, .SIGKILL) ∈ s.primary.sent) :
    Linked cfg (s.set id f) := by
  have hback {i : ℕ} {r : Process} (hr : (s.set id f).process i = some r) :
      (i = id ∧ r = f q) ∨ (i ≠ id ∧ s.process i = some r) := by
    rw [process_set] at hr
    by_cases hi : i = id
    · rw [if_pos hi, hq] at hr
      exact .inl ⟨hi, (Option.some.inj hr).symm⟩
    · exact .inr ⟨hi, by rwa [if_neg hi] at hr⟩
  have halive {i : ℕ} {r : Process} (hr : (s.set id f).Alive i r) :
      ∃ r₀, s.Alive i r₀ ∧ r.clusterLeader = r₀.clusterLeader := by
    rcases hback hr.1 with ⟨rfl, rfl⟩ | ⟨-, hold⟩
    · exact ⟨q, ⟨hq, hended hr.2⟩, hleader⟩
    · exact ⟨r, ⟨hold, hr.2⟩, rfl⟩
  exact {
    sound := h.sound
    coherent := h.coherent
    forked := by
      intro i r hr
      rcases hback hr with ⟨rfl, -⟩ | ⟨-, hold⟩
      · exact h.forked _ q hq
      · exact h.forked i r hold
    launched := by
      intro i hi
      rw [process_set]
      split
      · rw [Option.isSome_map, hq]
        rfl
      · exact h.launched i hi
    running := by
      intro i r hr
      obtain ⟨r₀, hr₀, hsame⟩ := halive hr
      rw [hsame]
      exact h.running i r₀ hr₀
    lives := by
      intro i r hr
      rcases hback hr with ⟨-, rfl⟩ | ⟨-, hold⟩
      · exact hlives (h.lives id q hq)
      · exact h.lives i r hold
    swept := by
      intro hf i r hr
      obtain ⟨r₀, hr₀, -⟩ := halive hr
      exact h.swept hf i r₀ hr₀
    killed := by
      intro i r hr hk
      rcases hback hr with ⟨rfl, rfl⟩ | ⟨-, hold⟩
      · rcases hkilled hk with hk | hk
        · exact h.killed _ q hq hk
        · exact hk
      · exact h.killed i r hold hk }

/-- Something happens to the application of a process, if it has one. -/
theorem Lives.work {q : Process} (h : Lives cfg q) {e : Lifecycle.Worker.Happening}
    (he : ∀ w, q.app = some w → Lifecycle.Worker.Enabled (cfg.worker q.clusterLeader) w e) :
    Lives cfg { q with app := q.app.map fun w => w.step (cfg.worker q.clusterLeader) e } where
  app w' hw' := by
    obtain ⟨w, hw, rfl⟩ := Option.map_eq_some_iff.mp hw'
    obtain ⟨hinv, hclosing⟩ := h.app w hw
    exact ⟨hinv.step e (he w hw), hclosing.step hinv e (he w hw)⟩
  released hc := by
    obtain ⟨w, hw, hran⟩ := h.released hc
    exact ⟨_, by rw [hw]; rfl, Lifecycle.ran_step hran e (he w hw)⟩
  idle := h.idle
  signal := h.signal

/-- A signal arrives at a process. -/
theorem Lives.receive {q : Process} (h : Lives cfg q) (signal : Signal) : Lives cfg (receive cfg signal q) := by
  unfold Service.receive
  split
  · next hdeaf =>
    refine ⟨h.app, h.released, nofun, fun s' hs' => ?_⟩
    obtain rfl : signal = s' := by simpa using hs'
    exact hdeaf
  · exact h.work fun _ _ => trivial

theorem ended_receive {q : Process} {signal : Signal} {ending : Ending} (hq : q.ended = none)
    (h : (receive cfg signal q).ended = some ending) : ending = .signal signal := by
  unfold Service.receive at h
  split at h
  · exact (Option.some.inj h).symm
  · rw [hq] at h
    cases h

/-- **Whatever happens to a process keeps the invariant.** -/
theorem Linked.process (h : Linked cfg s) {e : Happening} (he : s.Enabled cfg e) (hp : ∀ i, e ≠ .primary i) :
    Linked cfg (s.next cfg e) := by
  cases e with
  | primary i => exact absurd rfl (hp i)
  | boots id =>
    obtain ⟨q, hq, happ⟩ := he
    refine h.set hq.1 (fun hl => ⟨fun w hw => ?_, fun hc => ?_, hl.idle, hl.signal⟩) rfl (fun hn => hn) .inl
    · obtain rfl := Option.some.inj hw
      exact ⟨.started _ 0, Lifecycle.closing_started 0⟩
    · obtain ⟨w, hw, -⟩ := hl.released hc
      rw [happ] at hw
      cases hw
  | installs id =>
    obtain ⟨q, w, hq, -⟩ := he
    refine h.set hq.1 (fun hl => ⟨hl.app, hl.released, hl.idle, fun signal hs => ?_⟩) rfl (fun hn => hn) .inl
    have hnone : some (Ending.signal signal) = none := hs.symm.trans hq.2
    cases hnone
  | receives id signal =>
    obtain ⟨q, hq, hsent⟩ := he
    refine h.set hq.1 (fun hl => hl.receive signal) ?_ ?_ fun hk => .inr ?_
    · unfold receive
      split <;> rfl
    · intro _
      exact hq.2
    · obtain rfl : Signal.SIGKILL = signal := by simpa using ended_receive hq.2 hk
      exact hsent rfl
  | works id e =>
    obtain ⟨q, w, hq, hw, he, -⟩ := he
    refine h.set hq.1 (fun hl => hl.work fun w' hw' => ?_) rfl (fun hn => hn) .inl
    obtain rfl : w = w' := Option.some.inj (hw.symm.trans hw')
    exact he
  | releases id =>
    obtain ⟨q, w, hq, hw, hran⟩ := he
    exact h.set hq.1 (fun hl => ⟨hl.app, fun _ => ⟨w, hw, hran⟩, fun _ => rfl, hl.signal⟩) rfl (fun hn => hn) .inl
  | ends id =>
    obtain ⟨q, hq, hc⟩ := he
    exact h.set hq.1 (fun hl => ⟨hl.app, hl.released, fun _ => hc, nofun⟩) rfl nofun nofun
  | crashes id =>
    obtain ⟨q, hq⟩ := he
    exact h.set hq.1 (fun hl => ⟨hl.app, hl.released, nofun, nofun⟩) rfl nofun nofun

/-! #### The primary handles an event -/

/-- **The primary handles an event** after which it forks at most one worker: the invariant is kept if nobody whose
process goes on is forgotten, and who is left at the end is sent `SIGKILL`. -/
theorem Linked.handled (h : Linked cfg s) {p : Primary} {new : Option (ℕ × JsString)}
    (hsound : p.crew.Sound (resolveWorkerCount cfg.primary.workers cfg.cpuCount)) (hcoherent : p.farewell.Coherent)
    (hforked : p.crew.forked = s.primary.crew.forked ++ new.toList.map Prod.fst)
    (hstay : ∀ w ∈ s.primary.crew.live, ∀ q, s.Alive w.id q → w ∈ p.crew.live)
    (hnew : ∀ f ∈ new, ∃ w ∈ p.crew.live, w.id = f.1 ∧ f.2 = clusterLeader w.leader)
    (hsent : ∀ x ∈ s.primary.sent, x ∈ p.sent)
    (hswept : p.finished = true → ∀ id ∈ p.crew.live.map Worker.id, (id, .SIGKILL) ∈ p.sent) :
    Linked cfg ⟨p, new.toList.foldl launch s.process⟩ := by
  have hback {i : ℕ} {r : Process} (hr : new.toList.foldl launch s.process i = some r) :
      (∃ f ∈ new, i = f.1 ∧ r = .forked f.2) ∨ s.process i = some r := by
    cases new with
    | none => exact .inr hr
    | some f =>
      simp only [Option.toList_some, List.foldl_cons, List.foldl_nil, launch, Function.update_apply] at hr
      split at hr
      · next hi => exact .inl ⟨f, rfl, hi, (Option.some.inj hr).symm⟩
      · exact .inr hr
  have hrunning {i : ℕ} {r : Process} (hr : Alive ⟨p, new.toList.foldl launch s.process⟩ i r) :
      ∃ w ∈ p.crew.live, w.id = i ∧ r.clusterLeader = clusterLeader w.leader := by
    rcases hback hr.1 with ⟨f, hf, rfl, rfl⟩ | hold
    · exact hnew f hf
    · obtain ⟨w, hw, rfl, hleader⟩ := h.running i r ⟨hold, hr.2⟩
      exact ⟨w, hstay w hw r ⟨hold, hr.2⟩, rfl, hleader⟩
  exact {
    sound := hsound
    coherent := hcoherent
    forked := by
      intro i r hr
      rw [hforked]
      rcases hback hr with ⟨f, hf, rfl, -⟩ | hold
      · exact List.mem_append_right _ (List.mem_map_of_mem (Option.mem_toList.mpr hf))
      · exact List.mem_append_left _ (h.forked i r hold)
    launched := by
      intro i hi
      rw [hforked] at hi
      cases new with
      | none => exact h.launched i (by simpa using hi)
      | some f =>
        simp only [Option.toList_some, List.foldl_cons, List.foldl_nil, launch, Function.update_apply]
        split
        · rfl
        · next hne => exact h.launched i (by simpa [hne] using hi)
    running := fun i r hr => hrunning hr
    lives := by
      intro i r hr
      rcases hback hr with ⟨f, -, -, rfl⟩ | hold
      · exact lives_forked cfg f.2
      · exact h.lives i r hold
    swept := by
      intro hf i r hr
      obtain ⟨w, hw, rfl, -⟩ := hrunning hr
      exact hswept hf w.id (List.mem_map_of_mem hw)
    killed := by
      intro i r hr hk
      rcases hback hr with ⟨f, -, -, rfl⟩ | hold
      · cases hk
      · exact hsent _ (h.killed i r hold hk) }

/-- **Every handler of the primary keeps the invariant.** -/
theorem Linked.primary (h : Linked cfg s) {i : Input} (he : s.Enabled cfg (.primary i)) :
    Linked cfg (s.next cfg (.primary i)) := by
  obtain ⟨hgoing, hadmissible, hended⟩ := he
  have hcrew := handle_crew cfg.primary cfg.cpuCount s.primary i
  have hfarewell := handle_farewell cfg.primary cfg.cpuCount h.coherent hadmissible
  have hforks := @forks_handle cfg.primary cfg.cpuCount s.primary i
  have hnext : s.next cfg (.primary i) =
      ⟨handle cfg.primary cfg.cpuCount s.primary i,
        (replacement cfg.primary s.primary i).toList.foldl launch s.process⟩ := by
    simp only [next, hforks, List.drop_left]
  rw [hnext]
  refine h.handled (hadmissible.sound_handle h.sound _ _) (h.coherent.step hfarewell) ?_ ?_ ?_ ?_ ?_
  · rw [crew_forked, crew_forked, hforks, List.map_append]
  · intro w hw q hq
    refine hcrew.stays hw fun e hi hid => ?_
    obtain ⟨q', hq', hdead⟩ := hended e hi
    obtain rfl : q = q' := Option.some.inj ((hid ▸ hq.1).symm.trans hq')
    rw [hq.2] at hdead
    cases hdead
  · intro f hf
    cases i with
    | signal | timer => cases hf
    | exit e =>
      obtain ⟨⟨hd, hr, hfull⟩, hsome⟩ := Option.ite_none_right_eq_some.mp hf
      obtain rfl := Option.some.inj hsome
      exact ⟨_, hcrew.hires hd hr hfull, rfl, rfl⟩
  · rintro ⟨id, signal⟩ hx
    exact mem_sent.mpr (hfarewell.keeps _ (mem_sent.mp hx))
  · intro hfinished id hid
    exact mem_sent.mpr (hfarewell.sweeps hgoing hfinished id hid)

/-! #### The start -/

/-- What the loop that forks the first workers forks. -/
def firstForks (index : ℕ) : List Forked → List (ℕ × JsString)
  | [] => []
  | forked :: rest => (forked.id, clusterLeader (index == 0)) :: firstForks (index + 1) rest

theorem forks_forkAll (forked : List Forked) (index : ℕ) (p : Primary) :
    (forkAll p index forked).forks = p.forks ++ firstForks index forked := by
  induction forked generalizing index p with
  | nil => exact (List.append_nil _).symm
  | cons f rest ih =>
    rw [forkAll, ih, forks_forkWorker, List.append_assoc]
    rfl

theorem forks_runClusterBootRails (sources : List PoolCapacity) (workerCount : ℕ) (p : Primary) :
    (runClusterBootRails sources workerCount p).forks = p.forks :=
  runClusterBootRails_eq forks_log sources workerCount p

/-- **One of the first workers is forked.** -/
theorem Linked.fork {p : Primary} {process : ℕ → Option Process} (h : Linked cfg ⟨p, process⟩) {f : Forked}
    {isLeader : Bool} (hd : p.crew.down = false)
    (hsound : (p.crew.fork f isLeader).Sound (resolveWorkerCount cfg.primary.workers cfg.cpuCount)) :
    Linked cfg ⟨forkWorker p f isLeader, launch process (f.id, clusterLeader isLeader)⟩ := by
  have hcrew := crew_forkWorker p f isLeader
  have hfarewell := farewell_forkWorker p f isLeader
  have hbegun : p.farewell.begun = false := hd
  have hgoing : p.finished = false := (h.coherent.calm hbegun).2.2.1
  refine @Linked.handled cfg _ h _ (some (f.id, clusterLeader isLeader)) (hcrew ▸ hsound) ?_ ?_ ?_ ?_ ?_ ?_
  · rw [hfarewell]
    exact ⟨h.coherent.settled, h.coherent.calm, fun hb => absurd (hbegun.symm.trans hb) Bool.false_ne_true⟩
  · rw [hcrew]
    rfl
  · intro w hw q hq
    rw [hcrew]
    exact List.mem_append_left _ hw
  · intro g hg
    obtain rfl := Option.some.inj hg
    refine ⟨⟨f.id, f.pid, isLeader⟩, ?_, rfl, rfl⟩
    rw [hcrew]
    exact List.mem_append_right _ (List.mem_singleton_self _)
  · rintro ⟨id, signal⟩ hx
    rw [mem_sent, hfarewell]
    exact mem_sent.mp hx
  · intro hf
    exact absurd (hgoing.symm.trans hf) Bool.false_ne_true

/-- **The first workers are forked**, one after the other. -/
theorem Linked.forkAll {forked : List Forked} {index : ℕ} {p : Primary} {process : ℕ → Option Process}
    (h : Linked cfg ⟨p, process⟩) (hd : p.crew.down = false) (hnew : ∀ f ∈ forked, f.id ∉ p.crew.forked)
    (hnodup : (forked.map Forked.id).Nodup)
    (hlen : p.crew.live.length + forked.length ≤ resolveWorkerCount cfg.primary.workers cfg.cpuCount)
    (hl : index = 0 → p.crew.leader = none) :
    Linked cfg ⟨forkAll p index forked, (firstForks index forked).foldl launch process⟩ := by
  induction forked generalizing index p process with
  | nil => exact h
  | cons f rest ih =>
    obtain ⟨hf, hrest⟩ := List.nodup_cons.mp hnodup
    have hcrew := crew_forkWorker p f (index == 0)
    have hlive : (forkWorker p f (index == 0)).crew.live.length = p.crew.live.length + 1 := by
      rw [hcrew]
      exact List.length_append
    rw [List.length_cons] at hlen
    have hroom : p.crew.live.length < resolveWorkerCount cfg.primary.workers cfg.cpuCount := by omega
    have hsound := h.sound.fork (hnew f List.mem_cons_self) hroom hd fun h0 => hl (eq_of_beq h0)
    refine ih (h.fork hd hsound) (by rw [hcrew]; exact hd) ?_ hrest (by omega) fun h0 => absurd h0 (Nat.succ_ne_zero _)
    intro g hg hmem
    rw [hcrew] at hmem
    rcases List.mem_append.mp hmem with hmem | hmem
    · exact hnew g (List.mem_cons_of_mem _ hg) hmem
    · exact hf (List.mem_map.mpr ⟨g, hg, List.mem_singleton.mp hmem⟩)

/-- The invariant is about the workers and the shutdown of the primary only. -/
theorem Linked.congr {p p' : Primary} {process : ℕ → Option Process} (h : Linked cfg ⟨p, process⟩)
    (hcrew : p'.crew = p.crew) (hfarewell : p'.farewell = p.farewell) : Linked cfg ⟨p', process⟩ := by
  have hsent : p'.sent = p.sent := by rw [Primary.sent_eq, Primary.sent_eq, hfarewell]
  have hfinished : p'.finished = p.finished := congrArg Farewell.finished hfarewell
  exact {
    sound := hcrew ▸ h.sound
    coherent := hfarewell ▸ h.coherent
    forked := hcrew ▸ h.forked
    launched := hcrew ▸ h.launched
    running := hcrew ▸ h.running
    lives := h.lives
    swept := hsent ▸ hfinished ▸ h.swept
    killed := hsent ▸ h.killed }

/-- Before anything is forked. -/
theorem linked_declared : Linked cfg ⟨.declared, fun _ => none⟩ where
  sound := Crew.sound_empty _
  coherent := ⟨rfl, fun _ => ⟨rfl, rfl, rfl, rfl⟩, nofun⟩
  forked _ _ hq := by cases hq
  launched id hid := absurd (show id ∈ ([] : List ℕ) from hid) List.not_mem_nil
  running _ _ hq := by cases hq.1
  lives _ _ hq := by cases hq
  swept hf := absurd hf Bool.false_ne_true
  killed _ _ hq := by cases hq

theorem linked_start {forked : List Forked} (hb : BootForks cfg.primary cfg.cpuCount forked) :
    Linked cfg (.start cfg forked) := by
  let p := runClusterBootRails cfg.primary.sources (resolveWorkerCount cfg.primary.workers cfg.cpuCount) .declared
  have hcrew : p.crew = Crew.empty := crew_runClusterBootRails _ _ _
  have hlinked : Linked cfg ⟨p, fun _ => none⟩ :=
    linked_declared.congr hcrew (farewell_runClusterBootRails _ _ _)
  have hall : Linked cfg ⟨forkAll p 0 forked, (firstForks 0 forked).foldl launch fun _ => none⟩ :=
    hlinked.forkAll (by rw [hcrew]; rfl) (fun f _ => by rw [hcrew]; exact List.not_mem_nil) hb.nodup
      (by rw [hcrew, hb.length_eq]; exact (Nat.zero_add _).le) fun _ => by rw [hcrew]; rfl
  have hforks : (boot cfg.primary cfg.cpuCount forked).forks = firstForks 0 forked := by
    rw [boot, forks_log, forks_forkAll, forks_runClusterBootRails]
    rfl
  rw [start, hforks]
  exact hall.congr (crew_log _ _ _ _) (farewell_log _ _ _ _)

/-- **Whatever happens keeps the invariant.** -/
theorem Linked.step (h : Linked cfg s) {e : Happening} (he : s.Enabled cfg e) : Linked cfg (s.next cfg e) := by
  by_cases hp : ∃ i, e = .primary i
  · obtain ⟨i, rfl⟩ := hp
    exact h.primary he
  · exact h.process he fun i hi => hp ⟨i, hi⟩

/-- **The run lemma.** -/
theorem linked_run {es : List Happening} (h : (service cfg).Run es s) : Linked cfg s := by
  refine h.invariant (fun s hs => ?_) fun s e hl he => hl.step he
  obtain ⟨forked, hb, rfl⟩ := hs
  exact linked_start hb

/-! ### One scheduler -/

/-- Who is not the leader registers no jobs. -/
theorem registered_follower (cfg : ServiceConfig) : cfg.registered (clusterLeader false) = [] := by
  rw [ServiceConfig.registered, onApplicationBootstrap_not_leader rfl rfl]
  rfl

/-- A process that registers jobs is that of the leader. -/
theorem Linked.leads (h : Linked cfg s) {id : ℕ} {q : Process} (hq : s.Alive id q)
    (hregistered : cfg.registered q.clusterLeader ≠ []) : ∃ w ∈ s.primary.crew.leaders, w.id = id := by
  obtain ⟨w, hw, hid, hleader⟩ := h.running id q hq
  refine ⟨w, List.mem_filter.mpr ⟨hw, ?_⟩, hid⟩
  by_contra hfollower
  rw [hleader, show w.leader = false by simpa using hfollower] at hregistered
  exact hregistered (registered_follower cfg)

/-- A job that is running in a process was registered there. -/
theorem Linked.registers (h : Linked cfg s) {id : ℕ} {q : Process} (hq : s.Alive id q) {w : Lifecycle.Worker}
    (hw : q.app = some w) {job : JsString} (hjob : Lifecycle.inFlight w.history job = true) :
    cfg.registered q.clusterLeader ≠ [] := by
  have hinv := ((h.lives id q hq.1).app w hw).1.scheduled
  have hrunning := (hinv.flight job).mp hjob
  exact List.ne_nil_of_mem (hinv.known job (by rw [hrunning]; nofun))

/-- **One scheduler.** At every moment of every run, at most one of the processes that go on has registered jobs, and
before the shutdown that is the leader's; so jobs are in flight in one process at most, whatever crashes, is respawned
or shuts down when. -/
theorem one_scheduler {es : List Happening} (h : (service cfg).Run es s) :
    (∀ id id' q q', s.Alive id q → s.Alive id' q' → cfg.registered q.clusterLeader ≠ [] →
      cfg.registered q'.clusterLeader ≠ [] → id = id') ∧
    (∀ id q, s.Alive id q → cfg.registered q.clusterLeader ≠ [] → s.primary.shuttingDown = false →
      s.primary.leaderId = some id) ∧
    ∀ id id' q q' w w' job job', s.Alive id q → s.Alive id' q' → q.app = some w → q'.app = some w' →
      Lifecycle.inFlight w.history job = true → Lifecycle.inFlight w'.history job' = true → id = id' := by
  have hl := linked_run h
  have hone (id id' : ℕ) (q q' : Process) (hq : s.Alive id q) (hq' : s.Alive id' q')
      (hr : cfg.registered q.clusterLeader ≠ []) (hr' : cfg.registered q'.clusterLeader ≠ []) : id = id' := by
    obtain ⟨w, hw, rfl⟩ := hl.leads hq hr
    obtain ⟨w', hw', rfl⟩ := hl.leads hq' hr'
    have hsame : w = w' := by
      have hlength := hl.sound.one
      rcases hleaders : s.primary.crew.leaders with - | ⟨x, - | ⟨y, rest⟩⟩
      · rw [hleaders] at hw
        exact absurd hw List.not_mem_nil
      · rw [hleaders] at hw hw'
        rw [List.mem_singleton.mp hw, List.mem_singleton.mp hw']
      · simp [hleaders] at hlength
    rw [hsame]
  refine ⟨hone, fun id q hq hr hd => ?_, fun id id' q q' w w' job job' hq hq' hw hw' hjob hjob' => ?_⟩
  · obtain ⟨w, hw, rfl⟩ := hl.leads hq hr
    have helected := hl.sound.elected hd
    have hmem := List.mem_map_of_mem (f := Worker.id) hw
    rw [helected] at hmem
    exact Option.mem_toList.mp hmem
  · exact hone id id' q q' hq hq' (hl.registers hq hw hjob) (hl.registers hq' hw' hjob')

/-! ### The end of the service -/

/-- Unless the wait is over, nobody has been sent `SIGKILL`. -/
def Unforced (s : Service) : Prop := s.primary.outcome ≠ some .timeout → ∀ id, (id, .SIGKILL) ∉ s.primary.sent

/-- A process leaves the primary as it is. -/
theorem primary_next {e : Happening} (hp : ∀ i, e ≠ .primary i) : (s.next cfg e).primary = s.primary := by
  cases e with
  | primary i => exact absurd rfl (hp i)
  | _ => rfl

theorem Unforced.next (h : s.Unforced) (hl : Linked cfg s) {e : Happening} (he : s.Enabled cfg e) :
    (s.next cfg e).Unforced := by
  by_cases hp : ∃ i, e = .primary i
  · obtain ⟨i, rfl⟩ := hp
    obtain ⟨-, hadmissible, -⟩ := he
    have hstep := handle_farewell cfg.primary cfg.cpuCount hl.coherent hadmissible
    have hsignal : i ≠ .signal .SIGKILL := by
      rintro rfl
      cases hadmissible with
      | signal hne => exact hne rfl
    intro houtcome id hsent
    exact hstep.unforced hl.coherent hsignal (fun ho id hk => h ho id (mem_sent.mpr hk)) houtcome id (mem_sent.mp hsent)
  · have hprimary : (s.next cfg e).primary = s.primary := primary_next fun i hi => hp ⟨i, hi⟩
    intro houtcome
    rw [hprimary] at houtcome ⊢
    exact h houtcome

theorem unforced_start (forked : List Forked) : (start cfg forked).Unforced := by
  have hcoherent : (start cfg forked).primary.farewell.Coherent := boot_coherent forked
  have hcalm : (start cfg forked).primary.farewell.begun = false := by
    obtain ⟨live, hlive⟩ := farewell_forkAll forked 0
      (runClusterBootRails cfg.primary.sources (resolveWorkerCount cfg.primary.workers cfg.cpuCount) .declared)
    rw [start, boot, farewell_log, hlive, farewell_runClusterBootRails]
    rfl
  intro _ id hsent
  rw [mem_sent, (hcoherent.calm hcalm).2.2.2] at hsent
  exact absurd hsent List.not_mem_nil

/-- What has become of a process when the primary is gone. -/
def Parted (s : Service) (id : ℕ) (q : Process) : Prop :=
  match q.ended with
  | some .idle => ∃ w, q.app = some w ∧ w.appClosed = true ∧ .closeApp ∈ w.history ∧
      Throughout Lifecycle.Orderly w.history
  | some (.signal signal) => (id, .SIGKILL) ∈ s.primary.sent ∧ signal = .SIGKILL ∨ q.handlers = false
  | some .crash => True
  | none => (id, .SIGKILL) ∈ s.primary.sent

theorem Linked.parted (h : Linked cfg s) (hf : s.primary.finished = true) {id : ℕ} {q : Process}
    (hq : s.process id = some q) : s.Parted id q := by
  have hlives := h.lives id q hq
  unfold Parted
  split
  · next hidle =>
    obtain ⟨w, hw, hran⟩ := hlives.released (hlives.idle hidle)
    obtain ⟨hinv, hclosing⟩ := hlives.app w hw
    obtain ⟨happ, hcalled⟩ := hclosing.closed hran
    exact ⟨w, hw, happ, hcalled, hinv.throughout⟩
  · next signal hs =>
    refine (hlives.signal signal hs).imp_left fun hkill => ⟨h.killed id q hq ?_, hkill⟩
    rw [hs, hkill]
  · trivial
  · next hnone => exact h.swept hf id q ⟨hq, hnone⟩

/-- **Nobody is left behind.** When the primary has exited, every worker it has ever forked ended by itself after an
orderly shutdown, or crashed, or was ended by a signal before it had handlers, or was sent `SIGKILL`; and if the bounded
wait was not over, all of them have ended and nobody was sent `SIGKILL`. -/
theorem nobody_left_behind {es : List Happening} (h : (service cfg).Run es s) (hexit : s.primary.finished = true) :
    (∀ id ∈ s.primary.forkedIds, ∃ q, s.process id = some q ∧ s.Parted id q) ∧
      (s.primary.outcome ≠ some .timeout →
        ∀ id q, s.process id = some q → q.ended.isSome = true ∧ (id, .SIGKILL) ∉ s.primary.sent) := by
  have hl := linked_run h
  have hunforced : Linked cfg s ∧ s.Unforced := by
    refine h.invariant (P := fun s => Linked cfg s ∧ s.Unforced) (fun s hs => ?_) fun s e hs he => ?_
    · obtain ⟨forked, hb, rfl⟩ := hs
      exact ⟨linked_start hb, unforced_start forked⟩
    · exact ⟨hs.1.step he, hs.2.next hs.1 he⟩
  refine ⟨fun id hid => ?_, fun houtcome id q hq => ?_⟩
  · obtain ⟨q, hq⟩ := Option.isSome_iff_exists.mp (hl.launched id hid)
    exact ⟨q, hq, hl.parted hexit hq⟩
  · have hnot := hunforced.2 houtcome id
    refine ⟨?_, hnot⟩
    by_contra hgoing
    exact hnot (hl.swept hexit id q ⟨hq, by simpa using hgoing⟩)

/-! ### A service of two workers -/

/-- Two workers and one job. -/
def pair : ServiceConfig where
  primary := duo
  cpuCount := 2
  schedulerEnabled := true
  timezone := some "UTC"
  jobs := [⟨"sweep", "0 3 * * *"⟩]
  nextRun _ := .null

/-- The service of `pair` has started. -/
def pair₀ : Service := .start pair [⟨1, none⟩, ⟨2, none⟩]

/-- Both boot, and the leader crashes while its job is running; it is replaced, and the replacement boots. -/
def pairCrash : List Happening :=
  [.boots 1, .boots 2, .works 1 (.tick "sweep"), .crashes 1, .primary (.exit ⟨⟨1, none⟩, 1, none, 0, 0, ⟨3, none⟩⟩),
    .boots 3, .works 3 (.tick "sweep")]

theorem pairCrash_run : (service pair).Run pairCrash (pairCrash.foldl (service pair).next pair₀) :=
  Machine.Run.play ⟨_, ⟨rfl, by decide⟩, rfl⟩ ⟨⟨_, ⟨rfl, rfl⟩, rfl⟩, ⟨_, ⟨rfl, rfl⟩, rfl⟩,
    ⟨_, _, ⟨rfl, rfl⟩, rfl, ⟨List.mem_singleton_self _, rfl⟩, nofun⟩, ⟨_, rfl, rfl⟩,
    ⟨rfl, .exit (by decide) (by decide), fun e he => by cases he; exact ⟨_, rfl, rfl⟩⟩, ⟨_, ⟨rfl, rfl⟩, rfl⟩,
    ⟨_, _, ⟨rfl, rfl⟩, rfl, ⟨List.mem_singleton_self _, rfl⟩, nofun⟩, trivial⟩

theorem one_scheduler_pair : ∃ s q, (service pair).Run pairCrash s ∧ s.Alive 3 q ∧
    pair.registered q.clusterLeader = ["sweep"] ∧ s.primary.leaderId = some 3 ∧
      ∀ id q', s.Alive id q' → pair.registered q'.clusterLeader ≠ [] → id = 3 := by
  obtain ⟨hone, hleader, -⟩ := one_scheduler pairCrash_run
  refine ⟨_, _, pairCrash_run, ⟨rfl, rfl⟩, rfl, hleader 3 _ ⟨rfl, rfl⟩ (by decide) rfl, fun id q' hq hjobs => ?_⟩
  exact hone id 3 q' _ hq ⟨rfl, rfl⟩ hjobs (by decide)

/-- A signal finds one worker up and the other one still booting. -/
def pairEnd : List Happening :=
  [.boots 1, .installs 1, .primary (.signal .SIGTERM), .receives 2 .SIGTERM, .receives 1 .SIGTERM,
    .works 1 .delayTimer, .works 1 (.resume 5000 []), .works 1 .serverClosed, .works 1 (.resume 20 []),
    .works 1 .cronsStopped, .works 1 (.resume 0 []), .works 1 .appClosed, .works 1 (.resume 10 []), .releases 1,
    .ends 1, .primary (.exit ⟨⟨2, none⟩, 0, some "SIGTERM", 0, 0, ⟨3, none⟩⟩),
    .primary (.exit ⟨⟨1, none⟩, 0, none, 0, 0, ⟨3, none⟩⟩)]

theorem pairEnd_run : (service pair).Run pairEnd (pairEnd.foldl (service pair).next pair₀) :=
  Machine.Run.play ⟨_, ⟨rfl, by decide⟩, rfl⟩
    ⟨⟨_, ⟨rfl, rfl⟩, rfl⟩, ⟨_, _, ⟨rfl, rfl⟩, rfl⟩, ⟨rfl, .signal nofun, nofun⟩, ⟨_, ⟨rfl, rfl⟩, nofun⟩,
      ⟨_, ⟨rfl, rfl⟩, nofun⟩, ⟨_, _, ⟨rfl, rfl⟩, rfl, ⟨_, _, rfl⟩, nofun⟩,
      ⟨_, _, ⟨rfl, rfl⟩, rfl, ⟨_, rfl, rfl⟩, nofun⟩, ⟨_, _, ⟨rfl, rfl⟩, rfl, ⟨rfl, rfl, rfl⟩, nofun⟩,
      ⟨_, _, ⟨rfl, rfl⟩, rfl, ⟨_, rfl, rfl⟩, nofun⟩, ⟨_, _, ⟨rfl, rfl⟩, rfl, ⟨_, rfl⟩, nofun⟩,
      ⟨_, _, ⟨rfl, rfl⟩, rfl, ⟨_, rfl, rfl⟩, nofun⟩, ⟨_, _, ⟨rfl, rfl⟩, rfl, ⟨_, rfl⟩, nofun⟩,
      ⟨_, _, ⟨rfl, rfl⟩, rfl, ⟨_, rfl, rfl⟩, nofun⟩, ⟨_, _, ⟨rfl, rfl⟩, rfl, rfl⟩, ⟨_, ⟨rfl, rfl⟩, rfl⟩,
      ⟨rfl, .exit (by decide) (by decide), fun e he => by cases he; exact ⟨_, rfl, rfl⟩⟩,
      ⟨rfl, .exit (by decide) (by decide), fun e he => by cases he; exact ⟨_, rfl, rfl⟩⟩, trivial⟩

theorem nobody_left_behind_pair : ∃ s, (service pair).Run pairEnd s ∧ s.primary.forkedIds = [1, 2] ∧
    (∀ id ∈ s.primary.forkedIds, ∃ q, s.process id = some q ∧ s.Parted id q) ∧
    ∀ id q, s.process id = some q → q.ended.isSome = true ∧ (id, .SIGKILL) ∉ s.primary.sent :=
  ⟨_, pairEnd_run, by decide, (nobody_left_behind pairEnd_run rfl).1,
    (nobody_left_behind pairEnd_run rfl).2 (by decide)⟩

end Service

end NestDdd.Cluster
