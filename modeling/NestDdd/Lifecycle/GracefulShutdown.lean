import NestDdd.Theory.Program
import NestDdd.Common.Delay
import NestDdd.Cluster.Primary
import NestDdd.Database.OracleClient
import Mathlib.Data.List.Forall2

/-!
# Graceful shutdown and its budget

`runGracefulShutdown` (`src/infrastructure/lifecycle/graceful-shutdown.ts`) is a
worker's way from the signal to its end: readiness fails, the server drains, the jobs
drain, the application closes its database pools. In cluster mode the primary gives
it a bounded time before it kills.

## The model

The function is a program whose awaited calls answer with the time they took; closing
the application answers with the time each pool took, and takes the longest of them,
since `PoolManager.onModuleDestroy` closes the pools in parallel. What a phase may
take is a condition on these answers (`WithinBounds`).

## What is proved

* `covered_iff` — **the primary waits long enough for every worker that keeps its bounds
  exactly when** every source drains within 2 s and the sum of the wait fits Node's
  timers: the primary's sum leaves `drainTimeSec` out and has 2 s of slack instead.
* `default_budget_short` — with the schema's defaults it does not.
-/

namespace NestDdd.Lifecycle

open NestDdd.Theory NestDdd.Shared NestDdd.Common NestDdd.Cluster NestDdd.Database

/-! ### The worker's shutdown -/

/-- What the shutdown does. -/
inductive HostOp where
  /-- `shutdown.begin()`. -/
  | begin
  /-- `logger[level](message, fields)`. -/
  | log (line : LogLine)
  /-- `delay(ms)`. -/
  | delay (ms : ℕ)
  /-- `setTimeout` of the timer that cuts what is open after `ms`. -/
  | startForceTimer (ms : ℕ)
  /-- `server.closeIdleConnections()`. -/
  | closeIdleConnections
  /-- `server.close(callback)`, until the callback. -/
  | closeServer
  /-- `clearTimeout` of that timer. -/
  | clearForceTimer
  /-- `drainJobs()`. -/
  | drainJobs
  /-- `closeApp()`. -/
  | closeApp

/-- Awaited calls answer with the milliseconds they took, `closeApp` with those of each pool. -/
def Host : Interface where
  Op := HostOp
  Ans
    | .begin => Bool
    | .delay _ | .closeServer | .drainJobs => ℕ
    | .closeApp => List ℕ
    | _ => Unit

namespace Host

/-- `shutdown.begin()`. -/
def begin : Prog Host Bool := @Prog.ask Host .begin

/-- A log line. -/
def log (level : Level) (message : JsString) (fields : List (String × JsValue)) : Prog Host Unit :=
  @Prog.ask Host (.log ⟨level, message, fields⟩)

/-- `delay(ms)`. -/
def delay (ms : ℕ) : Prog Host ℕ := @Prog.ask Host (.delay ms)

/-- `setTimeout` of the timer that cuts what is open after `ms`. -/
def startForceTimer (ms : ℕ) : Prog Host Unit := @Prog.ask Host (.startForceTimer ms)

/-- `server.closeIdleConnections()`. -/
def closeIdleConnections : Prog Host Unit := @Prog.ask Host .closeIdleConnections

/-- `server.close(callback)`, until the callback. -/
def closeServer : Prog Host ℕ := @Prog.ask Host .closeServer

/-- `clearTimeout` of that timer. -/
def clearForceTimer : Prog Host Unit := @Prog.ask Host .clearForceTimer

/-- `drainJobs()`. -/
def drainJobs : Prog Host ℕ := @Prog.ask Host .drainJobs

/-- `closeApp()`. -/
def closeApp : Prog Host (List ℕ) := @Prog.ask Host .closeApp

end Host

/-- `GracefulShutdownOptions`. -/
structure GracefulShutdownOptions where
  /-- The signal's name. -/
  signal : JsString
  /-- Time between failing readiness and closing the server. -/
  drainDelayMs : ℕ
  /-- After this, what is still open is cut. -/
  forceAfterMs : ℕ
  /-- Whether there are jobs to drain. -/
  drainJobs : Bool

/-- `if (drainJobs) await drainJobs()`; it takes no time if there is nothing to drain. -/
def drainJobsIfAny (drainJobs : Bool) : Prog Host ℕ := if drainJobs then Host.drainJobs else pure 0

/-- `runGracefulShutdown`, once the shutdown has begun. -/
def shutdownPhases (o : GracefulShutdownOptions) : Prog Host Bool := do
  Host.log .info "shutdown.started"
    [("signal", .string o.signal), ("drainDelayMs", .int o.drainDelayMs)]
  let _ ← Host.delay o.drainDelayMs
  Host.log .info "shutdown.draining" [("forceAfterMs", .int o.forceAfterMs)]
  Host.startForceTimer o.forceAfterMs
  Host.closeIdleConnections
  let _ ← Host.closeServer
  Host.clearForceTimer
  let _ ← drainJobsIfAny o.drainJobs
  let _ ← Host.closeApp
  Host.log .info "shutdown.finished" [("signal", .string o.signal)]
  return true

/-- `runGracefulShutdown`. -/
def runGracefulShutdown (o : GracefulShutdownOptions) : Prog Host Bool := do
  let began ← Host.begin
  if began then shutdownPhases o
  else
    Host.log .debug "shutdown.signal.ignored" [("signal", .string o.signal)]
    return false

/-! ### Time -/

/-- The milliseconds a call took. -/
def elapsed : Event Host → ℕ
  | ⟨.delay _, ms⟩ | ⟨.closeServer, ms⟩ | ⟨.drainJobs, ms⟩ => ms
  | ⟨.closeApp, pools⟩ => pools.foldr max 0
  | _ => 0

/-- The milliseconds a run took. -/
def total (t : Trace Host) : ℕ := (t.map elapsed).foldr (· + ·) 0

/-- A call that kept its configured bound. -/
def WithinBounds (cfg : StartPrimaryConfig) (sources : List OracleSource) : Event Host → Prop
  | ⟨.delay ms, d⟩ => elapsed ⟨.delay ms, d⟩ ≤ ms
  | ⟨.closeServer, d⟩ => elapsed ⟨.closeServer, d⟩ ≤ cfg.forceAfterMs
  | ⟨.drainJobs, d⟩ => elapsed ⟨.drainJobs, d⟩ ≤ cfg.jobDrainMs
  | ⟨.closeApp, pools⟩ => List.Forall₂ (fun d source => d ≤ 1000 * source.drainTimeSec) pools sources
  | _ => True

/-- The options a worker runs its shutdown with: the same configuration as the primary's. -/
def shutdownOptions (cfg : StartPrimaryConfig) (signal : JsString) : GracefulShutdownOptions where
  signal := signal
  drainDelayMs := cfg.drainDelayMs
  forceAfterMs := cfg.forceAfterMs
  drainJobs := true

/-- The primary's wait covers every worker that keeps its bounds. -/
def Covered (cfg : StartPrimaryConfig) (sources : List OracleSource) : Prop :=
  ∀ signal t r, Exec (runGracefulShutdown (shutdownOptions cfg signal)) t r →
    (∀ e ∈ t, WithinBounds cfg sources e) → total t ≤ nodeTimeout (waitMs cfg)

/-! ### Runs -/

/-- The trace of a shutdown that is the first one, by the times its phases took. -/
def phasesTrace (o : GracefulShutdownOptions) (drain close jobs : ℕ) (pools : List ℕ) : Trace Host :=
  [⟨.begin, true⟩,
    ⟨.log ⟨.info, "shutdown.started",
      [("signal", .string o.signal), ("drainDelayMs", .int o.drainDelayMs)]⟩, ()⟩,
    ⟨.delay o.drainDelayMs, drain⟩,
    ⟨.log ⟨.info, "shutdown.draining", [("forceAfterMs", .int o.forceAfterMs)]⟩, ()⟩,
    ⟨.startForceTimer o.forceAfterMs, ()⟩, ⟨.closeIdleConnections, ()⟩, ⟨.closeServer, close⟩,
    ⟨.clearForceTimer, ()⟩, ⟨.drainJobs, jobs⟩, ⟨.closeApp, pools⟩,
    ⟨.log ⟨.info, "shutdown.finished", [("signal", .string o.signal)]⟩, ()⟩]

theorem total_phasesTrace (o : GracefulShutdownOptions) (drain close jobs : ℕ) (pools : List ℕ) :
    total (phasesTrace o drain close jobs pools) = drain + close + jobs + pools.foldr max 0 := by
  have hsum : total (phasesTrace o drain close jobs pools) =
      0 + (0 + (drain + (0 + (0 + (0 + (close + (0 + (jobs + (pools.foldr max 0 + (0 + 0)))))))))) := rfl
  omega

/-- The runs of a worker's shutdown: it is ignored, or its phases take the times they take. -/
theorem runGracefulShutdown_exec_iff {o : GracefulShutdownOptions} (ho : o.drainJobs = true)
    {t : Trace Host} {r : Bool} :
    Exec (runGracefulShutdown o) t r ↔
      (t = [⟨.begin, false⟩, ⟨.log ⟨.debug, "shutdown.signal.ignored", [("signal", .string o.signal)]⟩, ()⟩] ∧
          r = false) ∨
        ∃ drain close jobs pools, t = phasesTrace o drain close jobs pools ∧ r = true := by
  obtain ⟨signal, drainDelayMs, forceAfterMs, drainJobs⟩ := o
  obtain rfl : drainJobs = true := ho
  constructor
  · intro h₀
    obtain ⟨began, t₁, rfl, h₁⟩ := exec_call_iff.mp h₀
    cases began with
    | false =>
      obtain ⟨_, t₂, rfl, h₂⟩ := exec_call_iff.mp h₁
      obtain ⟨rfl, rfl⟩ := exec_done_iff.mp h₂
      exact .inl ⟨rfl, rfl⟩
    | true =>
      obtain ⟨_, t₂, rfl, h₂⟩ := exec_call_iff.mp h₁
      obtain ⟨drain, t₃, rfl, h₃⟩ := exec_call_iff.mp h₂
      obtain ⟨_, t₄, rfl, h₄⟩ := exec_call_iff.mp h₃
      obtain ⟨_, t₅, rfl, h₅⟩ := exec_call_iff.mp h₄
      obtain ⟨_, t₆, rfl, h₆⟩ := exec_call_iff.mp h₅
      obtain ⟨close, t₇, rfl, h₇⟩ := exec_call_iff.mp h₆
      obtain ⟨_, t₈, rfl, h₈⟩ := exec_call_iff.mp h₇
      obtain ⟨jobs, t₉, rfl, h₉⟩ := exec_call_iff.mp h₈
      obtain ⟨pools, t₁₀, rfl, h₁₀⟩ := exec_call_iff.mp h₉
      obtain ⟨_, t₁₁, rfl, h₁₁⟩ := exec_call_iff.mp h₁₀
      obtain ⟨rfl, rfl⟩ := exec_done_iff.mp h₁₁
      exact .inr ⟨drain, close, jobs, pools, rfl, rfl⟩
  · rintro (⟨rfl, rfl⟩ | ⟨drain, close, jobs, pools, rfl, rfl⟩)
    · exact .call (.call .done)
    · exact .call (.call (.call (.call (.call (.call (.call (.call (.call (.call (.call .done))))))))))

/-! ### The budget -/

/-- The longest of the pools' times, in terms of each. -/
theorem foldr_max_le_iff {ds : List ℕ} {n : ℕ} : ds.foldr max 0 ≤ n ↔ ∀ d ∈ ds, d ≤ n := by
  induction ds with
  | nil => simp
  | cons d ds ih => simp [ih]

/-- Each pool is some source's. -/
theorem exists_source_of_mem {pools : List ℕ} {sources : List OracleSource}
    (h : List.Forall₂ (fun d source => d ≤ 1000 * source.drainTimeSec) pools sources) {d : ℕ}
    (hd : d ∈ pools) : ∃ source ∈ sources, d ≤ 1000 * source.drainTimeSec := by
  induction h with
  | nil => cases hd
  | @cons d' source _ _ hle _ ih =>
    rcases List.mem_cons.mp hd with rfl | hd
    · exact ⟨source, List.mem_cons_self, hle⟩
    · obtain ⟨source', hs, hle'⟩ := ih hd
      exact ⟨source', List.mem_cons_of_mem _ hs, hle'⟩

/-- A run within bounds takes its three phases, and as long as its slowest pool. -/
theorem withinBounds_phasesTrace {cfg : StartPrimaryConfig} {sources : List OracleSource}
    {signal : JsString} {drain close jobs : ℕ} {pools : List ℕ} :
    (∀ e ∈ phasesTrace (shutdownOptions cfg signal) drain close jobs pools, WithinBounds cfg sources e) ↔
      drain ≤ cfg.drainDelayMs ∧ close ≤ cfg.forceAfterMs ∧ jobs ≤ cfg.jobDrainMs ∧
        List.Forall₂ (fun d source => d ≤ 1000 * source.drainTimeSec) pools sources := by
  simp only [phasesTrace, List.forall_mem_cons]
  constructor
  · intro h
    obtain ⟨-, -, hdrain, -, -, -, hclose, -, hjobs, hpools, -⟩ := h
    exact ⟨hdrain, hclose, hjobs, hpools⟩
  · intro h
    obtain ⟨hdrain, hclose, hjobs, hpools⟩ := h
    exact ⟨trivial, trivial, hdrain, trivial, trivial, trivial, hclose, trivial, hjobs, hpools, trivial, nofun⟩

/-- **When the primary waits long enough** for every worker that keeps its bounds: if and only if
every source drains within 2 s, and the wait is one that Node's timers keep. -/
theorem covered_iff (cfg : StartPrimaryConfig) (sources : List OracleSource) :
    Covered cfg sources ↔
      (∀ source ∈ sources, source.drainTimeSec ≤ 2) ∧ waitMs cfg ≤ TIMEOUT_MAX := by
  have hpos := cfg.forceAfter_pos
  have hwait : waitMs cfg = cfg.drainDelayMs + cfg.forceAfterMs + cfg.jobDrainMs + 2000 := rfl
  constructor
  · intro hc
    -- the worker that takes all the time it has
    have hworst : cfg.drainDelayMs + cfg.forceAfterMs + cfg.jobDrainMs +
        (sources.map fun source => 1000 * source.drainTimeSec).foldr max 0 ≤ nodeTimeout (waitMs cfg) := by
      rw [← total_phasesTrace (shutdownOptions cfg [])]
      refine hc [] _ true ((runGracefulShutdown_exec_iff rfl).mpr (.inr ⟨_, _, _, _, rfl, rfl⟩)) ?_
      refine withinBounds_phasesTrace.mpr ⟨le_refl _, le_refl _, le_refl _, ?_⟩
      exact List.forall₂_map_left_iff.mpr (List.forall₂_same.mpr fun _ _ => le_refl _)
    have hfits : waitMs cfg ≤ TIMEOUT_MAX := by
      by_contra hlong
      rw [nodeTimeout_of_lt (Nat.not_le.mp hlong)] at hworst
      have hmax : TIMEOUT_MAX = 2147483647 := rfl
      omega
    refine ⟨fun source hs => ?_, hfits⟩
    rw [nodeTimeout_of_le (by omega) hfits] at hworst
    have hdrain : 1000 * source.drainTimeSec ≤
        (sources.map fun source => 1000 * source.drainTimeSec).foldr max 0 :=
      foldr_max_le_iff.mp (le_refl _) _ (List.mem_map_of_mem hs)
    omega
  · rintro ⟨hdrain, hfits⟩ signal t r hrun hbounds
    rw [nodeTimeout_of_le (by omega) hfits]
    rcases (runGracefulShutdown_exec_iff rfl).mp hrun with ⟨rfl, -⟩ | ⟨drain, close, jobs, pools, rfl, -⟩
    · exact Nat.zero_le _
    · obtain ⟨hd, hcl, hj, hp⟩ := withinBounds_phasesTrace.mp hbounds
      have hpools : pools.foldr max 0 ≤ 2000 := by
        refine foldr_max_le_iff.mpr fun d hd => ?_
        obtain ⟨source, hs, hle⟩ := exists_source_of_mem hp hd
        have hsource := hdrain source hs
        omega
      rw [total_phasesTrace]
      omega

/-- With the schema's defaults the primary waits 27 s, and a worker that keeps its bounds may take
35 s. -/
theorem default_budget_short :
    ¬ Covered (.default 1 10 (by decide)) [.default "core"] := by
  intro hc
  have htotal := hc "SIGTERM" (phasesTrace _ 5000 10000 10000 [10000]) true
    ((runGracefulShutdown_exec_iff rfl).mpr (.inr ⟨_, _, _, _, rfl, rfl⟩))
    (withinBounds_phasesTrace.mpr ⟨by decide, by decide, by decide, .cons (by decide) .nil⟩)
  rw [total_phasesTrace] at htotal
  revert htotal
  decide

end NestDdd.Lifecycle
