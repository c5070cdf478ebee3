import Mathlib.Data.Rat.Lemmas
import NestDdd.Config.Env
import NestDdd.Database.BootPing
import NestDdd.Lifecycle.GracefulShutdown

/-!
# The configured waits

The settings that end up as the duration of a timer, as the schemas let them pass
(`src/infrastructure/config/schemas`): `shutdownSchema` bounds them from below only, the health part of
`databaseConfigSchema` from above too, and what starts a timer reads them as they are.

## The model

A numeric setting comes from an environment variable, as what `Number` makes of it. The integers
`z.number().int()` lets pass are the safe ones. A backoff is computed without rounding; it is exact as
long as it fits a timer. That `loadWaits` is the slice of what zod accepts follows from its laws (`slices`).

## What is proved

* `exists_loadWaits` — every `WaitConfig` is accepted, and nothing else is by its type.
* `handed_runGracefulShutdown`, `handed_backoff` — what a worker's shutdown and the pings at boot start timers
  with is on the list.
* `waits_fit_iff` — **every wait fits Node's timers** exactly if the shutdown's settings, their sum where
  there is a primary, and the retries are small enough.
* `accepted_wait_collapses` — settings that are accepted and are not.
-/

namespace NestDdd.Config

open NestDdd.Shared NestDdd.Theory NestDdd.Common NestDdd.Cluster NestDdd.Database NestDdd.Lifecycle

/-! ### The settings -/

/-- `Number.MAX_SAFE_INTEGER`. -/
def MAX_SAFE_INTEGER : ℕ := 9007199254740991

/-- An integer between two bounds. -/
abbrev Bounded (lo hi : ℕ) : Type := { n : ℕ // lo ≤ n ∧ n ≤ hi }

/-- `z.coerce.number().int().min(lo).max(hi).default(d)`; `none` is a value the schema refuses. -/
def intSetting (lo hi : ℕ) (d : Bounded lo hi) : Option Number → Option (Bounded lo hi)
  | none => some d
  | some (.finite q) =>
    if h : q.den = 1 ∧ (lo : ℤ) ≤ q.num ∧ q.num ≤ hi then some ⟨q.num.toNat, by omega, by omega⟩ else none
  | some _ => none

@[simp] theorem intSetting_none {lo hi : ℕ} (d : Bounded lo hi) : intSetting lo hi d none = some d := rfl

@[simp] theorem intSetting_ofNat {lo hi : ℕ} (d n : Bounded lo hi) : intSetting lo hi d (some (.ofNat n)) = some n := by
  have hn := n.property
  have h : ((n : ℕ) : ℚ).den = 1 ∧ (lo : ℤ) ≤ ((n : ℕ) : ℚ).num ∧ ((n : ℕ) : ℚ).num ≤ hi := by
    rw [Rat.num_natCast]
    exact ⟨Rat.den_natCast _, by omega, by omega⟩
  rw [Number.ofNat, intSetting, dif_pos h]
  simp

/-- `ShutdownConfig`. -/
structure ShutdownConfig where
  /-- `drainDelayMs`. -/
  drainDelayMs : Bounded 0 MAX_SAFE_INTEGER
  /-- `forceAfterMs`. -/
  forceAfterMs : Bounded 1 MAX_SAFE_INTEGER
  /-- `jobDrainMs`. -/
  jobDrainMs : Bounded 0 MAX_SAFE_INTEGER

/-- `DatabaseConfig`, as far as the pings at boot wait. -/
structure DatabaseWaits where
  /-- Whether there is a source whose dialect has a client. -/
  implemented : Bool
  /-- `health.pingOnBoot`. -/
  pingOnBoot : Bool
  /-- `health.maxRetries`. -/
  maxRetries : Bounded 0 100
  /-- `health.jitterMs`. -/
  jitterMs : Bounded 0 5000

/-- `AppConfig`, as far as the program waits for it. -/
structure WaitConfig where
  /-- `cluster.enabled`. -/
  clusterEnabled : Bool
  /-- `scheduler.enabled`. -/
  schedulerEnabled : Bool
  /-- `shutdown`. -/
  shutdown : ShutdownConfig
  /-- `database`; `undefined` without sources. -/
  database : Option DatabaseWaits

/-- What `hydrate` hands to `shutdownSchema`, each variable as a number. -/
structure RawShutdown where
  /-- `SHUTDOWN_DRAIN_DELAY_MS`. -/
  drainDelayMs : Option Number
  /-- `SHUTDOWN_FORCE_AFTER_MS`. -/
  forceAfterMs : Option Number
  /-- `SHUTDOWN_JOB_DRAIN_MS`. -/
  jobDrainMs : Option Number

/-- What `hydrate` hands to `databaseConfigSchema`. -/
structure RawDatabase where
  /-- Whether a source of `DATABASE_CONFIG_JSON` has a client. -/
  implemented : Bool
  /-- `DATABASE_PING_ON_BOOT`. -/
  pingOnBoot : RawBool
  /-- `DATABASE_PING_MAX_RETRIES`. -/
  maxRetries : Option Number
  /-- `DATABASE_PING_JITTER_MS`. -/
  jitterMs : Option Number

/-- What `hydrate` reads. -/
structure RawWaits where
  /-- `CLUSTER_ENABLED`. -/
  clusterEnabled : RawBool
  /-- `SCHEDULER_ENABLED`. -/
  schedulerEnabled : RawBool
  /-- `shutdown`. -/
  shutdown : RawShutdown
  /-- `database`. -/
  database : Option RawDatabase

/-- `shutdownSchema`. -/
def shutdownSchema (raw : RawShutdown) : Option ShutdownConfig := do
  let drainDelayMs ← intSetting 0 MAX_SAFE_INTEGER ⟨5000, by decide⟩ raw.drainDelayMs
  let forceAfterMs ← intSetting 1 MAX_SAFE_INTEGER ⟨10000, by decide⟩ raw.forceAfterMs
  let jobDrainMs ← intSetting 0 MAX_SAFE_INTEGER ⟨10000, by decide⟩ raw.jobDrainMs
  some ⟨drainDelayMs, forceAfterMs, jobDrainMs⟩

/-- `databaseConfigSchema`. -/
def databaseConfigSchema (raw : RawDatabase) : Option DatabaseWaits := do
  let pingOnBoot ← raw.pingOnBoot.parse true
  let maxRetries ← intSetting 0 100 ⟨2, by decide⟩ raw.maxRetries
  let jitterMs ← intSetting 0 5000 ⟨250, by decide⟩ raw.jitterMs
  some ⟨raw.implemented, pingOnBoot, maxRetries, jitterMs⟩

/-- `rootSchema`. -/
def loadWaits (raw : RawWaits) : Option WaitConfig := do
  let clusterEnabled ← raw.clusterEnabled.parse false
  let schedulerEnabled ← raw.schedulerEnabled.parse false
  let shutdown ← shutdownSchema raw.shutdown
  match raw.database with
  | none => some ⟨clusterEnabled, schedulerEnabled, shutdown, none⟩
  | some raw => (databaseConfigSchema raw).map fun database =>
      ⟨clusterEnabled, schedulerEnabled, shutdown, some database⟩

/-- Every configuration within the bounds is accepted. -/
theorem exists_loadWaits (c : WaitConfig) : ∃ raw, loadWaits raw = some c := by
  obtain ⟨clusterEnabled, schedulerEnabled, ⟨drainDelayMs, forceAfterMs, jobDrainMs⟩, database⟩ := c
  let rawShutdown : RawShutdown :=
    ⟨some (.ofNat drainDelayMs), some (.ofNat forceAfterMs), some (.ofNat jobDrainMs)⟩
  have hshutdown : shutdownSchema rawShutdown = some ⟨drainDelayMs, forceAfterMs, jobDrainMs⟩ := by
    simp [shutdownSchema, rawShutdown]
  cases database with
  | none =>
    refine ⟨⟨.bool clusterEnabled, .bool schedulerEnabled, rawShutdown, none⟩, ?_⟩
    simp [loadWaits, RawBool.parse, hshutdown]
  | some d =>
    refine ⟨⟨.bool clusterEnabled, .bool schedulerEnabled, rawShutdown,
      some ⟨d.implemented, .bool d.pingOnBoot, some (.ofNat d.maxRetries), some (.ofNat d.jitterMs)⟩⟩, ?_⟩
    simp [loadWaits, RawBool.parse, hshutdown, databaseConfigSchema]

/-! ### The timers -/

/-- The settings that `startPrimary` reads are these. -/
def ShutdownConfig.IsOf (s : ShutdownConfig) (cfg : StartPrimaryConfig) : Prop :=
  cfg.drainDelayMs = s.drainDelayMs ∧ cfg.forceAfterMs = s.forceAfterMs ∧ cfg.jobDrainMs = s.jobDrainMs

/-- The durations that the program may hand to a timer. -/
inductive Handed (c : WaitConfig) : ℕ → Prop where
  /-- `delay(drainDelayMs)` in `runGracefulShutdown`. -/
  | drain : Handed c c.shutdown.drainDelayMs
  /-- The force timer of `runGracefulShutdown`. -/
  | force : Handed c c.shutdown.forceAfterMs
  /-- `withTimeout` in `JobScheduler.stop`, which has jobs only if the scheduler is on. -/
  | jobDrain : c.schedulerEnabled = true → Handed c c.shutdown.jobDrainMs
  /-- `delay(waitMs)` in `startPrimary`. -/
  | wait (cfg : StartPrimaryConfig) : c.clusterEnabled = true → c.shutdown.IsOf cfg → Handed c (waitMs cfg)
  /-- `jitterDelay(jitterMs)` in `pingAll`. -/
  | jitter {d : DatabaseWaits} {random : ℕ} : c.database = some d → d.pingOnBoot = true →
    random < d.jitterMs → Handed c random
  /-- `delay(expoBackoff(attempt - 1))` in `pingAll`, after an attempt that is not the last. -/
  | backoff {d : DatabaseWaits} {attempt random : ℕ} : c.database = some d → d.pingOnBoot = true →
    d.implemented = true → 1 ≤ attempt → attempt ≤ d.maxRetries → random < 150 →
    Handed c (expoBackoff (attempt - 1) random)

/-- The duration of the timer that a call of the shutdown starts. -/
def timer : HostOp → Option ℕ
  | .delay ms | .startForceTimer ms => some ms
  | _ => none

/-- **Every timer of a shutdown** is on the list. -/
theorem handed_runGracefulShutdown {c : WaitConfig} {cfg : StartPrimaryConfig} (hc : c.shutdown.IsOf cfg)
    {signal : JsString} {t : Trace Host} {r : Bool}
    (h : Exec (runGracefulShutdown (shutdownOptions cfg signal)) t r) : ∀ e ∈ t, ∀ ms ∈ timer e.op, Handed c ms := by
  obtain ⟨hdrain, hforce, -⟩ := hc
  have hd : Handed c cfg.drainDelayMs := hdrain ▸ .drain
  have hf : Handed c cfg.forceAfterMs := hforce ▸ .force
  rcases (runGracefulShutdown_exec_iff rfl).mp h with ⟨rfl, -⟩ | ⟨drain, close, jobs, pools, rfl, -⟩
  · simp [timer]
  · simp [phasesTrace, timer, shutdownOptions, hd, hf]

/-- **Every backoff of the pings at boot** is on the list. -/
theorem handed_backoff {c : WaitConfig} {d : DatabaseWaits} {pm : PoolManager} {opts : PingAllOptions}
    (hd : c.database = some d) (hboot : d.pingOnBoot = true)
    (hclient : d.implemented = true ↔ pm.implementedKeys ≠ []) (hretries : opts.retries = d.maxRetries)
    {es : List BootEvent} {s : Boot} (h : (pm.pingAll opts).Run es s) {key : JsString} {attempt : ℕ}
    (hp : s.phase key = .backingOff attempt) {random : ℕ} (hr : random < 150) :
    Handed c (expoBackoff (attempt - 1) random) := by
  obtain ⟨hm, hone, hle⟩ := Boot.attempt_of_backingOff h hp
  have hi : d.implemented = true := hclient.mpr (List.ne_nil_of_mem hm)
  exact .backoff hd hboot hi hone (hretries ▸ hle) hr

/-- The condition: what is waited for is short enough, where it is waited for. -/
structure FitsTimers (c : WaitConfig) : Prop where
  /-- Every process that serves waits for this. -/
  drain : c.shutdown.drainDelayMs ≤ TIMEOUT_MAX
  /-- It sets this timer. -/
  force : c.shutdown.forceAfterMs ≤ TIMEOUT_MAX
  /-- The one with the jobs waits for them. -/
  jobDrain : c.schedulerEnabled = true → c.shutdown.jobDrainMs ≤ TIMEOUT_MAX
  /-- A primary waits for all three, and 2 s more. -/
  wait : c.clusterEnabled = true →
    (c.shutdown.drainDelayMs : ℕ) + c.shutdown.forceAfterMs + c.shutdown.jobDrainMs + SHUTDOWN_SLACK_MS ≤ TIMEOUT_MAX
  /-- After the 24th retry the next would be too far. -/
  retries : ∀ d, c.database = some d → d.pingOnBoot = true → d.implemented = true →
    (d.maxRetries : ℕ) ≤ 24

theorem exists_startPrimaryConfig (s : ShutdownConfig) : ∃ cfg : StartPrimaryConfig, s.IsOf cfg :=
  ⟨{ StartPrimaryConfig.default 0 10 (by decide) with
      drainDelayMs := s.drainDelayMs, forceAfterMs := s.forceAfterMs, forceAfter_pos := s.forceAfterMs.property.1,
      jobDrainMs := s.jobDrainMs }, rfl, rfl, rfl⟩

theorem waitMs_eq {s : ShutdownConfig} {cfg : StartPrimaryConfig} (h : s.IsOf cfg) :
    waitMs cfg = (s.drainDelayMs : ℕ) + s.forceAfterMs + s.jobDrainMs + SHUTDOWN_SLACK_MS := by
  obtain ⟨hdrain, hforce, hjob⟩ := h
  rw [waitMs, hdrain, hforce, hjob]

/-- The 24th backoff is the last that fits. -/
theorem expoBackoff_le {attempt random : ℕ} (ha : attempt ≤ 23) (hr : random < 150) :
    expoBackoff attempt random ≤ TIMEOUT_MAX := by
  have hpow : 2 ^ attempt ≤ 2 ^ 23 := Nat.pow_le_pow_right (by decide) ha
  unfold expoBackoff TIMEOUT_MAX
  omega

theorem lt_expoBackoff {attempt : ℕ} (ha : 24 ≤ attempt) (random : ℕ) :
    TIMEOUT_MAX < expoBackoff attempt random := by
  have hpow : 2 ^ 24 ≤ 2 ^ attempt := Nat.pow_le_pow_right (by decide) ha
  unfold expoBackoff TIMEOUT_MAX
  omega

/-- **Every wait fits** if and only if the settings do. -/
theorem waits_fit_iff (c : WaitConfig) :
    (∀ ms, Handed c ms → ms ≤ TIMEOUT_MAX ∧ ms ≤ nodeTimeout ms) ↔ FitsTimers c := by
  constructor
  · intro h
    refine ⟨(h _ .drain).1, (h _ .force).1, fun hs => (h _ (.jobDrain hs)).1, fun hc => ?_, fun d hd hp hi => ?_⟩
    · obtain ⟨cfg, hcfg⟩ := exists_startPrimaryConfig c.shutdown
      rw [← waitMs_eq hcfg]
      exact (h _ (.wait cfg hc hcfg)).1
    · by_contra hmany
      have hretries : 25 ≤ (d.maxRetries : ℕ) := by omega
      have hfit := (h _ (.backoff hd hp hi (by omega) le_rfl (by omega : 0 < 150))).1
      exact absurd (lt_expoBackoff (by omega) 0) (Nat.not_lt.mpr hfit)
  · intro h ms hms
    have hfit : ms ≤ TIMEOUT_MAX := by
      cases hms with
      | drain => exact h.drain
      | force => exact h.force
      | jobDrain hs => exact h.jobDrain hs
      | wait cfg hc hcfg =>
        rw [waitMs_eq hcfg]
        exact h.wait hc
      | @jitter d random hd hp hr =>
        have hjitter := d.jitterMs.property.2
        unfold TIMEOUT_MAX
        omega
      | @backoff d attempt random hd hp hi _ ha hr =>
        have hretries := h.retries d hd hp hi
        exact expoBackoff_le (by omega) hr
    exact ⟨hfit, le_nodeTimeout hfit⟩

/-- A drain delay of 2^31 ms, and 25 retries, are accepted; the timers make 1 ms of them. -/
theorem accepted_wait_collapses :
    ∃ c, loadWaits
        { clusterEnabled := .unset, schedulerEnabled := .unset
          shutdown := ⟨some (.ofNat 2147483648), none, none⟩
          database := some ⟨true, .unset, some (.ofNat 25), none⟩ } = some c ∧
      (Handed c 2147483648 ∧ nodeTimeout 2147483648 = 1) ∧
      Handed c (expoBackoff 24 0) ∧ nodeTimeout (expoBackoff 24 0) = 1 := by
  refine ⟨⟨false, false, ⟨⟨2147483648, by decide⟩, ⟨10000, by decide⟩, ⟨10000, by decide⟩⟩,
    some ⟨true, true, ⟨25, by decide⟩, ⟨250, by decide⟩⟩⟩, ?_, ⟨.drain, rfl⟩, ?_, rfl⟩
  · have hdelay := @intSetting_ofNat 0 MAX_SAFE_INTEGER ⟨5000, by decide⟩ ⟨2147483648, by decide⟩
    have hretries := @intSetting_ofNat 0 100 ⟨2, by decide⟩ ⟨25, by decide⟩
    simp only at hdelay hretries
    simp [loadWaits, RawBool.parse, shutdownSchema, databaseConfigSchema, hdelay, hretries]
  · exact @Handed.backoff _ _ 25 0 rfl rfl rfl (by decide) (by decide) (by decide)

end NestDdd.Config
