import NestDdd.Shared.Js

/-!
# The job scheduler

`JobScheduler.onApplicationBootstrap` (`src/interface/scheduler/job-scheduler.ts`): in
cluster mode only the worker marked as the leader registers the cron jobs.
-/

namespace NestDdd.Scheduler

open NestDdd.Shared

/-- A job of the service, as far as it is registered and logged. -/
structure ScheduledJob where
  /-- Its name. -/
  name : JsString
  /-- When it runs. -/
  cronTime : JsString

/-- The configuration `onApplicationBootstrap` reads. -/
structure SchedulerConfig where
  /-- `scheduler.enabled`. -/
  enabled : Bool
  /-- `cluster.enabled`. -/
  clusterEnabled : Bool
  /-- `cluster.isLeader`. -/
  isLeader : Bool
  /-- `scheduler.timezone`. -/
  timezone : Option JsString

/-- `onApplicationBootstrap`: the jobs registered, and the lines logged. `nextRun` is the cron
library's `nextDate().toISO()`. -/
def onApplicationBootstrap (config : SchedulerConfig) (nextRun : ScheduledJob → JsValue)
    (jobs : List ScheduledJob) : List ScheduledJob × List LogLine :=
  if !config.enabled then
    ([], [⟨.info, "scheduler.disabled", [("jobs", .int jobs.length)]⟩])
  else if config.clusterEnabled && !config.isLeader then
    ([], [⟨.info, "scheduler.disabled",
      [("jobs", .int jobs.length), ("reason", .string "not-leader")]⟩])
  else
    (jobs, jobs.map fun job => ⟨.info, "scheduler.job.scheduled",
      [("job", .string job.name), ("cronTime", .string job.cronTime),
        ("timeZone", .ofOption config.timezone), ("nextRun", nextRun job)]⟩)

/-- In cluster mode a worker that is not the leader registers nothing. -/
theorem onApplicationBootstrap_not_leader {config : SchedulerConfig} (hc : config.clusterEnabled = true)
    (hl : config.isLeader = false) (nextRun : ScheduledJob → JsValue) (jobs : List ScheduledJob) :
    (onApplicationBootstrap config nextRun jobs).1 = [] := by
  cases he : config.enabled <;> simp [onApplicationBootstrap, he, hc, hl]

end NestDdd.Scheduler
