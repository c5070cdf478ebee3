import NestDdd.Shared.Js

/-!
# Running jobs, and stopping

`JobRunner` (`src/interface/scheduler/job-runner.ts`) and `JobScheduler.stop`
(`src/interface/scheduler/job-scheduler.ts`).

## The model

An asynchronous function is cut where it awaits, and each piece is a function of the scheduler's
state: `run`, what follows when the job has settled (`settle`) and when its `finally` has run
(`clear`); `stop`, what follows when every cron job has stopped (`cronsStopped`), and when the race
between the jobs and the timer is decided (`conclude`). A job is known by its name, under which the
registry has no two.
-/

namespace NestDdd.Scheduler

open NestDdd.Shared

/-- The `current` of a `JobRunner`. -/
inductive Runner where
  /-- `undefined`. -/
  | idle
  /-- A run whose job has not settled. -/
  | running
  /-- A run whose job has settled, before `finally`. -/
  | settled
  deriving DecidableEq

/-- `isRunning`. -/
def Runner.isRunning : Runner → Bool
  | .idle => false
  | _ => true

/-- The race of `withTimeout`. -/
inductive Race where
  /-- It is not decided. -/
  | undecided
  /-- Every job was idle first. -/
  | idle
  /-- The timer was first. -/
  | timedOut
  deriving DecidableEq

/-- How far `stop` has come, with its `running`. -/
inductive StopState where
  /-- It has not been called. -/
  | uncalled
  /-- It awaits the cron jobs. -/
  | stopping (running : List JsString)
  /-- It awaits the race. -/
  | waiting (running : List JsString) (race : Race)
  /-- It has resolved. -/
  | resolved

/-- A `JobScheduler`, with its runners and its cron jobs. -/
structure SchedulerState where
  /-- The runners. -/
  runner : JsString → Runner
  /-- Whether `stop()` was called on every cron job. -/
  cronStopped : Bool
  /-- `stop`. -/
  stop : StopState

namespace SchedulerState

variable (s : SchedulerState)

/-- A runner in another state. -/
def setRunner (name : JsString) (r : Runner) : SchedulerState :=
  { s with runner := fun job => if job = name then r else s.runner job }

/-! ### `JobRunner` -/

/-- `run`, and the line it logs if it skips the run. -/
def run (name : JsString) : SchedulerState × Option LogLine :=
  if (s.runner name).isRunning then
    (s, some ⟨.warn, "scheduler.job.skipped", [("job", .string name), ("reason", .string "still running")]⟩)
  else (s.setRunner name .running, none)

/-- The rest of `execute`, after the job has settled, and the line it logs; `error` is what the job
has failed with. -/
def settle (name : JsString) (error : Option JsValue) (durationMs : ℕ) : SchedulerState × LogLine :=
  (s.setRunner name .settled,
    match error with
    | none => ⟨.info, "scheduler.job.finished", [("job", .string name), ("durationMs", .int durationMs)]⟩
    | some error =>
      ⟨.error, "scheduler.job.failed", [("job", .string name), ("durationMs", .int durationMs), ("error", error)]⟩)

/-- `this.current = undefined`. -/
def clear (name : JsString) : SchedulerState := s.setRunner name .idle

/-! ### `JobScheduler.stop` -/

/-- `registered.filter(({ runner }) => runner.isRunning)`. -/
def mid (jobs : List JsString) : List JsString := jobs.filter fun name => (s.runner name).isRunning

/-- `stop`, up to its first `await`. -/
def callStop (registered : List JsString) : SchedulerState :=
  if registered = [] then { s with stop := .resolved }
  else { s with stop := .stopping (s.mid registered), cronStopped := true }

/-- After every cron job has stopped. -/
def cronsStopped (running : List JsString) : SchedulerState :=
  { s with stop := if running = [] then .resolved else .waiting running .undecided }

/-- The race is decided. -/
def decideRace (running : List JsString) (race : Race) : SchedulerState := { s with stop := .waiting running race }

end SchedulerState

/-- `logger.info('scheduler.drained', …)`. -/
def drainedLine (jobs : List JsString) (durationMs : ℕ) : LogLine :=
  ⟨.info, "scheduler.drained", [("jobs", .array (jobs.map .string)), ("durationMs", .int durationMs)]⟩

/-- `logger.warn('scheduler.drain.timeout', …)`. -/
def drainTimeoutLine (jobs : List JsString) (timeoutMs : ℕ) : LogLine :=
  ⟨.warn, "scheduler.drain.timeout", [("jobs", .array (jobs.map .string)), ("timeoutMs", .int timeoutMs)]⟩

/-- The rest of `stop`, after the race, and the line it logs. -/
def SchedulerState.conclude (s : SchedulerState) (running : List JsString) (race : Race) (durationMs timeoutMs : ℕ) :
    SchedulerState × LogLine :=
  ({ s with stop := .resolved },
    match race with
    | .timedOut => drainTimeoutLine (s.mid running) timeoutMs
    | _ => drainedLine running durationMs)

end NestDdd.Scheduler
