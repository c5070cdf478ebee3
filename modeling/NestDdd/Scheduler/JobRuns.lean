import Mathlib.Logic.Function.Basic
import Mathlib.Data.List.Basic
import NestDdd.Scheduler.JobRunner
import NestDdd.Theory.History
import NestDdd.Theory.Machine

/-!
# The runs of a job

One `JobRunner` (`src/interface/scheduler/job-runner.ts`) under any requests, with its promises: the
guard `this.current` is set when the job's own call has returned, and cleared by a continuation.

## The model

A call of `run` is known by its request `ι`, and so is the execution it starts; `κ` are the calls of
`whenIdle`. `Stage` is how far an execution has come: while its job is on the stack nothing else runs; after
that, every piece between two `await`s is one event. A request comes in a turn of its own, when the stack
is empty and no continuation waits. The job does what it likes, but it has no access to its runner. The
logger does not throw.

## What is proved

* `Inv` — the guard is the execution that has not been cleared, and the record agrees with the stages; every
  event keeps it.
* `never_overlap` — **no run of the machine** has two executions in flight, loses a request or a line, skips
  without cause, rejects a promise or resolves `whenIdle` too early.
* `exists_quiet` — **a turn comes to its end**, whatever the order of the continuations.
* `Inv.refines` — the scheduler's model of a runner does at every event what this one does, and logs the same.
-/

namespace NestDdd.Scheduler

open NestDdd.Shared NestDdd.Theory

variable {ι κ : Type}

/-- What a promise settles with. -/
abbrev Settlement : Type := Except JsValue Unit

/-- How far an execution has come. -/
inductive Stage where
  /-- There is none. -/
  | unstarted
  /-- `job.run()` is on the stack. -/
  | calling
  /-- `execute` awaits the job's promise. -/
  | awaiting
  /-- That has settled; `execute` goes on with the next microtask. -/
  | settled (outcome : Settlement)
  /-- `execute` has come to its end; the callback of `finally` is next. -/
  | ended (outcome : Settlement)
  /-- The callback has run; the promise of `finally` settles next. -/
  | cleared (outcome : Settlement)
  /-- It has settled. -/
  | closed (outcome : Settlement)

namespace Stage

/-- The execution has started. -/
def begun : Stage → Bool
  | unstarted => false
  | _ => true

/-- Its job has settled, or has thrown. -/
def jobEnded : Stage → Bool
  | settled _ | ended _ | cleared _ | closed _ => true
  | _ => false

/-- It has logged its end. -/
def logged : Stage → Bool
  | ended _ | cleared _ | closed _ => true
  | _ => false

/-- `this.current` is its promise. -/
def isCurrent : Stage → Bool
  | awaiting | settled _ | ended _ => true
  | _ => false

/-- A continuation of it waits for the stack to be empty. -/
def queued : Stage → Bool
  | settled _ | ended _ | cleared _ => true
  | _ => false

/-- What the promise of `execute` settled with. -/
def outcome : Stage → Option Settlement
  | ended o | cleared o | closed o => some o
  | _ => none

end Stage

/-- A call of `whenIdle`. -/
inductive IdleCall (ι : Type) where
  /-- There is none. -/
  | uncalled
  /-- It awaits `this.current` as it was. -/
  | waiting (current : Option ι)
  /-- It has settled. -/
  | settled

/-- What is on record. -/
inductive JobEntry (ι κ : Type) where
  /-- `run` was called. -/
  | requested (r : ι)
  /-- `execute` was called, and the job's `run` in it. -/
  | started (r : ι)
  /-- The run was skipped. -/
  | skipped (r : ι)
  /-- The job threw, or its promise settled. -/
  | jobEnded (r : ι)
  /-- The execution has finished. -/
  | finished (r : ι) (durationMs : ℕ)
  /-- The execution has failed. -/
  | failed (r : ι) (durationMs : ℕ) (error : JsValue)
  /-- The promise of `run` settled. -/
  | runSettled (r : ι) (outcome : Settlement)
  /-- `whenIdle` was called. -/
  | idleCalled (w : κ)
  /-- Its promise settled. -/
  | idleSettled (w : κ) (outcome : Settlement)

namespace JobEntry

/-- The line that goes with it. -/
def line (job : JsString) : JobEntry ι κ → Option LogLine
  | skipped _ =>
    some ⟨.warn, "scheduler.job.skipped", [("job", .string job), ("reason", .string "still running")]⟩
  | finished _ durationMs =>
    some ⟨.info, "scheduler.job.finished", [("job", .string job), ("durationMs", .int durationMs)]⟩
  | failed _ durationMs error =>
    some ⟨.error, "scheduler.job.failed",
      [("job", .string job), ("durationMs", .int durationMs), ("error", error)]⟩
  | _ => none

/-- The request it is about, if it is about one. -/
def about : JobEntry ι κ → Option ι
  | requested r | started r | skipped r | jobEnded r | finished r _ | failed r _ _ | runSettled r _ => some r
  | _ => none

/-- It is no rejection. -/
def fulfilled : JobEntry ι κ → Prop
  | runSettled _ o | idleSettled _ o => o = .ok ()
  | _ => True

variable [DecidableEq ι]

/-- The request `r`. -/
def requests (r : ι) : JobEntry ι κ → Bool
  | requested k => k == r
  | _ => false

/-- The start of `r`. -/
def starts (r : ι) : JobEntry ι κ → Bool
  | started k => k == r
  | _ => false

/-- The skip of `r`. -/
def skips (r : ι) : JobEntry ι κ → Bool
  | skipped k => k == r
  | _ => false

/-- The end of `r`, as logged. -/
def ends (r : ι) : JobEntry ι κ → Bool
  | finished k _ => k == r
  | failed k _ _ => k == r
  | _ => false

end JobEntry

/-- A `JobRunner`. -/
structure JobRunner (ι κ : Type) where
  /-- `current`, by the execution whose promise it is. -/
  current : Option ι
  /-- The execution whose job is on the stack. -/
  onStack : Option ι
  /-- The executions. -/
  stage : ι → Stage
  /-- The calls of `whenIdle`. -/
  idle : κ → IdleCall ι
  /-- What has happened. -/
  history : List (JobEntry ι κ)

/-- What can happen. -/
inductive JobEvent (ι κ : Type) where
  /-- `run()` is called. -/
  | request (r : ι)
  /-- `job.run()` returns a promise. -/
  | returns (r : ι)
  /-- `job.run()` throws. -/
  | throws (r : ι) (error : JsValue) (durationMs : ℕ)
  /-- The job's promise settles. -/
  | settle (r : ι) (outcome : Settlement)
  /-- `execute` goes on after it. -/
  | conclude (r : ι) (durationMs : ℕ)
  /-- The callback of `finally` runs. -/
  | clear (r : ι)
  /-- The promise of `finally` settles, and that of `run` after it. -/
  | resolve (r : ι)
  /-- `whenIdle()` is called. -/
  | whenIdle (w : κ)
  /-- Its promise settles. -/
  | resume (w : κ)

namespace JobRunner

variable [DecidableEq ι]

/-- `new JobRunner(job, logger)`. -/
def new : JobRunner ι κ := ⟨none, none, fun _ => .unstarted, fun _ => .uncalled, []⟩

/-- The end of `execute`, after the job came to `outcome`: what it logs, and what its promise settles with. -/
def executeEnd (r : ι) (durationMs : ℕ) : Settlement → JobEntry ι κ × Settlement
  | .ok _ => (.finished r durationMs, .ok ())
  | .error error => (.failed r durationMs error, .ok ())

/-- `run`, up to the job's own call. -/
def run (s : JobRunner ι κ) (r : ι) : JobRunner ι κ :=
  if s.current.isSome then
    { s with history := s.history ++ [.requested r, .skipped r, .runSettled r (.ok ())] }
  else
    { s with
      onStack := some r, stage := Function.update s.stage r .calling
      history := s.history ++ [.requested r, .started r] }

/-- The stack is empty, and no continuation waits. -/
def Quiet (s : JobRunner ι κ) : Prop := s.onStack = none ∧ ∀ r, (s.stage r).queued = false

/-- Which events a state may meet. -/
def Enabled (s : JobRunner ι κ) : JobEvent ι κ → Prop
  | .request r => s.Quiet ∧ s.history.countP (JobEntry.requests r) = 0
  | .returns r | .throws r _ _ => s.onStack = some r
  | .settle r _ => s.stage r = .awaiting
  | .conclude r _ => ∃ o, s.stage r = .settled o
  | .clear r => ∃ o, s.stage r = .ended o
  | .resolve r => ∃ o, s.stage r = .cleared o
  | .whenIdle w => s.onStack = none ∧ s.idle w = .uncalled
  | .resume w => s.idle w = .waiting none ∨ ∃ r o, s.idle w = .waiting (some r) ∧ s.stage r = .closed o

/-- What an event makes of a state. -/
def next [DecidableEq κ] (s : JobRunner ι κ) : JobEvent ι κ → JobRunner ι κ
  | .request r => s.run r
  | .returns r => { s with onStack := none, stage := Function.update s.stage r .awaiting, current := some r }
  | .throws r error durationMs =>
    let (entry, o) := executeEnd r durationMs (.error error)
    { s with
      onStack := none, stage := Function.update s.stage r (.ended o), current := some r
      history := s.history ++ [.jobEnded r, entry] }
  | .settle r o =>
    { s with stage := Function.update s.stage r (.settled o), history := s.history ++ [.jobEnded r] }
  | .conclude r durationMs =>
    match s.stage r with
    | .settled outcome =>
      let (entry, o) := executeEnd r durationMs outcome
      { s with stage := Function.update s.stage r (.ended o), history := s.history ++ [entry] }
    | _ => s
  | .clear r =>
    match s.stage r with
    | .ended o => { s with stage := Function.update s.stage r (.cleared o), current := none }
    | _ => s
  | .resolve r =>
    match s.stage r with
    | .cleared o =>
      { s with stage := Function.update s.stage r (.closed o), history := s.history ++ [.runSettled r o] }
    | _ => s
  | .whenIdle w =>
    { s with idle := Function.update s.idle w (.waiting s.current), history := s.history ++ [.idleCalled w] }
  | .resume w =>
    match s.idle w with
    | .waiting none =>
      { s with idle := Function.update s.idle w .settled, history := s.history ++ [.idleSettled w (.ok ())] }
    | .waiting (some r) =>
      match s.stage r with
      | .closed o => { s with idle := Function.update s.idle w .settled, history := s.history ++ [.idleSettled w o] }
      | _ => s
    | _ => s

/-- A runner and its job. -/
def machine [DecidableEq κ] : Machine (JobRunner ι κ) (JobEvent ι κ) where
  Initial s := s = new
  Enabled := Enabled
  next := next

/-! ### The guard -/

/-- The guard and the stack are those of the stages. -/
structure Guarded (s : JobRunner ι κ) : Prop where
  /-- The stack has the execution that is calling its job. -/
  stack : ∀ r, s.onStack = some r ↔ s.stage r = .calling
  /-- The guard is the execution that has not been cleared. -/
  current : ∀ r, s.current = some r ↔ (s.stage r).isCurrent = true
  /-- They are not two. -/
  apart : s.onStack = none ∨ s.current = none

/-- An execution is in flight from its start to the line that says how it ended. -/
def InFlight (s : JobRunner ι κ) (r : ι) : Prop := (s.stage r).begun = true ∧ (s.stage r).logged = false

variable {s : JobRunner ι κ} {r j k : ι} {w : κ} {stage : Stage}

omit [DecidableEq ι] in
/-- What is in flight is on the stack, or behind the guard. -/
theorem Guarded.of_inFlight (h : s.Guarded) (hr : s.InFlight r) : s.onStack = some r ∨ s.current = some r := by
  obtain ⟨hbegun, hlogged⟩ := hr
  rw [h.stack, h.current]
  cases hs : s.stage r with
  | calling => exact .inl rfl
  | awaiting => exact .inr rfl
  | settled o => exact .inr rfl
  | unstarted => simp [hs, Stage.begun] at hbegun
  | _ => simp [hs, Stage.logged] at hlogged

omit [DecidableEq ι] in
/-- **At most one execution is in flight.** -/
theorem Guarded.inFlight_unique (h : s.Guarded) (hj : s.InFlight j) (hk : s.InFlight k) : j = k := by
  rcases h.of_inFlight hj with hj | hj <;> rcases h.of_inFlight hk with hk | hk
  · exact Option.some.inj (hj.symm.trans hk)
  · rcases h.apart with hnone | hnone
    · exact absurd (hj.symm.trans hnone) (Option.some_ne_none j)
    · exact absurd (hk.symm.trans hnone) (Option.some_ne_none k)
  · rcases h.apart with hnone | hnone
    · exact absurd (hk.symm.trans hnone) (Option.some_ne_none k)
    · exact absurd (hj.symm.trans hnone) (Option.some_ne_none j)
  · exact Option.some.inj (hj.symm.trans hk)

/-- Another stage of one execution keeps what is said of the stages of all. -/
theorem forall_stage {P : ι → Stage → Prop} (hr : P r stage) (h : ∀ j, j ≠ r → P j (s.stage j)) (j : ι) :
    P j (Function.update s.stage r stage j) := by
  by_cases hj : j = r
  · rw [hj, Function.update_self]
    exact hr
  · rw [Function.update_of_ne hj]
    exact h j hj

/-- A stage on the same side of the guard and the stack. -/
theorem Guarded.update (h : s.Guarded) (hcurrent : stage.isCurrent = (s.stage r).isCurrent)
    (hcalling : stage ≠ .calling ∧ s.stage r ≠ .calling) (history : List (JobEntry ι κ)) :
    Guarded { s with stage := Function.update s.stage r stage, history := history } where
  stack := by
    refine forall_stage (P := fun j p => s.onStack = some j ↔ p = .calling) ?_ fun j _ => h.stack j
    exact iff_of_false (fun hr => hcalling.2 ((h.stack r).mp hr)) hcalling.1
  current := by
    refine forall_stage (P := fun j p => s.current = some j ↔ p.isCurrent = true) ?_ fun j _ => h.current j
    rw [hcurrent]
    exact h.current r
  apart := h.apart

theorem Guarded.start (h : s.Guarded) (hquiet : s.Quiet) (hidle : s.current = none) (history : List (JobEntry ι κ)) :
    Guarded { s with onStack := some r, stage := Function.update s.stage r .calling, history := history } where
  stack := by
    refine forall_stage (P := fun j p => some r = some j ↔ p = .calling) (by simp) fun j hj => ?_
    refine iff_of_false (fun heq => hj (Option.some.inj heq).symm) fun hc => ?_
    have hstack := (h.stack j).mpr hc
    rw [hquiet.1] at hstack
    exact Option.some_ne_none j hstack.symm
  current := by
    refine forall_stage (P := fun j p => s.current = some j ↔ p.isCurrent = true) ?_ fun j _ => h.current j
    rw [hidle]
    simp [Stage.isCurrent]
  apart := .inr hidle

/-- The job's call returns or throws: the guard is set. -/
theorem Guarded.enter (h : s.Guarded) (hr : s.onStack = some r) (hcurrent : stage.isCurrent = true)
    (history : List (JobEntry ι κ)) :
    Guarded
      { s with
        onStack := none, stage := Function.update s.stage r stage, current := some r, history := history } where
  stack := by
    refine forall_stage (P := fun j p => none = some j ↔ p = .calling) ?_ fun j hj => ?_
    · refine iff_of_false (fun h => Option.some_ne_none r h.symm) fun hc => ?_
      rw [hc] at hcurrent
      exact Bool.false_ne_true hcurrent
    · refine iff_of_false (fun h => Option.some_ne_none j h.symm) fun hc => hj ?_
      exact (Option.some.inj (hr.symm.trans ((h.stack j).mpr hc))).symm
  current := by
    refine forall_stage (P := fun j p => some r = some j ↔ p.isCurrent = true) (by simp [hcurrent]) fun j hj => ?_
    refine iff_of_false (fun heq => hj (Option.some.inj heq).symm) fun hc => ?_
    have hguard := (h.current j).mpr hc
    rcases h.apart with hnone | hnone
    · exact Option.some_ne_none r (hr.symm.trans hnone)
    · exact Option.some_ne_none j (hguard.symm.trans hnone)
  apart := .inl rfl

/-- The callback of `finally`: the guard was this execution, and is none. -/
theorem Guarded.clear (h : s.Guarded) {o o' : Settlement} (hr : s.stage r = .ended o) :
    Guarded { s with stage := Function.update s.stage r (.cleared o'), current := none } where
  stack := by
    refine forall_stage (P := fun j p => s.onStack = some j ↔ p = .calling) ?_ fun j _ => h.stack j
    refine iff_of_false (fun hc => ?_) (by simp)
    have hcalling := (h.stack r).mp hc
    rw [hr] at hcalling
    cases hcalling
  current := by
    have hguard : s.current = some r := (h.current r).mpr (by rw [hr]; rfl)
    refine forall_stage (P := fun j p => none = some j ↔ p.isCurrent = true) (by simp [Stage.isCurrent]) fun j hj => ?_
    refine iff_of_false (fun h => Option.some_ne_none j h.symm) fun hc => hj ?_
    exact (Option.some.inj (hguard.symm.trans ((h.current j).mpr hc))).symm
  apart := .inr rfl

/-! ### The record -/

/-- The record of a request agrees with how far its execution has come. -/
structure Recorded (history : List (JobEntry ι κ)) (stage : Stage) (r : ι) : Prop where
  /-- It was made once. -/
  requests_le : history.countP (JobEntry.requests r) ≤ 1
  /-- It has started an execution or was skipped. -/
  balance : history.countP (JobEntry.starts r) + history.countP (JobEntry.skips r) =
    history.countP (JobEntry.requests r)
  /-- An execution starts once. -/
  starts : history.countP (JobEntry.starts r) = if stage.begun then 1 else 0
  /-- Its job ends when the record says so. -/
  jobEnded : .jobEnded r ∈ history ↔ stage.jobEnded = true
  /-- Its end is logged once. -/
  ends : history.countP (JobEntry.ends r) = if stage.logged then 1 else 0

/-- What is added about others makes no difference. -/
theorem Recorded.append {history added : List (JobEntry ι κ)} (h : Recorded history stage r)
    (hadded : ∀ e ∈ added, e.about ≠ some r) : Recorded (history ++ added) stage r := by
  have hrequests : added.countP (JobEntry.requests r) = 0 := by
    refine List.countP_eq_zero.mpr fun e he hp => hadded e he ?_
    cases e <;> simp_all [JobEntry.requests, JobEntry.about]
  have hstarts : added.countP (JobEntry.starts r) = 0 := by
    refine List.countP_eq_zero.mpr fun e he hp => hadded e he ?_
    cases e <;> simp_all [JobEntry.starts, JobEntry.about]
  have hskips : added.countP (JobEntry.skips r) = 0 := by
    refine List.countP_eq_zero.mpr fun e he hp => hadded e he ?_
    cases e <;> simp_all [JobEntry.skips, JobEntry.about]
  have hends : added.countP (JobEntry.ends r) = 0 := by
    refine List.countP_eq_zero.mpr fun e he hp => hadded e he ?_
    cases e <;> simp_all [JobEntry.ends, JobEntry.about]
  have hjob : .jobEnded r ∉ added := fun hm => hadded _ hm rfl
  refine ⟨?_, ?_, ?_, ?_, ?_⟩
  · rw [List.countP_append, hrequests]
    exact h.requests_le
  · rw [List.countP_append, List.countP_append, List.countP_append, hrequests, hstarts, hskips]
    exact h.balance
  · rw [List.countP_append, hstarts]
    exact h.starts
  · rw [List.mem_append, or_iff_left hjob]
    exact h.jobEnded
  · rw [List.countP_append, hends]
    exact h.ends

/-- One execution goes on, and the others stay as they are. -/
theorem recorded_update {added : List (JobEntry ι κ)} (h : ∀ j, Recorded s.history (s.stage j) j)
    (hr : Recorded (s.history ++ added) stage r) (hadded : ∀ e ∈ added, e.about = some r) (j : ι) :
    Recorded (s.history ++ added) (Function.update s.stage r stage j) j := by
  refine forall_stage (P := fun j p => Recorded (s.history ++ added) p j) hr (fun j hj => ?_) j
  exact (h j).append fun e he heq => hj (Option.some.inj (heq.symm.trans (hadded e he)))

/-! ### What has to have happened before -/

/-- An execution has started, and the line that says how it ended is not there. -/
def InFlightAt (past : List (JobEntry ι κ)) (r : ι) : Prop :=
  .started r ∈ past ∧ past.countP (JobEntry.ends r) = 0

/-- What an entry needs before it: a skip, an execution whose job has not ended; the end of `whenIdle`, that of
the execution that was in flight at its call. -/
def Keeps (past : List (JobEntry ι κ)) : JobEntry ι κ → Prop
  | .skipped _ => ∃ k, .started k ∈ past ∧ .jobEnded k ∉ past
  | .idleSettled w _ => ∀ a b, past = a ++ .idleCalled w :: b → ∀ k, InFlightAt a k → 0 < past.countP (JobEntry.ends k)
  | _ => True

/-- A call of `whenIdle` awaits what was in flight when it came. -/
def Awaits (s : JobRunner ι κ) (w : κ) : Prop :=
  ∀ c, s.idle w = .waiting c → ∀ a b, s.history = a ++ .idleCalled w :: b → ∀ k, InFlightAt a k → c = some k

omit [DecidableEq ι] in
/-- An entry of a history that has grown by others was there before. -/
theorem split_of_append {history added a b : List (JobEntry ι κ)} {e : JobEntry ι κ} (he : e ∉ added)
    (h : history ++ added = a ++ e :: b) : ∃ b', history = a ++ e :: b' := by
  rcases List.append_eq_append_iff.mp h with ⟨c, ha, hc⟩ | ⟨c, hh, hc⟩
  · exact absurd (by rw [hc]; simp) he
  · cases c with
    | nil =>
      have hadded : added = e :: b := hc.symm
      exact absurd (hadded ▸ List.mem_cons_self) he
    | cons d c =>
      obtain ⟨rfl, -⟩ := List.cons.inj hc
      exact ⟨c, hh⟩

/-! ### The invariant -/

/-- **The invariant** of a runner. -/
structure Inv (s : JobRunner ι κ) : Prop where
  /-- The guard and the stack are those of the stages. -/
  guarded : s.Guarded
  /-- The record agrees with the stages. -/
  recorded : ∀ r, Recorded s.history (s.stage r) r
  /-- The promise of `execute` does not reject. -/
  outcome : ∀ r o, (s.stage r).outcome = some o → o = .ok ()
  /-- Nor do those of `run` and `whenIdle`. -/
  fulfilled : ∀ e ∈ s.history, e.fulfilled
  /-- Every entry has what it needs before it. -/
  throughout : Throughout Keeps s.history
  /-- A call of `whenIdle` that is not there is not on record. -/
  uncalled : ∀ w, s.idle w = .uncalled → .idleCalled w ∉ s.history
  /-- The others await what was in flight. -/
  awaits : ∀ w, s.Awaits w

theorem Awaits.append {s' : JobRunner ι κ} {added : List (JobEntry ι κ)} (h : s.Awaits w)
    (hidle : s'.idle w = s.idle w) (hhistory : s'.history = s.history ++ added) (hadded : .idleCalled w ∉ added) :
    s'.Awaits w := by
  intro c hc a b hab
  rw [hhistory] at hab
  obtain ⟨b', hb'⟩ := split_of_append hadded hab
  exact h c (hidle ▸ hc) a b' hb'

/-- An execution goes on, with what is on record about it. -/
theorem Inv.advance (h : s.Inv) {s' : JobRunner ι κ} (added : List (JobEntry ι κ))
    (hhistory : s'.history = s.history ++ added) (hidle : s'.idle = s.idle)
    (hstage : s'.stage = Function.update s.stage r stage) (hguarded : s'.Guarded)
    (hrecorded : Recorded (s.history ++ added) stage r) (habout : ∀ e ∈ added, e.about = some r)
    (houtcome : ∀ o, stage.outcome = some o → o = .ok ()) (hfulfilled : ∀ e ∈ added, e.fulfilled)
    (hkeeps : ∀ e ∈ added, ∀ past : List (JobEntry ι κ), Keeps past e) : s'.Inv := by
  have hcalled (w : κ) : .idleCalled w ∉ added := fun hm => Option.some_ne_none r (habout _ hm).symm
  refine ⟨hguarded, fun j => ?_, fun j o => ?_, fun e he => ?_, ?_, fun w hw hm => ?_, fun w => ?_⟩
  · rw [hhistory, hstage]
    exact recorded_update h.recorded hrecorded habout j
  · rw [hstage]
    exact forall_stage (P := fun j p => p.outcome = some o → o = .ok ()) (houtcome o) (fun j _ => h.outcome j o) j
  · rw [hhistory] at he
    exact (List.mem_append.mp he).elim (h.fulfilled e) (hfulfilled e)
  · rw [hhistory]
    exact throughout_plain h.throughout hkeeps
  · rw [hhistory] at hm
    rw [hidle] at hw
    exact (List.mem_append.mp hm).elim (h.uncalled w hw) (hcalled w)
  · exact (h.awaits w).append (congrFun hidle w) hhistory (hcalled w)

theorem Recorded.stage_eq {history : List (JobEntry ι κ)} (h : Recorded history stage r)
    (hfresh : history.countP (JobEntry.requests r) = 0) : stage = .unstarted := by
  have hbalance := h.balance
  have hstarts := h.starts
  cases stage with
  | unstarted => rfl
  | _ =>
    simp only [Stage.begun, if_true] at hstarts
    omega

/-- An execution that has started goes on. -/
theorem Recorded.advance {history added : List (JobEntry ι κ)} {stage' : Stage} (h : Recorded history stage r)
    (hbegun : stage'.begun = stage.begun)
    (hadded : ∀ e ∈ added, e.requests r = false ∧ e.starts r = false ∧ e.skips r = false)
    (hjob : .jobEnded r ∈ added ∨ stage.jobEnded = true ↔ stage'.jobEnded = true)
    (hends : (if stage.logged then 1 else 0) + added.countP (JobEntry.ends r) = if stage'.logged then 1 else 0) :
    Recorded (history ++ added) stage' r := by
  have hrequests : added.countP (JobEntry.requests r) = 0 :=
    List.countP_eq_zero.mpr fun e he => by simp [(hadded e he).1]
  have hstarts : added.countP (JobEntry.starts r) = 0 :=
    List.countP_eq_zero.mpr fun e he => by simp [(hadded e he).2.1]
  have hskips : added.countP (JobEntry.skips r) = 0 :=
    List.countP_eq_zero.mpr fun e he => by simp [(hadded e he).2.2]
  refine ⟨?_, ?_, ?_, ?_, ?_⟩
  · rw [List.countP_append, hrequests]
    exact h.requests_le
  · rw [List.countP_append, List.countP_append, List.countP_append, hrequests, hstarts, hskips]
    exact h.balance
  · rw [List.countP_append, hstarts, hbegun]
    exact h.starts
  · rw [List.mem_append, h.jobEnded, or_comm]
    exact hjob
  · rw [List.countP_append, h.ends]
    exact hends

/-- A request finds the runner idle. -/
theorem Inv.start (h : s.Inv) (hquiet : s.Quiet) (hfresh : s.history.countP (JobEntry.requests r) = 0)
    (hidle : s.current = none) :
    Inv { s with
      onStack := some r, stage := Function.update s.stage r .calling
      history := s.history ++ [.requested r, .started r] } := by
  have hrecorded := h.recorded r
  rw [hrecorded.stage_eq hfresh] at hrecorded
  have hstarts : s.history.countP (JobEntry.starts r) = 0 := by simpa [Stage.begun] using hrecorded.starts
  have hskips : s.history.countP (JobEntry.skips r) = 0 := by
    have hbalance := hrecorded.balance
    omega
  refine h.advance [.requested r, .started r] rfl rfl rfl (h.guarded.start hquiet hidle _) ⟨?_, ?_, ?_, ?_, ?_⟩
    (by simp [JobEntry.about]) nofun (by simp [JobEntry.fulfilled]) (by simp [Keeps])
  · simp [JobEntry.requests, hfresh]
  · simp [JobEntry.requests, JobEntry.starts, JobEntry.skips, hfresh, hstarts, hskips]
  · simp [JobEntry.starts, Stage.begun, hstarts]
  · simpa [Stage.jobEnded] using hrecorded.jobEnded
  · simpa [JobEntry.ends, Stage.logged] using hrecorded.ends

/-- The job's call returns. -/
theorem Inv.returns (h : s.Inv) (hr : s.onStack = some r) :
    Inv { s with onStack := none, stage := Function.update s.stage r .awaiting, current := some r } := by
  have hrecorded := h.recorded r
  rw [(h.guarded.stack r).mp hr] at hrecorded
  exact h.advance [] (List.append_nil _).symm rfl rfl (h.guarded.enter hr rfl s.history)
    (hrecorded.advance rfl (by simp) (by simp [Stage.jobEnded]) (by simp [Stage.logged])) (by simp) nofun (by simp)
    (by simp)

/-- The job's call throws: the execution has ended before the guard is set. -/
theorem Inv.throws (h : s.Inv) (hr : s.onStack = some r) (error : JsValue) (durationMs : ℕ) :
    Inv { s with
      onStack := none, stage := Function.update s.stage r (.ended (.ok ())), current := some r
      history := s.history ++ [.jobEnded r, .failed r durationMs error] } := by
  have hrecorded := h.recorded r
  rw [(h.guarded.stack r).mp hr] at hrecorded
  refine h.advance [.jobEnded r, .failed r durationMs error] rfl rfl rfl (h.guarded.enter hr rfl _)
    (hrecorded.advance rfl ?_ (by simp [Stage.jobEnded]) ?_) (by simp [JobEntry.about])
    (fun o ho => (Option.some.inj ho).symm) (by simp [JobEntry.fulfilled]) (by simp [Keeps])
  · simp [JobEntry.requests, JobEntry.starts, JobEntry.skips]
  · simp [JobEntry.ends, Stage.logged]

/-- The job's promise settles. -/
theorem Inv.settle (h : s.Inv) (hr : s.stage r = .awaiting) (o : Settlement) :
    Inv { s with stage := Function.update s.stage r (.settled o), history := s.history ++ [.jobEnded r] } := by
  have hrecorded := h.recorded r
  rw [hr] at hrecorded
  refine h.advance [.jobEnded r] rfl rfl rfl (h.guarded.update (by rw [hr]; rfl) (by simp [hr]) _)
    (hrecorded.advance rfl ?_ (by simp [Stage.jobEnded]) ?_) (by simp [JobEntry.about]) nofun
    (by simp [JobEntry.fulfilled]) (by simp [Keeps])
  · simp [JobEntry.requests, JobEntry.starts, JobEntry.skips]
  · simp [JobEntry.ends, Stage.logged]

/-- `execute` goes on, and logs how the execution has ended. -/
theorem Inv.conclude (h : s.Inv) {o : Settlement} (hr : s.stage r = .settled o) (durationMs : ℕ) :
    Inv { s with
      stage := Function.update s.stage r (.ended (@executeEnd ι κ r durationMs o).2)
      history := s.history ++ [(executeEnd r durationMs o).1] } := by
  have hrecorded := h.recorded r
  rw [hr] at hrecorded
  -- `catch` makes no difference but to the line
  obtain ⟨e, he, hline⟩ : ∃ e : JobEntry ι κ, executeEnd r durationMs o = (e, .ok ()) ∧
      (e = .finished r durationMs ∨ ∃ error, e = .failed r durationMs error) := by
    cases o with
    | ok _ => exact ⟨_, rfl, .inl rfl⟩
    | error error => exact ⟨_, rfl, .inr ⟨error, rfl⟩⟩
  rw [he]
  refine h.advance [e] rfl rfl rfl (h.guarded.update (by rw [hr]; rfl) (by simp [hr]) _)
    (hrecorded.advance rfl ?_ ?_ ?_) ?_ (fun o ho => (Option.some.inj ho).symm) ?_ ?_
  all_goals
    rcases hline with rfl | ⟨error, rfl⟩ <;>
      simp [JobEntry.requests, JobEntry.starts, JobEntry.skips, JobEntry.ends, JobEntry.about, JobEntry.fulfilled,
        Stage.jobEnded, Stage.logged, Keeps]

/-- The callback of `finally`. -/
theorem Inv.clear (h : s.Inv) {o : Settlement} (hr : s.stage r = .ended o) :
    Inv { s with stage := Function.update s.stage r (.cleared o), current := none } := by
  have hrecorded := h.recorded r
  rw [hr] at hrecorded
  have houtcome := h.outcome r o (by rw [hr]; rfl)
  exact h.advance [] (List.append_nil _).symm rfl rfl (h.guarded.clear hr)
    (hrecorded.advance rfl (by simp) (by simp [Stage.jobEnded]) (by simp [Stage.logged])) (by simp)
    (fun o' ho => (Option.some.inj ho) ▸ houtcome) (by simp) (by simp)

/-- The promise of `run` settles. -/
theorem Inv.resolve (h : s.Inv) {o : Settlement} (hr : s.stage r = .cleared o) :
    Inv { s with stage := Function.update s.stage r (.closed o), history := s.history ++ [.runSettled r o] } := by
  have hrecorded := h.recorded r
  rw [hr] at hrecorded
  have houtcome := h.outcome r o (by rw [hr]; rfl)
  refine h.advance [.runSettled r o] rfl rfl rfl (h.guarded.update (by rw [hr]; rfl) (by simp [hr]) _)
    (hrecorded.advance rfl ?_ (by simp [Stage.jobEnded]) ?_) (by simp [JobEntry.about])
    (fun o' ho => (Option.some.inj ho) ▸ houtcome) (by simpa [JobEntry.fulfilled] using houtcome) (by simp [Keeps])
  · simp [JobEntry.requests, JobEntry.starts, JobEntry.skips]
  · simp [JobEntry.ends, Stage.logged]

theorem started_mem_iff {history : List (JobEntry ι κ)} (h : Recorded history stage r) :
    .started r ∈ history ↔ stage.begun = true := by
  have hpos : .started r ∈ history ↔ 0 < history.countP (JobEntry.starts r) := by
    rw [List.countP_pos_iff]
    constructor
    · exact fun hm => ⟨_, hm, by simp [JobEntry.starts]⟩
    · rintro ⟨e, he, hp⟩
      cases e <;> simp_all [JobEntry.starts]
  rw [hpos, h.starts]
  cases stage.begun <;> simp

/-- The record knows what is in flight. -/
theorem Inv.inFlightAt_iff (h : s.Inv) : InFlightAt s.history r ↔ s.InFlight r := by
  rw [InFlightAt, InFlight, started_mem_iff (h.recorded r), (h.recorded r).ends]
  cases (s.stage r).logged <;> simp

omit [DecidableEq ι] in
/-- Between two turns, what is behind the guard is a job that has not ended. -/
theorem Guarded.awaiting (h : s.Guarded) (hquiet : s.Quiet) (hr : s.current = some r) : s.stage r = .awaiting := by
  have hcurrent := (h.current r).mp hr
  have hqueued := hquiet.2 r
  cases hs : s.stage r with
  | awaiting => rfl
  | settled o => simp [hs, Stage.queued] at hqueued
  | ended o => simp [hs, Stage.queued] at hqueued
  | _ => simp [hs, Stage.isCurrent] at hcurrent

/-- A request finds a run still going. -/
theorem Inv.skip (h : s.Inv) (hquiet : s.Quiet) (hfresh : s.history.countP (JobEntry.requests r) = 0)
    (hbusy : s.current = some k) :
    Inv { s with history := s.history ++ [.requested r, .skipped r, .runSettled r (.ok ())] } := by
  have hrecorded := h.recorded r
  rw [hrecorded.stage_eq hfresh] at hrecorded
  have hstarts : s.history.countP (JobEntry.starts r) = 0 := by simpa [Stage.begun] using hrecorded.starts
  have hskips : s.history.countP (JobEntry.skips r) = 0 := by
    have hbalance := hrecorded.balance
    omega
  have hawaiting := h.guarded.awaiting hquiet hbusy
  have hstarted : .started k ∈ s.history := (started_mem_iff (h.recorded k)).mpr (by rw [hawaiting]; rfl)
  have hpending : .jobEnded k ∉ s.history := fun hm => by
    have hended := (h.recorded k).jobEnded.mp hm
    rw [hawaiting] at hended
    exact Bool.false_ne_true hended
  refine ⟨⟨h.guarded.stack, h.guarded.current, h.guarded.apart⟩, fun j => ?_, h.outcome, fun e he => ?_, ?_,
    fun w hw hm => ?_, fun w => ?_⟩
  · by_cases hj : j = r
    · subst hj
      refine ⟨?_, ?_, ?_, ?_, ?_⟩
      · simp [JobEntry.requests, hfresh]
      · simp [JobEntry.requests, JobEntry.starts, JobEntry.skips, hfresh, hstarts, hskips]
      · simpa [JobEntry.starts] using (h.recorded j).starts
      · simpa using (h.recorded j).jobEnded
      · simpa [JobEntry.ends] using (h.recorded j).ends
    · refine (h.recorded j).append fun e he heq => hj ?_
      simp only [List.mem_cons, List.not_mem_nil, or_false] at he
      rcases he with rfl | rfl | rfl <;> exact (Option.some.inj heq).symm
  · rcases List.mem_append.mp he with he | he
    · exact h.fulfilled e he
    · simp only [List.mem_cons, List.not_mem_nil, or_false] at he
      rcases he with rfl | rfl | rfl <;> simp [JobEntry.fulfilled]
  · have hrequest : Throughout Keeps (s.history ++ [.requested r]) :=
      throughout_plain h.throughout (by simp [Keeps])
    have hskip : Throughout Keeps (s.history ++ [.requested r] ++ [.skipped r]) :=
      throughout_concat.mpr ⟨hrequest, k, by simp [hstarted], by simp [hpending]⟩
    have hsettled : Throughout Keeps (s.history ++ [.requested r] ++ [.skipped r] ++ [.runSettled r (.ok ())]) :=
      throughout_plain hskip (by simp [Keeps])
    simpa using hsettled
  · exact h.uncalled w hw (by simpa using hm)
  · exact (h.awaits w).append rfl rfl (by simp)

/-- A call of `whenIdle`. -/
theorem Inv.whenIdle [DecidableEq κ] (h : s.Inv) (hstack : s.onStack = none) (hw : s.idle w = .uncalled) :
    Inv { s with idle := Function.update s.idle w (.waiting s.current), history := s.history ++ [.idleCalled w] } := by
  refine ⟨⟨h.guarded.stack, h.guarded.current, h.guarded.apart⟩,
    fun j => (h.recorded j).append (by simp [JobEntry.about]),
    h.outcome, fun e he => ?_, throughout_plain h.throughout (by simp [Keeps]), fun v hv hm => ?_, fun v => ?_⟩
  · rcases List.mem_append.mp he with he | he
    · exact h.fulfilled e he
    · rw [List.mem_singleton.mp he]
      trivial
  · by_cases hvw : v = w
    · rw [hvw] at hv
      simp at hv
    · refine h.uncalled v ?_ (by simpa [hvw] using hm)
      simpa [hvw] using hv
  · by_cases hvw : v = w
    · subst hvw
      intro c hc a b hab k hk
      simp only [Function.update_self, IdleCall.waiting.injEq] at hc
      rcases eq_or_eq_of_concat hab with ⟨rfl, -⟩ | ⟨b', hb'⟩
      · rcases h.guarded.of_inFlight (h.inFlightAt_iff.mp hk) with hon | hcurrent
        · exact absurd (hon.symm.trans hstack) (Option.some_ne_none k)
        · exact hc ▸ hcurrent
      · exact absurd (by rw [hb']; simp) (h.uncalled v hw)
    · exact (h.awaits v).append (Function.update_of_ne hvw _ _) rfl (by simp [hvw])

/-- The promise of `whenIdle` settles. -/
theorem Inv.resume [DecidableEq κ] (h : s.Inv) {c : Option ι} {o : Settlement} (hw : s.idle w = .waiting c)
    (ho : o = .ok ()) (hclosed : ∀ k, c = some k → s.stage k = .closed o) :
    Inv { s with idle := Function.update s.idle w .settled, history := s.history ++ [.idleSettled w o] } := by
  refine ⟨⟨h.guarded.stack, h.guarded.current, h.guarded.apart⟩,
    fun j => (h.recorded j).append (by simp [JobEntry.about]),
    h.outcome, fun e he => ?_, throughout_concat.mpr ⟨h.throughout, fun a b hab k hk => ?_⟩, fun v hv hm => ?_,
    fun v => ?_⟩
  · rcases List.mem_append.mp he with he | he
    · exact h.fulfilled e he
    · rw [List.mem_singleton.mp he]
      exact ho
  · have hends := (h.recorded k).ends
    rw [hclosed k (h.awaits w c hw a b hab k hk)] at hends
    simp only [Stage.logged, if_true] at hends
    omega
  · have hvw : v ≠ w := by
      rintro rfl
      simp at hv
    refine h.uncalled v ?_ (by simpa using hm)
    simpa [hvw] using hv
  · by_cases hvw : v = w
    · subst hvw
      intro c hc
      simp at hc
    · exact (h.awaits v).append (Function.update_of_ne hvw _ _) rfl (by simp)

/-- Every event keeps the invariant. -/
theorem Inv.next [DecidableEq κ] (h : s.Inv) {e : JobEvent ι κ} (he : s.Enabled e) : (s.next e).Inv := by
  cases e with
  | request r =>
    cases hc : s.current with
    | none =>
      simp only [JobRunner.next, run, hc, Option.isSome_none, Bool.false_eq_true, if_false]
      exact hc ▸ h.start he.1 he.2 hc
    | some k =>
      simp only [JobRunner.next, run, hc, Option.isSome_some, if_true]
      exact hc ▸ h.skip he.1 he.2 hc
  | returns r => exact h.returns he
  | throws r error durationMs => exact h.throws he error durationMs
  | settle r o => exact h.settle he o
  | conclude r durationMs =>
    obtain ⟨o, hr⟩ := he
    simp only [JobRunner.next, hr]
    exact h.conclude hr durationMs
  | clear r =>
    obtain ⟨o, hr⟩ := he
    simp only [JobRunner.next, hr]
    exact h.clear hr
  | resolve r =>
    obtain ⟨o, hr⟩ := he
    simp only [JobRunner.next, hr]
    exact h.resolve hr
  | whenIdle w => exact h.whenIdle he.1 he.2
  | resume w =>
    rcases he with hw | ⟨r, o, hw, hr⟩
    · simp only [JobRunner.next, hw]
      exact h.resume hw rfl nofun
    · simp only [JobRunner.next, hw, hr]
      refine h.resume hw (h.outcome r o (by rw [hr]; rfl)) fun k hk => ?_
      obtain rfl : r = k := Option.some.inj hk
      exact hr

theorem inv_new : (new : JobRunner ι κ).Inv where
  guarded := ⟨by simp [new], by simp [new, Stage.isCurrent], .inl rfl⟩
  recorded r := ⟨by simp [new], by simp [new], by simp [new, Stage.begun], by simp [new, Stage.jobEnded],
    by simp [new, Stage.logged]⟩
  outcome r o ho := by simp [new, Stage.outcome] at ho
  fulfilled := by simp [new]
  throughout := throughout_nil Keeps
  uncalled := by simp [new]
  awaits w c hc := by simp [new] at hc

theorem inv_run [DecidableEq κ] {es : List (JobEvent ι κ)} (h : machine.Run es s) : s.Inv :=
  h.invariant (fun s hs => by rw [hs]; exact inv_new) fun _ _ hs he => hs.next he

/-! ### What becomes of the requests -/

/-- Every request has started an execution or was skipped, and not both. -/
theorem Inv.started_or_skipped (h : s.Inv) (hr : .requested r ∈ s.history) :
    (s.history.countP (JobEntry.starts r) = 1 ∧ s.history.countP (JobEntry.skips r) = 0) ∨
      (s.history.countP (JobEntry.starts r) = 0 ∧ s.history.countP (JobEntry.skips r) = 1) := by
  have hpos : 0 < s.history.countP (JobEntry.requests r) :=
    List.countP_pos_iff.mpr ⟨_, hr, by simp [JobEntry.requests]⟩
  have hle := (h.recorded r).requests_le
  have hbalance := (h.recorded r).balance
  omega

theorem Inv.ends_le (h : s.Inv) (r : ι) : s.history.countP (JobEntry.ends r) ≤ 1 := by
  rw [(h.recorded r).ends]
  split <;> omega

/-- Between two turns, an execution whose job has ended has logged it. -/
theorem Inv.ends_eq (h : s.Inv) (hquiet : s.Quiet) (hr : .jobEnded r ∈ s.history) :
    s.history.countP (JobEntry.ends r) = 1 := by
  have hended := (h.recorded r).jobEnded.mp hr
  have hqueued := hquiet.2 r
  rw [(h.recorded r).ends]
  cases hs : s.stage r with
  | closed o => rfl
  | settled o => simp [hs, Stage.queued] at hqueued
  | ended o => simp [hs, Stage.queued] at hqueued
  | cleared o => simp [hs, Stage.queued] at hqueued
  | _ => simp [hs, Stage.jobEnded] at hended

/-- Between two turns, the runner is idle if every job that started has ended. -/
theorem Inv.current_eq_none (h : s.Inv) (hquiet : s.Quiet)
    (hended : ∀ r, .started r ∈ s.history → .jobEnded r ∈ s.history) : s.current = none := by
  cases hc : s.current with
  | none => rfl
  | some k =>
    have hawaiting := h.guarded.awaiting hquiet hc
    have hstarted : .started k ∈ s.history := (started_mem_iff (h.recorded k)).mpr (by rw [hawaiting]; rfl)
    have hjob := (h.recorded k).jobEnded.mp (hended k hstarted)
    rw [hawaiting] at hjob
    exact absurd hjob Bool.false_ne_true

/-! ### Coming to rest -/

/-- The continuations. -/
def Own : JobEvent ι κ → Prop
  | .conclude _ _ | .clear _ | .resolve _ => True
  | _ => False

/-- The continuations an execution has before it, once its job has settled. -/
def steps : Stage → ℕ
  | .settled _ => 3
  | .ended _ => 2
  | .cleared _ => 1
  | _ => 0

/-- The execution that starts. -/
def started? : JobEntry ι κ → Option ι
  | .started r => some r
  | _ => none

/-- The executions that have started. -/
def executions (s : JobRunner ι κ) : Finset ι := (s.history.filterMap started?).toFinset

theorem mem_executions : r ∈ s.executions ↔ .started r ∈ s.history := by
  simp only [executions, List.mem_toFinset, List.mem_filterMap]
  constructor
  · rintro ⟨e, he, hr⟩
    cases e <;> cases hr
    exact he
  · exact fun hr => ⟨_, hr, rfl⟩

/-- Another entry starts none. -/
theorem executions_append {s' : JobRunner ι κ} (e : JobEntry ι κ) (hhistory : s'.history = s.history ++ [e])
    (he : started? e = none) : s'.executions = s.executions := by
  rw [executions, hhistory, List.filterMap_append, List.filterMap_cons_none he, List.filterMap_nil, List.append_nil,
    executions]

/-- The continuations that all of them have before them. -/
def pending (s : JobRunner ι κ) : ℕ := Machine.weigh s.executions steps s.stage

/-- An execution goes on. -/
theorem pending_update (hr : r ∈ s.executions) {s' : JobRunner ι κ} (hexecutions : s'.executions = s.executions)
    (hstage : s'.stage = Function.update s.stage r stage) (hless : steps stage < steps (s.stage r)) :
    s'.pending < s.pending := by
  have hsum := Machine.weigh_update hr steps s.stage stage
  rw [pending, pending, hexecutions, hstage]
  omega

/-- **What a continuation does brings the runner closer to rest.** -/
theorem wanes [DecidableEq κ] :
    (machine : Machine (JobRunner ι κ) _).Wanes (fun s => s.Inv ∧ s.onStack = none) Own pending where
  keeps s e h hown he := by
    refine ⟨h.1.next he, ?_⟩
    cases e with
    | conclude r durationMs =>
      obtain ⟨o, hr⟩ := he
      simp only [machine, JobRunner.next, hr]
      exact h.2
    | clear r | resolve r =>
      obtain ⟨o, hr⟩ := he
      simp only [machine, JobRunner.next, hr]
      exact h.2
    | _ => exact absurd hown id
  wanes s e h hown he := by
    have hstarted {r : ι} (hr : (s.stage r).begun = true) : r ∈ s.executions :=
      mem_executions.mpr ((started_mem_iff (h.1.recorded r)).mpr hr)
    cases e with
    | conclude r durationMs =>
      obtain ⟨o, hr⟩ := he
      have hstage : (s.next (.conclude r durationMs)).stage = Function.update s.stage r (.ended (.ok ())) := by
        cases o <;> simp only [JobRunner.next, hr, executeEnd]
      have hexecutions : (s.next (.conclude r durationMs)).executions = s.executions := by
        cases o with
        | ok _ => exact executions_append (.finished r durationMs) (by simp only [JobRunner.next, hr, executeEnd]) rfl
        | error error =>
          exact executions_append (.failed r durationMs error) (by simp only [JobRunner.next, hr, executeEnd]) rfl
      exact pending_update (hstarted (by rw [hr]; rfl)) hexecutions hstage (by rw [hr]; exact Nat.lt_add_one 2)
    | clear r =>
      obtain ⟨o, hr⟩ := he
      have hstage : (s.next (.clear r)).stage = Function.update s.stage r (.cleared o) := by
        simp only [JobRunner.next, hr]
      have hexecutions : (s.next (.clear r)).executions = s.executions := by
        simp only [JobRunner.next, hr, executions]
      exact pending_update (hstarted (by rw [hr]; rfl)) hexecutions hstage (by rw [hr]; exact Nat.lt_add_one 1)
    | resolve r =>
      obtain ⟨o, hr⟩ := he
      have hstage : (s.next (.resolve r)).stage = Function.update s.stage r (.closed o) := by
        simp only [JobRunner.next, hr]
      have hexecutions : (s.next (.resolve r)).executions = s.executions :=
        executions_append (.runSettled r o) (by simp only [JobRunner.next, hr]) rfl
      exact pending_update (hstarted (by rw [hr]; rfl)) hexecutions hstage (by rw [hr]; exact Nat.lt_add_one 0)
    | _ => exact absurd hown id

/-- Without continuations, and with an empty stack, a turn is over. -/
theorem quiet_of_rest (hstack : s.onStack = none) (hrest : ∀ e : JobEvent ι κ, Own e → ¬ s.Enabled e) : s.Quiet := by
  refine ⟨hstack, fun r => ?_⟩
  cases hr : s.stage r with
  | settled o => exact absurd ⟨o, hr⟩ (hrest (.conclude r 0) trivial)
  | ended o => exact absurd ⟨o, hr⟩ (hrest (.clear r) trivial)
  | cleared o => exact absurd ⟨o, hr⟩ (hrest (.resolve r) trivial)
  | _ => rfl

/-- **A turn comes to its end**: after every run whose last job has returned to its caller, the continuations come to
an end, whatever their order, and then the runner waits for a request or for its job. -/
theorem exists_quiet [DecidableEq κ] {es : List (JobEvent ι κ)} (h : machine.Run es s) (hstack : s.onStack = none) :
    (∀ fs, (∀ e ∈ fs, Own e) → machine.Playable s fs → fs.length ≤ s.pending) ∧
      ∃ fs s', (∀ e ∈ fs, Own e) ∧ machine.Run (es ++ fs) s' ∧ s'.Quiet := by
  have hs : s.Inv ∧ s.onStack = none := ⟨inv_run h, hstack⟩
  refine ⟨fun fs hown hp => wanes.length_le hs hown hp, ?_⟩
  obtain ⟨fs, hown, hp, hkept, hrest⟩ := wanes.exists_rest hs
  exact ⟨fs, _, hown, h.append hp, quiet_of_rest hkept.2 hrest⟩

/-! ### Safety -/

/-- **Runs of a job never overlap and none is lost**, whatever is requested and however the job behaves. -/
theorem never_overlap [DecidableEq κ] {es : List (JobEvent ι κ)} {s : JobRunner ι κ} (h : machine.Run es s) :
    (∀ j k, InFlightAt s.history j → InFlightAt s.history k → j = k) ∧
      (∀ r, .requested r ∈ s.history →
        (s.history.countP (JobEntry.starts r) = 1 ∧ s.history.countP (JobEntry.skips r) = 0) ∨
          (s.history.countP (JobEntry.starts r) = 0 ∧ s.history.countP (JobEntry.skips r) = 1)) ∧
      Throughout Keeps s.history ∧
      (∀ r, s.history.countP (JobEntry.ends r) ≤ 1) ∧
      (s.Quiet →
        (∀ r, .jobEnded r ∈ s.history → s.history.countP (JobEntry.ends r) = 1) ∧
          ((∀ r, .started r ∈ s.history → .jobEnded r ∈ s.history) →
            ∀ r, (s.next (.request r)).history = s.history ++ [.requested r, .started r])) ∧
      ∀ e ∈ s.history, e.fulfilled := by
  have hs := inv_run h
  refine ⟨fun j k hj hk => ?_, fun r => hs.started_or_skipped, hs.throughout, hs.ends_le, fun hquiet => ?_,
    hs.fulfilled⟩
  · exact hs.guarded.inFlight_unique (hs.inFlightAt_iff.mp hj) (hs.inFlightAt_iff.mp hk)
  · refine ⟨fun r => hs.ends_eq hquiet, fun hended r => ?_⟩
    simp [JobRunner.next, run, hs.current_eq_none hquiet hended]

/-- A run is requested while another's job is going on, and once more after its end. -/
def threeRequests : List (JobEvent ℕ ℕ) :=
  [.request 0, .returns 0, .request 1, .settle 0 (.ok ()), .conclude 0 5, .clear 0, .resolve 0, .request 2]

theorem never_overlap_skipped :
    ∃ s : JobRunner ℕ ℕ, machine.Run threeRequests s ∧
      (∀ j k, InFlightAt s.history j → InFlightAt s.history k → j = k) ∧
      s.history = [.requested 0, .started 0, .requested 1, .skipped 1, .runSettled 1 (.ok ()), .jobEnded 0,
        .finished 0 5, .runSettled 0 (.ok ()), .requested 2, .started 2] := by
  have hquiet (stage : ℕ → Stage) (h0 : (stage 0).queued = false) (h : ∀ r, stage (r + 1) = .unstarted) (r : ℕ) :
      (stage r).queued = false := by
    cases r with
    | zero => exact h0
    | succ r =>
      rw [h r]
      rfl
  have hrun : (machine : Machine (JobRunner ℕ ℕ) (JobEvent ℕ ℕ)).Run threeRequests _ :=
    Machine.Run.play rfl ⟨⟨⟨rfl, fun _ => rfl⟩, rfl⟩, rfl, ⟨⟨rfl, hquiet _ rfl fun _ => rfl⟩, rfl⟩, rfl, ⟨_, rfl⟩,
      ⟨_, rfl⟩, ⟨_, rfl⟩, ⟨⟨rfl, hquiet _ rfl fun _ => rfl⟩, rfl⟩, trivial⟩
  exact ⟨_, hrun, (never_overlap hrun).1, rfl⟩

/-! ### The scheduler's model -/

/-- What the scheduler's model has for the runner. -/
def coarse (s : JobRunner ι κ) : Runner :=
  match s.onStack, s.current with
  | some _, _ => .running
  | none, none => .idle
  | none, some r => if (s.stage r).logged then .settled else .running

/-- What the scheduler's model does at an event, and the lines it logs. -/
def coarseStep (s : JobRunner ι κ) (t : SchedulerState) (job : JsString) :
    JobEvent ι κ → SchedulerState × List LogLine
  | .request _ => ((t.run job).1, (t.run job).2.toList)
  | .throws _ error durationMs =>
    ((t.settle job (some error) durationMs).1, [(t.settle job (some error) durationMs).2])
  | .conclude r durationMs =>
    match s.stage r with
    | .settled (.ok _) => ((t.settle job none durationMs).1, [(t.settle job none durationMs).2])
    | .settled (.error error) =>
      ((t.settle job (some error) durationMs).1, [(t.settle job (some error) durationMs).2])
    | _ => (t, [])
  | .clear _ => (t.clear job, [])
  | _ => (t, [])

omit [DecidableEq ι] in
theorem coarse_of_stack (hr : s.onStack = some r) : s.coarse = .running := by
  rw [coarse, hr]

omit [DecidableEq ι] in
theorem coarse_of_current (hstack : s.onStack = none) (hr : s.current = some r) :
    s.coarse = if (s.stage r).logged then .settled else .running := by
  rw [coarse, hstack, hr]

omit [DecidableEq ι] in
theorem Guarded.stack_eq_none (h : s.Guarded) (hr : s.current = some r) : s.onStack = none :=
  h.apart.resolve_right fun hnone => Option.some_ne_none r (hr.symm.trans hnone)

omit [DecidableEq ι] in
/-- The execution whose job has been called is the guard, and nothing is on the stack. -/
theorem Guarded.current_of_stage (h : s.Guarded) (hr : (s.stage r).isCurrent = true) :
    s.current = some r ∧ s.onStack = none :=
  ⟨(h.current r).mpr hr, h.stack_eq_none ((h.current r).mpr hr)⟩

/-- A request while a job is under way changes nothing but the history. -/
theorem next_request_of_current [DecidableEq κ] (hc : s.current = some k) :
    s.next (.request r) = { s with history := s.history ++ [.requested r, .skipped r, .runSettled r (.ok ())] } := by
  rw [JobRunner.next, run, hc]
  exact if_pos rfl

/-- The scheduler's model knows nothing of the promises of `run`. -/
theorem Guarded.coarse_resolve [DecidableEq κ] (h : s.Guarded) {o : Except JsValue Unit}
    (hr : s.stage r = .cleared o) : (s.next (.resolve r)).coarse = s.coarse := by
  simp only [JobRunner.next, hr, coarse]
  cases hstack : s.onStack with
  | some k => rfl
  | none =>
    cases hc : s.current with
    | none => rfl
    | some k =>
      have hk : k ≠ r := by
        rintro rfl
        have hcurrent := (h.current k).mp hc
        rw [hr] at hcurrent
        exact Bool.false_ne_true hcurrent
      simp only [Function.update_of_ne hk]

/-- **The scheduler's model** of a runner does at every event what this one does, and logs the same. -/
theorem Inv.refines [DecidableEq κ] (h : s.Inv) {e : JobEvent ι κ} (he : s.Enabled e) {t : SchedulerState}
    {job : JsString} (ht : t.runner job = s.coarse) :
    (coarseStep s t job e).1.runner job = (s.next e).coarse ∧
      (s.next e).history.filterMap (JobEntry.line job) =
        s.history.filterMap (JobEntry.line job) ++ (coarseStep s t job e).2 := by
  have hset (runner : Runner) : (t.setRunner job runner).runner job = runner := if_pos rfl
  cases e with
  | request r =>
    obtain ⟨⟨hstack, -⟩, -⟩ := he
    cases hc : s.current with
    | none =>
      have hidle : t.runner job = .idle := by rw [ht, coarse, hstack, hc]
      simp [coarseStep, SchedulerState.run, hidle, Runner.isRunning, hset, JobRunner.next, run, hc, coarse,
        JobEntry.line]
    | some k =>
      have hrunning : (t.runner job).isRunning = true := by
        rw [ht, coarse_of_current hstack hc]
        split <;> rfl
      rw [next_request_of_current hc, coarseStep, SchedulerState.run, if_pos hrunning, List.filterMap_append]
      exact ⟨ht, rfl⟩
  | returns r =>
    have hrunning := ht.trans (coarse_of_stack he)
    refine ⟨?_, (List.append_nil _).symm⟩
    rw [show (coarseStep s t job (.returns r)).1 = t from rfl, hrunning, coarse_of_current rfl rfl]
    simp [JobRunner.next, Stage.logged]
  | throws r error durationMs =>
    refine ⟨?_, List.filterMap_append⟩
    rw [coarse_of_current rfl rfl]
    simp [coarseStep, SchedulerState.settle, hset, JobRunner.next, executeEnd, Stage.logged]
  | settle r o =>
    have hr : s.stage r = .awaiting := he
    obtain ⟨hcurrent, hstack⟩ := h.guarded.current_of_stage (by rw [hr]; rfl)
    refine ⟨?_, by simp [coarseStep, JobRunner.next, JobEntry.line]⟩
    have hnext : (s.next (.settle r o)).coarse = .running := by
      simp [JobRunner.next, coarse, hstack, hcurrent, Stage.logged]
    rw [show (coarseStep s t job (.settle r o)).1 = t from rfl, ht, hnext, coarse_of_current hstack hcurrent, hr]
    exact if_neg Bool.false_ne_true
  | conclude r durationMs =>
    obtain ⟨o, hr⟩ := he
    obtain ⟨hcurrent, hstack⟩ := h.guarded.current_of_stage (by rw [hr]; rfl)
    cases o with
    | ok _ =>
      simp [coarseStep, hr, SchedulerState.settle, hset, JobRunner.next, executeEnd, coarse, hstack, hcurrent,
        Stage.logged, JobEntry.line]
    | error error =>
      simp [coarseStep, hr, SchedulerState.settle, hset, JobRunner.next, executeEnd, coarse, hstack, hcurrent,
        Stage.logged, JobEntry.line]
  | clear r =>
    obtain ⟨o, hr⟩ := he
    obtain ⟨hcurrent, hstack⟩ := h.guarded.current_of_stage (by rw [hr]; rfl)
    simp [coarseStep, SchedulerState.clear, hset, JobRunner.next, hr, coarse, hstack]
  | resolve r =>
    obtain ⟨o, hr⟩ := he
    refine ⟨?_, by simp [coarseStep, JobRunner.next, hr, JobEntry.line]⟩
    rw [show (coarseStep s t job (.resolve r)).1 = t from rfl, ht, h.guarded.coarse_resolve hr]
  | whenIdle w =>
    refine ⟨?_, by simp [coarseStep, JobRunner.next, JobEntry.line]⟩
    exact ht
  | resume w =>
    rcases he with hw | ⟨r, o, hw, hr⟩
    · refine ⟨?_, by simp [coarseStep, JobRunner.next, hw, JobEntry.line]⟩
      simp only [JobRunner.next, hw]
      exact ht
    · refine ⟨?_, by simp [coarseStep, JobRunner.next, hw, hr, JobEntry.line]⟩
      simp only [JobRunner.next, hw, hr]
      exact ht

end JobRunner

end NestDdd.Scheduler
