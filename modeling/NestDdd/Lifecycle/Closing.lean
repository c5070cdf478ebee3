import NestDdd.Lifecycle.Drain

/-!
# When a shutdown has resolved

`main.ts` waits for the promise of `runGracefulShutdown`, and closes the channel to the primary if it resolved to
`true`. This module says what a worker has done by then.

## What is proved

* `Worker.step_quiet` — nothing but a signal and the shutdown's own continuation moves the shutdown on.
* `onward_step` — no event takes back the flag or what has happened.
* `Closing.step` — **a shutdown that has resolved has closed the application**, and stays resolved.
* `Doors.step` — the server listens until the drain delay is over, and has nobody connected once it has called back.
-/

namespace NestDdd.Lifecycle

open NestDdd.Theory NestDdd.Shared NestDdd.Scheduler

variable {cfg : WorkerConfig} {w : Worker}

/-- `runGracefulShutdown` has resolved to `true`. -/
def Worker.ran (w : Worker) : Bool := w.shuttingDown && w.thread.isNone

theorem Worker.ran_iff : w.ran = true ↔ w.shuttingDown = true ∧ w.thread = none := by
  rw [Worker.ran, Bool.and_eq_true, Option.isNone_iff_eq_none]

/-- What is the same of a worker, but for more of a history. -/
structure Worker.Quiet (w w' : Worker) : Prop where
  /-- The shutdown is where it was. -/
  thread : w'.thread = w.thread
  /-- The flag. -/
  shuttingDown : w'.shuttingDown = w.shuttingDown
  /-- What is closed stays so. -/
  appClosed : w.appClosed = true → w'.appClosed = true
  /-- The history goes on. -/
  history : ∀ a ∈ w.history, a ∈ w'.history

theorem Worker.quiet_record (acts : List Act) : w.Quiet (w.record acts) :=
  ⟨rfl, rfl, id, fun _ ha => List.mem_append_left _ ha⟩

theorem Worker.quiet_setScheduler (s : SchedulerState) : w.Quiet (w.setScheduler s) :=
  ⟨rfl, rfl, id, fun _ ha => List.mem_append_left _ ha⟩

theorem Worker.Quiet.trans {w₁ w₂ w₃ : Worker} (h : w₁.Quiet w₂) (h' : w₂.Quiet w₃) : w₁.Quiet w₃ where
  thread := h'.thread.trans h.thread
  shuttingDown := h'.shuttingDown.trans h.shuttingDown
  appClosed hc := h'.appClosed (h.appClosed hc)
  history a ha := h'.history a (h.history a ha)

theorem Worker.Quiet.ran {w' : Worker} (h : w.Quiet w') : w'.ran = w.ran := by
  rw [Worker.ran, Worker.ran, h.shuttingDown, h.thread]

/-- What moves the shutdown on: a signal, and its own continuation. -/
def Worker.Happening.movesShutdown : Worker.Happening → Bool
  | .signal _ | .resume _ _ => true
  | _ => false

/-- **Nothing else moves the shutdown on.** -/
theorem Worker.step_quiet {e : Happening} (he : e.movesShutdown = false) : w.Quiet (w.step cfg e) := by
  have hsame : w.Quiet w := ⟨rfl, rfl, id, fun _ ha => ha⟩
  cases e with
  | signal | resume => cases he
  | tick | settle | forceTimer | serverClosed => exact ⟨rfl, rfl, id, fun _ ha => List.mem_append_left _ ha⟩
  | clear | connect | disconnect | delayTimer => exact ⟨rfl, rfl, id, fun _ ha => ha⟩
  | appClosed => exact ⟨rfl, rfl, fun _ => rfl, fun _ ha => ha⟩
  | cronsStopped =>
    rw [Worker.step]
    split
    · exact quiet_setScheduler _
    · exact hsame
  | decideRace =>
    rw [Worker.step]
    split
    · exact ⟨rfl, rfl, id, fun _ ha => ha⟩
    · exact hsame
  | conclude =>
    rw [Worker.step]
    split
    · exact (quiet_record _).trans (quiet_setScheduler _)
    · exact hsame

/-! ### What only goes on -/

/-- What a worker does not take back. -/
structure Worker.Onward (w w' : Worker) : Prop where
  /-- The flag stays up. -/
  flag : w.shuttingDown = true → w'.shuttingDown = true
  /-- The history goes on. -/
  history : ∀ a ∈ w.history, a ∈ w'.history

theorem Worker.Quiet.onward {w' : Worker} (h : w.Quiet w') : w.Onward w' :=
  ⟨fun hflag => h.shuttingDown.trans hflag, h.history⟩

/-- **No event takes it back.** -/
theorem onward_step (hi : Inv cfg w) (e : Worker.Happening) (he : Worker.Enabled cfg w e) :
    w.Onward (w.step cfg e) := by
  cases e with
  | signal name =>
    rw [Worker.step]
    cases hflag : w.shuttingDown with
    | true =>
      rw [onSignal_again hflag]
      exact (Worker.quiet_record _).onward
    | false =>
      rw [onSignal_first hflag]
      exact ⟨fun _ => rfl, fun a ha => by simp [ha]⟩
  | resume ms pools =>
    obtain ⟨p, hp, -⟩ := he
    have hstage := hi.stage
    rw [Worker.step]
    generalize w.shuttingDown = flag, w.scheduler.stop = stop at hstage
    rw [hp] at hstage
    cases hstage with
    | delaying =>
      rw [resume_delay hp]
      exact ⟨id, fun _ ha => List.mem_append_left _ ha⟩
    | closing =>
      rw [resume_server hp]
      exact ⟨id, fun _ ha => List.mem_append_left _ (List.mem_append_left _ ha)⟩
    | draining =>
      rw [resume_jobs hp]
      exact ⟨id, fun _ ha => List.mem_append_left _ ha⟩
    | closingApp =>
      rw [resume_app hp]
      exact ⟨id, fun _ ha => List.mem_append_left _ ha⟩
  | _ => exact (Worker.step_quiet rfl).onward

/-- Connections come and go by themselves, or are cut. -/
theorem connections_step (hi : Inv cfg w) (e : Worker.Happening) (he : Worker.Enabled cfg w e) (hc : e ≠ .connect)
    (hd : e ≠ .disconnect) (hf : e ≠ .forceTimer) : (w.step cfg e).connections = w.connections := by
  cases e with
  | signal name =>
    rw [Worker.step]
    cases hflag : w.shuttingDown with
    | true => rw [onSignal_again hflag, Worker.record]
    | false => rw [onSignal_first hflag]
  | resume ms pools =>
    obtain ⟨p, hp, -⟩ := he
    have hstage := hi.stage
    rw [Worker.step]
    generalize w.shuttingDown = flag, w.scheduler.stop = stop at hstage
    rw [hp] at hstage
    cases hstage with
    | delaying => rw [resume_delay hp]
    | closing => rw [resume_server hp, Worker.setScheduler]
    | draining => rw [resume_jobs hp]
    | closingApp => rw [resume_app hp]
  | connect => exact absurd rfl hc
  | disconnect => exact absurd rfl hd
  | forceTimer => exact absurd rfl hf
  | tick | settle | clear | delayTimer | serverClosed | appClosed => rfl
  | cronsStopped | decideRace | conclude =>
    rw [Worker.step]
    split <;> rfl

/-- What a shutdown has called when it awaits the application, and what is done when it has resolved. -/
structure Closing (w : Worker) : Prop where
  /-- The application's `close` is called before it is awaited. -/
  called : ∀ rest, w.thread = some ⟨.closeApp, rest⟩ → .closeApp ∈ w.history
  /-- It has resolved. -/
  closed : w.ran = true → w.appClosed = true ∧ .closeApp ∈ w.history

theorem closing_started (connections : ℕ) : Closing (.started connections) := ⟨nofun, nofun⟩

theorem Closing.quiet {w' : Worker} (h : Closing w) (hq : w.Quiet w') : Closing w' where
  called rest hrest := hq.history _ (h.called rest (hq.thread ▸ hrest))
  closed hran := by
    obtain ⟨happ, hmem⟩ := h.closed (hq.ran ▸ hran)
    exact ⟨hq.appClosed happ, hq.history _ hmem⟩

/-- The shutdown goes on. -/
theorem Closing.resume (h : Closing w) (hi : Inv cfg w) {p : Parked} (hp : w.thread = some p)
    (hready : w.Ready p.op) (ms : ℕ) (pools : List ℕ) : Closing (w.resume cfg ms pools) := by
  have hstage := hi.stage
  generalize w.shuttingDown = flag, w.scheduler.stop = stop at hstage
  rw [hp] at hstage
  cases hstage with
  | delaying =>
    rw [resume_delay hp]
    exact ⟨nofun, fun hran => nomatch (Worker.ran_iff.mp hran).2⟩
  | closing =>
    rw [resume_server hp]
    exact ⟨nofun, fun hran => nomatch (Worker.ran_iff.mp hran).2⟩
  | draining =>
    rw [resume_jobs hp]
    exact ⟨fun _ _ => by simp, fun hran => nomatch (Worker.ran_iff.mp hran).2⟩
  | closingApp =>
    rw [resume_app hp]
    exact ⟨nofun, fun _ => ⟨hready, List.mem_append_left _ (h.called _ hp)⟩⟩

/-- **Every event keeps it.** -/
theorem Closing.step (h : Closing w) (hi : Inv cfg w) (e : Worker.Happening) (he : Worker.Enabled cfg w e) :
    Closing (w.step cfg e) := by
  cases e with
  | signal name =>
    rw [Worker.step]
    cases hflag : w.shuttingDown with
    | true =>
      rw [onSignal_again hflag]
      exact h.quiet (Worker.quiet_record _)
    | false =>
      rw [onSignal_first hflag]
      exact ⟨fun _ hrest => (by cases hrest), fun hran => (by cases (Worker.ran_iff.mp hran).2)⟩
  | resume ms pools =>
    obtain ⟨p, hp, hready⟩ := he
    exact h.resume hi hp hready ms pools
  | _ => exact h.quiet (Worker.step_quiet rfl)

/-- A shutdown that has resolved stays so. -/
theorem ran_step (h : w.ran = true) (e : Worker.Happening) (he : Worker.Enabled cfg w e) :
    (w.step cfg e).ran = true := by
  obtain ⟨hflag, hthread⟩ := Worker.ran_iff.mp h
  cases e with
  | signal name =>
    rw [Worker.step, onSignal_again hflag]
    exact h
  | resume ms pools =>
    obtain ⟨p, hp, -⟩ := he
    rw [hthread] at hp
    cases hp
  | _ =>
    rw [← h]
    exact Worker.Quiet.ran (Worker.step_quiet rfl)

/-! ### The doors -/

/-- What is open of a worker's server. -/
structure Doors (w : Worker) : Prop where
  /-- It listens as long as the drain delay is not over. -/
  listening : w.delayOver = false → w.listening = true
  /-- Once it has called back nobody is connected, and nobody can connect. -/
  closed : w.closed = true → w.listening = false ∧ w.connections = 0
  /-- It has called back. -/
  called : .serverClosed ∈ w.history → w.closed = true

theorem doors_started (connections : ℕ) : Doors (.started connections) := ⟨fun _ => rfl, nofun, nofun⟩

/-- More of a history that is not the callback. -/
theorem Doors.record (h : Doors w) {acts : List Act} (hacts : .serverClosed ∉ acts) : Doors (w.record acts) :=
  ⟨h.listening, h.closed, fun hmem => h.called ((List.mem_append.mp hmem).resolve_right hacts)⟩

theorem Doors.setScheduler (h : Doors w) (s : SchedulerState) : Doors (w.setScheduler s) := by
  refine ⟨h.listening, h.closed, fun hmem => h.called ((List.mem_append.mp hmem).resolve_right ?_)⟩
  split <;> simp

/-- The shutdown goes on. -/
theorem Doors.resume (h : Doors w) (hi : Inv cfg w) {p : Parked} (hp : w.thread = some p) (hready : w.Ready p.op)
    (ms : ℕ) (pools : List ℕ) : Doors (w.resume cfg ms pools) := by
  have hstage := hi.stage
  generalize w.shuttingDown = flag, w.scheduler.stop = stop at hstage
  rw [hp] at hstage
  cases hstage with
  | delaying =>
    have hover : w.delayOver = true := hready
    rw [resume_delay hp]
    refine ⟨fun hdelay => ?_, fun hc => ⟨rfl, (h.closed hc).2⟩, fun hmem => h.called (by simpa using hmem)⟩
    rw [hover] at hdelay
    cases hdelay
  | closing =>
    rw [resume_server hp]
    refine Doors.setScheduler ?_ _
    exact ⟨h.listening, h.closed, fun hmem => h.called (by simpa using hmem)⟩
  | draining =>
    rw [resume_jobs hp]
    exact ⟨h.listening, h.closed, fun hmem => h.called (by simpa using hmem)⟩
  | closingApp =>
    rw [resume_app hp]
    exact ⟨h.listening, h.closed, fun hmem => h.called (by simpa using hmem)⟩

/-- **Every event keeps it.** -/
theorem Doors.step (h : Doors w) (hi : Inv cfg w) (e : Worker.Happening) (he : Worker.Enabled cfg w e) :
    Doors (w.step cfg e) := by
  cases e with
  | signal name =>
    rw [Worker.step]
    cases hflag : w.shuttingDown with
    | true =>
      rw [onSignal_again hflag]
      exact h.record (by simp)
    | false =>
      rw [onSignal_first hflag]
      exact ⟨h.listening, h.closed, fun hmem => h.called (by simpa using hmem)⟩
  | resume ms pools =>
    obtain ⟨p, hp, hready⟩ := he
    exact h.resume hi hp hready ms pools
  | tick job =>
    have hran : Doors { w with scheduler := (w.scheduler.run job).1 } := ⟨h.listening, h.closed, h.called⟩
    refine hran.record ?_
    split <;> simp
  | settle job error durationMs =>
    have hsettled : Doors { w with scheduler := (w.scheduler.settle job error durationMs).1 } :=
      ⟨h.listening, h.closed, h.called⟩
    exact hsettled.record (by simp)
  | clear job => exact ⟨h.listening, h.closed, h.called⟩
  | connect =>
    refine ⟨h.listening, fun hc => ?_, h.called⟩
    have hopen : w.listening = true := he
    rw [(h.closed hc).1] at hopen
    cases hopen
  | disconnect =>
    refine ⟨h.listening, fun hc => ⟨(h.closed hc).1, ?_⟩, h.called⟩
    show w.connections - 1 = 0
    rw [(h.closed hc).2]
  | delayTimer => exact ⟨fun hover => (by cases hover), h.closed, h.called⟩
  | forceTimer =>
    have hcut : Doors { w with forceTimer := false, connections := 0 } :=
      ⟨h.listening, fun hc => ⟨(h.closed hc).1, rfl⟩, h.called⟩
    exact hcut.record (by simp)
  | serverClosed => exact ⟨h.listening, fun _ => ⟨he.1, he.2.1⟩, fun _ => rfl⟩
  | cronsStopped =>
    rw [Worker.step]
    split
    · exact h.setScheduler _
    · exact h
  | decideRace race =>
    rw [Worker.step]
    split
    · exact ⟨h.listening, h.closed, h.called⟩
    · exact h
  | conclude durationMs =>
    rw [Worker.step]
    split
    · exact (h.record (by simp)).setScheduler _
    · exact h
  | appClosed => exact ⟨h.listening, h.closed, h.called⟩

/-- Whoever awaits the application has seen the server close. -/
theorem Doors.closed_of_closeApp (h : Doors w) (hi : Inv cfg w) (hcalled : .closeApp ∈ w.history) :
    w.closed = true := by
  obtain ⟨past, future, heq⟩ := List.append_of_mem hcalled
  have horderly := hi.throughout past .closeApp future heq
  refine h.called ?_
  rw [heq]
  exact List.mem_append_left _ horderly.2.1

end NestDdd.Lifecycle
