import NestDdd.Cluster.Leader
import NestDdd.Theory.History
import Mathlib.Data.List.Count

/-!
# The cluster's shutdown

On its first signal the primary sends the signal to every live worker, and then waits
for one of two things: that no worker is left, or that its bounded wait is over, in which
case it kills who is left. Then it exits. Exits of workers, further signals and the
timer come in any order.

## The model

`Farewell` is the part of the primary's state that a shutdown is about, with the signals
sent and the calls of `exit` as its only record (`fates`). `Farewell.Step` says what each
event does to it.

## What is proved

* `handle_farewell` — **refinement**: in a coherent state every handler of the primary is
  a step of the farewell.
* `Farewell.Told` — **the record** of a shutdown: one signal to each worker that was live,
  and at its end `SIGKILL` to who is left and one `exit`.
* `fanned_out` — so in every state after the first signal it was sent on exactly once,
  later ones do nothing, nobody is forked, and when `exit` is called nobody is forgotten.
-/

namespace NestDdd.Cluster

open NestDdd.Shared

variable {cfg : StartPrimaryConfig} {cpuCount : ℕ}

/-! ### The farewell -/

/-- Whether an action sends a signal or exits. -/
def Action.isFate : Action → Bool
  | .kill _ _ | .exit _ => true
  | _ => false

/-- What a shutdown is about. -/
structure Farewell where
  /-- The ids of the live workers. -/
  live : List ℕ
  /-- Whether the shutdown has begun. -/
  begun : Bool
  /-- Whether it waits to be told that nobody is left. -/
  notifyDrained : Bool
  /-- Whether the timer of the bounded wait is pending. -/
  timerPending : Bool
  /-- How the race ended, once it has. -/
  outcome : Option RaceOutcome
  /-- Whether it has run to its end. -/
  finished : Bool
  /-- The signals sent and the calls of `exit`, in order. -/
  fates : List Action

/-- The farewell of a primary. -/
def Primary.farewell (p : Primary) : Farewell where
  live := p.liveIds
  begun := p.shuttingDown
  notifyDrained := p.notifyDrained
  timerPending := p.timerPending
  outcome := p.outcome
  finished := p.finished
  fates := p.actions.filter Action.isFate

namespace Farewell

/-- The live workers but for one. -/
def without (f : Farewell) (id : ℕ) : List ℕ := f.live.filter (· != id)

/-- Nobody is left. -/
def drain (f : Farewell) : Farewell :=
  { f with outcome := some .drained, finished := true, fates := f.fates ++ [.exit 0] }

/-- The end of a shutdown: after a time-out who is left is killed. -/
def finish (f : Farewell) (outcome : RaceOutcome) : Farewell :=
  { f with
    finished := true
    fates := f.fates ++
      ((if outcome = .timeout then f.live.map fun id => .kill id .SIGKILL else []) ++ [.exit 0]) }

/-- The race is settled, unless it was. -/
def decided (f : Farewell) (outcome : RaceOutcome) : Farewell :=
  { f with outcome := f.outcome.or (some outcome) }

/-- What waits for the race goes on. -/
def settle (f : Farewell) : Farewell :=
  match f.outcome with
  | some outcome => if f.finished then f else f.finish outcome
  | none => f

/-- A worker is gone, which ends the wait if it was the last. -/
def removed (f : Farewell) (id : ℕ) : Farewell :=
  if f.without id = [] ∧ f.notifyDrained = true then { f with live := f.without id }.decided .drained
  else { f with live := f.without id }

/-- **A step of the farewell.** -/
inductive Step : Farewell → Input → Farewell → Prop where
  /-- Before the shutdown workers come and go. -/
  | before {f : Farewell} {e : Exit} {live : List ℕ} : f.begun = false →
      Step f (.exit e) { f with live := live }
  /-- The first signal is sent on to everybody. -/
  | begin {f : Farewell} {s : Signal} : f.begun = false → f.live ≠ [] →
      Step f (.signal s)
        { f with
          begun := true, notifyDrained := true, timerPending := true
          fates := f.fates ++ f.live.map fun id => .kill id s }
  /-- The first signal finds nobody to send it on to. -/
  | alone {f : Farewell} {s : Signal} : f.begun = false → f.live = [] →
      Step f (.signal s) { f with begun := true, timerPending := true }.drain
  /-- A later signal does nothing. -/
  | deaf {f : Farewell} {s : Signal} : f.begun = true → Step f (.signal s) f
  /-- A worker exits, and others are left, or it no longer matters. -/
  | gone {f : Farewell} {e : Exit} : f.begun = true → f.finished = true ∨ f.without e.worker.id ≠ [] →
      Step f (.exit e) { f with live := f.without e.worker.id }
  /-- The last worker exits. -/
  | drained {f : Farewell} {e : Exit} : f.begun = true → f.finished = false → f.without e.worker.id = [] →
      Step f (.exit e) { f with live := [] }.drain
  /-- The wait is over while workers are left. -/
  | timeout {f : Farewell} : f.begun = true → f.finished = false →
      Step f .timer
        { f with
          timerPending := false, outcome := some .timeout, finished := true
          fates := f.fates ++ ((f.live.map fun id => .kill id .SIGKILL) ++ [.exit 0]) }
  /-- The wait is over when all is done. -/
  | late {f : Farewell} : f.finished = true → Step f .timer { f with timerPending := false }

/-- **The invariant** of what the variables say to each other. -/
structure Coherent (f : Farewell) : Prop where
  /-- The end follows the race at once. -/
  settled : f.finished = f.outcome.isSome
  /-- Before the shutdown there is nothing to wait for. -/
  calm : f.begun = false → f.notifyDrained = false ∧ f.timerPending = false ∧ f.finished = false ∧ f.fates = []
  /-- A shutdown that has not ended waits for workers that are left. -/
  waiting : f.begun = true → f.finished = false → f.notifyDrained = true ∧ f.live ≠ []

theorem Coherent.step {f f' : Farewell} {i : Input} (h : f.Coherent) (hs : Step f i f') : f'.Coherent := by
  cases hs with
  | before hb => exact ⟨h.settled, h.calm, fun hb' => absurd (hb.symm.trans hb') nofun⟩
  | begin hb hl =>
    obtain ⟨-, -, hfin, -⟩ := h.calm hb
    exact ⟨h.settled, nofun, fun _ _ => ⟨rfl, hl⟩⟩
  | alone => exact ⟨rfl, nofun, fun _ => nofun⟩
  | deaf => exact h
  | gone hb hleft =>
    refine ⟨h.settled, fun hb' => absurd (hb.symm.trans hb') nofun, fun _ hfin => ?_⟩
    exact ⟨(h.waiting hb hfin).1, hleft.resolve_left fun hf => absurd (hf.symm.trans hfin) nofun⟩
  | drained hb => exact ⟨rfl, fun hb' => absurd (hb.symm.trans hb') nofun, fun _ => nofun⟩
  | timeout hb => exact ⟨rfl, fun hb' => absurd (hb.symm.trans hb') nofun, fun _ => nofun⟩
  | late hfin =>
    refine ⟨h.settled, fun hb => ?_, fun _ hfin' => absurd (hfin.symm.trans hfin') nofun⟩
    exact absurd (hfin.symm.trans (h.calm hb).2.2.1) nofun

end Farewell

/-! ### The primary refines it -/

section Refinement

variable (p : Primary)

@[simp] theorem farewell_log (level : Level) (message : JsString) (fields : List (String × JsValue)) :
    (p.log level message fields).farewell = p.farewell := by
  simp [Primary.farewell, Primary.log, Primary.act, Primary.liveIds, Action.isFate]

@[simp] theorem farewell_forkWorker (forked : Forked) (isLeader : Bool) :
    (forkWorker p forked isLeader).farewell =
      { p.farewell with live := p.farewell.live ++ [forked.id] } := by
  simp [forkWorker, Primary.farewell, Primary.log, Primary.act, Primary.liveIds, Action.isFate]

@[simp] theorem farewell_killAll (signal : Signal) :
    (killAll p signal).farewell =
      { p.farewell with fates := p.farewell.fates ++ p.farewell.live.map fun id => .kill id signal } := by
  simp [killAll, Primary.farewell, Primary.liveIds, Action.isFate, List.filter_append, List.filter_map,
    Function.comp_def]

@[simp] theorem farewell_loseLeader (wasLeader : Bool) (id : ℕ) :
    (loseLeader p wasLeader id).farewell = p.farewell := by
  cases wasLeader with
  | false => rfl
  | true =>
    simp only [loseLeader, if_true]
    rw [farewell_log]
    rfl

@[simp] theorem farewell_elected (e : Exit) (wasLeader : Bool) :
    (elected cfg cpuCount e wasLeader p).farewell = p.farewell := by
  unfold elected
  split <;> simp

@[simp] theorem farewell_deleteWorker (e : Exit) :
    (deleteWorker p e).farewell = { p.farewell with live := p.farewell.without e.worker.id } := by
  rw [deleteWorker, farewell_log]
  simp [Primary.farewell, Farewell.without, Primary.liveIds, List.filter_map, Function.comp_def]

/-- What a respawn does to the farewell. -/
theorem farewell_respawn (e : Exit) (wasLeader : Bool) :
    ∃ live, (respawn cfg cpuCount p e wasLeader).farewell = { p.farewell with live := live } := by
  unfold respawn
  by_cases hf : cfg.respawnMaxPerMinute ≤ (inWindow p.respawnTimestamps e.now₁).length
  · refine ⟨p.farewell.live, ?_⟩
    simp only [if_pos hf, farewell_loseLeader, farewell_log]
    rfl
  · refine ⟨p.farewell.live ++ [e.fresh.id], ?_⟩
    simp only [if_neg hf, farewell_elected, farewell_forkWorker]
    rfl

theorem farewell_act_exit (code : ℤ) :
    (p.act (.exit code)).farewell = { p.farewell with fates := p.farewell.fates ++ [.exit code] } := by
  simp [Primary.act, Primary.farewell, Primary.liveIds, Action.isFate]

@[simp] theorem farewell_finishShutdown (outcome : RaceOutcome) :
    (finishShutdown cfg p outcome).farewell = p.farewell.finish outcome := by
  have hend (q : Primary) : (Primary.act { q with finished := true } (.exit 0)).farewell =
      { q.farewell with finished := true, fates := q.farewell.fates ++ [.exit 0] } := farewell_act_exit _ _
  unfold finishShutdown Farewell.finish
  by_cases hkill : outcome = .timeout ∧ p.liveWorkers ≠ []
  · simp only [if_pos hkill, hend, farewell_log, farewell_killAll, if_pos hkill.1, List.append_assoc]
  · simp only [if_neg hkill, hend, farewell_log]
    by_cases ho : outcome = .timeout
    · have hnil : p.farewell.live = [] := by
        have hlive : p.liveWorkers = [] := by
          by_contra hne
          exact hkill ⟨ho, hne⟩
        simp [Primary.farewell, Primary.liveIds, hlive]
      simp [hnil]
    · simp [ho]

@[simp] theorem farewell_settle : (settle cfg p).farewell = p.farewell.settle := by
  unfold settle Farewell.settle
  rw [show p.farewell.outcome = p.outcome from rfl, show p.farewell.finished = p.finished from rfl]
  cases p.outcome with
  | none => rfl
  | some outcome =>
    cases p.finished with
    | false => exact farewell_finishShutdown p outcome
    | true => rfl

theorem farewell_notify :
    (notify p).farewell = if p.notifyDrained then p.farewell.decided .drained else p.farewell := by
  unfold notify
  split <;> rfl

theorem liveWorkers_isEmpty : p.liveWorkers.isEmpty = true ↔ p.farewell.live = [] := by
  rw [List.isEmpty_iff]
  simp [Primary.farewell, Primary.liveIds]

@[simp] theorem farewell_removeWorker (e : Exit) :
    (removeWorker p e).farewell = p.farewell.removed e.worker.id := by
  have hempty := liveWorkers_isEmpty (deleteWorker p e)
  have hnotify : (deleteWorker p e).notifyDrained = p.notifyDrained :=
    congrArg Farewell.notifyDrained (farewell_deleteWorker p e)
  rw [farewell_deleteWorker] at hempty
  unfold removeWorker Farewell.removed
  by_cases hnil : p.farewell.without e.worker.id = []
  · rw [if_pos (hempty.mpr hnil), farewell_notify, hnotify, farewell_deleteWorker]
    simp only [hnil, true_and]
    rfl
  · rw [if_neg (hempty.not.mpr hnil), if_neg (fun h => hnil h.1), farewell_deleteWorker]

theorem farewell_race :
    (race p).farewell =
      if p.farewell.live = [] then { p.farewell with outcome := some .drained, timerPending := true }
      else { p.farewell with notifyDrained := true, timerPending := true } := by
  unfold race
  by_cases hnil : p.farewell.live = []
  · rw [if_pos ((liveWorkers_isEmpty p).mpr hnil), if_pos hnil]
    rfl
  · rw [if_neg ((liveWorkers_isEmpty p).not.mpr hnil), if_neg hnil]
    rfl

/-- The first signal. -/
theorem farewell_shutdown_of_up (s : Signal) (hd : p.shuttingDown = false) :
    (shutdown p s).farewell =
      if p.farewell.live = [] then
        { p.farewell with begun := true, outcome := some .drained, timerPending := true }
      else
        { p.farewell with
          begun := true, notifyDrained := true, timerPending := true
          fates := p.farewell.fates ++ p.farewell.live.map fun id => .kill id s } := by
  have hbegun : (Primary.log { p with shuttingDown := true, signal := some s } .info "cluster.shutdown.started"
      [("signal", .string s.name), ("workers", .int p.liveWorkers.length)]).farewell =
        { p.farewell with begun := true } := farewell_log _ _ _ _
  simp only [shutdown, hd, Bool.false_eq_true, if_false, farewell_race, farewell_killAll, hbegun]
  by_cases hnil : p.farewell.live = [] <;> simp [hnil]

end Refinement

/-! ### Every handler is a step -/

section Handlers

variable {p : Primary}

/-- A shutdown that is settled, or has nothing to settle, goes no further. -/
theorem Farewell.settle_of_settled {f : Farewell} (h : f.finished = f.outcome.isSome) : f.settle = f := by
  unfold settle
  cases ho : f.outcome with
  | none => rfl
  | some outcome =>
    have hfin : f.finished = true := by rw [h, ho]; rfl
    simp only [hfin, if_true]

theorem Farewell.settle_live {f : Farewell} (h : f.finished = f.outcome.isSome) (live : List ℕ) :
    ({ f with live := live } : Farewell).settle = { f with live := live } :=
  settle_of_settled h

/-- An exit before a shutdown leaves nothing but workers changed. -/
theorem farewell_onExit_of_up (h : p.farewell.Coherent) (e : Exit) (hd : p.shuttingDown = false) :
    ∃ live, (onExit cfg cpuCount p e).farewell = { p.farewell with live := live } := by
  obtain ⟨hnotify, -, -, -⟩ := h.calm hd
  have hremove : (removeWorker p e).farewell = { p.farewell with live := p.farewell.without e.worker.id } := by
    rw [farewell_removeWorker, Farewell.removed, if_neg]
    rw [hnotify]
    intro h
    exact absurd h.2 nofun
  have hdown : (removeWorker p e).shuttingDown = false := (congrArg Farewell.begun hremove).trans hd
  simp only [onExit, hdown, Bool.false_eq_true, if_false]
  split
  · exact ⟨p.farewell.without e.worker.id, by rw [farewell_loseLeader, hremove]⟩
  · obtain ⟨live, hlive⟩ := @farewell_respawn cfg cpuCount (removeWorker p e) e (p.leaderId == some e.worker.id)
    exact ⟨live, by rw [hlive, hremove]⟩

/-- An exit during a shutdown. -/
theorem onExit_of_down (e : Exit) (hd : p.shuttingDown = true) :
    onExit cfg cpuCount p e = removeWorker p e := by
  have hdown : (removeWorker p e).shuttingDown = true :=
    (congrArg Crew.down (crew_removeWorker p e)).trans hd
  simp only [onExit, hdown, if_true]

/-- The steps of an exit during a shutdown. -/
theorem Farewell.Coherent.removed_step {f : Farewell} (h : f.Coherent) (e : Exit) (hb : f.begun = true) :
    Farewell.Step f (.exit e) (f.removed e.worker.id).settle := by
  have hsettled := h.settled
  cases hfin : f.finished with
  | true =>
    have hremoved : f.removed e.worker.id = { f with live := f.without e.worker.id } := by
      unfold removed
      split
      · cases ho : f.outcome with
        | none => simp [hfin, ho] at hsettled
        | some outcome => simp [decided]
      · rfl
    rw [hremoved, settle_live hsettled]
    exact .gone hb (.inl hfin)
  | false =>
    obtain ⟨hnotify, -⟩ := h.waiting hb hfin
    have ho : f.outcome = none := by
      rw [hfin] at hsettled
      exact Option.isSome_eq_false_iff.mp hsettled.symm |> Option.isNone_iff_eq_none.mp
    by_cases hleft : f.without e.worker.id = []
    · have hstep := Step.drained (e := e) hb hfin hleft
      simpa [removed, settle, decided, finish, drain, hleft, hnotify, ho, hfin] using hstep
    · rw [removed, if_neg fun h => hleft h.1, settle_live hsettled]
      exact .gone hb (.inr hleft)

/-- A primary that is shutting down is deaf to signals. -/
theorem handle_signal_of_down (h : p.farewell.Coherent) (hd : p.shuttingDown = true) (s : Signal) :
    handle cfg cpuCount p (.signal s) = p := by
  have hsettled : p.finished = p.outcome.isSome := h.settled
  have hdeaf : shutdown p s = p := by simp only [shutdown, hd, if_true]
  rw [handle, hdeaf, settle]
  cases ho : p.outcome with
  | none => rfl
  | some outcome =>
    have hfin : p.finished = true := by rw [hsettled, ho]; rfl
    simp only [hfin, if_true]

/-- **Refinement**: in a coherent state every handler of the primary is a step of the farewell. -/
theorem handle_farewell (cfg : StartPrimaryConfig) (cpuCount : ℕ) {i : Input}
    (h : p.farewell.Coherent) (ha : Admissible p i) :
    Farewell.Step p.farewell i (handle cfg cpuCount p i).farewell := by
  have hsettled := h.settled
  cases i with
  | exit e =>
    rw [handle, farewell_settle]
    cases hd : p.shuttingDown with
    | false =>
      obtain ⟨live, hlive⟩ := @farewell_onExit_of_up cfg cpuCount p h e hd
      rw [hlive, Farewell.settle_live hsettled]
      exact .before hd
    | true =>
      rw [onExit_of_down e hd, farewell_removeWorker]
      exact h.removed_step e hd
  | signal s =>
    cases hd : p.shuttingDown with
    | false =>
      obtain ⟨-, -, hfin, -⟩ := h.calm hd
      rw [handle, farewell_settle, farewell_shutdown_of_up p s hd]
      by_cases hnil : p.farewell.live = []
      · rw [if_pos hnil]
        have hstep := Farewell.Step.alone (s := s) hd hnil
        simpa [Farewell.settle, Farewell.finish, Farewell.drain, hfin] using hstep
      · have ho : p.farewell.outcome = none := by
          simpa [hfin] using hsettled
        rw [if_neg hnil]
        have hstep := Farewell.Step.begin (s := s) hd hnil
        simpa [Farewell.settle, ho] using hstep
    | true =>
      rw [handle_signal_of_down h hd]
      exact .deaf hd
  | timer =>
    have hexpired : (timerExpired p).farewell = { p.farewell.decided .timeout with timerPending := false } := rfl
    rw [handle, farewell_settle, hexpired]
    cases ha with
    | timer hpending =>
      have hb : p.farewell.begun = true := by
        by_contra hb
        obtain ⟨-, hno, -⟩ := h.calm (by simpa using hb)
        exact absurd (hno.symm.trans hpending) Bool.false_ne_true
      cases hfin : p.farewell.finished with
      | true =>
        obtain ⟨outcome, ho⟩ := Option.isSome_iff_exists.mp (hsettled.symm.trans hfin)
        have hstep := Farewell.Step.late hfin
        simpa [Farewell.settle, Farewell.decided, ho, hfin] using hstep
      | false =>
        have ho : p.farewell.outcome = none := by
          simpa [hfin] using hsettled
        have hstep := Farewell.Step.timeout hb hfin
        simpa [Farewell.settle, Farewell.finish, Farewell.decided, ho, hfin] using hstep

end Handlers

/-! ### After the first signal -/

/-- The signal that an action sends, and whom to. -/
def Action.sent? : Action → Option (ℕ × Signal)
  | .kill id s => some (id, s)
  | _ => none

/-- The code of a call of `exit`. -/
def Action.exit? : Action → Option ℤ
  | .exit code => some code
  | _ => none

/-- The signals sent, in order. -/
def Primary.sent (p : Primary) : List (ℕ × Signal) := p.actions.filterMap Action.sent?

/-- The codes `exit` was called with, in order. -/
def Primary.exits (p : Primary) : List ℤ := p.actions.filterMap Action.exit?

/-- The ids of the workers whose exits were handled. -/
def exitedIds (history : List (Primary × Input)) : List ℕ :=
  history.flatMap fun
    | (_, .exit e) => [e.worker.id]
    | _ => []

theorem Primary.sent_eq (p : Primary) : p.sent = p.farewell.fates.filterMap Action.sent? := by
  rw [Primary.sent, Primary.farewell, List.filterMap_filter]
  congr 1
  funext a
  cases a <;> rfl

theorem Primary.exits_eq (p : Primary) : p.exits = p.farewell.fates.filterMap Action.exit? := by
  rw [Primary.exits, Primary.farewell, List.filterMap_filter]
  congr 1
  funext a
  cases a <;> rfl

namespace Farewell

/-- **The record of a shutdown** that was begun by `s` while `ids` were live: `s` once to each of
them, and at the end `SIGKILL` to some and one `exit`. -/
structure Told (ids : List ℕ) (s : Signal) (f : Farewell) : Prop where
  /-- It has begun. -/
  begun : f.begun = true
  /-- The record. -/
  fates_eq : ∃ stragglers : List ℕ, f.fates = (ids.map fun id => .kill id s) ++
    if f.finished then (stragglers.map fun id => .kill id .SIGKILL) ++ [.exit 0] else []

theorem Told.of_begin {f f' : Farewell} {s : Signal} (h : f.Coherent) (hb : f.begun = false)
    (hs : Step f (.signal s) f') : Told f.live s f' := by
  obtain ⟨-, -, hfin, hnone⟩ := h.calm hb
  cases hs with
  | begin => exact ⟨rfl, [], by simp [hnone, hfin]⟩
  | alone _ hl => exact ⟨rfl, [], by simp [drain, hnone, hl]⟩
  | deaf hb' => exact absurd (hb.symm.trans hb') nofun

theorem Told.step {f f' : Farewell} {ids : List ℕ} {s : Signal} {i : Input} (h : Told ids s f)
    (hs : Step f i f') : Told ids s f' := by
  obtain ⟨hbegun, stragglers, hfates⟩ := h
  cases hs with
  | before hb | begin hb | alone hb => exact absurd (hb.symm.trans hbegun) nofun
  | deaf => exact ⟨hbegun, stragglers, hfates⟩
  | gone => exact ⟨hbegun, stragglers, hfates⟩
  | drained _ hfin =>
    refine ⟨hbegun, [], ?_⟩
    simp [drain, hfates, hfin]
  | timeout _ hfin =>
    refine ⟨hbegun, f.live, ?_⟩
    simp [hfates, hfin]
  | late => exact ⟨hbegun, stragglers, hfates⟩

variable {f f' : Farewell} {i : Input} {id : ℕ}

/-- The one call of `exit` of a record that ends with it. -/
theorem eq_of_last_exit {fates pre post : List Action} {code code' : ℤ}
    (hnone : fates.filterMap Action.exit? = []) (h : fates ++ [.exit code'] = pre ++ .exit code :: post) :
    pre = fates := by
  have hmem : Action.exit code ∉ fates := fun hmem => by
    have hsome := List.mem_filterMap.mpr ⟨_, hmem, (rfl : Action.exit? (.exit code) = some code)⟩
    simp [hnone] at hsome
  rcases List.append_eq_append_iff.mp h with ⟨rest, hpre, hlast⟩ | ⟨rest, hfates, hlast⟩
  · cases rest with
    | nil => simpa using hpre
    | cons a rest => simp at hlast
  · cases rest with
    | nil => simpa using hfates.symm
    | cons a rest =>
      obtain ⟨rfl, -⟩ := List.cons.inj hlast
      exact absurd (hfates ▸ List.mem_append_right _ List.mem_cons_self) hmem

/-- Who is left when `exit` is called has been sent `SIGKILL` first. -/
theorem Step.covered (hs : Step f i f') (hnone : f.fates.filterMap Action.exit? = []) {pre post : List Action}
    {code : ℤ} (hf : f'.fates = pre ++ .exit code :: post) (hid : id ∈ f'.live) : .kill id .SIGKILL ∈ pre := by
  have hsome : code ∈ f'.fates.filterMap Action.exit? := by
    rw [hf, List.mem_filterMap]
    exact ⟨.exit code, List.mem_append_right _ List.mem_cons_self, rfl⟩
  cases hs with
  | before | deaf | gone | late => simp [hnone] at hsome
  | begin => simp [hnone, Action.exit?] at hsome
  | alone _ hl =>
    rw [show f.live = [] from hl] at hid
    cases hid
  | drained => cases hid
  | timeout =>
    rw [← List.append_assoc] at hf
    have hkills : (f.fates ++ f.live.map fun id => Action.kill id .SIGKILL).filterMap Action.exit? = [] := by
      simp [hnone, Action.exit?]
    rw [eq_of_last_exit hkills hf]
    exact List.mem_append_right _ (List.mem_map.mpr ⟨id, hid, rfl⟩)

/-- `SIGKILL` is sent only when the wait is over, and only to who is left. -/
theorem Step.killed (hs : Step f i f') (hi : i ≠ .signal .SIGKILL) (hk : .kill id .SIGKILL ∈ f'.fates) :
    .kill id .SIGKILL ∈ f.fates ∨ i = .timer ∧ id ∈ f.live := by
  cases hs with
  | before | deaf | gone | late => exact .inl hk
  | @begin s =>
    rcases List.mem_append.mp hk with hk | hk
    · exact .inl hk
    · obtain ⟨_, -, heq⟩ := List.mem_map.mp hk
      obtain ⟨-, rfl⟩ := Action.kill.inj heq
      exact absurd rfl hi
  | alone | drained => exact .inl (by simpa [drain] using hk)
  | timeout =>
    rcases List.mem_append.mp hk with hk | hk
    · exact .inl hk
    · have hlive : id ∈ f.live := by simpa using hk
      exact .inr ⟨rfl, hlive⟩

end Farewell

/-! ### Every worker is accounted for -/

@[simp] theorem exitedIds_snoc (history : List (Primary × Input)) (p : Primary) (i : Input) :
    exitedIds (history ++ [(p, i)]) =
      exitedIds history ++ match i with
        | .exit e => [e.worker.id]
        | _ => [] := by
  cases i <;> simp [exitedIds]

/-- A worker that was forked is live, or its exit was handled. -/
def Accounted (c : Crew) (exited : List ℕ) : Prop :=
  ∀ id ∈ c.forked, id ∈ c.live.map Worker.id ∨ id ∈ exited

theorem Crew.mem_without {c : Crew} {id gone : ℕ} (h : id ∈ c.live.map Worker.id) (hne : id ≠ gone) :
    id ∈ (c.without gone).map Worker.id := by
  rw [Crew.without, Crew.map_filter_ne, List.mem_filter]
  exact ⟨h, by simpa using hne⟩

/-- Whoever does not exit stays. -/
theorem Accounted.gone {c : Crew} {exited : List ℕ} (h : Accounted c exited) (gone id : ℕ)
    (hid : id ∈ c.forked) : id ∈ (c.without gone).map Worker.id ∨ id ∈ exited ++ [gone] := by
  by_cases hne : id = gone
  · exact .inr (by simp [hne])
  · rcases h id hid with hlive | hexited
    · exact .inl (Crew.mem_without hlive hne)
    · exact .inr (List.mem_append_left _ hexited)

theorem Accounted.step {c c' : Crew} {i : Input} {history : List (Primary × Input)} {p : Primary}
    (h : Accounted c (exitedIds history)) (hs : Crew.Step cfg c i c') :
    Accounted c' (exitedIds (history ++ [(p, i)])) := by
  rw [exitedIds_snoc]
  cases hs with
  | @gone e | @unreplaced e | @refused e =>
    intro id hid
    exact h.gone e.worker.id id hid
  | @replaced e =>
    intro id hid
    simp only [Crew.fork, Crew.remove, List.mem_append, List.mem_singleton, List.map_append, List.map_cons,
      List.map_nil] at hid ⊢
    rcases hid with hold | rfl
    · rcases h.gone e.worker.id id hold with hlive | hexited
      · exact .inl (.inl hlive)
      · exact .inr (by simpa using hexited)
    · exact .inl (.inr rfl)
  | signal | timer =>
    rw [List.append_nil]
    exact h

/-! ### Runs -/

section Runs

variable {p : Primary} {history : List (Primary × Input)}

theorem farewell_forkAll (forked : List Forked) (index : ℕ) (p : Primary) :
    ∃ live, (forkAll p index forked).farewell = { p.farewell with live := live } := by
  induction forked generalizing index p with
  | nil => exact ⟨p.farewell.live, rfl⟩
  | cons f rest ih =>
    obtain ⟨live, hlive⟩ := ih (index + 1) (forkWorker p f (index == 0))
    exact ⟨live, by rw [forkAll, hlive, farewell_forkWorker]⟩

theorem farewell_runClusterBootRails (sources : List PoolCapacity) (workerCount : ℕ) (p : Primary) :
    (runClusterBootRails sources workerCount p).farewell = p.farewell :=
  runClusterBootRails_eq farewell_log sources workerCount p

theorem boot_coherent (forked : List Forked) : (boot cfg cpuCount forked).farewell.Coherent := by
  obtain ⟨live, hlive⟩ := farewell_forkAll forked 0
    (runClusterBootRails cfg.sources (resolveWorkerCount cfg.workers cpuCount) .declared)
  rw [boot, farewell_log, hlive, farewell_runClusterBootRails]
  exact ⟨rfl, fun _ => ⟨rfl, rfl, rfl, rfl⟩, fun hb => absurd hb Bool.false_ne_true⟩

theorem boot_accounted (forked : List Forked) : Accounted (boot cfg cpuCount forked).crew [] := by
  have hhire (rest : List Forked) (index : ℕ) (c : Crew) (h : Accounted c []) : Accounted (c.hire index rest) [] := by
    induction rest generalizing index c with
    | nil => exact h
    | cons f rest ih =>
      refine ih (index + 1) _ fun id hid => .inl ?_
      simp only [Crew.fork, List.mem_append, List.mem_singleton, List.map_append, List.map_cons,
        List.map_nil] at hid ⊢
      exact hid.imp_left fun hold => (h id hold).resolve_right List.not_mem_nil
  rw [crew_boot]
  exact hhire forked 0 .empty fun id hid => absurd hid List.not_mem_nil

theorem Run.coherent (hr : Run cfg cpuCount history p) : p.farewell.Coherent := by
  induction hr with
  | boot => exact boot_coherent _
  | snoc _ ha ih => exact ih.step (handle_farewell cfg cpuCount ih ha)

theorem Run.accounted (hr : Run cfg cpuCount history p) : Accounted p.crew (exitedIds history) := by
  induction hr with
  | boot => exact boot_accounted _
  | snoc _ _ ih => exact ih.step (handle_crew cfg cpuCount _ _)

/-- The states of a run are reached by the run up to them. -/
theorem Run.split {before after : List (Primary × Input)} {q : Primary} {i : Input}
    (hr : Run cfg cpuCount history p) (h : history = before ++ (q, i) :: after) :
    Run cfg cpuCount before q ∧ Admissible q i := by
  induction hr generalizing after with
  | boot => simp at h
  | @snoc history q' i' hrun ha ih =>
    rcases Theory.eq_or_eq_of_concat h with ⟨rfl, heq⟩ | ⟨rest, h⟩
    · obtain ⟨rfl, rfl⟩ := Prod.mk.inj heq
      exact ⟨hrun, ha⟩
    · exact ih h

/-- **What the first signal has begun**: `s` was the first one, `p₀` the state it found. -/
structure FannedOut (cfg : StartPrimaryConfig) (cpuCount : ℕ) (p₀ : Primary) (s : Signal)
    (history : List (Primary × Input)) (p : Primary) : Prop where
  /-- Everybody live at that moment is sent `s`, once, and nobody else is. -/
  sent : ∀ id, p.sent.count (id, s) = if id ∈ p₀.liveIds then 1 else 0
  /-- A later signal changes nothing. -/
  deaf : ∀ s', handle cfg cpuCount p (.signal s') = p
  /-- Nobody is forked. -/
  unforked : p.forkedIds = p₀.forkedIds
  /-- `exit` is called at most once, with 0. -/
  exits : p.exits = [] ∨ p.exits = [0]
  /-- When it is called, every worker ever forked has exited or has been sent `SIGKILL`. -/
  covered : ∀ before q i after, history = before ++ (q, i) :: after → q.exits = [] →
    ∀ pre code post, (handle cfg cpuCount q i).actions = pre ++ .exit code :: post →
      ∀ id ∈ (handle cfg cpuCount q i).forkedIds,
        id ∈ exitedIds (before ++ [(q, i)]) ∨ .kill id .SIGKILL ∈ pre
  /-- `SIGKILL` is sent only when the wait has expired, and only to workers that are live. -/
  killed : ∀ before q i after, history = before ++ (q, i) :: after →
    ∀ id, (id, .SIGKILL) ∈ (handle cfg cpuCount q i).sent →
      (id, .SIGKILL) ∈ q.sent ∨ i = .timer ∧ id ∈ q.liveIds

/-- The record, in every state after the first signal. -/
theorem Run.told {before after : List (Primary × Input)} {p₀ : Primary} {s : Signal}
    (hr : Run cfg cpuCount history p) (h : history = before ++ (p₀, .signal s) :: after)
    (hd : p₀.shuttingDown = false) :
    p.farewell.Told p₀.liveIds s ∧ p.forkedIds = p₀.forkedIds := by
  induction hr generalizing after with
  | boot => simp at h
  | @snoc history q i hrun ha ih =>
    have hstep := handle_farewell cfg cpuCount hrun.coherent ha
    rcases Theory.eq_or_eq_of_concat h with ⟨-, heq⟩ | ⟨rest, h⟩
    · obtain ⟨rfl, rfl⟩ := Prod.mk.inj heq
      refine ⟨.of_begin hrun.coherent hd hstep, ?_⟩
      exact congrArg Crew.forked ((@crew_settle cfg _).trans (crew_shutdown q s))
    · obtain ⟨htold, hforked⟩ := ih h
      refine ⟨htold.step hstep, ?_⟩
      exact ((handle_crew cfg cpuCount q i).down htold.begun).2.trans hforked

theorem Farewell.Told.count_sent {f : Farewell} {ids : List ℕ} {s : Signal} (h : f.Told ids s)
    (hn : ids.Nodup) (hs : s ≠ .SIGKILL) (id : ℕ) :
    (f.fates.filterMap Action.sent?).count (id, s) = if id ∈ ids then 1 else 0 := by
  obtain ⟨-, stragglers, hfates⟩ := h
  have hfirst : ((ids.map fun id => Action.kill id s).filterMap Action.sent?).count (id, s) =
      if id ∈ ids then 1 else 0 := by
    have hmap : (ids.map fun id => Action.kill id s).filterMap Action.sent? = ids.map fun id => (id, s) := by
      simp [List.filterMap_map, Function.comp_def, Action.sent?]
    rw [hmap, List.count_map_of_injective ids (fun id => (id, s)) (fun _ _ h => (Prod.mk.inj h).1), hn.count]
  have hkills : ((stragglers.map fun id => Action.kill id .SIGKILL).filterMap Action.sent?).count (id, s) = 0 := by
    refine List.count_eq_zero_of_not_mem fun hmem => ?_
    simp only [List.filterMap_map, List.mem_filterMap, Function.comp_apply, Action.sent?] at hmem
    obtain ⟨_, -, heq⟩ := hmem
    exact hs (Prod.mk.inj (Option.some.inj heq)).2.symm
  rw [hfates, List.filterMap_append, List.count_append, hfirst, Nat.add_eq_left]
  cases f.finished with
  | false => rfl
  | true =>
    rw [if_pos rfl, List.filterMap_append, List.count_append, hkills]
    rfl

theorem Farewell.Told.exits {f : Farewell} {ids : List ℕ} {s : Signal} (h : f.Told ids s) :
    f.fates.filterMap Action.exit? = [] ∨ f.fates.filterMap Action.exit? = [0] := by
  obtain ⟨-, stragglers, hfates⟩ := h
  have hkills (l : List ℕ) (s : Signal) : (l.map fun id => Action.kill id s).filterMap Action.exit? = [] := by
    simp [List.filterMap_map, Function.comp_def, Action.exit?]
  rw [hfates, List.filterMap_append, hkills]
  split
  · exact .inr (by simp [List.filterMap_append, hkills, Action.exit?])
  · exact .inl rfl

/-- Of what a step does, what it sends and when it exits is in the record. -/
theorem fates_eq_of_actions {pre post : List Action} {code : ℤ} (h : p.actions = pre ++ .exit code :: post) :
    p.farewell.fates = pre.filter Action.isFate ++ .exit code :: post.filter Action.isFate := by
  rw [Primary.farewell, h, List.filter_append, List.filter_cons_of_pos rfl]

theorem mem_sent {id : ℕ} {s : Signal} : (id, s) ∈ p.sent ↔ .kill id s ∈ p.farewell.fates := by
  rw [Primary.sent_eq, List.mem_filterMap]
  constructor
  · rintro ⟨a, ha, hsent⟩
    cases a with
    | kill id' s' =>
      obtain ⟨rfl, rfl⟩ := Prod.mk.inj (Option.some.inj hsent)
      exact ha
    | log | fork | exit => cases hsent
  · intro h
    exact ⟨_, h, rfl⟩

/-- **The shutdown fans out**, in every state after the first signal. -/
theorem fanned_out {before after : List (Primary × Input)} {p₀ : Primary} {s : Signal}
    (hr : Run cfg cpuCount (before ++ (p₀, .signal s) :: after) p) (hd : p₀.shuttingDown = false) :
    FannedOut cfg cpuCount p₀ s (before ++ (p₀, .signal s) :: after) p := by
  obtain ⟨hrun₀, ha₀⟩ := hr.split rfl
  obtain ⟨htold, hforked⟩ := hr.told rfl hd
  refine ⟨fun id => ?_, handle_signal_of_down hr.coherent htold.begun, hforked, ?_, ?_, ?_⟩
  · have hs : s ≠ .SIGKILL := by
      cases ha₀ with
      | signal hs => exact hs
    rw [Primary.sent_eq]
    exact htold.count_sent hrun₀.sound.nodup hs id
  · rw [Primary.exits_eq]
    exact htold.exits
  · intro before' q i after' h hnone pre code post hactions id hid
    obtain ⟨hrun, ha⟩ := hr.split h
    have hnext := hrun.snoc ha
    rcases hnext.accounted id hid with hlive | hexited
    · refine .inr (List.mem_of_mem_filter (p := Action.isFate) ?_)
      rw [Primary.exits_eq] at hnone
      exact (handle_farewell cfg cpuCount hrun.coherent ha).covered hnone (fates_eq_of_actions hactions) hlive
    · exact .inl hexited
  · intro before' q i after' h id hkill
    obtain ⟨hrun, ha⟩ := hr.split h
    have hi : i ≠ .signal .SIGKILL := by
      rintro rfl
      cases ha with
      | signal hs => exact hs rfl
    rw [mem_sent] at hkill ⊢
    exact (handle_farewell cfg cpuCount hrun.coherent ha).killed hi hkill

end Runs

/-- One worker of `duo` exits while the other one does not, and the wait expires. -/
def duoGone : List Input := [.exit ⟨⟨2, none⟩, 0, none, 0, 0, ⟨3, none⟩⟩, .signal .SIGINT, .timer]

/-- The primary of `duo` has been sent a `SIGTERM`. -/
def duoDown : Primary := handle duo 2 duo₀ (.signal .SIGTERM)

/-- The two workers are told once, and the one that is left is killed before the one `exit`. -/
theorem fanned_out_duo :
    (duoGone.foldl (handle duo 2) duoDown).sent = [(1, .SIGTERM), (2, .SIGTERM), (1, .SIGKILL)] ∧
      FannedOut duo 2 duo₀ .SIGTERM ((duo₀, .signal .SIGTERM) :: historyOf duo 2 duoDown duoGone)
        (duoGone.foldl (handle duo 2) duoDown) := by
  have hdown : Run duo 2 [(duo₀, .signal .SIGTERM)] duoDown := duo₀_run.snoc (.signal (by decide))
  have hplay : Playable duo 2 duoDown duoGone :=
    ⟨.exit (by decide) (by decide), .signal (by decide), .timer rfl, trivial⟩
  have hrun := hdown.play hplay
  rw [List.singleton_append, ← List.nil_append (_ :: _)] at hrun
  have hout := fanned_out hrun rfl
  rw [List.nil_append] at hout
  exact ⟨by decide, hout⟩

end NestDdd.Cluster
