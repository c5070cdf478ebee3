import NestDdd.Cluster.Workers
import NestDdd.Config.Env
import NestDdd.Scheduler.JobScheduler

/-!
# The scheduler's leader

The primary marks one worker as the leader by the environment it forks it with; in
cluster mode a worker registers the cron jobs only if it is marked. So that a job
does not run twice there must never be two marked workers, and so that it runs at
all there should be one.

## What is proved

* `single_leader` — at every moment at most one live worker is marked, hence at most
  one registers jobs; before the shutdown `leaderId` is that worker; there are never
  more workers than configured, and none is forked once the shutdown has begun.
* `leader_after_fork_iff` — **after a fork of the exit handler there is a leader exactly
  when no respawn of a leader was refused before**: the handler forgets the leader when
  the rate cap refuses its replacement, and no later fork is marked.
* `leadership_lost` — such a run: every worker is up, and none is the leader.
-/

namespace NestDdd.Cluster

open NestDdd.Shared NestDdd.Config NestDdd.Scheduler

variable {cfg : StartPrimaryConfig} {cpuCount : ℕ} {p : Primary} {history : List (Primary × Input)}

/-! ### The workers' schedulers -/

/-- The configuration a worker's scheduler reads: the primary runs only in cluster mode, the
worker inherits its environment, and `CLUSTER_LEADER` is added to it. -/
def workerConfig (enabled : Bool) (timezone : Option JsString) (w : Worker) : SchedulerConfig where
  enabled := enabled
  clusterEnabled := true
  isLeader := ((envBool (some (clusterLeader w.leader))).parse false).getD false
  timezone := timezone

theorem workerConfig_isLeader (enabled : Bool) (timezone : Option JsString) (w : Worker) :
    (workerConfig enabled timezone w).isLeader = w.leader := by
  show ((envBool (some (clusterLeader w.leader))).parse false).getD false = w.leader
  cases w.leader <;> rfl

/-- A live worker that registers jobs is marked. -/
theorem registering_le (enabled : Bool) (timezone : Option JsString) (nextRun : ScheduledJob → JsValue)
    (jobs : List ScheduledJob) :
    (p.liveWorkers.filter fun w =>
        !(onApplicationBootstrap (workerConfig enabled timezone w) nextRun jobs).1.isEmpty).length ≤
      p.liveLeaders.length := by
  rw [Primary.liveLeaders, ← List.countP_eq_length_filter, ← List.countP_eq_length_filter]
  refine List.countP_mono_left fun w _ hw => ?_
  by_contra hl
  have hconfig : (workerConfig enabled timezone w).isLeader = false := by
    rw [workerConfig_isLeader]
    simpa using hl
  rw [onApplicationBootstrap_not_leader rfl hconfig] at hw
  cases hw

/-! ### One leader at most -/

/-- The moments of the primary: while it boots, and between events. -/
inductive Moment (cfg : StartPrimaryConfig) (cpuCount : ℕ) : Primary → Prop where
  /-- Some of the first workers have been forked. -/
  | booting {forked rest : List Forked} : BootForks cfg cpuCount (forked ++ rest) →
      Moment cfg cpuCount (forkAll
        (runClusterBootRails cfg.sources (resolveWorkerCount cfg.workers cpuCount) .declared) 0 forked)
  /-- The events of a run have been handled. -/
  | running {history : List (Primary × Input)} {p : Primary} : Run cfg cpuCount history p →
      Moment cfg cpuCount p

theorem Moment.sound (h : Moment cfg cpuCount p) :
    p.crew.Sound (resolveWorkerCount cfg.workers cpuCount) := by
  cases h with
  | booting hb =>
    rw [crew_forkAll, crew_runClusterBootRails]
    exact hb.hire_sound.1
  | running hr => exact hr.sound

theorem Later.forkedIds_eq {q : Primary} (h : Later cfg cpuCount p q) (hd : p.shuttingDown = true) :
    q.shuttingDown = true ∧ q.forkedIds = p.forkedIds := by
  induction h with
  | now => exact ⟨hd, rfl⟩
  | @snoc q i _ ha ih =>
    obtain ⟨hdown, hforked⟩ := (handle_crew cfg cpuCount q i).down ih.1
    exact ⟨hdown, hforked.trans ih.2⟩

/-- **One leader at most, and not too many workers**, at every moment of every run. -/
theorem single_leader (h : Moment cfg cpuCount p) :
    p.liveLeaders.length ≤ 1 ∧
      (∀ enabled timezone nextRun jobs, (p.liveWorkers.filter fun w =>
        !(onApplicationBootstrap (workerConfig enabled timezone w) nextRun jobs).1.isEmpty).length ≤ 1) ∧
      (p.shuttingDown = false → p.liveLeaders.map Worker.id = p.leaderId.toList) ∧
      p.liveWorkers.length ≤ resolveWorkerCount cfg.workers cpuCount ∧
      (p.shuttingDown = true → ∀ q, Later cfg cpuCount p q → q.forkedIds = p.forkedIds) := by
  have hs := h.sound
  refine ⟨hs.one, fun enabled timezone nextRun jobs => ?_, hs.elected, hs.bounded, fun hd q hq => ?_⟩
  · exact (registering_le enabled timezone nextRun jobs).trans hs.one
  · exact (hq.forkedIds_eq hd).2

/-- Two workers, one respawn a minute. -/
def duo : StartPrimaryConfig := .default 2 1 Nat.one_pos

/-- The primary of `duo` has just booted. -/
def duo₀ : Primary := boot duo 2 [⟨1, none⟩, ⟨2, none⟩]

theorem duo₀_run : Run duo 2 [] duo₀ := .boot ⟨rfl, by decide⟩

/-- The leader exits and is respawned, then the other worker exits while the cap is full. -/
def duoLeaderExits : List Input :=
  [.exit ⟨⟨1, none⟩, 1, none, 0, 0, ⟨3, none⟩⟩, .exit ⟨⟨2, none⟩, 1, none, 1, 1, ⟨4, none⟩⟩]

theorem single_leader_duo :
    let p := duoLeaderExits.foldl (handle duo 2) duo₀
    p.forkedIds = [1, 2, 3] ∧ p.liveLeaders.map Worker.id = [3] ∧ p.liveWorkers.length ≤ 2 := by
  intro p
  have hplay : Playable duo 2 duo₀ duoLeaderExits :=
    ⟨.exit (by decide) (by decide), .exit (by decide) (by decide), trivial⟩
  have hmoment : Moment duo 2 p := .running (duo₀_run.play hplay)
  exact ⟨rfl, (single_leader hmoment).2.2.1 rfl, (single_leader hmoment).2.2.2.1⟩

/-! ### A leader again -/

/-- The exit of a leader whose replacement the rate cap refuses. -/
def Crew.refusesLeader (cfg : StartPrimaryConfig) (c : Crew) : Input → Bool
  | .exit e => c.full cfg e.now₁ && c.leader == some e.worker.id
  | _ => false

/-- With respawning on, a step loses the leader only by refusing to replace it. -/
theorem Crew.Step.leader_isSome {c c' : Crew} {i : Input} (hs : Crew.Step cfg c i c')
    (hresp : cfg.respawn = true) (hd : c'.down = false) :
    c'.leader.isSome = (c.leader.isSome && !c.refusesLeader cfg i) := by
  cases hs with
  | gone hd' => rw [show c.down = false from hd] at hd'; cases hd'
  | unreplaced _ hr => rw [hresp] at hr; cases hr
  | @refused e _ _ hf =>
    simp only [Crew.refusesLeader, hf, Bool.true_and, Crew.remove]
    cases hw : c.leader == some e.worker.id <;> simp
  | @replaced e _ _ hf =>
    simp only [Crew.refusesLeader, hf, Bool.false_and, Bool.not_false, Bool.and_true, Crew.fork,
      Crew.remove]
    cases hw : c.leader == some e.worker.id with
    | false => simp
    | true =>
      rw [eq_of_beq hw]
      rfl
  | signal => cases hd
  | timer => simp [Crew.refusesLeader]

theorem Crew.hire_leader (forked : List Forked) (index : ℕ) (c : Crew) :
    (c.hire (index + 1) forked).leader = c.leader := by
  induction forked generalizing index c with
  | nil => rfl
  | cons f rest ih =>
    rw [Crew.hire, ih]
    rfl

/-- The primary has a leader once it has booted: the first of its workers, of which there is
one at least. -/
theorem boot_leader_isSome {forked : List Forked} (hb : BootForks cfg cpuCount forked) :
    (boot cfg cpuCount forked).crew.leader.isSome = true := by
  rw [crew_boot]
  cases forked with
  | nil =>
    have hlen := hb.length_eq
    have hone := one_le_resolveWorkerCount cfg.workers cpuCount
    simp only [List.length_nil] at hlen
    omega
  | cons f rest =>
    rw [Crew.hire, Crew.hire_leader]
    rfl

/-- Before the shutdown, and with respawning on, there is a leader exactly as long as no respawn
of a leader was refused. -/
theorem Run.leader_isSome (hr : Run cfg cpuCount history p) (hresp : cfg.respawn = true)
    (hd : p.crew.down = false) :
    p.crew.leader.isSome = !history.any fun s => s.1.crew.refusesLeader cfg s.2 := by
  induction hr with
  | boot hb => exact boot_leader_isSome hb
  | @snoc history q i _ ha ih =>
    have hstep := handle_crew cfg cpuCount q i
    rw [hstep.leader_isSome hresp hd, ih (hstep.not_down hd), List.any_append, Bool.not_or]
    simp

/-- A fork of the exit handler: it is neither in a shutdown nor refused. -/
theorem Crew.Step.of_forked_ne {c c' : Crew} {i : Input} (hs : Crew.Step cfg c i c')
    (hf : c'.forked ≠ c.forked) :
    c'.down = false ∧ cfg.respawn = true ∧ c.refusesLeader cfg i = false := by
  cases hs with
  | gone | unreplaced | refused | signal | timer => exact absurd rfl hf
  | replaced hd hr hfull => exact ⟨hd, hr, by simp [Crew.refusesLeader, hfull]⟩

theorem Crew.Sound.leaders_length {n : ℕ} {c : Crew} (h : c.Sound n) (hd : c.down = false) :
    c.leaders.length = 1 ↔ c.leader.isSome = true := by
  rw [← List.length_map Worker.id, h.elected hd]
  cases c.leader <;> simp

/-- **When leadership is recovered**: after a fork of the exit handler exactly one live worker is
the leader, if and only if no respawn of a leader was refused before. -/
theorem leader_after_fork_iff {e : Exit} (hr : Run cfg cpuCount history p)
    (ha : Admissible p (.exit e)) (hf : (handle cfg cpuCount p (.exit e)).forkedIds ≠ p.forkedIds) :
    (handle cfg cpuCount p (.exit e)).liveLeaders.length = 1 ↔
      ∀ s ∈ history, s.1.crew.refusesLeader cfg s.2 = false := by
  obtain ⟨hd, hresp, hlast⟩ := (handle_crew cfg cpuCount p (.exit e)).of_forked_ne hf
  have hsound := ha.sound_handle hr.sound cfg cpuCount
  have hrun := (hr.snoc ha).leader_isSome hresp hd
  rw [List.any_append, List.any_cons, hlast] at hrun
  refine (hsound.leaders_length hd).trans ?_
  rw [hrun]
  simp

/-- A worker of `duo` exits while the cap has room. -/
def duoExit : Exit := ⟨⟨2, none⟩, 1, none, 0, 0, ⟨3, none⟩⟩

theorem leader_after_fork_duo : (handle duo 2 duo₀ (.exit duoExit)).liveLeaders.length = 1 := by
  have hadmissible : Admissible duo₀ (.exit duoExit) := .exit (by decide) (by decide)
  have hforks : (handle duo 2 duo₀ (.exit duoExit)).forkedIds ≠ duo₀.forkedIds := by decide
  exact (leader_after_fork_iff duo₀_run hadmissible hforks).mpr fun s hs => nomatch hs

/-- First the one worker exits and is respawned, then the leader exits while the cap is full. -/
def duoExits : List Input := [.exit duoExit, .exit ⟨⟨1, none⟩, 1, none, 1, 1, ⟨4, none⟩⟩]

/-- A minute later a worker exits and is respawned. -/
def duoLastExit : Exit := ⟨⟨3, none⟩, 1, none, 60001, 60001, ⟨4, none⟩⟩

/-- The primary before that. -/
def duo₂ : Primary := duoExits.foldl (handle duo 2) duo₀

theorem duo₂_run : Run duo 2 (historyOf duo 2 duo₀ duoExits) duo₂ := by
  have hplay : Playable duo 2 duo₀ duoExits :=
    ⟨.exit (by decide) (by decide), .exit (by decide) (by decide), trivial⟩
  have hrun := duo₀_run.play hplay
  rwa [List.nil_append] at hrun

/-- **Leadership is lost for good**: the leader's respawn is refused, a minute later a worker is
respawned on a clock that never went back, and no live worker is the leader. -/
theorem leadership_lost :
    Run duo 2 (historyOf duo 2 duo₀ duoExits) duo₂ ∧
      (readings (historyOf duo 2 duo₀ duoExits ++ [(duo₂, .exit duoLastExit)])).Pairwise (· ≤ ·) ∧
      Admissible duo₂ (.exit duoLastExit) ∧ duo₂.shuttingDown = false ∧
      (handle duo 2 duo₂ (.exit duoLastExit)).forkedIds ≠ duo₂.forkedIds ∧
      (handle duo 2 duo₂ (.exit duoLastExit)).liveLeaders = [] :=
  ⟨duo₂_run, by decide, .exit (by decide) (by decide), rfl, by decide, rfl⟩

end NestDdd.Cluster
