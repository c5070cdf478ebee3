import NestDdd.Cluster.Primary
import Mathlib.Data.List.Nodup

/-!
# The workers and their leader

What `startPrimary` is for, without its log, its promises and its timers: a set of
workers of bounded size, one of which leads, that loses workers and replaces them
under a rate cap. The primary's handlers refine this, so what is proved of every
step of `Crew` holds of the primary.

## What is proved

* `handle_crew` — **refinement**: every handler of the primary is a step of the crew.
* `Sound` — ids are unique, the leader is the live worker forked as one, and there are
  never too many workers; `Sound.step`: every step keeps it.
* `Run.sound` — it holds in every state the primary reaches.
-/

namespace NestDdd.Cluster

open NestDdd.Shared

variable {cfg : StartPrimaryConfig} {cpuCount : ℕ}

/-! ### The crew -/

/-- The workers of the primary. -/
structure Crew where
  /-- The live workers. -/
  live : List Worker
  /-- The leader's id. -/
  leader : Option ℕ
  /-- Whether shutdown has begun. -/
  down : Bool
  /-- The ids ever used. -/
  forked : List ℕ
  /-- When workers were respawned, as far as it is remembered. -/
  stamps : List ℤ

namespace Crew

/-- The live workers but for one. -/
def without (c : Crew) (id : ℕ) : List Worker := c.live.filter fun w => w.id != id

/-- A worker is gone, and with it the leadership it may have had. -/
def remove (c : Crew) (id : ℕ) : Crew :=
  { c with live := c.without id, leader := if c.leader == some id then none else c.leader }

/-- A new worker. -/
def fork (c : Crew) (forked : Forked) (isLeader : Bool) : Crew :=
  { c with
    live := c.live ++ [⟨forked.id, forked.pid, isLeader⟩]
    leader := if isLeader then some forked.id else c.leader
    forked := c.forked ++ [forked.id] }

/-- Whether the cap refuses a respawn at `now`. -/
def full (cfg : StartPrimaryConfig) (c : Crew) (now : ℤ) : Bool :=
  decide (cfg.respawnMaxPerMinute ≤ (inWindow c.stamps now).length)

/-- The live workers forked as leaders. -/
def leaders (c : Crew) : List Worker := c.live.filter Worker.leader

/-- **A step of the crew.** -/
inductive Step (cfg : StartPrimaryConfig) : Crew → Input → Crew → Prop where
  /-- A worker exits during the shutdown. -/
  | gone {c : Crew} {e : Exit} : c.down = true →
      Step cfg c (.exit e) { c with live := c.without e.worker.id }
  /-- A worker exits and respawning is off. -/
  | unreplaced {c : Crew} {e : Exit} : c.down = false → cfg.respawn = false →
      Step cfg c (.exit e) (c.remove e.worker.id)
  /-- A worker exits and the cap refuses its replacement. -/
  | refused {c : Crew} {e : Exit} : c.down = false → cfg.respawn = true → c.full cfg e.now₁ = true →
      Step cfg c (.exit e) { c.remove e.worker.id with stamps := inWindow c.stamps e.now₁ }
  /-- A worker exits and is replaced; the replacement of the leader leads. -/
  | replaced {c : Crew} {e : Exit} : c.down = false → cfg.respawn = true → c.full cfg e.now₁ = false →
      Step cfg c (.exit e)
        { (c.remove e.worker.id).fork e.fresh (c.leader == some e.worker.id) with
          stamps := inWindow c.stamps e.now₁ ++ [e.now₂] }
  /-- A signal begins the shutdown. -/
  | signal {c : Crew} {s : Signal} : Step cfg c (.signal s) { c with down := true }
  /-- The timer is not about the workers. -/
  | timer {c : Crew} : Step cfg c .timer c

end Crew

/-! ### The primary refines the crew -/

/-- The workers of a primary. -/
def Primary.crew (p : Primary) : Crew where
  live := p.liveWorkers
  leader := p.leaderId
  down := p.shuttingDown
  forked := p.forkedIds
  stamps := p.respawnTimestamps

section Refinement

variable (p : Primary)

@[simp] theorem crew_log (level : Level) (message : JsString) (fields : List (String × JsValue)) :
    (p.log level message fields).crew = p.crew := by
  simp [Primary.crew, Primary.log, Primary.act, Primary.forkedIds]

@[simp] theorem crew_exit (code : ℤ) : (p.act (.exit code)).crew = p.crew := by
  simp [Primary.crew, Primary.act, Primary.forkedIds]

@[simp] theorem crew_killAll (signal : Signal) : (killAll p signal).crew = p.crew := by
  simp [Primary.crew, killAll, Primary.forkedIds, List.filterMap_append, List.filterMap_map]

@[simp] theorem crew_notify : (notify p).crew = p.crew := by
  unfold notify
  split <;> rfl

@[simp] theorem crew_forkWorker (forked : Forked) (isLeader : Bool) :
    (forkWorker p forked isLeader).crew = p.crew.fork forked isLeader := by
  simp [forkWorker, Primary.crew, Crew.fork, Primary.log, Primary.act, Primary.forkedIds]

@[simp] theorem crew_finished (b : Bool) : ({ p with finished := b } : Primary).crew = p.crew := rfl

@[simp] theorem crew_finishShutdown (outcome : RaceOutcome) :
    (finishShutdown cfg p outcome).crew = p.crew := by
  unfold finishShutdown
  split <;> simp

@[simp] theorem crew_settle : (settle cfg p).crew = p.crew := by
  unfold settle
  split
  · split
    · rfl
    · exact crew_finishShutdown p _
  · rfl

@[simp] theorem crew_deleteWorker (e : Exit) :
    (deleteWorker p e).crew = { p.crew with live := p.crew.without e.worker.id } := by
  rw [deleteWorker, crew_log]
  rfl

@[simp] theorem crew_removeWorker (e : Exit) :
    (removeWorker p e).crew = { p.crew with live := p.crew.without e.worker.id } := by
  unfold removeWorker
  split <;> simp

@[simp] theorem crew_loseLeader (wasLeader : Bool) (id : ℕ) :
    (loseLeader p wasLeader id).crew =
      { p.crew with leader := if wasLeader then none else p.crew.leader } := by
  cases wasLeader with
  | false => rfl
  | true =>
    simp only [loseLeader, if_true]
    rw [crew_log]
    rfl

@[simp] theorem crew_elected (e : Exit) (wasLeader : Bool) :
    (elected cfg cpuCount e wasLeader p).crew = p.crew := by
  unfold elected
  split <;> simp

@[simp] theorem crew_race : (race p).crew = p.crew := by
  unfold race
  split <;> rfl

theorem crew_shutdown (signal : Signal) : (shutdown p signal).crew = { p.crew with down := true } := by
  unfold shutdown
  split
  · next h =>
    have hd : p.crew.down = true := h
    rw [← hd]
  · rw [crew_race, crew_killAll, crew_log]
    rfl

/-- What a respawn does to the workers. -/
theorem crew_respawn (e : Exit) (wasLeader : Bool) :
    (respawn cfg cpuCount p e wasLeader).crew =
      if p.crew.full cfg e.now₁ then
        { p.crew with
          leader := if wasLeader then none else p.crew.leader
          stamps := inWindow p.crew.stamps e.now₁ }
      else { p.crew.fork e.fresh wasLeader with stamps := inWindow p.crew.stamps e.now₁ ++ [e.now₂] } := by
  unfold respawn
  by_cases hf : cfg.respawnMaxPerMinute ≤ (inWindow p.respawnTimestamps e.now₁).length
  · have hfull : p.crew.full cfg e.now₁ = true := decide_eq_true hf
    simp only [if_pos hf, if_pos hfull, crew_loseLeader, crew_log]
    rfl
  · have hfull : ¬ p.crew.full cfg e.now₁ = true := fun h => hf (of_decide_eq_true h)
    simp only [if_neg hf, if_neg hfull, crew_elected, crew_forkWorker]
    rfl

end Refinement

/-- **Refinement**: every handler of the primary is a step of the crew. -/
theorem handle_crew (cfg : StartPrimaryConfig) (cpuCount : ℕ) (p : Primary) (i : Input) :
    Crew.Step cfg p.crew i (handle cfg cpuCount p i).crew := by
  cases i with
  | timer =>
    rw [handle, crew_settle]
    exact .timer
  | signal s =>
    rw [handle, crew_settle, crew_shutdown]
    exact .signal
  | exit e =>
    rw [handle, crew_settle]
    unfold onExit
    have hr := crew_removeWorker p e
    have hdown : (removeWorker p e).shuttingDown = p.crew.down := congrArg Crew.down hr
    simp only [hdown]
    by_cases hd : p.crew.down = true
    · rw [if_pos hd, hr]
      exact .gone hd
    · have hd' : p.crew.down = false := by simpa using hd
      rw [if_neg hd]
      cases hresp : cfg.respawn with
      | false =>
        simp only [Bool.not_false, if_true]
        rw [crew_loseLeader, hr]
        exact .unreplaced hd' hresp
      | true =>
        simp only [Bool.not_true, Bool.false_eq_true, if_false]
        rw [crew_respawn, hr]
        cases hf : p.crew.full cfg e.now₁ with
        | true =>
          have hf' : Crew.full cfg { p.crew with live := p.crew.without e.worker.id } e.now₁ = true := hf
          rw [if_pos hf']
          exact .refused hd' hresp hf
        | false =>
          have hf' : ¬ Crew.full cfg { p.crew with live := p.crew.without e.worker.id } e.now₁ = true := by
            rw [show Crew.full cfg { p.crew with live := p.crew.without e.worker.id } e.now₁ = false from hf]
            simp
          rw [if_neg hf']
          have hstep := Crew.Step.replaced hd' hresp hf
          cases hw : p.crew.leader == some e.worker.id with
          | true =>
            rw [hw] at hstep
            have hwas : (p.leaderId == some e.worker.id) = true := hw
            rw [hwas]
            exact hstep
          | false =>
            rw [hw] at hstep
            have hwas : (p.leaderId == some e.worker.id) = false := hw
            rw [hwas]
            simpa [Crew.remove, Crew.fork, hw] using hstep

/-! ### Sound crews -/

namespace Crew

/-- **The invariant** of a crew of at most `n` workers. -/
structure Sound (n : ℕ) (c : Crew) : Prop where
  /-- No two live workers share an id. -/
  nodup : (c.live.map Worker.id).Nodup
  /-- The live workers were forked. -/
  known : ∀ w ∈ c.live, w.id ∈ c.forked
  /-- At most one live worker was forked as the leader. -/
  one : c.leaders.length ≤ 1
  /-- Before the shutdown, the leader is the live worker forked as one. -/
  elected : c.down = false → c.leaders.map Worker.id = c.leader.toList
  /-- There are not too many. -/
  bounded : c.live.length ≤ n

variable {n : ℕ} {c : Crew}

theorem leaders_without (c : Crew) (id : ℕ) :
    (c.without id).filter Worker.leader = c.leaders.filter fun w => w.id != id := by
  simp only [without, leaders, List.filter_filter, Bool.and_comm]

theorem map_filter_ne (l : List Worker) (id : ℕ) :
    (l.filter fun w => w.id != id).map Worker.id = (l.map Worker.id).filter (· != id) := by
  rw [List.filter_map]
  rfl

/-- A worker that leaves is one worker less. -/
theorem length_without (hn : (c.live.map Worker.id).Nodup) {id : ℕ} (hid : id ∈ c.live.map Worker.id) :
    (c.without id).length + 1 = c.live.length := by
  have hids : ((c.live.map Worker.id).filter (· != id)).length + 1 = (c.live.map Worker.id).length := by
    have hsplit := List.length_eq_countP_add_countP (· != id) (l := c.live.map Worker.id)
    have hone : (c.live.map Worker.id).countP (fun i => decide ¬(i != id) = true) = 1 := by
      rw [← List.count_eq_one_of_mem hn hid, List.count]
      congr 1
      funext i
      by_cases hi : i = id <;> simp [hi]
    rw [hone] at hsplit
    rw [← List.countP_eq_length_filter]
    omega
  rw [← map_filter_ne, List.length_map, List.length_map] at hids
  exact hids

/-- A sound crew that loses a worker, while nobody needs to know who leads. -/
theorem Sound.gone (h : c.Sound n) (hd : c.down = true) (id : ℕ) :
    Sound n { c with live := c.without id } where
  nodup := h.nodup.sublist (List.filter_sublist.map _)
  known w hw := h.known w (List.mem_filter.mp hw |>.1)
  one := by
    show ((c.without id).filter Worker.leader).length ≤ 1
    rw [leaders_without]
    exact (List.length_filter_le _ _).trans h.one
  elected hd' := by
    have hd'' : c.down = false := hd'
    rw [hd] at hd''
    cases hd''
  bounded := (List.length_filter_le _ _).trans h.bounded

/-- A sound crew that loses a worker, and its leader with it if that is the one. -/
theorem Sound.remove (h : c.Sound n) (id : ℕ) : (c.remove id).Sound n where
  nodup := h.nodup.sublist (List.filter_sublist.map _)
  known w hw := h.known w (List.mem_filter.mp hw |>.1)
  one := by
    show ((c.without id).filter Worker.leader).length ≤ 1
    rw [leaders_without]
    exact (List.length_filter_le _ _).trans h.one
  elected hd := by
    show ((c.without id).filter Worker.leader).map Worker.id = _
    rw [leaders_without, map_filter_ne, h.elected hd]
    cases hl : c.leader with
    | none => simp [Crew.remove, hl]
    | some l =>
      by_cases hli : l = id
      · simp [Crew.remove, hl, hli]
      · simp [Crew.remove, hl, hli]
  bounded := (List.length_filter_le _ _).trans h.bounded

/-- A sound crew that gets a worker with an id of its own; it leads only if nobody does. -/
theorem Sound.fork (h : c.Sound n) {forked : Forked} {isLeader : Bool} (hnew : forked.id ∉ c.forked)
    (hlen : c.live.length < n) (hd : c.down = false) (hl : isLeader = true → c.leader = none) :
    (c.fork forked isLeader).Sound n where
  nodup := by
    simp only [Crew.fork, List.map_append, List.map_cons, List.map_nil]
    refine List.Nodup.append h.nodup (List.nodup_singleton _) ?_
    rw [List.disjoint_singleton]
    intro hmem
    obtain ⟨w, hw, hid⟩ := List.mem_map.mp hmem
    exact hnew (hid ▸ h.known w hw)
  known w hw := by
    rcases List.mem_append.mp hw with hw | hw
    · exact List.mem_append_left _ (h.known w hw)
    · obtain rfl := List.mem_singleton.mp hw
      exact List.mem_append_right _ (List.mem_singleton_self _)
  one := by
    have helected := h.elected hd
    cases isLeader with
    | false => simpa [Crew.fork, leaders] using h.one
    | true =>
      rw [hl rfl, Option.toList_none, List.map_eq_nil_iff] at helected
      have hnil : c.live.filter Worker.leader = [] := helected
      simp [Crew.fork, leaders, hnil]
  elected _ := by
    have helected := h.elected hd
    cases isLeader with
    | false => simpa [Crew.fork, leaders] using helected
    | true =>
      rw [hl rfl, Option.toList_none, List.map_eq_nil_iff] at helected
      have hnil : c.live.filter Worker.leader = [] := helected
      simp [Crew.fork, leaders, hnil]
  bounded := by
    simp only [Crew.fork, List.length_append, List.length_singleton]
    omega

/-- What the outside keeps, in terms of the crew. -/
def Admits (c : Crew) : Input → Prop
  | .exit e => e.worker.id ∈ c.live.map Worker.id ∧ e.fresh.id ∉ c.forked
  | _ => True

/-- **Every step keeps the invariant.** -/
theorem Sound.step (h : c.Sound n) {i : Input} {c' : Crew} (ha : c.Admits i) (hs : Step cfg c i c') :
    c'.Sound n := by
  cases hs with
  | gone hd => exact h.gone hd _
  | unreplaced => exact h.remove _
  | refused =>
    obtain ⟨h₁, h₂, h₃, h₄, h₅⟩ := h.remove _
    exact ⟨h₁, h₂, h₃, h₄, h₅⟩
  | @replaced e hd hresp hf =>
    have hlen : (c.remove e.worker.id).live.length < n := by
      have hone := length_without h.nodup ha.1
      have hbound := h.bounded
      show (c.without e.worker.id).length < n
      omega
    have hlead : (c.leader == some e.worker.id) = true → (c.remove e.worker.id).leader = none := by
      intro hw
      rw [Crew.remove, hw]
      rfl
    obtain ⟨h₁, h₂, h₃, h₄, h₅⟩ := (h.remove e.worker.id).fork ha.2 hlen hd hlead
    exact ⟨h₁, h₂, h₃, h₄, h₅⟩
  | signal => exact ⟨h.nodup, h.known, h.one, nofun, h.bounded⟩
  | timer => exact h

end Crew

/-- A shutdown stays begun, and nothing is forked in it. -/
theorem Crew.Step.down {c c' : Crew} {i : Input} (hs : Crew.Step cfg c i c') (hd : c.down = true) :
    c'.down = true ∧ c'.forked = c.forked := by
  cases hs with
  | gone => exact ⟨hd, rfl⟩
  | unreplaced hd' | refused hd' | replaced hd' => rw [hd] at hd'; cases hd'
  | signal => exact ⟨rfl, rfl⟩
  | timer => exact ⟨hd, rfl⟩

/-- A shutdown that has not begun had not begun before. -/
theorem Crew.Step.not_down {c c' : Crew} {i : Input} (hs : Crew.Step cfg c i c') (hd : c'.down = false) :
    c.down = false := by
  by_contra hne
  have hdown : c.down = true := by simpa using hne
  rw [(hs.down hdown).1] at hd
  cases hd

/-! ### Booting -/

/-- No workers. -/
def Crew.empty : Crew := ⟨[], none, false, [], []⟩

theorem Crew.sound_empty (n : ℕ) : Crew.empty.Sound n :=
  ⟨List.nodup_nil, nofun, Nat.zero_le 1, fun _ => rfl, Nat.zero_le n⟩

/-- The first workers: the first one leads. -/
def Crew.hire (c : Crew) (index : ℕ) : List Forked → Crew
  | [] => c
  | forked :: rest => (c.fork forked (index == 0)).hire (index + 1) rest

@[simp] theorem crew_forkAll (p : Primary) (index : ℕ) (forked : List Forked) :
    (forkAll p index forked).crew = p.crew.hire index forked := by
  induction forked generalizing p index with
  | nil => rfl
  | cons f rest ih => rw [forkAll, ih, crew_forkWorker, Crew.hire]

@[simp] theorem crew_runClusterBootRails (sources : List PoolCapacity) (workerCount : ℕ) (p : Primary) :
    (runClusterBootRails sources workerCount p).crew = p.crew :=
  runClusterBootRails_eq crew_log sources workerCount p

theorem crew_boot (forked : List Forked) : (boot cfg cpuCount forked).crew = Crew.empty.hire 0 forked := by
  simp only [boot, crew_log, crew_forkAll, crew_runClusterBootRails]
  rfl

/-- What booting leaves: the workers in their order, all known, the first one leading. -/
theorem Crew.hire_sound (index : ℕ) {n : ℕ} {c : Crew} {forked : List Forked} (h : c.Sound n)
    (hd : c.down = false) (hnew : ∀ f ∈ forked, f.id ∉ c.forked) (hnodup : (forked.map Forked.id).Nodup)
    (hlen : c.live.length + forked.length ≤ n) (hl : index = 0 → c.leader = none) :
    (c.hire index forked).Sound n ∧ (c.hire index forked).down = false ∧
      (c.hire index forked).live.length = c.live.length + forked.length := by
  induction forked generalizing c index with
  | nil => exact ⟨h, hd, rfl⟩
  | cons f rest ih =>
    obtain ⟨hf, hrest⟩ := List.nodup_cons.mp hnodup
    have hlen' : c.live.length + 1 + rest.length ≤ n := by
      simp only [List.length_cons] at hlen
      omega
    have hfork : (c.fork f (index == 0)).Sound n :=
      h.fork (hnew f List.mem_cons_self) (by omega) hd fun h0 => hl (by simpa using h0)
    have hlive : (c.fork f (index == 0)).live.length = c.live.length + 1 := by simp [Crew.fork]
    have hnew' : ∀ g ∈ rest, g.id ∉ (c.fork f (index == 0)).forked := by
      intro g hg hmem
      rcases List.mem_append.mp hmem with hmem | hmem
      · exact hnew g (List.mem_cons_of_mem _ hg) hmem
      · exact hf (List.mem_map.mpr ⟨g, hg, List.mem_singleton.mp hmem⟩)
    obtain ⟨hs, hdown, hcount⟩ := ih (index + 1) hfork hd hnew' hrest (by omega)
      fun h0 => absurd h0 (Nat.succ_ne_zero _)
    refine ⟨hs, hdown, ?_⟩
    rw [Crew.hire, hcount, hlive, List.length_cons]
    omega

theorem BootForks.hire_sound {forked rest : List Forked} (hb : BootForks cfg cpuCount (forked ++ rest)) :
    (Crew.empty.hire 0 forked).Sound (resolveWorkerCount cfg.workers cpuCount) ∧
      (Crew.empty.hire 0 forked).down = false ∧
      (Crew.empty.hire 0 forked).live.length = forked.length := by
  have hlen := hb.length_eq
  have hnodup := hb.nodup
  rw [List.length_append] at hlen
  rw [List.map_append] at hnodup
  have hbound : Crew.empty.live.length + forked.length ≤ resolveWorkerCount cfg.workers cpuCount := by
    simp only [Crew.empty, List.length_nil]
    omega
  obtain ⟨hs, hd, hcount⟩ := Crew.hire_sound 0 (Crew.sound_empty _) rfl
    (fun f _ => by simp [Crew.empty]) hnodup.of_append_left hbound fun _ => rfl
  exact ⟨hs, hd, hcount.trans (Nat.zero_add _)⟩

/-! ### Runs -/

theorem Admissible.crew {p : Primary} {i : Input} (h : Admissible p i) : p.crew.Admits i := by
  cases h with
  | exit hid hfresh => exact ⟨hid, hfresh⟩
  | signal => trivial
  | timer => trivial

theorem Admissible.sound_handle {p : Primary} {i : Input} {n : ℕ} (ha : Admissible p i)
    (h : p.crew.Sound n) (cfg : StartPrimaryConfig) (cpuCount : ℕ) :
    (handle cfg cpuCount p i).crew.Sound n :=
  h.step ha.crew (handle_crew cfg cpuCount p i)

theorem boot_sound {forked : List Forked} (hb : BootForks cfg cpuCount forked) :
    (boot cfg cpuCount forked).crew.Sound (resolveWorkerCount cfg.workers cpuCount) ∧
      (boot cfg cpuCount forked).crew.down = false ∧
      (boot cfg cpuCount forked).crew.live.length = resolveWorkerCount cfg.workers cpuCount := by
  have hb' : BootForks cfg cpuCount (forked ++ []) := by rwa [List.append_nil]
  obtain ⟨hs, hd, hl⟩ := hb'.hire_sound
  rw [crew_boot]
  exact ⟨hs, hd, hl.trans hb.length_eq⟩

/-- **The primary's workers are sound in every state it reaches.** -/
theorem Run.sound {history : List (Primary × Input)} {p : Primary} (h : Run cfg cpuCount history p) :
    p.crew.Sound (resolveWorkerCount cfg.workers cpuCount) := by
  induction h with
  | boot hb => exact (boot_sound hb).1
  | snoc _ ha ih => exact ha.sound_handle ih cfg cpuCount

end NestDdd.Cluster
