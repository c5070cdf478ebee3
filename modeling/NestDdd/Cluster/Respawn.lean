import NestDdd.Cluster.Workers

/-!
# The respawn cap

A worker that exits is replaced, unless as many were replaced in the last minute as
the cap allows. A refused respawn is not put off: the exit handler logs it and
returns, and nothing is left that would fork later.

## What is proved

* `live_add_refused` — with respawning on and before the shutdown, the live workers and
  the refused respawns add up to the configured number of workers; and from a state
  without live workers no run forks another one.
* `primary_left_alone` — a crash loop that leaves the primary up with no worker and
  nothing to do.
-/

namespace NestDdd.Cluster

open NestDdd.Shared

variable {cfg : StartPrimaryConfig} {cpuCount : ℕ} {p : Primary} {history : List (Primary × Input)}

/-! ### Refusals -/

/-- An exit whose respawn the rate cap refuses. -/
def Crew.refuses (cfg : StartPrimaryConfig) (c : Crew) : Input → Bool
  | .exit e => c.full cfg e.now₁
  | _ => false

/-- The respawns refused in a run. -/
def refusals (cfg : StartPrimaryConfig) (history : List (Primary × Input)) : ℕ :=
  history.countP fun s => s.1.crew.refuses cfg s.2

/-- Before the shutdown, a step leaves as many workers as it found, but for a refusal. -/
theorem Crew.Step.live_length {n : ℕ} {c c' : Crew} {i : Input} (hs : Crew.Step cfg c i c')
    (hresp : cfg.respawn = true) (hd : c'.down = false) (h : c.Sound n) (ha : c.Admits i) :
    c'.live.length + (if c.refuses cfg i then 1 else 0) = c.live.length := by
  cases hs with
  | gone hd' => rw [show c.down = false from hd] at hd'; cases hd'
  | unreplaced _ hr => rw [hresp] at hr; cases hr
  | @refused e _ _ hf =>
    have hless := length_without h.nodup ha.1
    simp only [Crew.refuses, hf, if_true]
    exact hless
  | @replaced e _ _ hf =>
    have hless := length_without h.nodup ha.1
    simp only [Crew.refuses, hf, Crew.fork, Crew.remove, List.length_append, List.length_singleton]
    simpa using hless
  | signal => cases hd
  | timer => simp [Crew.refuses]

/-- A step of a crew without live workers forks none. -/
theorem Crew.Step.live_nil {c c' : Crew} {i : Input} (hs : Crew.Step cfg c i c') (hl : c.live = [])
    (ha : c.Admits i) : c'.live = [] ∧ c'.forked = c.forked := by
  cases i with
  | exit e =>
    rw [Crew.Admits, hl] at ha
    cases ha.1
  | signal s =>
    cases hs
    exact ⟨hl, rfl⟩
  | timer =>
    cases hs
    exact ⟨hl, rfl⟩

/-- A primary without live workers forks none, whatever happens. -/
theorem Later.forkedIds_eq_of_live_nil {q : Primary} (h : Later cfg cpuCount p q)
    (hl : p.liveWorkers = []) : q.liveWorkers = [] ∧ q.forkedIds = p.forkedIds := by
  induction h with
  | now => exact ⟨hl, rfl⟩
  | @snoc q i _ ha ih =>
    obtain ⟨hlive, hforked⟩ := (handle_crew cfg cpuCount q i).live_nil ih.1 ha.crew
    exact ⟨hlive, hforked.trans ih.2⟩

/-- **Every refusal is a worker less**, for good: before the shutdown and with respawning on, the
live workers and the refusals make up the configured number; and a primary that has lost all its
workers forks none again. -/
theorem live_add_refused (hr : Run cfg cpuCount history p) (hresp : cfg.respawn = true)
    (hd : p.shuttingDown = false) :
    p.liveWorkers.length + refusals cfg history = resolveWorkerCount cfg.workers cpuCount ∧
      (p.liveWorkers = [] → ∀ q, Later cfg cpuCount p q →
        q.liveWorkers = [] ∧ q.forkedIds = p.forkedIds) := by
  refine ⟨?_, fun hl q hq => hq.forkedIds_eq_of_live_nil hl⟩
  induction hr with
  | boot hb =>
    have hboot := (boot_sound hb).2.2
    exact hboot
  | @snoc history q i hrun ha ih =>
    have hstep := handle_crew cfg cpuCount q i
    have hlen := hstep.live_length hresp hd hrun.sound ha.crew
    have hcount : refusals cfg (history ++ [(q, i)]) =
        refusals cfg history + (if q.crew.refuses cfg i then 1 else 0) := by
      rw [refusals, List.countP_append, List.countP_singleton]
      rfl
    have hlive : (handle cfg cpuCount q i).liveWorkers.length +
        (if q.crew.refuses cfg i then 1 else 0) = q.liveWorkers.length := hlen
    have hbefore : q.liveWorkers.length + refusals cfg history =
        resolveWorkerCount cfg.workers cpuCount := ih (hstep.not_down hd)
    rw [hcount]
    omega

/-- One worker, one respawn a minute. -/
def uno : StartPrimaryConfig := .default 1 1 (by decide)

/-- The primary of `uno` has just booted. -/
def uno₀ : Primary := boot uno 1 [⟨1, none⟩]

theorem uno₀_run : Run uno 1 [] uno₀ := .boot ⟨rfl, by decide⟩

/-- The worker exits, and so does its replacement, a millisecond later. -/
def unoExits : List Input :=
  [.exit ⟨⟨1, none⟩, 1, none, 0, 0, ⟨2, none⟩⟩, .exit ⟨⟨2, none⟩, 1, none, 1, 1, ⟨3, none⟩⟩]

/-- The primary after that. -/
def uno₂ : Primary := unoExits.foldl (handle uno 1) uno₀

theorem uno₂_run : Run uno 1 (historyOf uno 1 uno₀ unoExits) uno₂ := by
  have hplay : Playable uno 1 uno₀ unoExits :=
    ⟨.exit (by decide) (by decide), .exit (by decide) (by decide), trivial⟩
  have hrun := uno₀_run.play hplay
  rwa [List.nil_append] at hrun

theorem live_add_refused_uno :
    uno₂.liveWorkers.length + refusals uno (historyOf uno 1 uno₀ unoExits) = 1 :=
  (live_add_refused uno₂_run rfl rfl).1

/-- **A crash loop leaves the primary alone**: up, not shutting down, without a worker, and
whatever happens it forks none again. -/
theorem primary_left_alone :
    Run uno 1 (historyOf uno 1 uno₀ unoExits) uno₂ ∧
      (readings (historyOf uno 1 uno₀ unoExits)).Pairwise (· ≤ ·) ∧
      uno₂.shuttingDown = false ∧ uno₂.liveWorkers = [] ∧
      ∀ q, Later uno 1 uno₂ q → q.forkedIds = uno₂.forkedIds :=
  ⟨uno₂_run, by decide, rfl, rfl, fun _ hq => (hq.forkedIds_eq_of_live_nil rfl).2⟩

end NestDdd.Cluster
