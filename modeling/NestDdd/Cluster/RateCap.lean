import NestDdd.Cluster.Respawn
import NestDdd.Theory.Window

/-!
# The respawn cap is exact

The exit handler keeps the timestamps of its respawns in a queue, drops what the last
minute has left and refuses when too many remain. It reads the clock twice: once for the
window, and once more for the timestamp of a respawn.

## What is proved

* `respawned_eq` — the handler respawns unless the queue says that the cap is reached.
* `Run.pruned` — on a clock that never goes back, the queue is the log of all respawns
  without entries that are out of every window to come.
* `exact_cap` — so an exit is followed by a respawn exactly when fewer than
  `respawnMaxPerMinute` of all earlier ones lie in the minute before it, and no minute
  whatsoever has more respawns than that.
-/

namespace NestDdd.Cluster

open NestDdd.Shared NestDdd.Theory

variable {cfg : StartPrimaryConfig} {cpuCount : ℕ} {p : Primary} {history : List (Primary × Input)}

/-! ### Respawns and readings -/

/-- Whether the handler of an exit forks a replacement. -/
def respawned (cfg : StartPrimaryConfig) (cpuCount : ℕ) (p : Primary) (e : Exit) : Bool :=
  decide ((handle cfg cpuCount p (.exit e)).forkedIds ≠ p.forkedIds)

/-- The timestamp of an event's respawn, if there is one. -/
def respawnOf (cfg : StartPrimaryConfig) (cpuCount : ℕ) : Primary × Input → List ℤ
  | (p, .exit e) => if respawned cfg cpuCount p e then [e.now₂] else []
  | _ => []

/-- The timestamps of all respawns of a run. -/
def respawns (cfg : StartPrimaryConfig) (cpuCount : ℕ) (history : List (Primary × Input)) : List ℤ :=
  history.flatMap (respawnOf cfg cpuCount)

/-- The readings of the clock an event's handler makes. -/
def readingsOf (cfg : StartPrimaryConfig) (cpuCount : ℕ) : Primary × Input → List ℤ
  | (p, .exit e) =>
    if p.shuttingDown || !cfg.respawn then []
    else e.now₁ :: respawnOf cfg cpuCount (p, .exit e)
  | _ => []

/-- All readings of the clock in a run. -/
def clockReadings (cfg : StartPrimaryConfig) (cpuCount : ℕ) (history : List (Primary × Input)) : List ℤ :=
  history.flatMap (readingsOf cfg cpuCount)

@[simp] theorem respawns_snoc (s : Primary × Input) :
    respawns cfg cpuCount (history ++ [s]) = respawns cfg cpuCount history ++ respawnOf cfg cpuCount s := by
  simp [respawns]

@[simp] theorem clockReadings_snoc (s : Primary × Input) :
    clockReadings cfg cpuCount (history ++ [s]) =
      clockReadings cfg cpuCount history ++ readingsOf cfg cpuCount s := by
  simp [clockReadings]

/-! ### One exit -/

/-- What an exit does to the timestamps, and when it forks. -/
theorem Crew.Step.exit_eq {c c' : Crew} {e : Exit} (hs : Crew.Step cfg c (.exit e) c') :
    decide (c'.forked ≠ c.forked) = (!c.down && cfg.respawn && !c.full cfg e.now₁) ∧
      c'.stamps = if c.down || !cfg.respawn then c.stamps
        else inWindow c.stamps e.now₁ ++ if c.full cfg e.now₁ then [] else [e.now₂] := by
  cases hs with
  | gone hd => simp [hd]
  | unreplaced hd hresp => simp [hresp, Crew.remove]
  | refused hd hresp hfull => simp [hd, hresp, hfull, Crew.remove]
  | replaced hd hresp hfull => simp [hd, hresp, hfull, Crew.fork, Crew.remove]

/-- The handler respawns unless there is a shutdown, respawning is off or the cap is reached. -/
theorem respawned_eq (e : Exit) :
    respawned cfg cpuCount p e = (!p.shuttingDown && cfg.respawn && !p.crew.full cfg e.now₁) :=
  (handle_crew cfg cpuCount p (.exit e)).exit_eq.1

theorem full_eq_false_iff (now : ℤ) :
    p.crew.full cfg now = false ↔ (inWindow p.respawnTimestamps now).length < cfg.respawnMaxPerMinute := by
  rw [Crew.full, decide_eq_false_iff_not, not_le]
  rfl

theorem respawned_iff {e : Exit} :
    respawned cfg cpuCount p e = true ↔ p.shuttingDown = false ∧ cfg.respawn = true ∧
      (inWindow p.respawnTimestamps e.now₁).length < cfg.respawnMaxPerMinute := by
  rw [respawned_eq, Bool.and_eq_true, Bool.and_eq_true, Bool.not_eq_true', Bool.not_eq_true', full_eq_false_iff,
    and_assoc]

/-- The timestamps an exit leaves. -/
theorem handle_exit_stamps (e : Exit) :
    (handle cfg cpuCount p (.exit e)).respawnTimestamps =
      if p.shuttingDown || !cfg.respawn then p.respawnTimestamps
      else inWindow p.respawnTimestamps e.now₁ ++ respawnOf cfg cpuCount (p, .exit e) := by
  have hstamps := (handle_crew cfg cpuCount p (.exit e)).exit_eq.2
  have hnow : respawnOf cfg cpuCount (p, .exit e) =
      if !p.shuttingDown && cfg.respawn && !p.crew.full cfg e.now₁ then [e.now₂] else [] := by
    rw [respawnOf, respawned_eq]
  refine hstamps.trans ?_
  rw [hnow]
  cases hd : p.shuttingDown <;> cases hresp : cfg.respawn <;> cases hfull : p.crew.full cfg e.now₁ <;>
    simp [Primary.crew, hd]

/-- Nothing else touches the timestamps. -/
theorem handle_signal_stamps (s : Signal) :
    (handle cfg cpuCount p (.signal s)).respawnTimestamps = p.respawnTimestamps :=
  congrArg Crew.stamps ((@crew_settle cfg _).trans (crew_shutdown p s))

theorem handle_timer_stamps : (handle cfg cpuCount p .timer).respawnTimestamps = p.respawnTimestamps :=
  congrArg Crew.stamps (@crew_settle cfg (timerExpired p))

/-- Every respawn is a reading. -/
theorem respawnOf_sublist (s : Primary × Input) :
    (respawnOf cfg cpuCount s).Sublist (readingsOf cfg cpuCount s) := by
  obtain ⟨p, i⟩ := s
  cases i with
  | exit e =>
    by_cases h : (p.shuttingDown || !cfg.respawn) = true
    · have hnone : respawned cfg cpuCount p e = false := by
        rw [respawned_eq]
        rcases (Bool.or_eq_true _ _).mp h with h | h <;> simp_all
      simp [respawnOf, hnone]
    · rw [readingsOf, if_neg h]
      exact List.sublist_cons_self ..
  | signal | timer => exact List.Sublist.refl _

theorem respawns_sublist (history : List (Primary × Input)) :
    (respawns cfg cpuCount history).Sublist (clockReadings cfg cpuCount history) := by
  induction history with
  | nil => exact List.Sublist.refl _
  | cons s rest ih => exact (respawnOf_sublist s).append ih

/-! ### A whole run -/

theorem Crew.hire_stamps (forked : List Forked) (index : ℕ) (c : Crew) :
    (c.hire index forked).stamps = c.stamps := by
  induction forked generalizing index c with
  | nil => rfl
  | cons f rest ih =>
    rw [Crew.hire, ih]
    rfl

/-- **The queue is the log**, without entries that no window to come will reach. -/
theorem Run.pruned (hr : Run cfg cpuCount history p)
    (hclock : (clockReadings cfg cpuCount history).Pairwise (· ≤ ·)) {now : ℤ}
    (hnow : ∀ t ∈ clockReadings cfg cpuCount history, t ≤ now) :
    Pruned (respawns cfg cpuCount history) p.respawnTimestamps (now - RESPAWN_WINDOW_MS) := by
  induction hr generalizing now with
  | @boot forked hb =>
    have hnone : (Cluster.boot cfg cpuCount forked).respawnTimestamps = [] :=
      (congrArg Crew.stamps (crew_boot forked)).trans (Crew.hire_stamps forked 0 .empty)
    rw [hnone]
    exact .refl _ _
  | @snoc history q i hrun ha ih =>
    rw [clockReadings_snoc] at hclock hnow
    obtain ⟨hbefore, -, hlast⟩ := List.pairwise_append.mp hclock
    cases i with
    | signal s =>
      rw [handle_signal_stamps]
      simpa [respawnOf] using ih hbefore fun t ht => hnow t (List.mem_append_left _ ht)
    | timer =>
      rw [handle_timer_stamps]
      simpa [respawnOf] using ih hbefore fun t ht => hnow t (List.mem_append_left _ ht)
    | exit e =>
      rw [handle_exit_stamps, respawns_snoc]
      by_cases h : (q.shuttingDown || !cfg.respawn) = true
      · have hnone : respawnOf cfg cpuCount (q, .exit e) = [] := by
          have hsub := @respawnOf_sublist cfg cpuCount (q, .exit e)
          rwa [readingsOf, if_pos h, List.sublist_nil] at hsub
        rw [if_pos h, hnone, List.append_nil]
        exact ih hbefore fun t ht => hnow t (List.mem_append_left _ ht)
      · -- the window moves to the first reading, and what it leaves is dropped
        have hfirst : e.now₁ ∈ readingsOf cfg cpuCount (q, .exit e) := by
          rw [readingsOf, if_neg h]
          exact List.mem_cons_self
        have hq := ih hbefore fun t ht => hlast t ht e.now₁ hfirst
        have hle : e.now₁ ≤ now := hnow _ (List.mem_append_right _ hfirst)
        have hkept := (hq.drop le_rfl).mono (sub_le_sub_right hle RESPAWN_WINDOW_MS)
        rw [if_neg h, respawnOf]
        split
        · exact hkept.push e.now₂
        · rw [List.append_nil, List.append_nil]
          exact hkept

/-- The exit handler sees as many young respawns as there are. -/
theorem Run.length_inWindow (hr : Run cfg cpuCount history p)
    (hclock : (clockReadings cfg cpuCount history).Pairwise (· ≤ ·)) {now : ℤ}
    (hnow : ∀ t ∈ clockReadings cfg cpuCount history, t ≤ now) :
    (inWindow p.respawnTimestamps now).length =
      (respawns cfg cpuCount history).countP fun t => decide (now - RESPAWN_WINDOW_MS ≤ t ∧ t ≤ now) := by
  have hsorted := hclock.sublist (respawns_sublist history)
  have hlen := (hr.pruned hclock hnow).length_dropWhile hsorted le_rfl
  refine hlen.trans (List.countP_congr fun t ht => ?_)
  have hle := hnow t ((respawns_sublist history).subset ht)
  simp [hle]

/-- A respawn means that the window had room. -/
theorem Run.countP_lt_of_respawned (hr : Run cfg cpuCount history p)
    (hclock : (clockReadings cfg cpuCount history).Pairwise (· ≤ ·)) {e : Exit}
    (hnow : ∀ t ∈ clockReadings cfg cpuCount history, t ≤ e.now₁)
    (h : respawned cfg cpuCount p e = true) :
    (respawns cfg cpuCount history).countP
      (fun t => decide (e.now₁ - RESPAWN_WINDOW_MS ≤ t ∧ t ≤ e.now₁)) < cfg.respawnMaxPerMinute := by
  rw [← hr.length_inWindow hclock hnow]
  exact (respawned_iff.mp h).2.2

/-- **No minute has too many respawns**: the last of them found room for all that went before. -/
theorem Run.respawns_bounded (hr : Run cfg cpuCount history p)
    (hclock : (clockReadings cfg cpuCount history).Pairwise (· ≤ ·)) (a : ℤ) :
    (respawns cfg cpuCount history).countP (fun t => decide (a ≤ t ∧ t ≤ a + RESPAWN_WINDOW_MS)) ≤
      cfg.respawnMaxPerMinute := by
  induction hr with
  | boot => exact Nat.zero_le _
  | @snoc history q i hrun ha ih =>
    rw [clockReadings_snoc] at hclock
    obtain ⟨hbefore, hstep, hlast⟩ := List.pairwise_append.mp hclock
    have hold := ih hbefore
    rw [respawns_snoc, List.countP_append]
    cases i with
    | signal | timer => simpa [respawnOf] using hold
    | exit e =>
      by_cases h : respawned cfg cpuCount q e = true
      · have hreadings : readingsOf cfg cpuCount (q, .exit e) = [e.now₁, e.now₂] := by
          obtain ⟨hup, hresp, -⟩ := respawned_iff.mp h
          simp [readingsOf, respawnOf, h, hup, hresp]
        rw [hreadings] at hlast hstep
        have hle : e.now₁ ≤ e.now₂ := (List.pairwise_pair).mp hstep
        have hroom := hrun.countP_lt_of_respawned hbefore
          (fun t ht => hlast t ht _ List.mem_cons_self) h
        rw [respawnOf, if_pos h]
        by_cases hin : a ≤ e.now₂ ∧ e.now₂ ≤ a + RESPAWN_WINDOW_MS
        · -- what the minute holds already lies in the window of this exit
          have hsub : (respawns cfg cpuCount history).countP
                (fun t => decide (a ≤ t ∧ t ≤ a + RESPAWN_WINDOW_MS)) ≤
              (respawns cfg cpuCount history).countP
                (fun t => decide (e.now₁ - RESPAWN_WINDOW_MS ≤ t ∧ t ≤ e.now₁)) := by
            refine List.countP_mono_left fun t ht hmem => ?_
            have htle := hlast t ((respawns_sublist history).subset ht) _ List.mem_cons_self
            simp only [decide_eq_true_eq] at hmem ⊢
            omega
          rw [List.countP_singleton, if_pos (by simpa using hin)]
          omega
        · rw [List.countP_singleton, if_neg (by simpa using hin)]
          exact hold
      · rw [respawnOf, if_neg h]
        exact hold

/-- **The cap is exact**, on a clock that never goes back: before a shutdown and with respawning on,
an exit is followed by a respawn if and only if fewer than `respawnMaxPerMinute` earlier respawns lie
in the minute up to its first reading; and every minute has at most that many. -/
theorem exact_cap (hr : Run cfg cpuCount history p) (hresp : cfg.respawn = true)
    (hclock : (clockReadings cfg cpuCount history).Pairwise (· ≤ ·)) :
    (p.shuttingDown = false → ∀ e, Admissible p (.exit e) →
        (∀ t ∈ clockReadings cfg cpuCount history, t ≤ e.now₁) →
          (respawned cfg cpuCount p e = true ↔
            (respawns cfg cpuCount history).countP
              (fun t => decide (e.now₁ - RESPAWN_WINDOW_MS ≤ t ∧ t ≤ e.now₁)) <
                cfg.respawnMaxPerMinute)) ∧
      ∀ a, (respawns cfg cpuCount history).countP
        (fun t => decide (a ≤ t ∧ t ≤ a + RESPAWN_WINDOW_MS)) ≤ cfg.respawnMaxPerMinute := by
  refine ⟨fun hd e _ hnow => ?_, hr.respawns_bounded hclock⟩
  rw [respawned_iff, ← hr.length_inWindow hclock hnow, and_iff_right hd, and_iff_right hresp]

/-- The one worker of `uno` has exited at time 0 and was respawned. -/
def unoExit : Exit := ⟨⟨1, none⟩, 1, none, 0, 0, ⟨2, none⟩⟩

/-- The primary after that. -/
def uno₁ : Primary := handle uno 1 uno₀ (.exit unoExit)

/-- The replacement exits at `now`. -/
def unoNext (now : ℤ) : Exit := ⟨⟨2, none⟩, 1, none, now, now, ⟨3, none⟩⟩

/-- The edge of the window: a minute later the first respawn still counts, a millisecond after that
it no longer does. -/
theorem exact_cap_uno :
    respawned uno 1 uno₁ (unoNext 60000) = false ∧ respawned uno 1 uno₁ (unoNext 60001) = true := by
  have hrun : Run uno 1 [(uno₀, .exit unoExit)] uno₁ := uno₀_run.snoc (.exit (by decide) (by decide))
  have hcap := (exact_cap hrun rfl (by decide)).1 rfl
  constructor
  · rw [← Bool.not_eq_true, hcap (unoNext 60000) (.exit (by decide) (by decide)) (by decide)]
    decide
  · rw [hcap (unoNext 60001) (.exit (by decide) (by decide)) (by decide)]
    decide

end NestDdd.Cluster
