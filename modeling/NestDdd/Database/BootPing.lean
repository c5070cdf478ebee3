import NestDdd.Database.PoolManager
import Mathlib.Algebra.Order.BigOperators.Group.List

/-!
# What a boot ping decides

`PoolManager.pingAll` under every schedule of its tasks, every answer to every ping and
every set of required keys.

## What is proved

* `Placed` — the semaphore and the phases agree on who waits and who holds a slot, so
  a call that is not over can always go on (`Placed.progress`).
* `Recorded` — every source is pinged until its first success and at most
  `retries + 1` times, and the failures name the required sources that stayed silent.
* `pingAll_contract_iff` — every run is bounded and never stuck, and a settled call
  keeps its `Contract` if and only if every required key is the key of a configured
  source. A required key that is no source's is ignored: `ghost_source_boots`.
-/

namespace NestDdd.Database

open NestDdd.Common NestDdd.Shared NestDdd.Theory

/-! ### The configured sources -/

namespace PoolManager

variable {pm pm' : PoolManager} {key : JsString}

theorem hasSource_set {e : Entry} {h : ¬ pm.hasSource e.key} :
    (pm.set e h).hasSource key ↔ pm.hasSource key ∨ key = e.key := by
  simp [hasSource, set]

/-- One round of `init` registers its source. -/
theorem hasSource_initSource {createPool : DatabaseSource → Except JsValue Unit} {source : DatabaseSource}
    (h : pm.initSource createPool source = .ok pm') :
    pm'.hasSource key ↔ pm.hasSource key ∨ key = source.key := by
  unfold initSource at h
  by_cases hs : pm.hasSource source.key
  · rw [dif_pos hs] at h
    cases h
    refine ⟨.inl, fun hk => hk.elim id fun he => he ▸ hs⟩
  · rw [dif_neg hs] at h
    cases hd : source.dialect with
    | oracle =>
      rw [hd] at h
      cases hc : createPool source with
      | error e => simp [hc, Except.map] at h
      | ok _ =>
        simp only [hc, Except.map, Except.ok.injEq] at h
        rw [← h, hasSource_set]
    | _ =>
      simp only [hd, Except.ok.injEq] at h
      rw [← h, hasSource_set]

/-- **`init`**: a key has a source afterwards if it is a configured source's, or had one before. -/
theorem hasSource_init {createPool : DatabaseSource → Except JsValue Unit} {sources : List DatabaseSource}
    (h : pm.init createPool sources = .ok pm') :
    pm'.hasSource key ↔ pm.hasSource key ∨ ∃ source ∈ sources, source.key = key := by
  induction sources generalizing pm with
  | nil =>
    cases h
    simp
  | cons source sources ih =>
    simp only [init, List.foldlM_cons] at h
    cases hs : pm.initSource createPool source with
    | error e =>
      rw [hs] at h
      cases h
    | ok pm₁ =>
      rw [hs] at h
      rw [ih h, hasSource_initSource hs, List.exists_mem_cons_iff, or_assoc, eq_comm (a := key)]

theorem not_hasSource_empty : ¬ empty.hasSource key := by simp [hasSource, empty]

/-- A source has an implemented client or a placeholder. -/
theorem hasSource_iff : pm.hasSource key ↔ key ∈ pm.implementedKeys ∨ key ∈ pm.placeholderKeys := by
  simp only [hasSource, implementedKeys, placeholderKeys, List.mem_map, List.mem_filter]
  constructor
  · intro h
    obtain ⟨e, he, hk⟩ := h
    cases hi : e.client.implemented with
    | true => exact .inl ⟨e, ⟨he, hi⟩, hk⟩
    | false => exact .inr ⟨e, ⟨he, by simp [hi]⟩, hk⟩
  · intro h
    obtain ⟨e, ⟨he, -⟩, hk⟩ | ⟨e, ⟨he, -⟩, hk⟩ := h
    · exact ⟨e, he, hk⟩
    · exact ⟨e, he, hk⟩

theorem implementedKeys_nodup (pm : PoolManager) : pm.implementedKeys.Nodup :=
  pm.nodup.sublist (List.filter_sublist.map _)

/-- No source has both. -/
theorem not_placeholder_of_implemented (h : key ∈ pm.implementedKeys) : key ∉ pm.placeholderKeys := by
  intro hp
  obtain ⟨e, he, hk⟩ := List.mem_map.mp h
  obtain ⟨e', he', hk'⟩ := List.mem_map.mp hp
  obtain ⟨hm, hi⟩ := List.mem_filter.mp he
  obtain ⟨hm', hi'⟩ := List.mem_filter.mp he'
  have heq : e = e' := List.inj_on_of_nodup_map pm.nodup hm hm' (hk.trans hk'.symm)
  rw [heq] at hi
  simp [hi] at hi'

end PoolManager

namespace Boot

variable {pm : PoolManager} {opts : PingAllOptions} {s s' : Boot} {key : JsString} {entered : List JsString}

/-! ### Who waits and who holds a slot -/

/-- The semaphore and the phases agree. -/
structure Placed (opts : PingAllOptions) (s : Boot) : Prop where
  /-- The semaphore's own invariant. -/
  sem : s.sem.Sound opts.concurrency
  /-- Everybody who was woken finds a slot. -/
  reserved : s.sem.Reserved
  /-- Who waits is queued or woken. -/
  waiting : ∀ key, s.phase key = .waiting ↔ key ∈ s.sem.queue ∨ key ∈ s.sem.woken
  /-- Who is busy holds a slot. -/
  busy : ∀ key, (s.phase key).Busy ↔ key ∈ s.sem.running

/-- A task moves on without touching its slot. -/
theorem Placed.move (h : s.Placed opts) (hsem : s'.sem = s.sem) (hk : (s.phase key).Busy)
    (hk' : (s'.phase key).Busy) (hne : ∀ k, k ≠ key → s'.phase k = s.phase k) : s'.Placed opts := by
  refine ⟨hsem ▸ h.sem, hsem ▸ h.reserved, fun k => ?_, fun k => ?_⟩
  · by_cases hkk : k = key
    · have hn : s.phase k ≠ .waiting := fun he => by simp [← hkk, he, Phase.Busy] at hk
      have hn' : s'.phase k ≠ .waiting := fun he => by simp [← hkk, he, Phase.Busy] at hk'
      rw [hsem, ← h.waiting]
      exact iff_of_false hn' hn
    · rw [hsem, hne k hkk]
      exact h.waiting k
  · by_cases hkk : k = key
    · rw [hsem, ← h.busy]
      subst hkk
      exact iff_of_true hk' hk
    · rw [hsem, hne k hkk]
      exact h.busy k

/-- A task that is busy can go on. -/
theorem enabled_of_busy (h : (s.phase key).Busy) : ∃ e, s.Enabled e := by
  cases hp : s.phase key with
  | waiting => simp [hp, Phase.Busy] at h
  | pinging attempt started => exact ⟨.answered key (.ok ()) 0, attempt, started, hp⟩
  | backingOff attempt => exact ⟨.backedOff key 0, attempt, hp⟩
  | returned => exact ⟨.released key, hp⟩
  | done => simp [hp, Phase.Busy] at h

/-- **No call is stuck.** -/
theorem Placed.progress (h : s.Placed opts) (hs : ¬ s.Settled) : ∃ e, s.Enabled e := by
  obtain ⟨key, hkey⟩ := not_forall.mp hs
  by_cases hb : (s.phase key).Busy
  · exact enabled_of_busy hb
  have hwait : s.phase key = .waiting := by
    cases hp : s.phase key <;> simp_all [Phase.Busy]
  -- somebody is on the way to a slot, or somebody holds one
  by_cases hw : s.sem.woken = ∅
  · have hq : s.sem.queue ≠ [] := by
      intro hnil
      have hm := (h.waiting key).mp hwait
      simp [hnil, hw] at hm
    have hcount := h.sem.wakeup hq
    have hslots := h.sem.slots
    rw [hw, Finset.card_empty] at hcount
    have hrun : 0 < s.sem.running.card := by
      have hone := le_max_left 1 opts.concurrency
      push_cast at hcount
      omega
    obtain ⟨j, hj⟩ := Finset.card_pos.mp hrun
    exact enabled_of_busy ((h.busy j).mpr hj)
  · obtain ⟨j, hj⟩ := Finset.nonempty_iff_ne_empty.mpr hw
    exact ⟨.resumed j 0, hj⟩

/-! ### What is recorded -/

/-- The failures name a source. -/
def Named (s : Boot) (key : JsString) : Prop := key ∈ s.failures.map DbHealthFailure.sourceKey

/-- What the record of a task says, by where the task stands. -/
def Told (retries : ℕ) (required : Prop) (phase : Phase) (answers : List Answer) (named : Prop) : Prop :=
  match phase with
  | .waiting => answers = [] ∧ ¬ named
  | .pinging attempt _ =>
    answers.length + 1 = attempt ∧ attempt ≤ retries + 1 ∧ ¬ Answered answers ∧ ¬ named
  | .backingOff attempt =>
    answers.length = attempt ∧ 1 ≤ attempt ∧ attempt ≤ retries ∧ ¬ Answered answers ∧ ¬ named
  | .returned | .done => UntilSuccess retries answers ∧ (named ↔ required ∧ ¬ Answered answers)

/-- The records, of a call that has entered the tasks of `entered`. -/
structure Recorded (pm : PoolManager) (opts : PingAllOptions) (entered : List JsString) (s : Boot) :
    Prop where
  /-- The tasks entered. -/
  told : ∀ key ∈ entered,
    Told opts.retries (key ∈ pm.reqSet opts) (s.phase key) (s.answers key) (s.Named key)
  /-- The other keys: a placeholder is named if it is required. -/
  rest : ∀ key ∉ entered, s.phase key = .done ∧ s.answers key = [] ∧
    (s.Named key ↔ key ∈ pm.reqSet opts ∧ key ∈ pm.placeholderKeys)

/-- Two states that differ in the task of one source only. -/
structure SameBut (key : JsString) (s s' : Boot) : Prop where
  /-- The phases. -/
  phase : ∀ k, k ≠ key → s'.phase k = s.phase k
  /-- The answers. -/
  answers : ∀ k, k ≠ key → s'.answers k = s.answers k
  /-- The failures. -/
  named : ∀ k, k ≠ key → (s'.Named k ↔ s.Named k)

theorem SameBut.trans {s'' : Boot} (h : SameBut key s s') (h' : SameBut key s' s'') :
    SameBut key s s'' where
  phase k hk := (h'.phase k hk).trans (h.phase k hk)
  answers k hk := (h'.answers k hk).trans (h.answers k hk)
  named k hk := (h'.named k hk).trans (h.named k hk)

/-- A change of one task leaves the records of the others as they were. -/
theorem Recorded.step (h : s.Recorded pm opts entered) (hs : SameBut key s s') (hk : key ∈ entered)
    (ht : Told opts.retries (key ∈ pm.reqSet opts) (s'.phase key) (s'.answers key) (s'.Named key)) :
    s'.Recorded pm opts entered := by
  refine ⟨fun k hm => ?_, fun k hm => ?_⟩
  · by_cases hkk : k = key
    · rw [hkk]
      exact ht
    · rw [hs.phase k hkk, hs.answers k hkk, hs.named k hkk]
      exact h.told k hm
  · have hkk : k ≠ key := fun he => hm (he ▸ hk)
    rw [hs.phase k hkk, hs.answers k hkk, hs.named k hkk]
    exact h.rest k hm

/-- Whoever is not over was entered. -/
theorem Recorded.mem (h : s.Recorded pm opts entered) (hp : s.phase key ≠ .done) : key ∈ entered := by
  by_contra hm
  exact hp (h.rest key hm).1

/-! ### The parts of a step -/

theorem sameBut_phase (p : Phase) : SameBut key s { s with phase := Function.update s.phase key p } where
  phase _ hk := Function.update_of_ne hk _ _
  answers _ _ := rfl
  named _ _ := Iff.rfl

theorem sameBut_hear (a : Answer) : SameBut key s (s.hear key a) where
  phase _ _ := rfl
  answers _ hk := Function.update_of_ne hk _ _
  named _ _ := Iff.rfl

theorem sameBut_succeed (attempt : ℕ) : SameBut key s (s.succeed pm opts key attempt) where
  phase _ hk := Function.update_of_ne hk _ _
  answers _ _ := rfl
  named _ _ := Iff.rfl

/-- Exhausting the retries names the source if and only if it is required. -/
theorem named_exhaust {f : DbHealthFailure} (hf : f.sourceKey = key) (hn : ¬ s.Named key) :
    (s.exhaust pm opts key f).Named key ↔ key ∈ pm.reqSet opts := by
  unfold exhaust
  by_cases hr : key ∈ pm.reqSet opts
  · simp [hr, Named, log, hf]
  · simpa [hr, Named, log] using hn

theorem phase_exhaust (f : DbHealthFailure) : (s.exhaust pm opts key f).phase key = .returned := by
  unfold exhaust
  split <;> simp [log]

theorem answers_exhaust (f : DbHealthFailure) : (s.exhaust pm opts key f).answers = s.answers := by
  unfold exhaust
  split <;> rfl

theorem sem_exhaust (f : DbHealthFailure) : (s.exhaust pm opts key f).sem = s.sem := by
  unfold exhaust
  split <;> rfl

theorem sameBut_exhaust {f : DbHealthFailure} (hf : f.sourceKey = key) :
    SameBut key s (s.exhaust pm opts key f) := by
  refine ⟨fun k hk => ?_, fun k _ => by rw [answers_exhaust], fun k hk => ?_⟩
  · unfold exhaust
    split <;> simp [log, hk]
  · unfold exhaust
    split <;> simp [log, Named, hf, hk]

theorem sameBut_fail (attempt : ℕ) (started : ℤ) (e : JsValue) (now : ℤ) :
    SameBut key s (s.fail pm opts key attempt started e now) := by
  unfold fail
  by_cases ha : attempt ≤ opts.retries
  · rw [if_pos ha]
    exact sameBut_phase _
  · rw [if_neg ha]
    exact sameBut_exhaust rfl

theorem sem_fail (attempt : ℕ) (started : ℤ) (e : JsValue) (now : ℤ) :
    (s.fail pm opts key attempt started e now).sem = s.sem := by
  unfold fail
  by_cases ha : attempt ≤ opts.retries
  · rw [if_pos ha]
  · rw [if_neg ha, sem_exhaust]

theorem busy_fail (attempt : ℕ) (started : ℤ) (e : JsValue) (now : ℤ) :
    ((s.fail pm opts key attempt started e now).phase key).Busy := by
  unfold fail
  by_cases ha : attempt ≤ opts.retries
  · simp [ha, Phase.Busy]
  · simp [ha, phase_exhaust, Phase.Busy]

/-! ### One step -/

theorem not_answered_append {answers : List Answer} {e : JsValue} (h : ¬ Answered answers) :
    ¬ Answered (answers ++ [.error e]) := by
  simpa [Answered] using h

/-- A ping that fails: the task backs off, or it is exhausted and the source is named if required. -/
theorem told_fail {attempt : ℕ} {started now : ℤ} {e : JsValue}
    (h : Told opts.retries (key ∈ pm.reqSet opts) (.pinging attempt started) (s.answers key)
      (s.Named key)) :
    Told opts.retries (key ∈ pm.reqSet opts)
      (((s.hear key (.error e)).fail pm opts key attempt started e now).phase key)
      (((s.hear key (.error e)).fail pm opts key attempt started e now).answers key)
      (((s.hear key (.error e)).fail pm opts key attempt started e now).Named key) := by
  obtain ⟨hlen, hbound, hnone, hname⟩ := h
  have hans : (s.hear key (.error e)).answers key = s.answers key ++ [.error e] := by simp [hear]
  have hname' : ¬ (s.hear key (.error e)).Named key := hname
  unfold fail
  by_cases ha : attempt ≤ opts.retries
  · simp only [if_pos ha, Function.update_self, hans]
    exact ⟨by simp [hlen], by omega, ha, not_answered_append hnone, hname'⟩
  · simp only [if_neg ha, phase_exhaust, answers_exhaust, hans]
    have hnamed : (exhaust pm opts (s.hear key (.error e)) key
        (failureOf pm opts key e (now - started))).Named key ↔ key ∈ pm.reqSet opts :=
      named_exhaust rfl hname'
    rw [hnamed]
    have hall : (s.answers key ++ [Except.error e]).length = opts.retries + 1 := by
      simp only [List.length_append, List.length_singleton]
      omega
    refine ⟨⟨?_, hall.le, .inr hall⟩, ?_⟩
    · rw [List.dropLast_concat]
      exact hnone
    · exact (and_iff_left (not_answered_append hnone)).symm

/-- A ping that is answered. -/
theorem told_succeed {attempt : ℕ} {started : ℤ}
    (h : Told opts.retries (key ∈ pm.reqSet opts) (.pinging attempt started) (s.answers key)
      (s.Named key)) :
    Told opts.retries (key ∈ pm.reqSet opts)
      (((s.hear key (.ok ())).succeed pm opts key attempt).phase key)
      (((s.hear key (.ok ())).succeed pm opts key attempt).answers key)
      (((s.hear key (.ok ())).succeed pm opts key attempt).Named key) := by
  obtain ⟨hlen, hbound, hnone, hname⟩ := h
  have hname' : ¬ ((s.hear key (.ok ())).succeed pm opts key attempt).Named key := hname
  have hyes : Answered (s.answers key ++ [.ok ()]) := by simp [Answered]
  simp only [succeed, log, hear, Function.update_self]
  refine ⟨⟨?_, ?_, .inl hyes⟩, iff_of_false hname' fun hr => hr.2 hyes⟩
  · rw [List.dropLast_concat]
    exact hnone
  · simp only [List.length_append, List.length_singleton]
    omega

/-- The records survive a step. -/
theorem Recorded.next (h : s.Recorded pm opts entered) (hp : s.Placed opts) {e : BootEvent}
    (he : s.Enabled e) : (s.step pm opts e).Recorded pm opts entered := by
  cases e with
  | resumed key now =>
    have hwait : s.phase key = .waiting := (hp.waiting key).mpr (.inr he)
    have hm : key ∈ entered := h.mem (by simp [hwait])
    have ht := h.told key hm
    rw [hwait] at ht
    obtain ⟨hnil, hname⟩ := ht
    have hslot : 0 < s.sem.count := hp.reserved.count_pos he
    refine h.step ⟨fun k hk => Function.update_of_ne hk _ _, fun _ _ => rfl, fun _ _ => Iff.rfl⟩ hm ?_
    simp only [Boot.step, Boot.enter, Function.update_self, if_pos hslot]
    exact ⟨by simp [hnil], by omega, by simp [hnil, Answered], hname⟩
  | answered key answer now =>
    obtain ⟨attempt, started, hphase⟩ := he
    have hm : key ∈ entered := h.mem (by simp [hphase])
    have ht := h.told key hm
    rw [hphase] at ht
    cases answer with
    | ok _ =>
      simp only [Boot.step, hphase]
      exact h.step ((sameBut_hear _).trans (sameBut_succeed _)) hm (told_succeed ht)
    | error e =>
      simp only [Boot.step, hphase]
      exact h.step ((sameBut_hear _).trans (sameBut_fail ..)) hm (told_fail ht)
  | backedOff key now =>
    obtain ⟨attempt, hphase⟩ := he
    have hm : key ∈ entered := h.mem (by simp [hphase])
    have ht := h.told key hm
    rw [hphase] at ht
    obtain ⟨hlen, hone, hbound, hnone, hname⟩ := ht
    simp only [Boot.step, hphase]
    refine h.step (sameBut_phase _) hm ?_
    simp only [Function.update_self]
    exact ⟨by omega, by omega, hnone, hname⟩
  | released key =>
    have hphase : s.phase key = .returned := he
    have hm : key ∈ entered := h.mem (by simp [hphase])
    have ht := h.told key hm
    rw [hphase] at ht
    refine h.step ⟨fun k hk => Function.update_of_ne hk _ _, fun _ _ => rfl, fun _ _ => Iff.rfl⟩ hm ?_
    simp only [Boot.step, Function.update_self]
    exact ht

/-- A woken task is back, and starts its first ping. -/
theorem Placed.resumed (h : s.Placed opts) (hk : key ∈ s.sem.woken) (now : ℤ) :
    (s.step pm opts (.resumed key now)).Placed opts := by
  have hsem : (s.step pm opts (.resumed key now)).sem = s.sem.resume key := rfl
  have hslot : 0 < s.sem.count := h.reserved.count_pos hk
  have heq := h.reserved.resume_eq hk
  have hq : key ∉ s.sem.queue := fun hm => h.sem.queue_woken key hm hk
  have hphase : (s.step pm opts (.resumed key now)).phase =
      Function.update s.phase key (.pinging 1 now) := by simp [step, enter, hslot]
  refine ⟨hsem ▸ h.sem.resume hk, hsem ▸ h.reserved.resume hk, fun k => ?_, fun k => ?_⟩
  · rw [hsem, heq, hphase]
    by_cases hkk : k = key
    · simp [hkk, hq]
    · simpa [hkk] using h.waiting k
  · rw [hsem, heq, hphase]
    by_cases hkk : k = key
    · simp [hkk, Phase.Busy]
    · simpa [hkk] using h.busy k

/-- A task that is over gives up its slot, and the head of the queue is woken. -/
theorem Placed.released (h : s.Placed opts) (hk : s.phase key = .returned) :
    (s.step pm opts (.released key)).Placed opts := by
  have hr : key ∈ s.sem.running := (h.busy key).mp (by simp [hk, Phase.Busy])
  have hsem : (s.step pm opts (.released key)).sem = s.sem.leave key := rfl
  have hnq : key ∉ s.sem.queue := fun hm => h.sem.queue_running key hm hr
  have hnw : key ∉ s.sem.woken := fun hm => h.sem.woken_running key hm hr
  refine ⟨hsem ▸ h.sem.leave hr, hsem ▸ h.reserved.leave h.sem, fun k => ?_, fun k => ?_⟩
  · rw [hsem, Semaphore.waits_leave]
    by_cases hkk : k = key
    · simp [step, hkk, hnq, hnw]
    · simpa [step, hkk] using h.waiting k
  · rw [hsem, Semaphore.running_leave]
    by_cases hkk : k = key
    · simp [step, hkk, Phase.Busy]
    · simpa [step, hkk] using h.busy k

/-- The semaphore and the phases agree after every step. -/
theorem Placed.next (h : s.Placed opts) {e : BootEvent} (he : s.Enabled e) :
    (s.step pm opts e).Placed opts := by
  cases e with
  | resumed key now => exact h.resumed he now
  | answered key answer now =>
    obtain ⟨attempt, started, hphase⟩ := he
    have hb : (s.phase key).Busy := by simp [hphase, Phase.Busy]
    cases answer with
    | ok _ =>
      simp only [step, hphase]
      refine h.move rfl hb ?_ fun k hk => Function.update_of_ne hk _ _
      simp [succeed, log, Phase.Busy]
    | error e =>
      simp only [step, hphase]
      refine h.move (sem_fail ..) hb (busy_fail ..) fun k hk => ?_
      exact (sameBut_fail ..).phase k hk
  | backedOff key now =>
    obtain ⟨attempt, hphase⟩ := he
    have hb : (s.phase key).Busy := by simp [hphase, Phase.Busy]
    simp only [step, hphase]
    refine h.move rfl hb ?_ fun k hk => Function.update_of_ne hk _ _
    simp [Phase.Busy]
  | released key => exact h.released he

/-! ### The start -/

/-- No task has been woken yet, and the semaphore and the phases agree. -/
theorem Placed.enter (h : s.Placed opts) (hw : s.sem.woken = ∅) (hk : s.phase key = .done) (now : ℤ) :
    (s.enter key now).Placed opts ∧ (s.enter key now).sem.woken = ∅ := by
  have hq : key ∉ s.sem.queue := fun hm => by simpa [hk] using (h.waiting key).mpr (.inl hm)
  have hr : key ∉ s.sem.running := fun hm => by simpa [hk, Phase.Busy] using (h.busy key).mpr hm
  have hw' : key ∉ s.sem.woken := by simp [hw]
  have hsound : (s.enter key now).sem.Sound opts.concurrency := h.sem.enter hq hw' hr
  have hwoken : (s.enter key now).sem.woken = ∅ := by
    simp only [Boot.enter, Semaphore.enter]
    split <;> exact hw
  have hres : (s.enter key now).sem.Reserved := by
    rw [Semaphore.Reserved, hwoken, Finset.card_empty]
    exact hsound.nonneg
  refine ⟨⟨hsound, hres, fun k => ?_, fun k => ?_⟩, hwoken⟩
  · by_cases hc : 0 < s.sem.count
    · by_cases hkk : k = key
      · simp [Boot.enter, Semaphore.enter, hc, hkk, hq, hw]
      · simpa [Boot.enter, Semaphore.enter, hc, hkk] using h.waiting k
    · by_cases hkk : k = key
      · simp [Boot.enter, Semaphore.enter, hc, hkk]
      · simpa [Boot.enter, Semaphore.enter, hc, hkk] using h.waiting k
  · by_cases hc : 0 < s.sem.count
    · by_cases hkk : k = key
      · simp [Boot.enter, Semaphore.enter, hc, hkk, Phase.Busy]
      · simpa [Boot.enter, Semaphore.enter, hc, hkk] using h.busy k
    · by_cases hkk : k = key
      · simp [Boot.enter, Semaphore.enter, hc, hkk, hr, Phase.Busy]
      · simpa [Boot.enter, Semaphore.enter, hc, hkk] using h.busy k

/-- A task is entered with an empty record. -/
theorem Recorded.enter (h : s.Recorded pm opts entered) (hk : key ∉ entered)
    (hi : key ∈ pm.implementedKeys) (now : ℤ) :
    (s.enter key now).Recorded pm opts (entered ++ [key]) := by
  have hsame : SameBut key s (s.enter key now) :=
    ⟨fun k hk => Function.update_of_ne hk _ _, fun _ _ => rfl, fun _ _ => Iff.rfl⟩
  obtain ⟨-, hnil, hname⟩ := h.rest key hk
  have hn : ¬ s.Named key := fun hc => PoolManager.not_placeholder_of_implemented hi (hname.mp hc).2
  refine ⟨fun k hm => ?_, fun k hm => ?_⟩
  · by_cases hkk : k = key
    · subst hkk
      have hans : (s.enter k now).answers k = [] := hnil
      have hn' : ¬ (s.enter k now).Named k := hn
      rw [hans]
      by_cases hc : 0 < s.sem.count
      · simp only [Boot.enter, Function.update_self, if_pos hc]
        exact ⟨rfl, by omega, by simp [Answered], hn'⟩
      · simp only [Boot.enter, Function.update_self, if_neg hc]
        exact ⟨rfl, hn'⟩
    · rw [hsame.phase k hkk, hsame.answers k hkk, hsame.named k hkk]
      have hm' : k ∈ entered := (List.mem_append.mp hm).resolve_right (by simp [hkk])
      exact h.told k hm'
  · have hkk : k ≠ key := fun he => hm (by simp [he])
    rw [hsame.phase k hkk, hsame.answers k hkk, hsame.named k hkk]
    exact h.rest k fun hm' => hm (List.mem_append_left _ hm')

/-- The placeholders are looked at before anything is entered. -/
theorem skip_spec (keys : List JsString) (s : Boot) :
    let s' := keys.foldl (skip pm opts) s
    s'.sem = s.sem ∧ s'.phase = s.phase ∧ s'.answers = s.answers ∧
      ∀ k, s'.Named k ↔ s.Named k ∨ (k ∈ pm.reqSet opts ∧ k ∈ keys) := by
  induction keys generalizing s with
  | nil => simp
  | cons key keys ih =>
    obtain ⟨hsem, hphase, hans, hname⟩ := ih (s.skip pm opts key)
    have hone : (s.skip pm opts key).sem = s.sem ∧ (s.skip pm opts key).phase = s.phase ∧
        (s.skip pm opts key).answers = s.answers ∧
        ∀ k, (s.skip pm opts key).Named k ↔ s.Named k ∨ (k ∈ pm.reqSet opts ∧ k = key) := by
      unfold skip
      by_cases hr : key ∈ pm.reqSet opts
      · refine ⟨by simp [hr], by simp [hr], by simp [hr], fun k => ?_⟩
        have : k = key → k ∈ pm.reqSet opts := fun he => he ▸ hr
        simp only [hr, if_true, Named, List.map_append, List.mem_append, List.map_cons, List.map_nil,
          List.mem_singleton]
        tauto
      · refine ⟨by simp [hr, log], by simp [hr, log], by simp [hr, log], fun k => ?_⟩
        have : k = key → k ∉ pm.reqSet opts := fun he => he ▸ hr
        simp only [hr, if_false, Named, log]
        tauto
    obtain ⟨hsem₁, hphase₁, hans₁, hname₁⟩ := hone
    refine ⟨hsem.trans hsem₁, hphase.trans hphase₁, hans.trans hans₁, fun k => ?_⟩
    simp only [List.foldl_cons]
    rw [hname k, hname₁ k, List.mem_cons]
    tauto

/-- Entering the tasks one after the other. -/
theorem enter_all (clock : JsString → ℤ) (keys : List JsString) (s : Boot) (entered : List JsString)
    (hp : s.Placed opts) (hw : s.sem.woken = ∅) (h : s.Recorded pm opts entered)
    (hnodup : (entered ++ keys).Nodup) (hi : ∀ key ∈ keys, key ∈ pm.implementedKeys) :
    (keys.foldl (fun s key => s.enter key (clock key)) s).Placed opts ∧
      (keys.foldl (fun s key => s.enter key (clock key)) s).Recorded pm opts (entered ++ keys) := by
  induction keys generalizing s entered with
  | nil => exact ⟨hp, by simpa using h⟩
  | cons key keys ih =>
    have hk : key ∉ entered := by
      intro hm
      exact (List.disjoint_of_nodup_append hnodup) hm List.mem_cons_self
    obtain ⟨hp', hw'⟩ := hp.enter hw (h.rest key hk).1 (clock key)
    have hr' := h.enter hk (hi key List.mem_cons_self) (clock key)
    have happ : entered ++ key :: keys = (entered ++ [key]) ++ keys := by simp
    rw [happ]
    refine ih _ (entered ++ [key]) hp' hw' hr' (happ ▸ hnodup) fun k hm => hi k (List.mem_cons_of_mem _ hm)

/-- The invariant holds of a call that has started. -/
theorem start_spec (clock : JsString → ℤ) :
    (start pm opts clock).Placed opts ∧ (start pm opts clock).Recorded pm opts pm.implementedKeys := by
  obtain ⟨hsem, hphase, hans, hname⟩ := @skip_spec pm opts pm.placeholderKeys (fresh opts)
  refine enter_all clock pm.implementedKeys _ [] ⟨?_, ?_, fun k => ?_, fun k => ?_⟩ ?_
    ⟨nofun, fun k _ => ?_⟩ ?_ ?_
  · rw [hsem]
    exact Semaphore.sound_new _
  · rw [hsem]
    simp [Semaphore.Reserved, fresh, Semaphore.new]
  · rw [hsem, hphase]
    simp [fresh, Semaphore.new]
  · rw [hsem, hphase]
    simp [fresh, Semaphore.new, Phase.Busy]
  · rw [hsem]
    rfl
  · rw [hphase, hans, hname]
    simp [fresh, Named]
  · simpa using pm.implementedKeys_nodup
  · exact fun _ hm => hm

/-! ### Whole calls -/

/-- The events a task may still meet. -/
def remainingEvents (retries : ℕ) : Phase → ℕ
  | .waiting => 2 * retries + 4
  | .pinging attempt _ => 2 * (retries + 1 - attempt) + 3
  | .backingOff attempt => 2 * (retries + 1 - attempt) + 2
  | .returned => 1
  | .done => 0

/-- The events a call may still meet. -/
def remaining (pm : PoolManager) (opts : PingAllOptions) (s : Boot) : ℕ :=
  (pm.implementedKeys.map fun key => remainingEvents opts.retries (s.phase key)).sum

/-- One task has come further, the others stand where they stood. -/
theorem remaining_lt (hm : key ∈ pm.implementedKeys) (hs : ∀ k, k ≠ key → s'.phase k = s.phase k)
    (hlt : remainingEvents opts.retries (s'.phase key) < remainingEvents opts.retries (s.phase key)) :
    s'.remaining pm opts < s.remaining pm opts := by
  refine List.sum_lt_sum _ _ (fun k _ => ?_) ⟨key, hm, hlt⟩
  by_cases hk : k = key
  · rw [hk]
    exact hlt.le
  · rw [hs k hk]

/-- Every event brings a call nearer to its end. -/
theorem remaining_step (hp : s.Placed opts) (hr : s.Recorded pm opts pm.implementedKeys) {e : BootEvent}
    (he : s.Enabled e) : (s.step pm opts e).remaining pm opts < s.remaining pm opts := by
  cases e with
  | resumed key now =>
    have hwait : s.phase key = .waiting := (hp.waiting key).mpr (.inr he)
    have hslot : 0 < s.sem.count := hp.reserved.count_pos he
    refine remaining_lt (hr.mem (by simp [hwait])) (fun k hk => Function.update_of_ne hk _ _) ?_
    simp [step, enter, hslot, hwait, remainingEvents]
  | answered key answer now =>
    obtain ⟨attempt, started, hphase⟩ := he
    have hm : key ∈ pm.implementedKeys := hr.mem (by simp [hphase])
    cases answer with
    | ok _ =>
      simp only [step, hphase]
      refine remaining_lt hm (sameBut_succeed attempt).phase ?_
      simp only [succeed, log, hear, Function.update_self, hphase, remainingEvents]
      omega
    | error e =>
      simp only [step, hphase]
      refine remaining_lt hm (sameBut_fail attempt started e now).phase ?_
      unfold fail
      by_cases ha : attempt ≤ opts.retries
      · simp [ha, hphase, remainingEvents]
      · simp only [ha, if_false, phase_exhaust, hphase, remainingEvents]
        omega
  | backedOff key now =>
    obtain ⟨attempt, hphase⟩ := he
    have hm : key ∈ pm.implementedKeys := hr.mem (by simp [hphase])
    have ht := hr.told key hm
    rw [hphase] at ht
    have hbound : attempt ≤ opts.retries := ht.2.2.1
    simp only [step, hphase]
    refine remaining_lt hm (sameBut_phase _).phase ?_
    simp only [Function.update_self, hphase, remainingEvents]
    omega
  | released key =>
    have hphase : s.phase key = .returned := he
    refine remaining_lt (hr.mem (by simp [hphase])) (fun k hk => Function.update_of_ne hk _ _) ?_
    simp [step, hphase, remainingEvents]

theorem Recorded.remaining_le (h : s.Recorded pm opts pm.implementedKeys) :
    s.remaining pm opts ≤ pm.implementedKeys.length * (2 * opts.retries + 4) := by
  have hone : ∀ n ∈ pm.implementedKeys.map fun key => remainingEvents opts.retries (s.phase key),
      n ≤ 2 * opts.retries + 4 := by
    intro n hn
    obtain ⟨key, hm, rfl⟩ := List.mem_map.mp hn
    have ht := h.told key hm
    cases hp : s.phase key with
    | pinging attempt started =>
      rw [hp] at ht
      have hlen := ht.1
      simp only [remainingEvents]
      omega
    | _ =>
      simp only [remainingEvents]
      omega
  simpa [remaining] using List.sum_le_card_nsmul _ _ hone

/-- **The invariant of a call.** -/
theorem run_sound {es : List BootEvent} (h : (pm.pingAll opts).Run es s) :
    s.Placed opts ∧ s.Recorded pm opts pm.implementedKeys := by
  refine h.invariant (P := fun s => s.Placed opts ∧ s.Recorded pm opts pm.implementedKeys)
    (fun s hs => ?_) fun s e hs he => ?_
  · obtain ⟨clock, rfl⟩ := hs
    exact start_spec clock
  · exact ⟨hs.1.next he, hs.2.next hs.1 he⟩

/-- A task backs off after an attempt that is not its last. -/
theorem attempt_of_backingOff {es : List BootEvent} (h : (pm.pingAll opts).Run es s) {attempt : ℕ}
    (hp : s.phase key = .backingOff attempt) : key ∈ pm.implementedKeys ∧ 1 ≤ attempt ∧ attempt ≤ opts.retries := by
  have hr := (run_sound h).2
  have hm : key ∈ pm.implementedKeys := hr.mem (by simp [hp])
  have ht := hr.told key hm
  rw [hp] at ht
  exact ⟨hm, ht.2.1, ht.2.2.1⟩

/-- No schedule makes a call longer than this. -/
theorem run_length_le {es : List BootEvent} (h : (pm.pingAll opts).Run es s) :
    es.length ≤ pm.implementedKeys.length * (2 * opts.retries + 4) := by
  have hstart : ∀ s, (pm.pingAll opts).Initial s →
      s.Placed opts ∧ s.Recorded pm opts pm.implementedKeys := by
    intro s hs
    obtain ⟨clock, rfl⟩ := hs
    exact start_spec clock
  have hle : es.length + s.remaining pm opts ≤ pm.implementedKeys.length * (2 * opts.retries + 4) :=
    h.length_le hstart (fun s e hs he => ⟨hs.1.next he, hs.2.next hs.1 he⟩)
      (fun s hs => (hstart s hs).2.remaining_le) fun s e hs he => remaining_step hs.1 hs.2 he
  omega

/-- Never more than `retries + 1` pings. -/
theorem Recorded.sent_le (h : s.Recorded pm opts entered) (key : JsString) :
    s.sent key ≤ opts.retries + 1 := by
  by_cases hm : key ∈ entered
  · have ht := h.told key hm
    unfold sent
    cases hp : s.phase key with
    | waiting =>
      rw [hp] at ht
      simp [ht.1]
    | pinging attempt started =>
      rw [hp] at ht
      have hlen := ht.1
      have hbound := ht.2.1
      simp only
      omega
    | backingOff attempt =>
      rw [hp] at ht
      have hlen := ht.1
      have hbound := ht.2.2.1
      simp only
      omega
    | returned =>
      rw [hp] at ht
      exact ht.1.bounded
    | done =>
      rw [hp] at ht
      exact ht.1.bounded
  · obtain ⟨hphase, hnil, -⟩ := h.rest key hm
    simp [sent, hphase, hnil]

/-- Whom the failures of a settled call name. -/
theorem Recorded.named_iff (h : s.Recorded pm opts pm.implementedKeys) (hs : s.Settled) (key : JsString) :
    s.Named key ↔ key ∈ pm.reqSet opts ∧ pm.hasSource key ∧ ¬ s.Healthy pm key := by
  rw [PoolManager.hasSource_iff, Healthy]
  by_cases hm : key ∈ pm.implementedKeys
  · have ht := h.told key hm
    rw [hs key] at ht
    rw [ht.2]
    tauto
  · rw [(h.rest key hm).2.2]
    tauto

theorem outcome_ok_iff : s.outcome = .ok () ↔ ∀ key, ¬ s.Named key := by
  unfold outcome Named
  cases hf : s.failures with
  | nil => simp
  | cons f fs =>
    refine iff_of_false (by simp) fun hnone => hnone f.sourceKey ?_
    simp

/-- A settled call keeps its contract if and only if every required key has a source. -/
theorem Recorded.contract_iff (h : s.Recorded pm opts pm.implementedKeys) (hs : s.Settled) :
    s.Contract pm opts ↔ ∀ key ∈ pm.reqSet opts, pm.hasSource key := by
  have hnamed := h.named_iff hs
  constructor
  · intro hc key hk
    by_contra hno
    have hsick : ¬ s.Healthy pm key := fun hh => hno (PoolManager.hasSource_iff.mpr (.inl hh.1))
    obtain ⟨failures, hout, hnames⟩ := hc.rejects ⟨key, hk, hsick⟩
    have hfail : s.failures = failures := by
      unfold outcome at hout
      split at hout
      · simpa using hout
      · cases hout
    have hin : s.Named key := by
      rw [Named, hfail]
      exact (hnames key).mpr ⟨hk, hsick⟩
    exact hno ((hnamed key).mp hin).2.1
  · intro hall
    have hsick : ∀ key, s.Named key ↔ key ∈ pm.reqSet opts ∧ ¬ s.Healthy pm key := by
      intro key
      rw [hnamed key]
      exact ⟨fun hn => ⟨hn.1, hn.2.2⟩, fun hn => ⟨hn.1, hall key hn.1, hn.2⟩⟩
    refine ⟨?_, fun hbad => ⟨s.failures, ?_, hsick⟩, fun key hm => ?_⟩
    · rw [outcome_ok_iff]
      constructor
      · intro hnone key hk
        by_contra hh
        exact hnone key ((hsick key).mpr ⟨hk, hh⟩)
      · intro hgood key hn
        exact ((hsick key).mp hn).2 (hgood key ((hsick key).mp hn).1)
    · obtain ⟨key, hk, hh⟩ := hbad
      have hn : s.Named key := (hsick key).mpr ⟨hk, hh⟩
      have hpos : 0 < s.failures.length := by
        obtain ⟨f, hf, -⟩ := List.mem_map.mp hn
        exact List.length_pos_of_mem hf
      rw [outcome, if_pos hpos]
    · have ht := h.told key hm
      rw [hs key] at ht
      exact ht.1

end Boot

/-- **What a boot ping decides**: whatever the answers and the schedule, a call ends after a bounded
number of events, can always go on until then and never sends a source more than `retries + 1` pings;
and once settled it keeps its contract if and only if every required key is a configured source's. -/
theorem pingAll_contract_iff {createPool : DatabaseSource → Except JsValue Unit}
    {sources : List DatabaseSource} {pm : PoolManager}
    (hinit : PoolManager.empty.init createPool sources = .ok pm) (opts : PingAllOptions)
    {es : List BootEvent} {s : Boot} (h : (pm.pingAll opts).Run es s) :
    es.length ≤ pm.implementedKeys.length * (2 * opts.retries + 4) ∧
      (¬ s.Settled → ∃ e, s.Enabled e) ∧ (∀ key, s.sent key ≤ opts.retries + 1) ∧
      (s.Settled →
        (s.Contract pm opts ↔ ∀ key ∈ pm.reqSet opts, ∃ source ∈ sources, source.key = key)) := by
  obtain ⟨hplaced, hrecorded⟩ := Boot.run_sound h
  refine ⟨Boot.run_length_le h, hplaced.progress, hrecorded.sent_le, fun hs => ?_⟩
  rw [hrecorded.contract_iff hs]
  have hsource : ∀ key, pm.hasSource key ↔ ∃ source ∈ sources, source.key = key := fun key => by
    rw [PoolManager.hasSource_init hinit, or_iff_right PoolManager.not_hasSource_empty]
  simp only [hsource]

/-- One Oracle source, `main`. -/
def mainSource : List DatabaseSource := [⟨"main", .oracle⟩]

/-- The manager that `init` makes of it. -/
def mainPool : PoolManager := ⟨[⟨"main", .oracleClient, .oracle⟩], by decide⟩

theorem mainPool_init : PoolManager.empty.init (fun _ => .ok ()) mainSource = .ok mainPool := rfl

/-- A call with that manager, from its start through the events. -/
def mainCall (opts : PingAllOptions) (es : List BootEvent) : Boot :=
  es.foldl (Boot.step mainPool opts) (Boot.start mainPool opts fun _ => 0)

theorem mainCall_run {opts : PingAllOptions} {es : List BootEvent}
    (h : (mainPool.pingAll opts).Playable (Boot.start mainPool opts fun _ => 0) es) :
    (mainPool.pingAll opts).Run es (mainCall opts es) :=
  Machine.Run.play ⟨fun _ => 0, rfl⟩ h

/-- The call is over as soon as the task of `main` is. -/
theorem mainCall_settled {opts : PingAllOptions} {es : List BootEvent}
    (h : (mainPool.pingAll opts).Run es (mainCall opts es))
    (hmain : (mainCall opts es).phase "main" = .done) : (mainCall opts es).Settled := by
  intro key
  by_cases hk : key = "main"
  · rw [hk]
    exact hmain
  · have hkeys : mainPool.implementedKeys = [JsString.ofString "main"] := rfl
    exact ((Boot.run_sound h).2.rest key (by simpa [hkeys] using hk)).1

/-- The source does not answer the first ping and answers the second. -/
def secondTry : List BootEvent :=
  [.answered "main" (.error .undefined) 30, .backedOff "main" 250, .answered "main" (.ok ()) 260,
    .released "main"]

/-- A call with two tries, of which the second succeeds, keeps its contract. -/
theorem secondTry_contract :
    (mainCall ⟨1, some {JsString.ofString "main"}, 3⟩ secondTry).Contract mainPool
      ⟨1, some {JsString.ofString "main"}, 3⟩ := by
  have hrun := @mainCall_run ⟨1, some {JsString.ofString "main"}, 3⟩ secondTry
    ⟨⟨1, 0, by decide⟩, ⟨1, by decide⟩, ⟨2, 250, by decide⟩, rfl, trivial⟩
  have hsettled := mainCall_settled hrun (by decide)
  refine ((pingAll_contract_iff mainPool_init _ hrun).2.2.2 hsettled).mpr fun key hkey => ?_
  exact ⟨⟨"main", .oracle⟩, List.mem_singleton_self _, (Finset.mem_singleton.mp hkey).symm⟩

/-- **A required key that is no source's is ignored**: the only source is `main`, the required one
is `reports`, and the call resolves. -/
theorem ghost_source_boots : ∃ es s,
    (mainPool.pingAll ⟨0, some {JsString.ofString "reports"}, 3⟩).Run es s ∧ s.Settled ∧
      s.outcome = .ok () ∧ ¬ s.Contract mainPool ⟨0, some {JsString.ofString "reports"}, 3⟩ := by
  have hrun := @mainCall_run ⟨0, some {JsString.ofString "reports"}, 3⟩
    [.answered "main" (.ok ()) 30, .released "main"] ⟨⟨1, 0, by decide⟩, rfl, trivial⟩
  refine ⟨_, _, hrun, mainCall_settled hrun (by decide), rfl, fun hc => ?_⟩
  have hhealthy := hc.resolves.mp rfl "reports" (Finset.mem_singleton_self _)
  exact absurd hhealthy.1 (by decide)

end NestDdd.Database
