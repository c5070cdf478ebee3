import Mathlib.Data.Finset.Card
import Mathlib.Data.Finset.Insert
import Mathlib.Order.Lattice
import Mathlib.Algebra.Order.Ring.Int
import Mathlib.Tactic.Linarith

/-!
# The semaphore

`Semaphore` (`src/common/utils/semaphore.util.ts`) limits how many tasks run at once.
`with` takes a slot if there is one and otherwise joins the queue; a task that ends
puts its slot back and wakes the head of the queue, which then calls `with` again. It
does not hand its slot over, so between the wake-up and the call somebody else may
take it.

## The model

The fields `count` and `queue` are the source's. `woken` and `running` say what the
source keeps in suspended calls: who has been woken and has not called `with` again
yet, and whose function has been called and has not settled.

## What is proved

* `Sound` — the slots add up, none is owed, nobody is in two places, and while
  somebody queues there are no more free slots than tasks on their way to one. The
  operations keep it (`Sound.enter`, `Sound.leave`, `Sound.resume`).
-/

namespace NestDdd.Common

variable {ι : Type} [DecidableEq ι]

/-- A semaphore for tasks `ι`. -/
structure Semaphore (ι : Type) where
  /-- The free slots. -/
  count : ℤ
  /-- The tasks that wait, in order. -/
  queue : List ι
  /-- The tasks woken and not yet back. -/
  woken : Finset ι
  /-- The tasks that hold a slot. -/
  running : Finset ι

namespace Semaphore

/-- `new Semaphore(max)`. -/
def new (limit : ℤ) : Semaphore ι := ⟨max 1 limit, [], ∅, ∅⟩

/-- `with`, up to its first `await`: take a slot, or join the queue. -/
def enter (s : Semaphore ι) (i : ι) : Semaphore ι :=
  if 0 < s.count then { s with count := s.count - 1, running := insert i s.running }
  else { s with queue := s.queue ++ [i] }

/-- The `finally` block of `with`: put the slot back and wake the head of the queue. -/
def leave (s : Semaphore ι) (i : ι) : Semaphore ι :=
  match s.queue with
  | [] => { s with count := s.count + 1, running := s.running.erase i }
  | j :: queue =>
    { count := s.count + 1, queue := queue, woken := insert j s.woken, running := s.running.erase i }

/-- A woken task calls `with` again. -/
def resume (s : Semaphore ι) (i : ι) : Semaphore ι := { s with woken := s.woken.erase i }.enter i

/-- The slots add up, and nobody is in two places. -/
structure Balanced (limit : ℤ) (s : Semaphore ι) : Prop where
  /-- The free slots and those held add up. -/
  slots : s.count + s.running.card = max 1 limit
  /-- No slot is owed. -/
  nonneg : 0 ≤ s.count
  /-- Nobody queues twice. -/
  nodup : s.queue.Nodup
  /-- Nobody queues who was woken. -/
  queue_woken : ∀ i ∈ s.queue, i ∉ s.woken
  /-- Nobody queues who runs. -/
  queue_running : ∀ i ∈ s.queue, i ∉ s.running
  /-- Nobody runs who was woken and is not back. -/
  woken_running : ∀ i ∈ s.woken, i ∉ s.running

/-- **The invariant** of a semaphore of `limit` slots. -/
structure Sound (limit : ℤ) (s : Semaphore ι) : Prop extends Balanced limit s where
  /-- While somebody queues, every free slot has a task on its way to it. -/
  wakeup : s.queue ≠ [] → s.count ≤ s.woken.card

variable {limit : ℤ} {s : Semaphore ι} {i : ι}

omit [DecidableEq ι] in
theorem sound_new (limit : ℤ) : (new limit : Semaphore ι).Sound limit where
  slots := by simp [new]
  nonneg := by simp [new]
  nodup := List.nodup_nil
  queue_woken := nofun
  queue_running := nofun
  woken_running := by simp [new]
  wakeup h := absurd rfl h

/-- Who comes back may find one more free slot than there are others on their way. -/
theorem Balanced.enter (h : s.Balanced limit) (hwake : s.queue ≠ [] → s.count ≤ s.woken.card + 1)
    (hq : i ∉ s.queue) (hw : i ∉ s.woken) (hr : i ∉ s.running) : (s.enter i).Sound limit := by
  unfold Semaphore.enter
  have hslots := h.slots
  have hnonneg := h.nonneg
  by_cases hc : 0 < s.count
  · rw [if_pos hc]
    refine ⟨⟨?_, ?_, h.nodup, h.queue_woken, fun j hj => ?_, fun j hj => ?_⟩, fun hne => ?_⟩
    · have hcard : (insert i s.running).card = s.running.card + 1 := Finset.card_insert_of_notMem hr
      simp only [hcard]
      push_cast
      omega
    · simp only
      omega
    · have hne : j ≠ i := fun he => hq (he ▸ hj)
      simpa [hne] using h.queue_running j hj
    · have hne : j ≠ i := fun he => hw (he ▸ hj)
      simpa [hne] using h.woken_running j hj
    · have hwake := hwake hne
      simp only
      omega
  · rw [if_neg hc]
    refine ⟨⟨hslots, hnonneg, ?_, fun j hj => ?_, fun j hj => ?_, h.woken_running⟩, fun _ => ?_⟩
    · refine List.nodup_append.mpr ⟨h.nodup, List.nodup_singleton i, ?_⟩
      intro a ha b hb hab
      rw [List.mem_singleton.mp hb] at hab
      exact hq (hab ▸ ha)
    · rcases List.mem_append.mp hj with hj | hj
      · exact h.queue_woken j hj
      · rwa [List.mem_singleton.mp hj]
    · rcases List.mem_append.mp hj with hj | hj
      · exact h.queue_running j hj
      · rwa [List.mem_singleton.mp hj]
    · simp only
      omega

theorem Sound.enter (h : s.Sound limit) (hq : i ∉ s.queue) (hw : i ∉ s.woken) (hr : i ∉ s.running) :
    (s.enter i).Sound limit :=
  h.toBalanced.enter (fun hne => (h.wakeup hne).trans (by omega)) hq hw hr

theorem Sound.leave (h : s.Sound limit) (hr : i ∈ s.running) : (s.leave i).Sound limit := by
  have hcard : (s.running.erase i).card + 1 = s.running.card := Finset.card_erase_add_one hr
  have hslots := h.slots
  have hnonneg := h.nonneg
  have hrun : ∀ j, j ∉ s.running → j ∉ s.running.erase i := fun j hj hm => hj (Finset.mem_of_mem_erase hm)
  unfold Semaphore.leave
  cases hq : s.queue with
  | nil =>
    refine ⟨⟨?_, ?_, List.nodup_nil, nofun, nofun, fun j hj => hrun j (h.woken_running j hj)⟩,
      fun hne => absurd rfl hne⟩
    · simp only
      omega
    · simp only
      omega
  | cons j queue =>
    have hnodup := h.nodup
    rw [hq] at hnodup
    have hj : j ∈ s.queue := by rw [hq]; exact List.mem_cons_self
    have htail : ∀ k ∈ queue, k ∈ s.queue := fun k hk => by rw [hq]; exact List.mem_cons_of_mem _ hk
    have hjw : j ∉ s.woken := h.queue_woken j hj
    refine ⟨⟨?_, ?_, (List.nodup_cons.mp hnodup).2, fun k hk => ?_, fun k hk => ?_, fun k hk => ?_⟩,
      fun _ => ?_⟩
    · simp only
      omega
    · simp only
      omega
    · have hne : k ≠ j := fun he => (List.nodup_cons.mp hnodup).1 (he ▸ hk)
      simpa [hne] using h.queue_woken k (htail k hk)
    · exact hrun k (h.queue_running k (htail k hk))
    · rcases Finset.mem_insert.mp hk with rfl | hk
      · exact hrun k (h.queue_running k hj)
      · exact hrun k (h.woken_running k hk)
    · have hwake := h.wakeup (by rw [hq]; simp)
      have hinsert : (insert j s.woken).card = s.woken.card + 1 := Finset.card_insert_of_notMem hjw
      simp only [hinsert]
      push_cast
      omega

theorem Sound.resume (h : s.Sound limit) (hw : i ∈ s.woken) : (s.resume i).Sound limit := by
  have hcard : (s.woken.erase i).card + 1 = s.woken.card := Finset.card_erase_add_one hw
  have hb : Balanced limit { s with woken := s.woken.erase i } :=
    ⟨h.slots, h.nonneg, h.nodup, fun j hj hm => h.queue_woken j hj (Finset.mem_of_mem_erase hm),
      h.queue_running, fun j hj => h.woken_running j (Finset.mem_of_mem_erase hj)⟩
  refine hb.enter (fun hne => ?_) (fun hq => h.queue_woken i hq hw) (Finset.notMem_erase i s.woken)
    (h.woken_running i hw)
  have hwake := h.wakeup hne
  simp only
  omega

/-! ### Who is where -/

theorem enter_of_pos (hc : 0 < s.count) :
    s.enter i = { s with count := s.count - 1, running := insert i s.running } := by
  rw [enter, if_pos hc]

theorem enter_of_not_pos (hc : ¬ 0 < s.count) : s.enter i = { s with queue := s.queue ++ [i] } := by
  rw [enter, if_neg hc]

theorem running_leave : (s.leave i).running = s.running.erase i := by
  unfold leave
  cases s.queue with
  | nil => rfl
  | cons j queue => rfl

/-- Who leaves only sends one of those who wait from the queue on the way. -/
theorem waits_leave {j : ι} : j ∈ (s.leave i).queue ∨ j ∈ (s.leave i).woken ↔ j ∈ s.queue ∨ j ∈ s.woken := by
  unfold leave
  cases hq : s.queue with
  | nil => simp
  | cons k queue =>
    simp only [Finset.mem_insert, List.mem_cons]
    tauto

/-- A slot is free for everybody who was woken. It holds as long as nobody new comes. -/
def Reserved (s : Semaphore ι) : Prop := (s.woken.card : ℤ) ≤ s.count

theorem Reserved.leave (h : s.Reserved) (hs : s.Sound limit) : (s.leave i).Reserved := by
  unfold Reserved at h
  unfold Semaphore.leave
  cases hq : s.queue with
  | nil =>
    simp only [Reserved]
    omega
  | cons j queue =>
    have hj : j ∈ s.queue := by rw [hq]; exact List.mem_cons_self
    have hinsert : (insert j s.woken).card = s.woken.card + 1 :=
      Finset.card_insert_of_notMem (hs.queue_woken j hj)
    simp only [Reserved, hinsert]
    push_cast
    omega

omit [DecidableEq ι] in
theorem Reserved.count_pos (h : s.Reserved) (hw : i ∈ s.woken) : 0 < s.count := by
  have hcard : 0 < s.woken.card := Finset.card_pos.mpr ⟨i, hw⟩
  unfold Reserved at h
  omega

/-- Who was woken gets a slot, and leaves those of the others free. -/
theorem Reserved.resume_eq (h : s.Reserved) (hw : i ∈ s.woken) :
    s.resume i =
      { s with count := s.count - 1, woken := s.woken.erase i, running := insert i s.running } := by
  rw [resume, enter, if_pos (h.count_pos hw)]

theorem Reserved.resume (h : s.Reserved) (hw : i ∈ s.woken) : (s.resume i).Reserved := by
  rw [h.resume_eq hw]
  have hcard : (s.woken.erase i).card + 1 = s.woken.card := Finset.card_erase_add_one hw
  unfold Reserved at *
  simp only
  omega

end Semaphore

end NestDdd.Common
