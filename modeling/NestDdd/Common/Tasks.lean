import Mathlib.Data.List.Nodup
import Mathlib.Logic.Function.Basic
import NestDdd.Common.Semaphore
import NestDdd.Theory.Machine

/-!
# The tasks of a semaphore

Any number of calls of `Semaphore.with` (`src/common/utils/semaphore.util.ts`), each with a function of its
own, whose promises settle in any order. A call that finds no slot waits for a promise, and when
that has resolved calls `with` again; the outer call settles as the inner one does.

## The model

A task is a call of `with` from outside the class. `TaskPhase` says where it is, with the number of
calls of `with` around the innermost one. What runs between two `await`s is one event.

## What is proved

* `Inv` — the phases agree with the semaphore and with the record of what the functions did; every
  event keeps it (`Inv.next`).
* `machine_safe` — **no run** has more functions at work than slots, calls a function twice, gives a
  call the outcome of another function, or loses a wake-up.
* `Inv.queue_eq_nil` — with every function settled, a semaphore at rest has nobody waiting.
* `exists_quiescent` — **it comes to rest** after every run, whatever the order.
-/

namespace NestDdd.Common

open Theory

variable {ι ρ : Type} [DecidableEq ι]

/-- Where a task is; `ρ` is what a function may resolve or reject with. -/
inductive TaskPhase (ρ : Type) where
  /-- It has not called `with`. -/
  | absent
  /-- It awaits the promise in the queue. -/
  | waiting (depth : ℕ)
  /-- It awaits `fn()`. -/
  | executing (depth : ℕ)
  /-- `fn()` has thrown or its promise has settled; `finally` has not run. -/
  | ended (depth : ℕ) (outcome : ρ)
  /-- `finally` has run, and `depth` calls around it have not settled. -/
  | settling (depth : ℕ) (outcome : ρ)

namespace TaskPhase

/-- It waits for a slot. -/
def Waits : TaskPhase ρ → Prop
  | waiting _ => True
  | _ => False

/-- It has a slot. -/
def Holds : TaskPhase ρ → Prop
  | executing _ => True
  | ended _ _ => True
  | _ => False

/-- Its function has been called. -/
def Called : TaskPhase ρ → Prop
  | absent => False
  | waiting _ => False
  | _ => True

/-- What its function came to. -/
def outcome : TaskPhase ρ → Option ρ
  | ended _ o => some o
  | settling _ o => some o
  | _ => none

end TaskPhase

/-- A semaphore with the calls of `with`, and the record of what their functions did. -/
structure Tasks (ι ρ : Type) where
  /-- The semaphore. -/
  sem : Semaphore ι
  /-- Where each task is. -/
  phase : ι → TaskPhase ρ
  /-- The calls of the functions. -/
  called : List ι
  /-- What the functions came to. -/
  outcomes : List (ι × ρ)

/-- What can happen. -/
inductive TaskEvent (ι ρ : Type) where
  /-- Somebody calls `with`. -/
  | submit (i : ι)
  /-- A function throws, or its promise settles. -/
  | settle (i : ι) (outcome : ρ)
  /-- `finally` runs. -/
  | leave (i : ι)
  /-- A woken task calls `with` again. -/
  | resume (i : ι)
  /-- A call settles as the one inside it did. -/
  | adopt (i : ι)

namespace Tasks

/-- `new Semaphore(max)`, before any call. -/
def new (limit : ℤ) : Tasks ι ρ := ⟨.new limit, fun _ => .absent, [], []⟩

/-- `with`, up to its first `await`, inside `depth` others. -/
def enter (s : Tasks ι ρ) (i : ι) (depth : ℕ) : Tasks ι ρ :=
  if 0 < s.sem.count then
    { s with
      sem := s.sem.enter i, phase := Function.update s.phase i (.executing depth), called := s.called ++ [i] }
  else { s with sem := s.sem.enter i, phase := Function.update s.phase i (.waiting depth) }

/-- Which events a state may meet: calls and functions are free, the rest is the program's. -/
def Enabled (s : Tasks ι ρ) : TaskEvent ι ρ → Prop
  | .submit i => s.phase i = .absent
  | .settle i _ => ∃ depth, s.phase i = .executing depth
  | .leave i => ∃ depth o, s.phase i = .ended depth o
  | .resume i => i ∈ s.sem.woken
  | .adopt i => ∃ depth o, s.phase i = .settling (depth + 1) o

/-- What an event makes of a state. -/
def next (s : Tasks ι ρ) : TaskEvent ι ρ → Tasks ι ρ
  | .submit i => s.enter i 0
  | .settle i o =>
    match s.phase i with
    | .executing depth =>
      { s with phase := Function.update s.phase i (.ended depth o), outcomes := s.outcomes ++ [(i, o)] }
    | _ => s
  | .leave i =>
    match s.phase i with
    | .ended depth o => { s with sem := s.sem.leave i, phase := Function.update s.phase i (.settling depth o) }
    | _ => s
  | .resume i =>
    match s.phase i with
    | .waiting depth => { s with sem := { s.sem with woken := s.sem.woken.erase i } }.enter i (depth + 1)
    | _ => s
  | .adopt i =>
    match s.phase i with
    | .settling (depth + 1) o => { s with phase := Function.update s.phase i (.settling depth o) }
    | _ => s

/-- The calls of `with` on `new Semaphore(max)`. -/
def machine (limit : ℤ) : Machine (Tasks ι ρ) (TaskEvent ι ρ) where
  Initial s := s = new limit
  Enabled := Enabled
  next := next

/-- The functions called that have not settled. -/
def running (s : Tasks ι ρ) : List ι := s.called.filter fun i => i ∉ s.outcomes.map Prod.fst

/-- The call of `with` from outside has settled. -/
def Returned (s : Tasks ι ρ) (i : ι) (o : ρ) : Prop := s.phase i = .settling 0 o

/-- Nothing is left to do before somebody calls or a function settles. -/
def Quiescent (s : Tasks ι ρ) : Prop :=
  ∀ i, ¬ s.Enabled (.leave i) ∧ ¬ s.Enabled (.resume i) ∧ ¬ s.Enabled (.adopt i)

/-! ### The invariant -/

/-- A phase agrees with the semaphore. -/
structure Placed (sem : Semaphore ι) (phase : TaskPhase ρ) (i : ι) : Prop where
  /-- Who waits is in the queue, or on the way back from it. -/
  waits : phase.Waits ↔ i ∈ sem.queue ∨ i ∈ sem.woken
  /-- Who has a slot is counted. -/
  holds : phase.Holds ↔ i ∈ sem.running

/-- The phases agree with the record of what the functions did. -/
structure Recorded (s : Tasks ι ρ) : Prop where
  /-- They agree with the calls of the functions. -/
  mem_called : ∀ i, i ∈ s.called ↔ (s.phase i).Called
  /-- They agree with what the functions came to. -/
  mem_outcomes : ∀ i o, (i, o) ∈ s.outcomes ↔ (s.phase i).outcome = some o
  /-- No function is called twice. -/
  called_nodup : s.called.Nodup
  /-- No function settles twice. -/
  outcomes_nodup : (s.outcomes.map Prod.fst).Nodup

/-- **The invariant** of the calls of `with` on a semaphore of `limit` slots. -/
structure Inv (limit : ℤ) (s : Tasks ι ρ) : Prop extends Recorded s where
  /-- The semaphore is sound. -/
  sound : s.sem.Sound limit
  /-- The phases agree with it. -/
  placed : ∀ i, Placed s.sem (s.phase i) i

variable {limit : ℤ} {s : Tasks ι ρ} {sem : Semaphore ι} {phase : TaskPhase ρ} {i j : ι}

theorem Placed.enter (h : Placed sem phase j) (hne : j ≠ i) : Placed (sem.enter i) phase j := by
  by_cases hc : 0 < sem.count
  · rw [Semaphore.enter_of_pos hc]
    exact ⟨h.waits, by simpa [hne] using h.holds⟩
  · rw [Semaphore.enter_of_not_pos hc]
    exact ⟨by simpa [hne] using h.waits, h.holds⟩

theorem Placed.leave (h : Placed sem phase j) (hne : j ≠ i) : Placed (sem.leave i) phase j := by
  refine ⟨h.waits.trans Semaphore.waits_leave.symm, ?_⟩
  rw [Semaphore.running_leave, Finset.mem_erase]
  simpa [hne] using h.holds

theorem Placed.woken (h : Placed sem phase j) (hne : j ≠ i) :
    Placed { sem with woken := sem.woken.erase i } phase j where
  waits := by simpa [hne] using h.waits
  holds := h.holds

omit [DecidableEq ι] in
/-- The functions that have settled are those whose phases have an outcome. -/
theorem Recorded.mem_settled_iff (h : s.Recorded) :
    i ∈ s.outcomes.map Prod.fst ↔ ∃ o, (s.phase i).outcome = some o := by
  rw [List.mem_map]
  constructor
  · rintro ⟨⟨j, o⟩, hm, rfl⟩
    exact ⟨o, (h.mem_outcomes j o).mp hm⟩
  · rintro ⟨o, ho⟩
    exact ⟨(i, o), (h.mem_outcomes i o).mpr ho, rfl⟩

/-- What is true of a state of which one task is about to call `with`. -/
structure Arriving (limit : ℤ) (s : Tasks ι ρ) (i : ι) : Prop extends Recorded s where
  /-- The semaphore will be sound. -/
  sound : (s.sem.enter i).Sound limit
  /-- The phases of the others agree with it. -/
  placed : ∀ j, j ≠ i → Placed s.sem (s.phase j) j
  /-- The semaphore does not know the task. -/
  fresh : i ∉ s.sem.queue ∧ i ∉ s.sem.woken ∧ i ∉ s.sem.running
  /-- Its function has not been called. -/
  uncalled : ¬ (s.phase i).Called
  /-- Its function has come to nothing. -/
  pending : (s.phase i).outcome = none

/-- Another phase for one task keeps what is said of the phases of all. -/
theorem forall_update {P : ι → TaskPhase ρ → Prop} (hi : P i phase) (h : ∀ j, j ≠ i → P j (s.phase j)) (j : ι) :
    P j (Function.update s.phase i phase j) := by
  by_cases hj : j = i
  · rw [hj, Function.update_self]
    exact hi
  · rw [Function.update_of_ne hj]
    exact h j hj

theorem Arriving.enter (h : s.Arriving limit i) (depth : ℕ) : (s.enter i depth).Inv limit := by
  obtain ⟨hq, hw, hr⟩ := h.fresh
  have hout : ∀ j o, (j, o) ∈ s.outcomes ↔ (s.phase j).outcome = some o := h.mem_outcomes
  have hno : ∀ o, (i, o) ∉ s.outcomes := by
    intro o ho
    have hsome := (hout i o).mp ho
    rw [h.pending] at hsome
    exact Option.some_ne_none o hsome.symm
  have hcalled : i ∉ s.called := fun hm => h.uncalled ((h.mem_called i).mp hm)
  unfold Tasks.enter
  by_cases hc : 0 < s.sem.count
  · rw [if_pos hc]
    refine ⟨⟨?_, ?_, ?_, h.outcomes_nodup⟩, h.sound, ?_⟩
    · refine forall_update (P := fun j p => j ∈ s.called ++ [i] ↔ p.Called) ?_ fun j hj => ?_
      · simp [TaskPhase.Called]
      · simpa [hj] using h.mem_called j
    · intro j o
      refine forall_update (P := fun j p => (j, o) ∈ s.outcomes ↔ p.outcome = some o) ?_ (fun j _ => hout j o) j
      simp [TaskPhase.outcome, hno o]
    · refine List.nodup_append.mpr ⟨h.called_nodup, List.nodup_singleton i, ?_⟩
      intro a ha b hb hab
      rw [List.mem_singleton.mp hb] at hab
      exact hcalled (hab ▸ ha)
    · refine forall_update (P := fun j p => Placed (s.sem.enter i) p j) ?_ fun j hj => (h.placed j hj).enter hj
      rw [Semaphore.enter_of_pos hc]
      exact ⟨by simp [TaskPhase.Waits, hq, hw], by simp [TaskPhase.Holds]⟩
  · rw [if_neg hc]
    refine ⟨⟨?_, ?_, h.called_nodup, h.outcomes_nodup⟩, h.sound, ?_⟩
    · refine forall_update (P := fun j p => j ∈ s.called ↔ p.Called) ?_ fun j _ => h.mem_called j
      simp [TaskPhase.Called, hcalled]
    · intro j o
      refine forall_update (P := fun j p => (j, o) ∈ s.outcomes ↔ p.outcome = some o) ?_ (fun j _ => hout j o) j
      simp [TaskPhase.outcome, hno o]
    · refine forall_update (P := fun j p => Placed (s.sem.enter i) p j) ?_ fun j hj => (h.placed j hj).enter hj
      rw [Semaphore.enter_of_not_pos hc]
      exact ⟨by simp [TaskPhase.Waits], by simp [TaskPhase.Holds, hr]⟩

omit [DecidableEq ι] in
theorem inv_new (limit : ℤ) : (new limit : Tasks ι ρ).Inv limit where
  mem_called := by simp [new, TaskPhase.Called]
  mem_outcomes := by simp [new, TaskPhase.outcome]
  called_nodup := List.nodup_nil
  outcomes_nodup := List.nodup_nil
  sound := Semaphore.sound_new limit
  placed i := ⟨by simp [new, Semaphore.new, TaskPhase.Waits], by simp [new, Semaphore.new, TaskPhase.Holds]⟩

omit [DecidableEq ι] in
/-- Who does not wait is neither in the queue nor on the way back from it. -/
theorem Placed.not_mem (h : Placed sem phase i) (hp : ¬ phase.Waits) : i ∉ sem.queue ∧ i ∉ sem.woken :=
  not_or.mp fun hm => hp (h.waits.mpr hm)

theorem Inv.submit (h : s.Inv limit) (hp : s.phase i = .absent) : (s.enter i 0).Inv limit := by
  have hplaced := h.placed i
  rw [hp] at hplaced
  obtain ⟨hq, hw⟩ := hplaced.not_mem id
  have hr : i ∉ s.sem.running := fun hm => hplaced.holds.mpr hm
  refine Arriving.enter ⟨h.toRecorded, h.sound.enter hq hw hr, fun j _ => h.placed j, ⟨hq, hw, hr⟩, ?_, ?_⟩ 0
  · rw [hp]
    exact id
  · rw [hp]
    rfl

theorem Inv.resume (h : s.Inv limit) {depth : ℕ} (hp : s.phase i = .waiting depth) (hw : i ∈ s.sem.woken) :
    ({ s with sem := { s.sem with woken := s.sem.woken.erase i } }.enter i (depth + 1)).Inv limit := by
  have hplaced := h.placed i
  rw [hp] at hplaced
  have hr : i ∉ s.sem.running := fun hm => hplaced.holds.mpr hm
  have hq : i ∉ s.sem.queue := fun hq => h.sound.queue_woken i hq hw
  have harriving : Arriving limit { s with sem := { s.sem with woken := s.sem.woken.erase i } } i := by
    refine ⟨⟨h.mem_called, h.mem_outcomes, h.called_nodup, h.outcomes_nodup⟩, h.sound.resume hw,
      fun j hj => (h.placed j).woken hj, ⟨hq, Finset.notMem_erase i _, hr⟩, ?_, ?_⟩
    · simp only [hp]
      exact id
    · simp only [hp]
      rfl
  exact harriving.enter (depth + 1)

theorem Inv.settle (h : s.Inv limit) {depth : ℕ} (hp : s.phase i = .executing depth) (o : ρ) :
    Inv limit
      { s with phase := Function.update s.phase i (.ended depth o), outcomes := s.outcomes ++ [(i, o)] } := by
  have hplaced := h.placed i
  have hcalled := h.mem_called i
  have hout := h.mem_outcomes i
  rw [hp] at hplaced hcalled hout
  refine ⟨⟨?_, fun j o' => ?_, h.called_nodup, ?_⟩, h.sound, ?_⟩
  · exact forall_update (P := fun j p => j ∈ s.called ↔ p.Called) hcalled fun j _ => h.mem_called j
  · refine forall_update (P := fun j p => (j, o') ∈ s.outcomes ++ [(i, o)] ↔ p.outcome = some o') ?_ (fun j hj => ?_) j
    · have hno : (i, o') ∉ s.outcomes := fun hm => Option.some_ne_none o' ((hout o').mp hm).symm
      simp [TaskPhase.outcome, hno, eq_comm]
    · simpa [hj] using h.mem_outcomes j o'
  · rw [List.map_append, List.map_singleton]
    refine List.nodup_append.mpr ⟨h.outcomes_nodup, List.nodup_singleton i, ?_⟩
    intro a ha b hb hab
    rw [hab, List.mem_singleton.mp hb] at ha
    obtain ⟨o', ho'⟩ := h.toRecorded.mem_settled_iff.mp ha
    rw [hp] at ho'
    exact Option.some_ne_none o' ho'.symm
  · exact forall_update (P := fun j p => Placed s.sem p j) ⟨hplaced.waits, hplaced.holds⟩ fun j _ => h.placed j

/-- A phase of the same record. -/
theorem Recorded.update (h : s.Recorded) (hc : phase.Called ↔ (s.phase i).Called)
    (ho : phase.outcome = (s.phase i).outcome) (sem : Semaphore ι) :
    Recorded { s with sem := sem, phase := Function.update s.phase i phase } where
  mem_called := forall_update (P := fun j p => j ∈ s.called ↔ p.Called) ((h.mem_called i).trans hc.symm)
    fun j _ => h.mem_called j
  mem_outcomes j o := by
    refine forall_update (P := fun j p => (j, o) ∈ s.outcomes ↔ p.outcome = some o) ?_
      (fun j _ => h.mem_outcomes j o) j
    rw [ho]
    exact h.mem_outcomes i o
  called_nodup := h.called_nodup
  outcomes_nodup := h.outcomes_nodup

theorem Inv.leave (h : s.Inv limit) {depth : ℕ} {o : ρ} (hp : s.phase i = .ended depth o) :
    Inv limit { s with sem := s.sem.leave i, phase := Function.update s.phase i (.settling depth o) } := by
  have hplaced := h.placed i
  rw [hp] at hplaced
  refine ⟨h.toRecorded.update (by rw [hp]; exact Iff.rfl) (by rw [hp]; rfl) _,
    h.sound.leave (hplaced.holds.mp trivial), ?_⟩
  refine forall_update (P := fun j p => Placed (s.sem.leave i) p j) ⟨?_, ?_⟩ fun j hj => (h.placed j).leave hj
  · exact hplaced.waits.trans Semaphore.waits_leave.symm
  · simp [TaskPhase.Holds, Semaphore.running_leave]

theorem Inv.adopt (h : s.Inv limit) {depth : ℕ} {o : ρ} (hp : s.phase i = .settling (depth + 1) o) :
    Inv limit { s with phase := Function.update s.phase i (.settling depth o) } := by
  have hplaced := h.placed i
  rw [hp] at hplaced
  refine ⟨h.toRecorded.update (by rw [hp]; exact Iff.rfl) (by rw [hp]; rfl) _, h.sound, ?_⟩
  exact forall_update (P := fun j p => Placed s.sem p j) ⟨hplaced.waits, hplaced.holds⟩ fun j _ => h.placed j

/-- Every event keeps the invariant. -/
theorem Inv.next (h : s.Inv limit) {e : TaskEvent ι ρ} (he : s.Enabled e) : (s.next e).Inv limit := by
  cases e with
  | submit i => exact h.submit he
  | settle i o =>
    obtain ⟨depth, hp⟩ := he
    simp only [Tasks.next, hp]
    exact h.settle hp o
  | leave i =>
    obtain ⟨depth, o, hp⟩ := he
    simp only [Tasks.next, hp]
    exact h.leave hp
  | resume i =>
    have hwaits := (h.placed i).waits.mpr (.inr he)
    cases hp : s.phase i with
    | waiting depth =>
      simp only [Tasks.next, hp]
      exact h.resume hp he
    | _ =>
      rw [hp] at hwaits
      exact absurd hwaits id
  | adopt i =>
    obtain ⟨depth, o, hp⟩ := he
    simp only [Tasks.next, hp]
    exact h.adopt hp

theorem inv_run {es : List (TaskEvent ι ρ)} (h : (machine limit).Run es s) : s.Inv limit :=
  h.invariant (fun s hs => by rw [hs]; exact inv_new limit) fun _ _ hs he => hs.next he

/-! ### What the calls observe -/

/-- A function at work has a slot. -/
theorem Inv.mem_running (h : s.Inv limit) (hi : i ∈ s.running) : i ∈ s.sem.running := by
  obtain ⟨hc, hno⟩ := List.mem_filter.mp hi
  have hcalled := (h.mem_called i).mp hc
  have hno : ∀ o, (s.phase i).outcome ≠ some o := by
    intro o ho
    exact of_decide_eq_true hno (h.toRecorded.mem_settled_iff.mpr ⟨o, ho⟩)
  refine (h.placed i).holds.mp ?_
  cases hp : s.phase i with
  | absent => rw [hp] at hcalled; exact absurd hcalled id
  | waiting depth => rw [hp] at hcalled; exact absurd hcalled id
  | executing depth => trivial
  | ended depth o => trivial
  | settling depth o => exact absurd (by rw [hp]; rfl) (hno o)

theorem Inv.running_length_le (h : s.Inv limit) : (s.running.length : ℤ) ≤ max 1 limit := by
  have hnodup : s.running.Nodup := h.called_nodup.filter _
  have hsub : s.running.toFinset ⊆ s.sem.running := by
    intro i hi
    exact h.mem_running (List.mem_toFinset.mp hi)
  have hcard : s.running.length ≤ s.sem.running.card := by
    rw [← List.toFinset_card_of_nodup hnodup]
    exact Finset.card_le_card hsub
  have hslots := h.sound.slots
  have hnonneg := h.sound.nonneg
  omega

omit [DecidableEq ι] in
/-- At rest nobody is on the way. -/
theorem Quiescent.woken_eq (h : s.Quiescent) : s.sem.woken = ∅ :=
  Finset.eq_empty_of_forall_notMem fun i hi => (h i).2.1 hi

omit [DecidableEq ι] in
/-- **No lost wake-up**: at rest, a free slot means that nobody waits. -/
theorem Inv.not_waits (h : s.Inv limit) (hq : s.Quiescent) (hc : 0 < s.sem.count) (i : ι) :
    ¬ (s.phase i).Waits := by
  intro hw
  rcases (h.placed i).waits.mp hw with hm | hm
  · have hwake := h.sound.wakeup (List.ne_nil_of_mem hm)
    rw [hq.woken_eq, Finset.card_empty] at hwake
    omega
  · rw [hq.woken_eq] at hm
    exact Finset.notMem_empty i hm

omit [DecidableEq ι] in
/-- At rest, a call whose function has settled has settled. -/
theorem Inv.returned (h : s.Inv limit) (hq : s.Quiescent) {o : ρ} (hm : (i, o) ∈ s.outcomes) : s.Returned i o := by
  have hout := (h.mem_outcomes i o).mp hm
  obtain ⟨hleave, -, hadopt⟩ := hq i
  cases hp : s.phase i with
  | ended depth o' => exact absurd ⟨depth, o', hp⟩ hleave
  | settling depth o' =>
    rw [hp] at hout
    obtain rfl : o' = o := Option.some.inj hout
    cases depth with
    | zero => exact hp
    | succ depth => exact absurd ⟨depth, o', hp⟩ hadopt
  | _ =>
    rw [hp] at hout
    exact absurd hout (Option.some_ne_none o).symm

/-- At rest, with every function settled, nobody waits: **no call hangs**. -/
theorem Inv.queue_eq_nil (h : s.Inv limit) (hq : s.Quiescent) (hr : s.running = []) : s.sem.queue = [] := by
  by_contra hne
  have hwake := h.sound.wakeup hne
  rw [hq.woken_eq, Finset.card_empty] at hwake
  have hslots := h.sound.slots
  have hpos : 0 < s.sem.running.card := by
    have hmax : 1 ≤ max 1 limit := le_max_left 1 limit
    omega
  obtain ⟨i, hi⟩ := Finset.card_pos.mp hpos
  have hholds := (h.placed i).holds.mpr hi
  have hexec : i ∈ s.running := by
    cases hp : s.phase i with
    | executing depth =>
      refine List.mem_filter.mpr ⟨(h.mem_called i).mpr (by rw [hp]; trivial), decide_eq_true ?_⟩
      intro hm
      obtain ⟨o, ho⟩ := h.toRecorded.mem_settled_iff.mp hm
      rw [hp] at ho
      exact Option.some_ne_none o ho.symm
    | ended depth o => exact absurd ⟨depth, o, hp⟩ (hq i).1
    | _ =>
      rw [hp] at hholds
      exact absurd hholds id
  rw [hr] at hexec
  exact absurd hexec List.not_mem_nil

/-! ### Coming to rest -/

/-- What is the program's to do, once it can: a slot is given back, a task that was woken goes on, a call settles. -/
def Own : TaskEvent ι ρ → Prop
  | .submit _ | .settle _ _ => False
  | .leave _ | .resume _ | .adopt _ => True

/-- What a call has before it, after its function has settled; to give its slot back may wake another one. -/
def steps : TaskPhase ρ → ℕ
  | .ended depth _ => depth + 2
  | .settling depth _ => depth
  | _ => 0

/-- What all of them have before them. -/
def pending (s : Tasks ι ρ) : ℕ := Machine.weigh s.called.toFinset steps s.phase + s.sem.woken.card

omit [DecidableEq ι] in
theorem not_enabled_iff : (∀ e : TaskEvent ι ρ, Own e → ¬ s.Enabled e) ↔ s.Quiescent := by
  constructor
  · exact fun h i => ⟨h _ trivial, h _ trivial, h _ trivial⟩
  · intro h e he
    cases e with
    | submit | settle => exact absurd he id
    | leave i => exact (h i).1
    | resume i => exact (h i).2.1
    | adopt i => exact (h i).2.2

theorem woken_leave_card_le (sem : Semaphore ι) (i : ι) : (sem.leave i).woken.card ≤ sem.woken.card + 1 := by
  unfold Semaphore.leave
  split
  · exact Nat.le_succ _
  · exact Finset.card_insert_le _ _

theorem woken_enter (sem : Semaphore ι) (i : ι) : (sem.enter i).woken = sem.woken := by
  unfold Semaphore.enter
  split <;> rfl

/-- A call of `with` leaves nothing to do. -/
theorem pending_enter (s : Tasks ι ρ) (hi : i ∉ s.called) (depth : ℕ) : (s.enter i depth).pending = s.pending := by
  have hi' : i ∉ s.called.toFinset := fun hm => hi (List.mem_toFinset.mp hm)
  have hsame := Machine.weigh_update_of_notMem hi' steps s.phase
  unfold Tasks.enter pending
  split
  · have hcalled : (s.called ++ [i]).toFinset = insert i s.called.toFinset := by
      ext j
      simp
    simp only [hcalled, woken_enter, Machine.weigh] at hsame ⊢
    rw [Finset.sum_insert hi', hsame, Function.update_self]
    exact congrArg (· + _) (Nat.zero_add _)
  · simp only [woken_enter, hsame]

/-- **What the program does brings it closer to rest.** -/
theorem wanes (limit : ℤ) : (machine limit : Machine (Tasks ι ρ) _).Wanes (Inv limit) Own pending where
  keeps _ _ h _ he := h.next he
  wanes s e h hown he := by
    have hcalled {i : ι} (hi : (s.phase i).Called) : i ∈ s.called.toFinset :=
      List.mem_toFinset.mpr ((h.mem_called i).mpr hi)
    cases e with
    | submit | settle => exact absurd hown id
    | leave i =>
      obtain ⟨depth, o, hp⟩ := he
      have hsum := Machine.weigh_update (hcalled (by rw [hp]; trivial)) steps s.phase (.settling depth o)
      have hwoken := woken_leave_card_le s.sem i
      show (s.next (.leave i)).pending < s.pending
      simp only [Tasks.next, pending, hp, steps] at hsum ⊢
      omega
    | resume i =>
      have hwaits := (h.placed i).waits.mpr (.inr he)
      cases hp : s.phase i with
      | waiting depth =>
        have hnot : i ∉ s.called := fun hm => by
          have hc := (h.mem_called i).mp hm
          rw [hp] at hc
          exact hc
        have hcard := Finset.card_erase_lt_of_mem (show i ∈ s.sem.woken from he)
        have hsame := pending_enter { s with sem := { s.sem with woken := s.sem.woken.erase i } } hnot (depth + 1)
        show (s.next (.resume i)).pending < s.pending
        simp only [Tasks.next, hp]
        rw [hsame]
        exact Nat.add_lt_add_left hcard _
      | _ =>
        rw [hp] at hwaits
        exact absurd hwaits id
    | adopt i =>
      obtain ⟨depth, o, hp⟩ := he
      have hsum := Machine.weigh_update (hcalled (by rw [hp]; trivial)) steps s.phase (.settling depth o)
      show (s.next (.adopt i)).pending < s.pending
      simp only [Tasks.next, pending, hp, steps] at hsum ⊢
      omega

/-- **The program comes to rest** after every run: in whatever order it does what it has to do, that comes to an end,
and then nothing is left but for calls and functions. -/
theorem exists_quiescent {es : List (TaskEvent ι ρ)} (h : (machine limit).Run es s) :
    (∀ fs, (∀ e ∈ fs, Own e) → (machine limit).Playable s fs → fs.length ≤ s.pending) ∧
      ∃ fs s', (∀ e ∈ fs, Own e) ∧ (machine limit).Run (es ++ fs) s' ∧ s'.Quiescent := by
  have hs := inv_run h
  refine ⟨fun fs hown hp => (wanes limit).length_le hs hown hp, ?_⟩
  obtain ⟨fs, hown, hp, -, hrest⟩ := (wanes limit).exists_rest hs
  exact ⟨fs, _, hown, h.append hp, not_enabled_iff.mp hrest⟩

/-! ### Safety -/

/-- **The semaphore is safe and loses no wake-up**, whatever the calls and however their functions
settle. -/
theorem machine_safe (limit : ℤ) {es : List (TaskEvent ι ρ)} {s : Tasks ι ρ} (h : (machine limit).Run es s) :
    (s.running.length : ℤ) ≤ max 1 limit ∧
      (0 ≤ s.sem.count ∧ s.sem.count ≤ max 1 limit) ∧
      s.called.Nodup ∧ (s.outcomes.map Prod.fst).Nodup ∧ (∀ i o, s.Returned i o → (i, o) ∈ s.outcomes) ∧
      (s.sem.queue ≠ [] → s.sem.count ≤ s.sem.woken.card) ∧
      (s.Quiescent →
        (0 < s.sem.count → ∀ i, ¬ (s.phase i).Waits) ∧ ∀ i o, (i, o) ∈ s.outcomes → s.Returned i o) := by
  have hs := inv_run h
  refine ⟨hs.running_length_le, ⟨hs.sound.nonneg, ?_⟩, hs.called_nodup, hs.outcomes_nodup, fun i o ho => ?_,
    hs.sound.wakeup, fun hq => ⟨fun hc i => hs.not_waits hq hc i, fun i o => hs.returned hq⟩⟩
  · have hslots := hs.sound.slots
    omega
  · refine (hs.mem_outcomes i o).mpr ?_
    rw [show s.phase i = .settling 0 o from ho]
    rfl

/-- A newcomer takes the slot of the task woken, which queues again, and is woken again. -/
theorem machine_safe_overtaken :
    ∃ s : Tasks ℕ Bool,
      (machine 1).Run [.submit 0, .submit 1, .settle 0 true, .leave 0, .submit 2, .resume 1, .settle 2 false, .leave 2,
        .resume 1] s ∧
      (s.running.length : ℤ) ≤ max 1 1 ∧
      (0 ≤ s.sem.count ∧ s.sem.count ≤ max 1 1) ∧
      s.called.Nodup ∧ (s.outcomes.map Prod.fst).Nodup ∧ (∀ i o, s.Returned i o → (i, o) ∈ s.outcomes) ∧
      (s.sem.queue ≠ [] → s.sem.count ≤ s.sem.woken.card) ∧
      (s.Quiescent →
        (0 < s.sem.count → ∀ i, ¬ (s.phase i).Waits) ∧ ∀ i o, (i, o) ∈ s.outcomes → s.Returned i o) :=
  have hrun := Machine.Run.play (M := machine 1) rfl
    (show (machine 1).Playable (new 1 : Tasks ℕ Bool) [.submit 0, .submit 1, .settle 0 true, .leave 0, .submit 2,
        .resume 1, .settle 2 false, .leave 2, .resume 1] from
      ⟨rfl, rfl, ⟨0, rfl⟩, ⟨0, true, rfl⟩, rfl, Finset.mem_singleton_self 1, ⟨0, rfl⟩, ⟨0, false, rfl⟩,
        Finset.mem_singleton_self 1, trivial⟩)
  ⟨_, hrun, machine_safe 1 hrun⟩

end Tasks

end NestDdd.Common
