import NestDdd.Database.Release

/-!
# The outcome of a transaction

`transaction` is `withConnection` with a callback that commits when `fn` returns and
rolls back when `fn` throws or the commit fails. The repository has two kinds of
expected failure: a thrown error, and a `Result` with `ok: false`; the README
promises a rollback for both.

## What is proved

* `transaction_run` — what `transaction` does once `fn` has settled (`Ending`).
* `outcome_iff` — **the promise is kept exactly when `fn` does not resolve to a failed
  `Result`**: a failed `Result` is returned like any value, so it is committed.
* `failed_result_committed` — such a run.
-/

namespace NestDdd.Database

open NestDdd.Theory NestDdd.Shared

variable {α : Type} {source : OracleSource} {options : ConnectionOptions} {fn : Callback α}
  {t : Trace Driver}

/-! ### What comes after the callback -/

/-- The trace of a rollback, with its log line if it failed. -/
inductive RollbackTrace : Trace Driver → Prop where
  /-- The rollback succeeded. -/
  | done : RollbackTrace [⟨.rollback, .ok ()⟩]
  /-- The rollback failed, and a line was logged. -/
  | failed {e : JsValue} {line : LogLine} : RollbackTrace [⟨.rollback, .error e⟩, ⟨.log line, ()⟩]

/-- What `transaction` does on the connection once `fn` has settled, and the outcome of its
callback. -/
inductive Ending : Except JsValue α → Trace Driver → Except JsValue α → Prop where
  /-- `fn` returned and the commit was acknowledged. -/
  | committed {v : α} : Ending (.ok v) [⟨.commit, .ok ()⟩] (.ok v)
  /-- `fn` returned and the commit failed. -/
  | commitFailed {v : α} {e : JsValue} {rolled : Trace Driver} : RollbackTrace rolled →
      Ending (.ok v) (⟨.commit, .error e⟩ :: rolled) (.error e)
  /-- `fn` threw. -/
  | thrown {e : JsValue} {rolled : Trace Driver} : RollbackTrace rolled →
      Ending (.error e) rolled (.error e)

/-- The handler of `transaction`: roll back, and throw the original error again. -/
theorem rollback_run {tag : Option JsString} {line : JsValue → LogLine} {e : JsValue}
    {r : Except JsValue α}
    (h : Exec (callFn source tag (do
      tryCatch Callback.rollback fun rollbackError => Callback.log (line rollbackError)
      throw e : Callback α)) t r) :
    RollbackTrace t ∧ r = .error e := by
  unfold callFn at h
  rw [interp_await, interp_tryCatch] at h
  rcases exec_await_iff.mp h with ⟨t₁, _, t₂, h₁, h₂, rfl⟩ | ⟨e', h₁, -⟩
  · obtain ⟨rfl, rfl⟩ := exec_throw_iff.mp h₂
    rw [List.append_nil]
    rcases exec_tryCatch_iff.mp h₁ with ⟨_, h₃, -⟩ | ⟨t₃, e', t₄, h₃, h₄, rfl⟩
    · obtain rfl := exec_ask_iff.mp h₃
      exact ⟨.done, rfl⟩
    · obtain rfl := exec_ask_iff.mp h₃
      obtain ⟨x, hx, -⟩ := exec_lift_iff.mp h₄
      obtain rfl := exec_ask_iff.mp hx
      exact ⟨.failed, rfl⟩
  · -- the handler of the rollback only logs
    rcases exec_tryCatch_iff.mp h₁ with ⟨_, _, he⟩ | ⟨t₃, e', t₄, h₃, h₄, rfl⟩
    · cases he
    · obtain ⟨x, -, hr⟩ := exec_lift_iff.mp h₄
      cases hr

/-- **The runs of the callback of `transaction`**: a run of `fn`, then one of the endings. -/
theorem transaction_run {r : Except JsValue α}
    (h : Exec (callFn source options.tag (transactionBody source fn options)) t r) :
    ∃ during settled ending, Exec (callFn source options.tag fn) during settled ∧
      Ending settled ending r ∧ t = during ++ ending := by
  unfold callFn transactionBody at h
  rw [interp_tryCatch, interp_await] at h
  rcases exec_tryCatch_iff.mp h with ⟨v, h₁, rfl⟩ | ⟨t₁, e, rolled, h₁, h₂, rfl⟩
  · rcases exec_await_iff.mp h₁ with ⟨during, v', t₂, h₃, h₄, rfl⟩ | ⟨_, _, he⟩
    · rw [interp_await] at h₄
      rcases exec_await_iff.mp h₄ with ⟨t₃, _, t₄, h₅, h₆, rfl⟩ | ⟨_, _, he⟩
      · obtain rfl := exec_ask_iff.mp h₅
        obtain ⟨rfl, hv⟩ := exec_return_iff.mp h₆
        cases hv
        exact ⟨during, .ok v, _, h₃, .committed, rfl⟩
      · cases he
    · cases he
  · obtain ⟨hroll, rfl⟩ := rollback_run h₂
    rcases exec_await_iff.mp h₁ with ⟨during, v, t₂, h₃, h₄, rfl⟩ | ⟨_, h₃, he⟩
    · rw [interp_await] at h₄
      rcases exec_await_iff.mp h₄ with ⟨t₃, _, t₄, _, h₆, _⟩ | ⟨_, h₅, he⟩
      · cases (exec_return_iff.mp h₆).2
      · cases he
        obtain rfl := exec_ask_iff.mp h₅
        exact ⟨during, .ok v, _, h₃, .commitFailed hroll, List.append_assoc _ _ _⟩
    · cases he
      exact ⟨t₁, .error e, rolled, h₃, .thrown hroll, rfl⟩

/-! ### Commits and rollbacks -/

/-- A commit was attempted. -/
def isCommit : Event Driver → Bool
  | ⟨.commit, _⟩ => true
  | _ => false

/-- A commit was acknowledged. -/
def isCommitted : Event Driver → Bool
  | ⟨.commit, .ok _⟩ => true
  | _ => false

/-- A rollback was attempted. -/
def isRollback : Event Driver → Bool
  | ⟨.rollback, _⟩ => true
  | _ => false

/-- Neither a commit nor a rollback. -/
def DriverOp.isAside : DriverOp → Bool
  | .commit | .rollback => false
  | _ => true

theorem release_aside {clear : Bool} :
    (release source clear : Prog Driver _).Only fun o => DriverOp.isAside o = true := by
  have hlog (line : LogLine) : (ClientM.log line : Prog Driver _).Only fun o => DriverOp.isAside o = true :=
    Async.Only.lift (only_ask rfl)
  refine Async.Only.await ?_ fun drop => ?_
  · cases clear with
    | false => exact only_done _
    | true =>
      refine Async.Only.tryCatch ?_ fun e => Async.Only.await (hlog _) fun _ => only_done _
      refine Async.Only.await (only_ask rfl) fun _ => ?_
      refine Async.Only.await (only_ask rfl) fun _ => ?_
      exact Async.Only.await (only_ask rfl) fun _ => only_done _
  · refine Async.Only.tryCatch ?_ fun e => hlog _
    exact Async.Only.await (only_ask rfl) fun _ => only_ask rfl

theorem acquire_aside :
    (acquire source options : Prog Driver _).Only fun o => DriverOp.isAside o = true := by
  refine Async.Only.await (only_done _) fun user => ?_
  refine Async.Only.await (Async.Only.tryCatch (only_ask rfl) fun _ => only_done _) fun _ => ?_
  refine Async.Only.await (Async.Only.onlyIf (only_ask rfl)) fun _ => ?_
  exact Async.Only.await (Async.Only.onlyIf (only_ask rfl)) fun _ => only_done _

theorem aside_event {e : Event Driver} (h : DriverOp.isAside e.op = true) :
    isCommit e = false ∧ isCommitted e = false ∧ isRollback e = false := by
  obtain ⟨o, x⟩ := e
  cases o <;> first | exact ⟨rfl, rfl, rfl⟩ | cases h

/-! ### The promise -/

/-- A value that is not a failed `Result`. -/
def Succeeded : Except JsValue JsValue → Prop
  | .ok v => Result.isFailed v = false
  | .error _ => False

/-- One rollback was attempted, before any `close`, and no commit was acknowledged. -/
structure RolledBack (after : Trace Driver) : Prop where
  /-- Exactly one rollback, and nothing closed before it. -/
  once : ∃ before e rest, after = before ++ e :: rest ∧ isRollback e = true ∧
    before.any isRollback = false ∧ rest.any isRollback = false ∧ before.any closes = false
  /-- Nothing was committed. -/
  uncommitted : after.any isCommitted = false

/-- What `transaction` promises once `fn` has settled, where `after` is all that comes after
that and `r` is the outcome of the call. -/
structure Contract (source : OracleSource) (options : ConnectionOptions)
    (settled : Except JsValue JsValue) (after : Trace Driver) (r : Except JsValue JsValue) : Prop where
  /-- A commit is attempted if and only if `fn` succeeded. -/
  attempts : after.any isCommit = true ↔ Succeeded settled
  /-- A success is returned only if the commit was acknowledged. -/
  acknowledged : ∀ v, r = .ok v → Result.isFailed v = false →
    settled = .ok v ∧ after.any isCommitted = true
  /-- A failed `Result` is rolled back, and returned itself. -/
  failedResult : ∀ v, settled = .ok v → Result.isFailed v = true → RolledBack after ∧ r = .ok v
  /-- A thrown error is rolled back, and thrown as mapped. -/
  threw : ∀ e, settled = .error e → RolledBack after ∧ r = .error (mapError source e options.tag)
  /-- A commit that failed is rolled back, and its error thrown as mapped. -/
  commitFailed : ∀ e, (⟨.commit, .error e⟩ : Event Driver) ∈ after →
    RolledBack after ∧ r = .error (mapError source e options.tag)

/-- What `transaction` promises of a run: nothing happens when `fn` did not run, and the contract
holds when it did. -/
def Outcome (source : OracleSource) (fn : Callback JsValue) (options : ConnectionOptions)
    (t : Trace Driver) (r : Except JsValue JsValue) : Prop :=
  ∃ course, Course source fn options t course ∧
    match course with
    | none => t.any isCommit = false ∧ t.any isRollback = false ∧ ∃ e, r = .error e
    | some (settled, after) => Contract source options settled after r

/-! ### When the promise is kept -/

/-- A trace with neither commit nor rollback. -/
def Aside (t : Trace Driver) : Prop :=
  t.any isCommit = false ∧ t.any isCommitted = false ∧ t.any isRollback = false

theorem aside_of_only {p : Prog Driver α} {a : α}
    (hp : p.Only fun o => DriverOp.isAside o = true) (h : Exec p t a) : Aside t := by
  have he := fun e he => aside_event (hp.exec h e he)
  refine ⟨?_, ?_, ?_⟩ <;> rw [List.any_eq_false] <;> intro e hm
  · rw [(he e hm).1]
    simp
  · rw [(he e hm).2.1]
    simp
  · rw [(he e hm).2.2]
    simp

theorem RollbackTrace.any_isCommit {rolled : Trace Driver} (h : RollbackTrace rolled) :
    rolled.any isCommit = false := by
  cases h <;> rfl

/-- A rollback, a commit attempt that failed before it, and nothing of the kind after it. -/
theorem rolledBack_of {attempt rolled rest : Trace Driver} (hr : RollbackTrace rolled)
    (ha : attempt = [] ∨ ∃ e, attempt = [⟨.commit, .error e⟩]) (hrest : Aside rest) :
    RolledBack (attempt ++ (rolled ++ rest)) := by
  obtain ⟨-, hcommitted, hrollback⟩ := hrest
  obtain ⟨hab, hac, had⟩ : attempt.any isRollback = false ∧ attempt.any closes = false ∧
      attempt.any isCommitted = false := by
    rcases ha with rfl | ⟨e, rfl⟩ <;> exact ⟨rfl, rfl, rfl⟩
  cases hr with
  | done =>
    refine ⟨⟨attempt, _, rest, rfl, rfl, hab, hrollback, hac⟩, ?_⟩
    simp [had, hcommitted, isCommitted]
  | @failed e line =>
    refine ⟨⟨attempt, _, ⟨.log line, ()⟩ :: rest, rfl, rfl, hab, ?_, hac⟩, ?_⟩
    · simpa [isRollback] using hrollback
    · simp [had, hcommitted, isCommitted]

/-- The contract holds of an ending unless it committed a failed `Result`. -/
theorem contract_iff {settled r : Except JsValue JsValue} {ending rest : Trace Driver}
    (he : Ending settled ending r) (hrest : Aside rest) :
    Contract source options settled (ending ++ rest)
        (r.mapError (mapError source · options.tag)) ↔
      ∀ v, settled = .ok v → Result.isFailed v = false := by
  constructor
  · -- a commit is attempted whenever `fn` returns
    intro hc v hv
    subst hv
    have hattempt : (ending ++ rest).any isCommit = true := by
      cases he <;> rfl
    exact hc.attempts.mp hattempt
  · intro hok
    cases he with
    | @committed v =>
      have hv : Result.isFailed v = false := hok v rfl
      refine ⟨⟨fun _ => hv, fun _ => rfl⟩, fun v' hr hf => ?_, fun v' hs hf => ?_, nofun, fun e hm => ?_⟩
      · cases hr
        exact ⟨rfl, rfl⟩
      · cases hs
        rw [hv] at hf
        cases hf
      · rcases List.mem_cons.mp hm with hm | hm
        · cases hm
        · exact absurd rfl (List.any_eq_false.mp hrest.1 _ hm)
    | @commitFailed v e rolled hroll =>
      have hv : Result.isFailed v = false := hok v rfl
      have hrb : RolledBack (⟨.commit, .error e⟩ :: rolled ++ rest) :=
        rolledBack_of hroll (.inr ⟨e, rfl⟩) hrest
      refine ⟨⟨fun _ => hv, fun _ => rfl⟩, nofun, fun v' hs hf => ?_, nofun, fun e' hm => ⟨hrb, ?_⟩⟩
      · cases hs
        rw [hv] at hf
        cases hf
      · rw [List.cons_append] at hm
        rcases List.mem_cons.mp hm with hm | hm
        · cases hm
          rfl
        · rcases List.mem_append.mp hm with hm | hm
          · exact absurd rfl (List.any_eq_false.mp hroll.any_isCommit _ hm)
          · exact absurd rfl (List.any_eq_false.mp hrest.1 _ hm)
    | thrown hroll =>
      have hrb : RolledBack (ending ++ rest) := rolledBack_of hroll (.inl rfl) hrest
      have hnone : (ending ++ rest).any isCommit = false := by
        rw [List.any_append, hrest.1, hroll.any_isCommit, Bool.or_false]
      refine ⟨⟨fun h => ?_, fun h => h.elim⟩, nofun, nofun, fun e' hs => ?_, fun e' hm => ?_⟩
      · rw [hnone] at h
        cases h
      · cases hs
        exact ⟨hrb, rfl⟩
      · exact absurd rfl (List.any_eq_false.mp hnone _ hm)

/-- **When a transaction keeps its promise**: if and only if `fn` does not resolve to a failed
`Result`. -/
theorem outcome_iff {fn : Callback JsValue} {r : Except JsValue JsValue}
    (h : Exec (transaction source fn options) t r) :
    Outcome source fn options t r ↔
      ¬ ∃ v after, Course source fn options t (some (.ok v, after)) ∧ Result.isFailed v = true := by
  rcases withConnection_run h with ⟨e, ha, rfl⟩ | ⟨setup, user, _, _, after, rfl, ha, hf, hrel, rfl⟩
  · have hcourse : Course source fn options t none := .refused ha
    obtain ⟨hc, -, hr⟩ := aside_of_only acquire_aside ha
    refine ⟨fun _ ⟨v, after, hcourse', _⟩ => ?_, fun _ => ⟨none, hcourse, hc, hr, e, rfl⟩⟩
    cases course_unique hcourse hcourse'
  · obtain ⟨during, settled, ending, hfn, hend, rfl⟩ := transaction_run hf
    rw [List.append_assoc]
    have hcourse : Course source fn options (setup ++ (during ++ (ending ++ after)))
        (some (settled, ending ++ after)) := .ran ha hfn
    have hiff := @contract_iff source options _ _ _ _ hend (aside_of_only release_aside hrel)
    constructor
    · intro ho ⟨v, after', hcourse', hv⟩
      obtain ⟨course, hc, hcontract⟩ := ho
      cases course_unique hcourse hc
      cases course_unique hcourse hcourse'
      rw [hiff.mp hcontract v rfl] at hv
      cases hv
    · intro hn
      refine ⟨_, hcourse, hiff.mpr fun v hv => ?_⟩
      subst hv
      by_contra hfailed
      exact hn ⟨v, _, hcourse, by simpa using hfailed⟩

/-- The trace of a transaction in which nothing fails. -/
def smoothTrace : Trace Driver :=
  [⟨.getConnection, .ok ()⟩, ⟨.commit, .ok ()⟩, ⟨.setCallTimeout .reset (.ofNat 0), .ok ()⟩,
    ⟨.close false, .ok ()⟩]

/-- A function that returns `v` at once, when nothing fails, is committed whatever `v` is. -/
theorem smooth_run (v : JsValue) :
    Exec (transaction (.default "core") (pure v : Callback JsValue) .none) smoothTrace (.ok v) :=
  .call (.call (.call (.call .done)))

theorem smooth_course (v : JsValue) :
    Course (.default "core") (pure v : Callback JsValue) .none smoothTrace
      (some (.ok v, smoothTrace.tail)) := by
  have hacquire : Exec (acquire (.default "core") .none) [⟨.getConnection, .ok ()⟩] (.ok none) :=
    .call .done
  have hfn : Exec (callFn (.default "core") none (pure v : Callback JsValue)) [] (.ok v) := .done
  exact Course.ran hacquire hfn

/-- A transaction whose function returns a successful `Result` keeps the promise. -/
theorem successful_result_outcome :
    Outcome (.default "core") (pure (Result.ok .null) : Callback JsValue) .none smoothTrace
      (.ok (Result.ok .null)) := by
  refine (outcome_iff (smooth_run _)).mpr fun ⟨v, after, hc, hv⟩ => ?_
  cases course_unique (smooth_course _) hc
  cases hv

/-- `fn` refuses by returning a failed `Result`: the transaction is committed all the same. -/
theorem failed_result_committed :
    let fn : Callback JsValue := pure (Result.err (.string "refused"))
    Exec (transaction (.default "core") fn .none) smoothTrace (.ok (Result.err (.string "refused"))) ∧
      smoothTrace.any isCommitted = true ∧
      ¬ Outcome (.default "core") fn .none smoothTrace (.ok (Result.err (.string "refused"))) := by
  refine ⟨smooth_run _, rfl, fun ⟨course, hc, hcontract⟩ => ?_⟩
  cases course_unique (smooth_course _) hc
  cases hcontract.attempts.mp rfl

end NestDdd.Database
