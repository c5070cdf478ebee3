import NestDdd.Database.OracleClient
import Mathlib.Tactic.NormNum

/-!
# Every connection is closed once

`withConnection` promises to always return the connection to the pool. This module
reads every run of the client's parts off their definitions, and compares the
promise with what a run shows.

## The model

* `Course` — how far a call got: it was refused before its function ran, or its
  function settled and something came after. A run has exactly one course
  (`course_unique`).
* `Returned` — the promise: a connection that was borrowed is closed exactly once
  before the call settles, and the call settles with its function's outcome or with
  a typed error of its own.

## What is proved

* `withConnection_run` — the runs of `withConnection`: the borrowing, the function,
  and a release that never throws.
* `returned_iff` — **the promise is kept exactly when no assignment outside the
  clearing block throws.** The setup assignments stand before the `try`, so nothing
  is released when one of them throws; the assignment that resets the timeout shares
  the `try` of `close`, so nothing is closed when it throws.
* `fractional_timeout_leaks` — a call with a `callTimeoutMs` of 1.5 never closes the
  connection it borrowed.
-/

namespace NestDdd.Database

open NestDdd.Theory NestDdd.Shared

variable {α : Type} {source : OracleSource} {options : ConnectionOptions} {fn : Callback α}
  {t : Trace Driver}

/-! ### Kinds of events -/

/-- A connection was borrowed. -/
def borrowed : Event Driver → Bool
  | ⟨.getConnection, .ok _⟩ => true
  | _ => false

/-- The connection's `close` was called. -/
def closes : Event Driver → Bool
  | ⟨.close _, _⟩ => true
  | _ => false

/-- An assignment to the connection threw, outside the block of `release` that clears the
context user. -/
def assignmentThrew : Event Driver → Bool
  | ⟨.setCallTimeout site _, .error _⟩ | ⟨.setClientId site _, .error _⟩ => site != .clear
  | _ => false

/-- A call that neither borrows, nor closes, nor is an assignment that throws. -/
def Quiet (o : DriverOp) : Prop :=
  ∀ x : Driver.Ans o, borrowed ⟨o, x⟩ = false ∧ closes ⟨o, x⟩ = false ∧ assignmentThrew ⟨o, x⟩ = false

/-- Nothing of a trace borrows, closes, or is an assignment that threw. -/
def Uneventful (t : Trace Driver) : Prop :=
  ∀ e ∈ t, borrowed e = false ∧ closes e = false ∧ assignmentThrew e = false

namespace Uneventful

theorem nil : Uneventful [] := fun _ h => nomatch h

theorem single {e : Event Driver} (h₁ : borrowed e = false) (h₂ : closes e = false)
    (h₃ : assignmentThrew e = false) : Uneventful [e] := by
  intro e' he
  obtain rfl := List.mem_singleton.mp he
  exact ⟨h₁, h₂, h₃⟩

theorem append {t₁ t₂ : Trace Driver} (h₁ : Uneventful t₁) (h₂ : Uneventful t₂) :
    Uneventful (t₁ ++ t₂) := by
  intro e he
  rcases List.mem_append.mp he with he | he
  · exact h₁ e he
  · exact h₂ e he

theorem any_borrowed (h : Uneventful t) : t.any borrowed = false := by
  rw [List.any_eq_false]
  intro e he
  rw [(h e he).1]
  simp

theorem countP_closes (h : Uneventful t) : t.countP closes = 0 := by
  rw [List.countP_eq_zero]
  intro e he
  rw [(h e he).2.1]
  simp

theorem any_threw (h : Uneventful t) : t.any assignmentThrew = false := by
  rw [List.any_eq_false]
  intro e he
  rw [(h e he).2.2]
  simp

/-- An assignment that is only made if there is something to assign, and does not throw. -/
theorem of_onlyIf {c : Bool} {p : ClientM PUnit} {x : PUnit} (h : Exec (Async.onlyIf c p) t (.ok x))
    (hp : Exec p t (.ok x) → Uneventful t) : Uneventful t := by
  rcases exec_onlyIf_iff.mp h with ⟨-, h⟩ | ⟨-, rfl, -⟩
  · exact hp h
  · exact nil

end Uneventful

/-! ### The calls of the parts -/

/-- What a callback can do to the driver, through the proxy. -/
def DriverOp.isUse : DriverOp → Bool
  | .execute .. | .commit | .rollback | .ping | .now | .log _ | .outside _ => true
  | _ => false

theorem DriverOp.quiet_of_isUse {o : DriverOp} (ho : o.isUse = true) : Quiet o := by
  intro x
  cases o <;> first | exact ⟨rfl, rfl, rfl⟩ | cases ho

/-- A program that makes only such calls. -/
abbrev UsesOnly (p : Prog Driver α) : Prop := p.Only fun o => DriverOp.isUse o = true

theorem logExecuted_only {tag : Option JsString} {sql : JsString} {latencyMs : ℤ} :
    UsesOnly (logExecuted source tag sql latencyMs) := by
  unfold logExecuted
  split
  · exact Async.Only.lift (only_ask rfl)
  · split
    · exact Async.Only.lift (only_ask rfl)
    · exact only_done _

theorem executeWithDefaults_only {tag : Option JsString} {sql : JsString} {binds : JsValue}
    {props : Props} :
    UsesOnly (executeWithDefaults source tag sql binds props) := by
  refine Async.Only.await (Async.Only.lift (only_ask rfl)) fun started => ?_
  refine Async.Only.tryFinally (only_ask rfl) ?_
  exact Async.Only.await (Async.Only.lift (only_ask rfl)) fun ended => logExecuted_only

/-- The caller's function neither borrows, nor closes, nor assigns. -/
theorem callFn_only {tag : Option JsString} :
    UsesOnly (callFn source tag fn) := by
  refine only_interp (fun o => ?_) fn
  cases o with
  | execute sql binds props => exact executeWithDefaults_only
  | commit | rollback | ping | log line | outside request => exact only_ask rfl

/-- The runs of `acquire`: a refusal with a typed error before anything is borrowed, an
assignment that threw, or a connection that is set up. -/
theorem acquire_run {r : Except JsValue (Option JsString)} (h : Exec (acquire source options) t r) :
    t.countP closes = 0 ∧
      (t.any borrowed = false ∧ t.any assignmentThrew = false ∧
          (∃ e, r = .error e ∧
            (resolveContextUser source options = .error e ∨
              ∃ cause, e = databaseConnectionError source.key cause)) ∨
        t.any borrowed = true ∧ t.any assignmentThrew = true ∧ (∃ e, r = .error e) ∨
        t.any borrowed = true ∧ t.any assignmentThrew = false ∧
          ∃ user, resolveContextUser source options = .ok user ∧ r = .ok user) := by
  rcases exec_await_iff.mp h with ⟨t₁, user, t₂, h₁, h₂, rfl⟩ | ⟨e, h₁, rfl⟩
  · obtain ⟨rfl, hu⟩ := exec_done_iff.mp h₁
    rcases exec_await_iff.mp h₂ with ⟨t₃, _, t₄, h₃, h₄, rfl⟩ | ⟨e, h₃, rfl⟩
    · have hget : t₃ = [⟨.getConnection, .ok ()⟩] := by
        rcases exec_tryCatch_iff.mp h₃ with ⟨_, h₅, _⟩ | ⟨_, _, _, _, h₅, rfl⟩
        · exact exec_ask_iff.mp h₅
        · cases (exec_throw_iff.mp h₅).2
      subst hget
      rcases exec_await_iff.mp h₄ with ⟨t₅, _, t₆, h₅, h₆, rfl⟩ | ⟨e, h₅, rfl⟩
      · have htimeout : Uneventful t₅ := by
          refine .of_onlyIf h₅ fun h₇ => ?_
          obtain rfl := exec_ask_iff.mp h₇
          exact .single rfl rfl rfl
        rcases exec_await_iff.mp h₆ with ⟨t₇, _, t₈, h₇, h₈, rfl⟩ | ⟨e, h₇, rfl⟩
        · have hid : Uneventful t₇ := by
            refine .of_onlyIf h₇ fun h₉ => ?_
            obtain rfl := exec_ask_iff.mp h₉
            exact .single rfl rfl rfl
          obtain ⟨rfl, rfl⟩ := exec_return_iff.mp h₈
          have hrest := htimeout.append (hid.append .nil)
          refine ⟨?_, .inr (.inr ⟨?_, ?_, user, hu.symm, rfl⟩)⟩
          · simp only [List.nil_append, List.cons_append, List.countP_cons, hrest.countP_closes]
            rfl
          · rfl
          · simp only [List.nil_append, List.cons_append, List.any_cons, hrest.any_threw]
            rfl
        · obtain rfl := exec_ask_iff.mp (exec_onlyIf_error_iff.mp h₇).2
          refine ⟨?_, .inr (.inl ⟨rfl, ?_, e, rfl⟩)⟩
          · simp only [List.nil_append, List.cons_append, List.countP_cons, List.countP_append,
              htimeout.countP_closes]
            rfl
          · simp only [List.nil_append, List.cons_append, List.any_cons, List.any_append]
            simp [assignmentThrew]
      · obtain rfl := exec_ask_iff.mp (exec_onlyIf_error_iff.mp h₅).2
        exact ⟨rfl, .inr (.inl ⟨rfl, rfl, e, rfl⟩)⟩
    · rcases exec_tryCatch_iff.mp h₃ with ⟨_, _, h₄⟩ | ⟨t₄, cause, t₅, h₄, h₅, rfl⟩
      · cases h₄
      · obtain rfl := exec_ask_iff.mp h₄
        obtain ⟨rfl, he⟩ := exec_throw_iff.mp h₅
        cases he
        exact ⟨rfl, .inl ⟨rfl, rfl, _, rfl, .inr ⟨cause, rfl⟩⟩⟩
  · obtain ⟨rfl, he⟩ := exec_done_iff.mp h₁
    exact ⟨rfl, .inl ⟨rfl, rfl, e, rfl, .inl he.symm⟩⟩

/-- What the clearing block can do to the driver. -/
def DriverOp.isClearing : DriverOp → Bool
  | .setClientId .clear _ | .setCallTimeout .clear _ | .ping | .log _ => true
  | _ => false

theorem DriverOp.quiet_of_isClearing {o : DriverOp} (ho : o.isClearing = true) : Quiet o := by
  intro x
  cases o with
  | setCallTimeout site ms | setClientId site id =>
    cases site <;> first | (cases x <;> exact ⟨rfl, rfl, rfl⟩) | cases ho
  | ping | log line => exact ⟨rfl, rfl, rfl⟩
  | _ => cases ho

theorem clearContext_only :
    (clearContext source : Prog Driver _).Only fun o => DriverOp.isClearing o = true := by
  refine Async.Only.tryCatch ?_ fun e => ?_
  · refine Async.Only.await (only_ask rfl) fun _ => ?_
    refine Async.Only.await (only_ask rfl) fun _ => ?_
    exact Async.Only.await (only_ask rfl) fun _ => only_done _
  · exact Async.Only.await (Async.Only.lift (only_ask rfl)) fun _ => only_done _

/-- The clearing block never throws, whatever it decides. -/
theorem clearContext_run {r : Except JsValue Bool} (h : Exec (clearContext source) t r) :
    ∃ drop, r = .ok drop := by
  rcases exec_tryCatch_iff.mp h with ⟨drop, -, rfl⟩ | ⟨t₁, e, t₂, -, h₂, -⟩
  · exact ⟨drop, rfl⟩
  · rcases exec_await_iff.mp h₂ with ⟨t₃, _, t₄, -, h₄, -⟩ | ⟨e', h₃, -⟩
    · exact ⟨true, (exec_return_iff.mp h₄).2⟩
    · obtain ⟨_, -, hr⟩ := exec_lift_iff.mp h₃
      cases hr

/-- The closing block closes unless its assignment throws, and throws nothing itself. -/
theorem closeConnection_run {drop : Bool} {r : Except JsValue PUnit}
    (h : Exec (closeConnection source drop) t r) :
    t.any borrowed = false ∧ t.countP closes = (if t.any assignmentThrew then 0 else 1) ∧
      r = .ok ⟨⟩ := by
  rcases exec_tryCatch_iff.mp h with ⟨_, h₁, rfl⟩ | ⟨t₁, e, t₂, h₁, h₂, rfl⟩
  · rcases exec_await_iff.mp h₁ with ⟨t₂, _, t₃, h₂, h₃, rfl⟩ | ⟨e, _, he⟩
    · obtain rfl := exec_ask_iff.mp h₂
      obtain rfl := exec_ask_iff.mp h₃
      exact ⟨rfl, rfl, rfl⟩
    · cases he
  · obtain ⟨x, hx, rfl⟩ := exec_lift_iff.mp h₂
    obtain rfl := exec_ask_iff.mp hx
    rcases exec_await_iff.mp h₁ with ⟨t₃, _, t₄, h₃, h₄, rfl⟩ | ⟨e', h₃, he⟩
    · obtain rfl := exec_ask_iff.mp h₃
      obtain rfl := exec_ask_iff.mp h₄
      exact ⟨rfl, rfl, rfl⟩
    · obtain rfl := exec_ask_iff.mp h₃
      exact ⟨rfl, rfl, rfl⟩

/-- `release` closes unless resetting the timeout throws, and throws nothing itself. -/
theorem release_run {clear : Bool} {r : Except JsValue PUnit}
    (h : Exec (release source clear) t r) :
    t.any borrowed = false ∧ t.countP closes = (if t.any assignmentThrew then 0 else 1) ∧
      r = .ok ⟨⟩ := by
  have hclear : ∀ {t' : Trace Driver} {r' : Except JsValue Bool},
      Exec (if clear then clearContext source else pure false : ClientM Bool) t' r' →
        Uneventful t' ∧ ∃ drop, r' = .ok drop := by
    intro t' r' h'
    cases clear with
    | true =>
      have hq := clearContext_only.exec h'
      exact ⟨fun e he => DriverOp.quiet_of_isClearing (hq e he) e.ans, clearContext_run h'⟩
    | false =>
      obtain ⟨rfl, rfl⟩ := exec_return_iff.mp h'
      exact ⟨.nil, false, rfl⟩
  rcases exec_await_iff.mp h with ⟨t₁, drop, t₂, h₁, h₂, rfl⟩ | ⟨e, h₁, -⟩
  · have hu := (hclear h₁).1
    obtain ⟨hb, hc, hr⟩ := closeConnection_run h₂
    refine ⟨?_, ?_, hr⟩
    · rw [List.any_append, hu.any_borrowed, hb, Bool.or_false]
    · rw [List.countP_append, hu.countP_closes, List.any_append, hu.any_threw, Bool.false_or, hc,
        Nat.zero_add]
  · obtain ⟨-, drop, hr⟩ := hclear h₁
    cases hr

/-- **The runs of `withConnection`**: a refusal, or the setup, the function and a release
that does not touch the outcome. -/
theorem withConnection_run {r : Except JsValue α}
    (h : Exec (withConnection source fn options) t r) :
    (∃ e, Exec (acquire source options) t (.error e) ∧ r = .error e) ∨
      ∃ setup user during settled after, t = setup ++ (during ++ after) ∧
        Exec (acquire source options) setup (.ok user) ∧
        Exec (callFn source options.tag fn) during settled ∧
        Exec (release source (isNonEmpty user)) after (.ok ⟨⟩) ∧
        r = settled.mapError (mapError source · options.tag) := by
  rcases exec_await_iff.mp h with ⟨setup, user, t₁, h₁, h₂, rfl⟩ | ⟨e, h₁, rfl⟩
  · obtain ⟨during, r₁, after, r₂, h₃, h₄, rfl, hr⟩ := exec_tryFinally_iff.mp h₂
    obtain ⟨-, -, rfl⟩ := release_run h₄
    subst hr
    refine .inr ⟨setup, user, during, ?_⟩
    rcases exec_tryCatch_iff.mp h₃ with ⟨v, h₅, rfl⟩ | ⟨t₂, e, t₃, h₅, h₆, rfl⟩
    · exact ⟨.ok v, after, rfl, h₁, h₅, h₄, rfl⟩
    · obtain ⟨rfl, rfl⟩ := exec_throw_iff.mp h₆
      rw [List.append_nil]
      exact ⟨.error e, after, rfl, h₁, h₅, h₄, rfl⟩
  · exact .inl ⟨e, h₁, rfl⟩

/-! ### How far a call got -/

/-- How far the call of a trace got with `fn`: it was refused before `fn` ran, or `fn`
settled, and `after` came after that. -/
inductive Course (source : OracleSource) (fn : Callback α) (options : ConnectionOptions) :
    Trace Driver → Option (Except JsValue α × Trace Driver) → Prop where
  /-- Borrowing failed. -/
  | refused {t : Trace Driver} {e : JsValue} : Exec (acquire source options) t (.error e) →
      Course source fn options t none
  /-- The function ran. -/
  | ran {setup during after : Trace Driver} {user : Option JsString} {settled : Except JsValue α} :
      Exec (acquire source options) setup (.ok user) →
        Exec (callFn source options.tag fn) during settled →
          Course source fn options (setup ++ (during ++ after)) (some (settled, after))

/-- A trace has one course at most. -/
theorem course_unique {c₁ c₂ : Option (Except JsValue α × Trace Driver)}
    (h₁ : Course source fn options t c₁) (h₂ : Course source fn options t c₂) : c₁ = c₂ := by
  generalize ht : t = t' at h₂
  cases h₁ with
  | refused ha₁ =>
    cases h₂ with
    | refused ha₂ => rfl
    | ran ha₂ hf₂ =>
      have h := ha₁.split_unique ha₂ ((List.append_nil _).trans ht)
      cases h.2.1
  | ran ha₁ hf₁ =>
    cases h₂ with
    | refused ha₂ =>
      have h := ha₁.split_unique ha₂ (ht.trans (List.append_nil _).symm)
      cases h.2.1
    | ran ha₂ hf₂ =>
      obtain ⟨-, -, ht'⟩ := ha₁.split_unique ha₂ ht
      obtain ⟨-, rfl, rfl⟩ := hf₁.split_unique hf₂ ht'
      rfl

/-! ### The promise -/

/-- An error of the application's own classes. -/
def isTyped : JsValue → Bool
  | .object (.appError _) _ => true
  | _ => false

/-- `resolveContextUser` refuses with a typed error. -/
theorem resolveContextUser_typed {e : JsValue} (h : resolveContextUser source options = .error e) :
    isTyped e = true := by
  unfold resolveContextUser at h
  simp only at h
  split at h
  · cases h
  · split at h
    · split at h
      · cases h
        rfl
      · cases h
    · cases h

/-- What `withConnection` promises: a borrowed connection is closed exactly once, and the call
settles with the outcome of `fn`, its error mapped, or with a typed error. -/
structure Returned (source : OracleSource) (fn : Callback α) (options : ConnectionOptions)
    (t : Trace Driver) (r : Except JsValue α) : Prop where
  /-- A borrowed connection is closed exactly once. -/
  closedOnce : t.any borrowed = true → t.countP closes = 1
  /-- The call settles with nothing that was raised while releasing. -/
  outcome : (∃ settled after, Course source fn options t (some (settled, after)) ∧
      r = settled.mapError (mapError source · options.tag)) ∨ ∃ e, r = .error e ∧ isTyped e = true

/-- **When a connection is returned**: a call keeps the promise if and only if no assignment
to the connection throws, but for those in the clearing block of `release`. -/
theorem returned_iff {r : Except JsValue α} (h : Exec (withConnection source fn options) t r) :
    Returned source fn options t r ↔ t.any assignmentThrew = false := by
  rcases withConnection_run h with ⟨e, ha, rfl⟩ | ⟨setup, user, during, settled, after, rfl, ha, hf, hrel, rfl⟩
  · obtain ⟨hc, ⟨hb, ht, e', he', hty⟩ | ⟨hb, ht, -⟩ | ⟨-, -, user, -, hu⟩⟩ := acquire_run ha
    · -- refused before anything was borrowed
      refine ⟨fun _ => ht, fun _ => ⟨fun hb' => ?_, .inr ⟨e, rfl, ?_⟩⟩⟩
      · rw [hb] at hb'
        cases hb'
      · cases he'
        rcases hty with hty | ⟨cause, rfl⟩
        · exact resolveContextUser_typed hty
        · rfl
    · -- a setup assignment threw: the connection is never closed
      constructor
      · intro hr
        have := hr.closedOnce hb
        omega
      · intro ht'
        rw [ht] at ht'
        cases ht'
    · cases hu
  · have hduring : Uneventful during := fun e he =>
      DriverOp.quiet_of_isUse (callFn_only.exec hf e he) e.ans
    obtain ⟨-, hca, -⟩ := release_run hrel
    obtain ⟨hc, ⟨-, -, e, he, -⟩ | ⟨-, -, e, he⟩ | ⟨hb, ht, -⟩⟩ := acquire_run ha
    · cases he
    · cases he
    · have hb' : (setup ++ (during ++ after)).any borrowed = true := by
        rw [List.any_append, hb, Bool.true_or]
      have hthrew : (setup ++ (during ++ after)).any assignmentThrew = after.any assignmentThrew := by
        rw [List.any_append, List.any_append, ht, hduring.any_threw, Bool.false_or, Bool.false_or]
      have hcount : (setup ++ (during ++ after)).countP closes =
          if after.any assignmentThrew then 0 else 1 := by
        rw [List.countP_append, List.countP_append, hc, hduring.countP_closes, hca, Nat.zero_add,
          Nat.zero_add]
      rw [hthrew]
      constructor
      · intro hr
        have hone := hr.closedOnce hb'
        rw [hcount] at hone
        by_contra hne
        rw [if_pos (by simpa using hne)] at hone
        omega
      · intro hn
        refine ⟨fun _ => ?_, .inl ⟨settled, after, .ran ha hf, rfl⟩⟩
        rw [hcount, hn]
        rfl

/-- A call in which nothing throws returns its connection. -/
theorem plain_call_returned :
    Returned (.default "core") (pure () : Callback Unit) .none
      [⟨.getConnection, .ok ()⟩, ⟨.setCallTimeout .reset (.ofNat 0), .ok ()⟩, ⟨.close false, .ok ()⟩]
      (.ok ()) := by
  have h : Exec (withConnection (.default "core") (pure () : Callback Unit) .none)
      [⟨.getConnection, .ok ()⟩, ⟨.setCallTimeout .reset (.ofNat 0), .ok ()⟩, ⟨.close false, .ok ()⟩]
      (.ok ()) := .call (.call (.call .done))
  exact (returned_iff h).mpr rfl

/-- A call with a `callTimeoutMs` of 1.5 borrows a connection, is refused by the driver's
setter, and never closes the connection. -/
theorem fractional_timeout_leaks :
    let options : ConnectionOptions := ⟨none, some (.finite (3 / 2)), none, none⟩
    let t : Trace Driver := [⟨.getConnection, .ok ()⟩,
      ⟨.setCallTimeout .setup (.finite (3 / 2)), .error (.string "NJS-004")⟩]
    Exec (withConnection (.default "core") (pure () : Callback Unit) options) t
        (.error (.string "NJS-004")) ∧
      ¬ Returned (.default "core") (pure () : Callback Unit) options t (.error (.string "NJS-004")) := by
  intro options t
  have hpos : (callTimeout (.default "core") options).isPositive = true := by
    show decide (0 < (3 / 2 : ℚ)) = true
    norm_num
  refine ⟨exec_await_iff.mpr (.inr ⟨_, ?_, rfl⟩), fun h => ?_⟩
  · refine exec_await_iff.mpr (.inl ⟨[], none, t, .done, ?_, rfl⟩)
    refine exec_await_iff.mpr (.inl ⟨[⟨.getConnection, .ok ()⟩], ⟨⟩, _, .call .done, ?_, rfl⟩)
    exact exec_await_iff.mpr (.inr ⟨_, exec_onlyIf_iff.mpr (.inl ⟨hpos, .call .done⟩), rfl⟩)
  · have hone := h.closedOnce rfl
    cases hone

end NestDdd.Database
