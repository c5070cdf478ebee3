import NestDdd.Database.Transaction
import NestDdd.Database.Identity

/-!
# What a call sets up

Before its function runs a call has resolved its user, borrowed a connection, and assigned the
timeout and the identifier to it, each only if there is one. This module says so of every run,
for `withConnection` and `transaction` alike.

## What is proved

* `acquire_ok_iff` — the trace of a setup that succeeds, assignment by assignment.
* `Call.run_cases` — a call is refused, or it is a setup, a run of its function, what the
  transaction adds, and a release.
* `Call.exists_run` — every setup goes on to such a run.
-/

namespace NestDdd.Database

open NestDdd.Theory NestDdd.Shared

variable {α : Type} {source : OracleSource} {options : ConnectionOptions} {t : Trace Driver}

/-! ### The setup -/

/-- The assignment of the timeout, if it is one to assign. -/
def timeoutSetup (source : OracleSource) (options : ConnectionOptions) : Trace Driver :=
  if (callTimeout source options).isPositive then
    [⟨.setCallTimeout .setup (callTimeout source options), .ok ()⟩]
  else []

/-- The assignment of the identifier, if there is one. -/
def userSetup (user : Option JsString) : Trace Driver :=
  if isNonEmpty user then [⟨.setClientId .setup (user.getD []), .ok ()⟩] else []

/-- An assignment that is only made if there is something to assign, and does not throw. -/
theorem exec_assign_iff {c : Bool} {p : ClientM PUnit} {e : Event Driver}
    (h : ∀ t, Exec p t (.ok ⟨⟩) ↔ t = [e]) :
    Exec (Async.onlyIf c p) t (.ok ⟨⟩) ↔ t = if c then [e] else [] := by
  rw [exec_onlyIf_iff]
  cases c with
  | false => simp
  | true => simp [h]

/-- **The setups that succeed.** -/
theorem acquire_ok_iff {user : Option JsString} :
    Exec (acquire source options) t (.ok user) ↔ resolveContextUser source options = .ok user ∧
      t = ⟨.getConnection, .ok ()⟩ :: (timeoutSetup source options ++ userSetup user) := by
  have hget (t : Trace Driver) : Exec ClientM.getConnection t (.ok ⟨⟩) ↔ t = [⟨.getConnection, .ok ()⟩] :=
    exec_ask_iff
  have htimeout (t : Trace Driver) : Exec (Async.onlyIf (callTimeout source options).isPositive
      (ClientM.setCallTimeout .setup (callTimeout source options))) t (.ok ⟨⟩) ↔
        t = timeoutSetup source options := exec_assign_iff fun t => exec_ask_iff
  have huser (user : Option JsString) (t : Trace Driver) : Exec (Async.onlyIf (isNonEmpty user)
      (ClientM.setClientId .setup (user.getD []))) t (.ok ⟨⟩) ↔ t = userSetup user :=
    exec_assign_iff fun t => exec_ask_iff
  constructor
  · intro h
    obtain ⟨_, user', _, h₁, h₂, rfl⟩ := exec_await_ok_iff.mp h
    obtain ⟨rfl, hu⟩ := exec_done_iff.mp h₁
    obtain ⟨_, _, _, h₃, h₄, rfl⟩ := exec_await_ok_iff.mp h₂
    obtain rfl := (hget _).mp (exec_rethrow_ok_iff.mp h₃)
    obtain ⟨_, _, _, h₅, h₆, rfl⟩ := exec_await_ok_iff.mp h₄
    obtain rfl := (htimeout _).mp h₅
    obtain ⟨_, _, _, h₇, h₈, rfl⟩ := exec_await_ok_iff.mp h₆
    obtain rfl := (huser _ _).mp h₇
    obtain ⟨rfl, hr⟩ := exec_return_iff.mp h₈
    cases hr
    exact ⟨hu.symm, by simp⟩
  · rintro ⟨hu, rfl⟩
    have hend : Exec (do
        Async.onlyIf (isNonEmpty user) (ClientM.setClientId .setup (user.getD []))
        return user : ClientM (Option JsString)) (userSetup user) (.ok user) :=
      exec_await_ok_iff.mpr ⟨_, ⟨⟩, [], (huser user _).mpr rfl, .done, (List.append_nil _).symm⟩
    refine exec_await_ok_iff.mpr ⟨[], user, _, exec_done_iff.mpr ⟨rfl, hu.symm⟩, ?_, rfl⟩
    refine exec_await_ok_iff.mpr ⟨_, ⟨⟩, _, exec_rethrow_ok_iff.mpr ((hget _).mpr rfl), ?_, rfl⟩
    exact exec_await_ok_iff.mpr ⟨_, ⟨⟩, _, (htimeout _).mpr rfl, hend, rfl⟩

/-- An assignment that throws has failed. -/
theorem failed_of_assign {c : Bool} {p : ClientM PUnit} {e : JsValue} {g : JsValue → Event Driver}
    (h : Exec (Async.onlyIf c p) t (.error e)) (hp : Exec p t (.error e) → t = [g e])
    (hg : failed (g e) = true) : t.any failed = true := by
  rw [hp (exec_onlyIf_error_iff.mp h).2, List.any_cons, hg, Bool.true_or]

/-- A setup that fails: the call is refused, or the driver failed. -/
theorem acquire_error {e : JsValue} (h : Exec (acquire source options) t (.error e)) :
    t = [] ∧ resolveContextUser source options = .error e ∨ t.any failed = true := by
  rcases exec_await_iff.mp h with ⟨t₁, user, t₂, h₁, h₂, rfl⟩ | ⟨_, h₁, he⟩
  · refine .inr (List.any_append.trans ((Bool.or_eq_true _ _).mpr (.inr ?_)))
    rcases exec_await_iff.mp h₂ with ⟨t₃, _, t₄, -, h₄, rfl⟩ | ⟨_, h₃, he⟩
    · refine List.any_append.trans ((Bool.or_eq_true _ _).mpr (.inr ?_))
      rcases exec_await_iff.mp h₄ with ⟨t₅, _, t₆, -, h₆, rfl⟩ | ⟨_, h₅, he⟩
      · refine List.any_append.trans ((Bool.or_eq_true _ _).mpr (.inr ?_))
        rcases exec_await_iff.mp h₆ with ⟨t₇, _, t₈, -, h₈, -⟩ | ⟨_, h₇, he⟩
        · cases (exec_return_iff.mp h₈).2
        · cases he
          exact failed_of_assign (g := fun e => ⟨.setClientId .setup (user.getD []), .error e⟩) h₇
            exec_ask_iff.mp rfl
      · cases he
        exact failed_of_assign (g := fun e => ⟨.setCallTimeout .setup (callTimeout source options), .error e⟩)
          h₅ exec_ask_iff.mp rfl
    · cases he
      rcases exec_tryCatch_iff.mp h₃ with ⟨_, -, he⟩ | ⟨t₃, cause, t₄, h₄, -, rfl⟩
      · cases he
      · obtain rfl := exec_ask_iff.mp h₄
        rfl
  · cases he
    obtain ⟨rfl, he⟩ := exec_done_iff.mp h₁
    exact .inl ⟨rfl, he.symm⟩

/-! ### Whole calls -/

/-- What comes between the function of a call and its release: only what a function could do. -/
def UsesOnlyTrace (t : Trace Driver) : Prop := ∀ e ∈ t, DriverOp.isUse e.op = true

theorem Ending.usesOnly {settled r : Except JsValue α} {ending : Trace Driver} (h : Ending settled ending r) :
    UsesOnlyTrace ending := by
  have hroll {rolled : Trace Driver} (hr : RollbackTrace rolled) : UsesOnlyTrace rolled := by
    cases hr <;> simp [UsesOnlyTrace, DriverOp.isUse]
  cases h with
  | committed => simp [UsesOnlyTrace, DriverOp.isUse]
  | commitFailed hr =>
    intro e he
    rcases List.mem_cons.mp he with rfl | he
    · rfl
    · exact hroll hr e he
  | thrown hr => exact hroll hr

/-- The pieces of a call that was not refused. -/
structure Call.Pieces (source : OracleSource) (call : Call α) (t setup during after : Trace Driver)
    (user : Option JsString) (settled : Except JsValue α) : Prop where
  /-- They are the trace. -/
  trace_eq : t = setup ++ (during ++ after)
  /-- The setup. -/
  acquired : Exec (acquire source call.options) setup (.ok user)
  /-- The caller's function. -/
  ran : Exec (callFn source call.options.tag call.fn) during settled
  /-- What follows ends with the release. -/
  released : ∃ ending rest, after = ending ++ rest ∧ UsesOnlyTrace ending ∧
    Exec (release source (isNonEmpty user)) rest (.ok ⟨⟩)

/-- **The runs of a call**: it is refused, or it has pieces. -/
theorem Call.run_cases {call : Call α} {r : Except JsValue α} (h : Exec (call.run source) t r) :
    (∃ e, Exec (acquire source call.options) t (.error e) ∧ r = .error e) ∨
      ∃ setup during after user settled, call.Pieces source t setup during after user settled := by
  obtain ⟨transactional, fn, options⟩ := call
  cases transactional with
  | false =>
    rcases withConnection_run h with hrefused | ⟨setup, user, during, settled, rest, rfl, ha, hf, hrel, -⟩
    · exact .inl hrefused
    · exact .inr ⟨setup, during, rest, user, settled, rfl, ha, hf, [], rest, rfl, nofun, hrel⟩
  | true =>
    rcases withConnection_run h with hrefused | ⟨setup, user, _, _, rest, rfl, ha, hf, hrel, -⟩
    · exact .inl hrefused
    · obtain ⟨during, settled, ending, hfn, hend, rfl⟩ := transaction_run hf
      refine .inr ⟨setup, during, ending ++ rest, user, settled, ?_, ha, hfn, ending, rest, rfl, hend.usesOnly, hrel⟩
      rw [List.append_assoc]

/-- At every moment of it the function has only done what a function could do. -/
theorem Call.Pieces.uses {call : Call α} {setup during after pre : Trace Driver} {user : Option JsString}
    {settled : Except JsValue α} (h : call.Pieces source t setup during after user settled) (hpre : pre <+: during) :
    UsesOnlyTrace pre := by
  intro e he
  exact callFn_only.exec h.ran e (hpre.subset he)

/-- Whatever no use changes is after a function as it was before. -/
theorem UsesOnlyTrace.foldl_eq {σ : Type} {step : σ → Event Driver → σ}
    (hstep : ∀ e s, DriverOp.isUse e.op = true → step s e = s) (h : UsesOnlyTrace t) (s : σ) :
    t.foldl step s = s := by
  induction t with
  | nil => rfl
  | cons e rest ih =>
    rw [List.foldl_cons, hstep e s (h e List.mem_cons_self)]
    exact ih fun e' he => h e' (List.mem_cons_of_mem _ he)

instance (o : Driver.Op) : Nonempty (Driver.Ans o) := by
  cases o <;> first | exact ⟨()⟩ | exact ⟨.ok ()⟩ | exact ⟨.ok .null⟩ | exact ⟨(0 : ℤ)⟩

/-- **Every setup goes on** to a run of the function and a release. -/
theorem Call.exists_run {call : Call α} {setup : Trace Driver} {user : Option JsString}
    (h : Exec (acquire source call.options) setup (.ok user)) :
    ∃ t r during after settled, Exec (call.run source) t r ∧
      call.Pieces source t setup during after user settled := by
  have hgoes {fn : Callback α} : ∃ rest r, Exec (withConnection source fn call.options) (setup ++ rest) r := by
    obtain ⟨rest, r, hrest⟩ := exists_exec (Async.tryFinally
      (tryCatch (callFn source call.options.tag fn) fun e => throw (mapError source e call.options.tag))
      (release source (isNonEmpty user)))
    exact ⟨rest, r, exec_await_iff.mpr (.inl ⟨setup, user, rest, h, hrest, rfl⟩)⟩
  have hrun : ∃ rest r, Exec (call.run source) (setup ++ rest) r := by
    unfold Call.run
    split
    · exact hgoes
    · exact hgoes
  obtain ⟨rest, r, hrun⟩ := hrun
  refine ⟨setup ++ rest, r, ?_⟩
  rcases Call.run_cases hrun with ⟨e, ha, -⟩ | ⟨setup', during, after, user', settled, hp⟩
  · cases (ha.split_unique h (List.append_nil _)).2.1
  · -- the setup is read off the trace in one way only
    obtain ⟨rfl, hu, -⟩ := h.split_unique hp.acquired hp.trace_eq
    cases hu
    exact ⟨during, after, settled, hrun, hp⟩

end NestDdd.Database
