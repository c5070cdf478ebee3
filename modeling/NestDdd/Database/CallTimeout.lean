import NestDdd.Database.Setup
import Mathlib.Algebra.Order.Ring.Rat
import Mathlib.Data.Nat.Cast.Order.Ring

/-!
# The timeout of a call

A connection keeps its `callTimeout` from one call to the next. A call assigns its own before its
function runs, if that is positive, and gives the connection back with the timeout of the source; a
timeout of 0, which means none, is not assigned.

## The model

* `timeoutAfter` — the timeout in force after a trace, on a connection that had one left.
* `Residue` — the timeouts a lent connection can have left: none when it is new, and what the calls
  that gave it back have made of that.

## What is proved

* `Residue.eq_or_eq` — a connection has no timeout left, or that of the source.
* `consistent_iff` — so the timeout in force while a function runs is the one that was asked for, on
  whatever connection, unless none was asked for by an explicit 0 where the source has one.
* `stale_timeout` — a call that asks for none and runs under the timeout of the source.
-/

namespace NestDdd.Database

open NestDdd.Theory NestDdd.Shared

variable {α : Type} {source : OracleSource} {options : ConnectionOptions} {t : Trace Driver}

/-! ### The timeout in force -/

/-- An assignment that does not throw puts its timeout in force. -/
def timeoutStep (ms : Number) : Event Driver → Number
  | ⟨.setCallTimeout _ assigned, .ok _⟩ => assigned
  | _ => ms

/-- The timeout in force after a trace, on a connection with `residue` left. -/
def timeoutAfter (residue : Number) (t : Trace Driver) : Number := t.foldl timeoutStep residue

@[simp] theorem timeoutAfter_append (residue : Number) (t₁ t₂ : Trace Driver) :
    timeoutAfter residue (t₁ ++ t₂) = timeoutAfter (timeoutAfter residue t₁) t₂ :=
  List.foldl_append

/-- A function does not assign timeouts. -/
theorem timeoutStep_of_isUse (e : Event Driver) (ms : Number) (h : DriverOp.isUse e.op = true) :
    timeoutStep ms e = ms := by
  obtain ⟨o, x⟩ := e
  cases o <;> first | rfl | cases h

/-- The setup puts the timeout of the call in force, if it is positive. -/
theorem timeoutAfter_setup {user : Option JsString} (h : Exec (acquire source options) t (.ok user))
    (residue : Number) :
    timeoutAfter residue t =
      if (callTimeout source options).isPositive then callTimeout source options else residue := by
  obtain ⟨-, rfl⟩ := acquire_ok_iff.mp h
  have huser (ms : Number) : timeoutAfter ms (userSetup user) = ms := by
    unfold userSetup
    split <;> rfl
  have hget (ms : Number) (rest : Trace Driver) :
      timeoutAfter ms (⟨.getConnection, .ok ()⟩ :: rest) = timeoutAfter ms rest := rfl
  rw [hget, timeoutAfter_append, huser, timeoutSetup]
  split <;> rfl

/-! ### What a call leaves -/

/-- The connection is closed, and goes back to the pool. -/
def returned : Event Driver → Bool
  | ⟨.close false, .ok _⟩ => true
  | _ => false

theorem any_returned_of_only (S : DriverOp → Bool) (h : ∀ e ∈ t, S e.op = true) (hs : S (.close false) = false) :
    t.any returned = false := by
  rw [List.any_eq_false]
  rintro ⟨o, x⟩ he hr
  have ho := h _ he
  cases o with
  | close drop =>
    cases drop with
    | false => exact absurd (hs.symm.trans ho) nofun
    | true => cases hr
  | _ => cases hr

theorem acquire_not_returned {r : Except JsValue (Option JsString)} (h : Exec (acquire source options) t r) :
    t.any returned = false := by
  rw [List.any_eq_false]
  intro e he hr
  have hcloses := List.countP_eq_zero.mp (acquire_run h).1 e he
  obtain ⟨o, x⟩ := e
  cases o with
  | close drop => exact hcloses rfl
  | _ => cases hr

/-- Giving a connection back: the timeout of the source is assigned, then the connection is closed. -/
theorem release_returned {clear : Bool} (h : Exec (release source clear) t (.ok ⟨⟩)) (hr : t.any returned = true) :
    ∃ pre, t = pre ++ [⟨.setCallTimeout .reset (.ofNat source.callTimeoutMs), .ok ()⟩, ⟨.close false, .ok ()⟩] := by
  obtain ⟨cleared, drop, closing, hclear, hclose, rfl⟩ := exec_await_ok_iff.mp h
  have hcleared : cleared.any returned = false := by
    cases clear with
    | true => exact any_returned_of_only DriverOp.isClearing (clearContext_only.exec hclear) rfl
    | false =>
      obtain ⟨rfl, -⟩ := exec_return_iff.mp hclear
      rfl
  rw [List.any_append, hcleared, Bool.false_or] at hr
  rcases exec_tryCatch_iff.mp hclose with ⟨_, h₁, -⟩ | ⟨t₁, e, t₂, h₁, h₂, rfl⟩
  · obtain ⟨t₂, _, t₃, h₂, h₃, rfl⟩ := exec_await_ok_iff.mp h₁
    obtain rfl := exec_ask_iff.mp h₂
    obtain rfl := exec_ask_iff.mp h₃
    cases drop with
    | false => exact ⟨cleared, rfl⟩
    | true => cases hr
  · -- a release that fails has not given the connection back
    obtain ⟨_, hx, -⟩ := exec_lift_iff.mp h₂
    obtain rfl := exec_ask_iff.mp hx
    rcases exec_await_iff.mp h₁ with ⟨t₃, _, t₄, h₃, h₄, rfl⟩ | ⟨e', h₃, he⟩
    · obtain rfl := exec_ask_iff.mp h₃
      obtain rfl := exec_ask_iff.mp h₄
      cases drop <;> cases hr
    · obtain rfl := exec_ask_iff.mp h₃
      cases hr

/-- A call that gives its connection back leaves it with the timeout of the source. -/
theorem Call.timeoutAfter_of_returned {call : Call α} {r : Except JsValue α} (h : Exec (call.run source) t r)
    (hr : t.any returned = true) (residue : Number) : timeoutAfter residue t = .ofNat source.callTimeoutMs := by
  rcases Call.run_cases h with ⟨e, ha, -⟩ | ⟨setup, during, after, user, settled, hp⟩
  · rw [acquire_not_returned ha] at hr
    cases hr
  · obtain ⟨htrace, hacquire, hran, ending, rest, rfl, hending, hrelease⟩ := hp
    have hduring := any_returned_of_only DriverOp.isUse (callFn_only.exec hran) rfl
    have hend := any_returned_of_only DriverOp.isUse hending rfl
    rw [htrace, List.any_append, List.any_append, List.any_append, acquire_not_returned hacquire, hduring,
      hend] at hr
    obtain ⟨pre, rfl⟩ := release_returned hrelease hr
    simp only [htrace, timeoutAfter_append]
    rfl

/-- **What a lent connection may have left**: nothing if it is new, or what a call has made of what was
left when it gave the connection back. -/
inductive Residue (source : OracleSource) : Number → Prop where
  /-- A new connection has no timeout. -/
  | fresh : Residue source (.ofNat 0)
  /-- A call has given it back, however it ended. -/
  | givenBack {α : Type} {call : Call α} {t : Trace Driver} {r : Except JsValue α} {residue : Number} :
      Residue source residue → Exec (call.run source) t r → t.any returned = true →
        Residue source (timeoutAfter residue t)

/-- **A lent connection** has no timeout left, or that of the source. -/
theorem Residue.eq_or_eq {residue : Number} (h : Residue source residue) :
    residue = .ofNat 0 ∨ residue = .ofNat source.callTimeoutMs := by
  cases h with
  | fresh => exact .inl rfl
  | givenBack _ hrun hr => exact .inr (Call.timeoutAfter_of_returned hrun hr _)

/-! ### The timeout while the function runs -/

/-- A timeout that is in force at some moment while the function of a call runs, on a connection with
`residue` left. -/
inductive InForce (source : OracleSource) (call : Call α) (residue : Number) : Number → Prop where
  /-- At the moment after `pre`. -/
  | at {t setup during after pre : Trace Driver} {user : Option JsString} {settled r : Except JsValue α} :
      Exec (call.run source) t r → call.Pieces source t setup during after user settled → pre <+: during →
        InForce source call residue (timeoutAfter residue (setup ++ pre))

/-- What is in force is what the setup left in force. -/
theorem InForce.eq {call : Call α} {residue ms : Number} (h : InForce source call residue ms) :
    ms = if (callTimeout source call.options).isPositive then callTimeout source call.options else residue := by
  obtain ⟨-, hp, hpre⟩ := h
  rw [timeoutAfter_append, timeoutAfter_setup hp.acquired]
  exact (hp.uses hpre).foldl_eq timeoutStep_of_isUse _

/-- A call that is not refused can get to its function, on any connection. -/
theorem InForce.of_resolved {call : Call α} {user : Option JsString}
    (h : resolveContextUser source call.options = .ok user) (residue : Number) :
    ∃ ms, InForce source call residue ms := by
  obtain ⟨t, r, during, after, settled, hrun, hp⟩ := Call.exists_run (acquire_ok_iff.mpr ⟨h, rfl⟩)
  exact ⟨_, .at hrun hp List.nil_prefix⟩

/-- A call that keeps to its own timeout: what is in force is what was asked for, or else the timeout of
the source, whatever was left on the connection; so it is the same on any two connections. -/
structure Consistent (source : OracleSource) (call : Call α) : Prop where
  /-- It is what was asked for. -/
  expected : ∀ residue ms, Residue source residue → InForce source call residue ms →
    ms = callTimeout source call.options
  /-- It does not depend on the connection. -/
  agree : ∀ residue residue' ms ms', Residue source residue → Residue source residue' →
    InForce source call residue ms → InForce source call residue' ms' → ms = ms'

/-- The assignments of a release in which nothing fails. -/
def releaseTrace (source : OracleSource) (clear : Bool) : Trace Driver :=
  (if clear then
    [⟨.setClientId .clear [], .ok ()⟩,
      ⟨.setCallTimeout .clear (.ofNat (if source.poolPingTimeoutMs = 0 then 5000 else source.poolPingTimeoutMs)),
        .ok ()⟩,
      ⟨.ping, .ok ()⟩]
  else []) ++ [⟨.setCallTimeout .reset (.ofNat source.callTimeoutMs), .ok ()⟩, ⟨.close false, .ok ()⟩]

theorem release_exec (source : OracleSource) (clear : Bool) :
    Exec (release source clear) (releaseTrace source clear) (.ok ⟨⟩) := by
  cases clear with
  | false => exact .call (.call .done)
  | true => exact .call (.call (.call (.call (.call .done))))

theorem releaseTrace_returned (source : OracleSource) (t : Trace Driver) (clear : Bool) :
    (t ++ releaseTrace source clear).any returned = true := by
  rw [releaseTrace, List.any_append, List.any_append]
  simp [returned]

/-- Where some call is not refused, a connection may have the timeout of the source left. -/
theorem Residue.of_resolved {user : Option JsString} (h : resolveContextUser source options = .ok user) :
    Residue source (.ofNat source.callTimeoutMs) := by
  let call : Call Unit := ⟨false, pure (), options⟩
  have hbody : Exec (Async.tryFinally
      (tryCatch (callFn source options.tag call.fn) fun e => throw (mapError source e options.tag))
      (release source (isNonEmpty user))) (releaseTrace source (isNonEmpty user)) (.ok ()) :=
    exec_tryFinally_iff.mpr ⟨[], .ok (), _, .ok ⟨⟩, .done, release_exec source (isNonEmpty user), rfl, rfl⟩
  have hrun : Exec (call.run source) _ (.ok ()) :=
    exec_await_iff.mpr (.inl ⟨_, user, _, acquire_ok_iff.mpr ⟨h, rfl⟩, hbody, rfl⟩)
  have hreturned := releaseTrace_returned source
    (⟨.getConnection, .ok ()⟩ :: (timeoutSetup source options ++ userSetup user)) (isNonEmpty user)
  exact Call.timeoutAfter_of_returned hrun hreturned (.ofNat 0) ▸ Residue.fresh.givenBack hrun hreturned

theorem isPositive_ofNat (n : ℕ) : (Number.ofNat n).isPositive = decide (0 < n) := by
  simp [Number.ofNat, Number.isPositive]

theorem ofNat_inj {m n : ℕ} (h : Number.ofNat m = .ofNat n) : m = n := by
  simpa [Number.ofNat] using h

/-- Where nothing is asked for by a 0, the timeout in force is the one of the call, whatever was left. -/
theorem InForce.eq_callTimeout {call : Call α} {residue ms : Number} (hms : InForce source call residue ms)
    (hres : Residue source residue) (h : ∀ ms, call.options.callTimeoutMs = some ms → ∃ n : ℕ, ms = .ofNat n)
    (hn : ¬ (call.options.callTimeoutMs = some (.ofNat 0) ∧ 0 < source.callTimeoutMs ∧
      ∃ user, resolveContextUser source call.options = .ok user)) :
    ms = callTimeout source call.options := by
  have heq := hms.eq
  obtain ⟨k, hk⟩ : ∃ k, callTimeout source call.options = .ofNat k := by
    unfold callTimeout
    cases hms : call.options.callTimeoutMs with
    | none => exact ⟨source.callTimeoutMs, rfl⟩
    | some ms' => exact h ms' hms
  rw [hk, isPositive_ofNat] at heq
  by_cases hpos : 0 < k
  · rwa [decide_eq_true hpos, if_pos rfl, ← hk] at heq
  · -- nothing was assigned; then the source has no timeout either, and nothing was left
    obtain rfl : k = 0 := by omega
    obtain ⟨-, hp, -⟩ := hms
    have hnone : source.callTimeoutMs = 0 := by
      unfold callTimeout at hk
      cases hms : call.options.callTimeoutMs with
      | none =>
        rw [hms, Option.getD_none] at hk
        exact ofNat_inj hk
      | some ms' =>
        rw [hms, Option.getD_some] at hk
        by_contra hne
        exact hn ⟨hms.trans (congrArg some hk), Nat.pos_of_ne_zero hne, _, (acquire_ok_iff.mp hp.acquired).1⟩
    have hleft : residue = .ofNat 0 := by
      rcases hres.eq_or_eq with hres | hres
      · exact hres
      · rw [hres, hnone]
    rw [hk, ← hleft]
    simpa using heq

/-- **When a call keeps to its own timeout**: if and only if it does not, without being refused for its
user, ask for none by a 0 where the source has one. -/
theorem consistent_iff (call : Call α)
    (h : ∀ ms, call.options.callTimeoutMs = some ms → ∃ n : ℕ, ms = .ofNat n) :
    Consistent source call ↔
      ¬ (call.options.callTimeoutMs = some (.ofNat 0) ∧ 0 < source.callTimeoutMs ∧
        ∃ user, resolveContextUser source call.options = .ok user) := by
  constructor
  · rintro hc ⟨hzero, hpos, user, hu⟩
    obtain ⟨ms, hms⟩ := InForce.of_resolved hu (.ofNat source.callTimeoutMs)
    have hct : callTimeout source call.options = .ofNat 0 := by rw [callTimeout, hzero, Option.getD_some]
    have hexpected := hc.expected _ ms (.of_resolved hu) hms
    have hstale := hms.eq
    rw [hct] at hexpected hstale
    rw [hexpected] at hstale
    exact hpos.ne (ofNat_inj hstale)
  · intro hn
    refine ⟨fun residue ms hres hms => hms.eq_callTimeout hres h hn, ?_⟩
    intro residue residue' ms ms' hres hres' hms hms'
    rw [hms.eq_callTimeout hres h hn, hms'.eq_callTimeout hres' h hn]

/-- A source that gives every round trip half a minute. -/
def patientSource : OracleSource := { OracleSource.default "core" with callTimeoutMs := 30000 }

/-- A call that commits, under a timeout of its own. -/
def commitWithin (ms : ℕ) : Call Unit := ⟨false, Callback.commit, ⟨none, some (.ofNat ms), none, none⟩⟩

/-- A call that asks for five seconds gets them. -/
theorem consistent_five_seconds : Consistent patientSource (commitWithin 5000) := by
  refine (consistent_iff (commitWithin 5000) fun ms hms => ⟨5000, (Option.some.inj hms).symm⟩).mpr fun h => ?_
  exact absurd (ofNat_inj (Option.some.inj h.1)) (by decide)

/-- **A call that asks for no timeout** gets none on a new connection, and half a minute on one that
another call has given back. -/
theorem stale_timeout :
    Residue patientSource (.ofNat 30000) ∧ InForce patientSource (commitWithin 0) (.ofNat 0) (.ofNat 0) ∧
      InForce patientSource (commitWithin 0) (.ofNat 30000) (.ofNat 30000) ∧
      ¬ Consistent patientSource (commitWithin 0) := by
  have hresolve : resolveContextUser patientSource (commitWithin 0).options = .ok none := rfl
  have hin (residue : Number) : InForce patientSource (commitWithin 0) residue residue := by
    obtain ⟨ms, hms⟩ := InForce.of_resolved hresolve residue
    have hzero : (callTimeout patientSource (commitWithin 0).options).isPositive = false := isPositive_ofNat 0
    have heq := hms.eq
    rw [hzero, if_neg nofun] at heq
    exact heq ▸ hms
  have hleft : Residue patientSource (.ofNat 30000) := .of_resolved hresolve
  refine ⟨hleft, hin _, hin _, fun hc => ?_⟩
  exact absurd (ofNat_inj (hc.agree _ _ _ _ hleft .fresh (hin _) (hin _))) (by decide)

end NestDdd.Database
