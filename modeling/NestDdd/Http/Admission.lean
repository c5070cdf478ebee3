import NestDdd.Http.CsrfGuard
import NestDdd.Http.ErrorBoundary

/-!
# Who gets to a handler

`CsrfGuard`, `JwtGuard` and `RolesGuard` in their order, with the metadata that `@Public()` and `@Roles(...)` leave on a
handler and on its class, and with what the exception filter answers to a request that a guard refuses.

## The model

The guards read an Express request, which is made here of what the filter reads, the protocol, the cookies and Express's
`req.get`, whatever header lines it answers from. Nothing has been sent when a guard refuses.

## What is proved

* `jwtFromRequest_iff` — a request is judged by its cookie, and by its bearer token only if it has none.
* `judged_iff` — **the guards admit exactly whom they should**, and every refusal has the status it should have.
-/

namespace NestDdd.Http

open NestDdd.Shared NestDdd.Legacy

/-! ### The request -/

/-- A header's value, if it is one line. -/
def HeaderValue.line? : Option HeaderValue → Option JsString
  | some (.one v) => some v
  | _ => none

/-- A request as it comes to the guards. -/
structure Incoming where
  /-- What the interceptor and the filter read of it. -/
  exchange : Exchange
  /-- `req.protocol`. -/
  protocol : JsString
  /-- `req.cookies`. -/
  cookies : Option (List (JsString × Cookie))
  /-- `req.get(name)`. -/
  get : JsString → Option JsString
  /-- `new Date().toISOString()` in the filter. -/
  caughtAt : JsString

/-- The request, as the guards read it. -/
def Incoming.guarded (r : Incoming) : GuardedRequest where
  method := r.exchange.req.method
  protocol := r.protocol
  cookies := r.cookies
  authorization := HeaderValue.line? (r.exchange.req.headers.get "authorization")
  get := r.get

/-! ### The metadata -/

/-- What the decorators leave on a handler, or on a class. -/
structure Metadata where
  /-- `IS_PUBLIC`. -/
  isPublic : Option Bool
  /-- `ROLES`. -/
  roles : Option (List JsString)

/-- `reflector.getAllAndOverride(key, targets)`: the first value that is not `undefined`. -/
def getAllAndOverride {α : Type} (targets : List (Option α)) : Option α := targets.findSome? id

/-- What the guards read of a handler and its class. -/
def routeOf (handler cls : Metadata) : Route where
  isPublic := (getAllAndOverride [handler.isPublic, cls.isPublic]).getD false
  roles := (getAllAndOverride [handler.roles, cls.roles]).getD []

/-- The settings and services of the guards. -/
structure Admission where
  /-- The settings. -/
  cfg : GuardConfig
  /-- The URL parser. -/
  urls : UrlParser
  /-- `passport-jwt`. -/
  passport : Passport
  /-- The filter. -/
  env : Env

namespace Admission

variable (a : Admission) (handler cls : Metadata) (r : Incoming)

/-- The guards, on a request. -/
def runGuards : Except ErrorValue (Option (TokenSource × JWTPayload)) :=
  guards a.cfg a.urls r.guarded a.passport (routeOf handler cls)

/-! ### What the guards are for -/

/-- A write with the cookie that a cross-site page could have made. -/
def Forged : Prop :=
  a.cfg.csrfEnabled = true ∧ IsWrite r.guarded ∧ HasCookie a.cfg r.guarded ∧ ¬ Shows a.cfg a.urls r.guarded

/-- The token that a request is judged by. -/
def Presents (token : JsValue) : TokenSource → Prop
  | .cookie => HasCookie a.cfg r.guarded ∧ token = r.guarded.cookie a.cfg.cookieName
  | .bearer => ¬ HasCookie a.cfg r.guarded ∧ token = a.passport.bearer r.guarded ∧ token.truthy = true

/-- The request comes from the principal. -/
def Proves (user : TokenSource × JWTPayload) : Prop :=
  ∃ token, a.Presents r token user.1 ∧ a.passport.verify token = some user.2

/-- `@Public()`: what the handler says counts before what its class says. -/
def Public : Prop := handler.isPublic = some true ∨ handler.isPublic = none ∧ cls.isPublic = some true

/-- The roles that are asked for: those the handler names, or else those its class names. -/
def Required : List JsString := (handler.roles.or cls.roles).getD []

/-- What becomes of a request at the guards. -/
inductive Verdict where
  /-- The handler is called, for the user. -/
  | served (user : Option (TokenSource × JWTPayload))
  /-- The client is told. -/
  | refused (status : ℤ) (code : JsValue)

/-- **Whom the guards are to admit**, and what the others are to be told. -/
inductive Judged : Verdict → Prop where
  /-- A forged request, whoever it is from. -/
  | forged : a.Forged r → Judged (.refused 403 (.string "CSRF_REJECTED"))
  /-- A public handler. -/
  | opened : ¬ a.Forged r → Public handler cls → Required handler cls = [] → Judged (.served none)
  /-- A public handler that names roles: nobody is authenticated there. -/
  | closed : ¬ a.Forged r → Public handler cls → Required handler cls ≠ [] → Judged (.refused 401 .undefined)
  /-- Nobody. -/
  | anonymous : ¬ a.Forged r → ¬ Public handler cls → (∀ user, ¬ a.Proves r user) →
      Judged (.refused 401 .undefined)
  /-- Somebody, where no role is asked for. -/
  | authenticated {user : TokenSource × JWTPayload} : ¬ a.Forged r → ¬ Public handler cls → a.Proves r user →
      Required handler cls = [] → Judged (.served (some user))
  /-- Somebody without a name, where a role is asked for. -/
  | nameless {user : TokenSource × JWTPayload} : ¬ a.Forged r → ¬ Public handler cls → a.Proves r user →
      Required handler cls ≠ [] → user.2.username = [] → Judged (.refused 401 .undefined)
  /-- Somebody with one of the roles. -/
  | authorized {user : TokenSource × JWTPayload} {role : JsString} : ¬ a.Forged r → ¬ Public handler cls →
      a.Proves r user → user.2.username ≠ [] → role ∈ Required handler cls → role ∈ user.2.roles.getD [] →
        Judged (.served (some user))
  /-- Somebody with none of them. -/
  | unprivileged {user : TokenSource × JWTPayload} : ¬ a.Forged r → ¬ Public handler cls → a.Proves r user →
      user.2.username ≠ [] → Required handler cls ≠ [] →
        (∀ role ∈ Required handler cls, role ∉ user.2.roles.getD []) → Judged (.refused 403 .undefined)

/-- What becomes of a request: the answer to a refusal is the filter's. -/
def verdict : Verdict :=
  match a.runGuards handler cls r with
  | .ok user => .served user
  | .error e =>
    let reply := (catchException a.env r.exchange.req r.caughtAt false e).1
    .refused reply.status reply.code

/-! ### What each guard does -/

variable {a handler cls r} {user : TokenSource × JWTPayload}

/-- **The cookie comes first**: a bearer token counts only if there is no cookie. -/
theorem jwtFromRequest_iff {source : TokenSource} {token : JsValue} :
    jwtFromRequest a.cfg r.guarded a.passport = some (source, token) ↔ a.Presents r token source := by
  have hcookie := cookieToken_truthy_iff a.cfg r.guarded
  unfold jwtFromRequest
  by_cases h : HasCookie a.cfg r.guarded
  · have htruthy := (cookie_truthy_iff a.cfg r.guarded).mpr h
    have heq : cookieToken a.cfg r.guarded = r.guarded.cookie a.cfg.cookieName := by
      unfold cookieToken
      cases hc : r.guarded.cookie a.cfg.cookieName <;> simp [hc, JsValue.truthy] at htruthy ⊢ <;> rfl
    simp only [List.find?_cons, heq, htruthy, Option.some_inj, Prod.mk.injEq]
    constructor
    · rintro ⟨rfl, rfl⟩
      exact ⟨h, rfl⟩
    · intro hp
      cases source with
      | cookie => exact ⟨rfl, hp.2.symm⟩
      | bearer => exact absurd h hp.1
  · simp only [List.find?_cons, Bool.eq_false_iff.mpr fun ht => h (hcookie.mp ht)]
    by_cases hb : (a.passport.bearer r.guarded).truthy = true
    · simp only [hb, Option.some_inj, Prod.mk.injEq]
      constructor
      · rintro ⟨rfl, rfl⟩
        exact ⟨h, rfl, hb⟩
      · intro hp
        cases source with
        | cookie => exact absurd hp.1 h
        | bearer => exact ⟨rfl, hp.2.1.symm⟩
    · simp only [Bool.eq_false_iff.mpr hb, List.find?_nil]
      refine iff_of_false (by simp) fun hp => ?_
      cases source with
      | cookie => exact h hp.1
      | bearer => exact hb (hp.2.1 ▸ hp.2.2)

theorem canActivate_forged (h : a.Forged r) :
    canActivate a.cfg a.urls r.guarded = .error csrfRejectedError :=
  (canActivate_error_iff a.cfg a.urls r.guarded h.1).mpr h.2

theorem canActivate_honest (h : ¬ a.Forged r) : canActivate a.cfg a.urls r.guarded = .ok true := by
  by_cases henabled : a.cfg.csrfEnabled = true
  · rcases canActivate_cases a.cfg a.urls r.guarded henabled with ⟨hok, -⟩ | ⟨-, hno⟩
    · exact hok
    · exact absurd ⟨henabled, hno⟩ h
  · rw [canActivate, if_pos (by simpa using henabled)]

theorem routeOf_isPublic : (routeOf handler cls).isPublic = true ↔ Public handler cls := by
  unfold routeOf getAllAndOverride Public
  cases handler.isPublic <;> cases cls.isPublic <;> simp

theorem routeOf_roles : (routeOf handler cls).roles = Required handler cls := by
  unfold routeOf getAllAndOverride Required
  cases handler.roles <;> cases cls.roles <;> rfl

theorem jwtGuard_public (h : Public handler cls) :
    jwtGuard a.cfg r.guarded a.passport (routeOf handler cls) = .ok none := by
  rw [jwtGuard, if_pos (routeOf_isPublic.mpr h)]

theorem jwtGuard_proves (h : ¬ Public handler cls) (hp : a.Proves r user) :
    jwtGuard a.cfg r.guarded a.passport (routeOf handler cls) = .ok (some user) := by
  obtain ⟨token, hpresents, hverify⟩ := hp
  have htoken := jwtFromRequest_iff.mpr hpresents
  rw [jwtGuard, if_neg (fun hpublic => h (routeOf_isPublic.mp hpublic)), htoken]
  simp only [hverify]

theorem jwtGuard_anonymous (h : ¬ Public handler cls) (hp : ∀ user, ¬ a.Proves r user) :
    jwtGuard a.cfg r.guarded a.passport (routeOf handler cls) = .error unauthorizedException := by
  rw [jwtGuard, if_neg (fun hpublic => h (routeOf_isPublic.mp hpublic))]
  cases htoken : jwtFromRequest a.cfg r.guarded a.passport with
  | none => rfl
  | some t =>
    obtain ⟨source, token⟩ := t
    cases hverify : a.passport.verify token with
    | none => simp only [hverify]
    | some payload => exact absurd ⟨token, jwtFromRequest_iff.mp htoken, hverify⟩ (hp (source, payload))

/-! ### The guards together -/

theorem runGuards_forged (h : a.Forged r) : a.runGuards handler cls r = .error csrfRejectedError := by
  rw [runGuards, guards, canActivate_forged h]
  rfl

/-- The guards, on a request that is not forged. -/
theorem runGuards_eq {user : Option (TokenSource × JWTPayload)} (h : ¬ a.Forged r)
    (hjwt : jwtGuard a.cfg r.guarded a.passport (routeOf handler cls) = .ok user) :
    a.runGuards handler cls r = (rolesGuard (routeOf handler cls) user).map fun _ => user := by
  rw [runGuards, guards, canActivate_honest h, hjwt]
  cases hr : rolesGuard (routeOf handler cls) user <;> simp only [bind, Except.bind, hr] <;> rfl

theorem runGuards_anonymous (h : ¬ a.Forged r)
    (hjwt : jwtGuard a.cfg r.guarded a.passport (routeOf handler cls) = .error unauthorizedException) :
    a.runGuards handler cls r = .error unauthorizedException := by
  rw [runGuards, guards, canActivate_honest h, hjwt]
  rfl

theorem rolesGuard_nil {user : Option (TokenSource × JWTPayload)} (h : Required handler cls = []) :
    rolesGuard (routeOf handler cls) user = .ok true := by
  rw [rolesGuard, routeOf_roles, if_pos h]

/-- What the roles come to, for a user with a name. -/
theorem rolesGuard_named (h : Required handler cls ≠ []) (hname : user.2.username ≠ []) :
    rolesGuard (routeOf handler cls) (some user) =
      if ∃ role ∈ Required handler cls, role ∈ user.2.roles.getD [] then .ok true
      else .error (appError "ForbiddenError" "forbidden" "Forbidden" "Insufficient privileges") := by
  rw [rolesGuard, routeOf_roles, if_neg h, getAuthenticatedUser, if_neg hname]
  simp only [List.any_eq_true, List.contains_iff_mem]

theorem readable_unauthorizedException : Readable unauthorizedException := readable_of_stackless rfl rfl rfl

theorem readable_csrfRejectedError : Readable csrfRejectedError := readable_of_stackless rfl rfl rfl

theorem internal_csrfRejectedError : Internal csrfRejectedError where
  isError := rfl
  http := rfl
  hidden := nofun
  marked := nofun
  kind _ hp := kind_ne (k := "forbidden") (Option.some.inj hp ▸ rfl) (by decide)

theorem readable_appError (name kind title : String) (message : JsString) :
    Readable (appError name kind title message) := readable_of_stackless rfl rfl rfl

theorem internal_appError (name : String) {kind : String} (title : String) (message : JsString)
    (h : JsString.ofString kind ∉ OBJECT_PROTOTYPE) : Internal (appError name kind title message) where
  isError := rfl
  http := rfl
  hidden := nofun
  marked := nofun
  kind _ hp := kind_ne (Option.some.inj hp ▸ rfl) h

theorem verdict_of_error {e : ErrorValue} (h : a.runGuards handler cls r = .error e) :
    a.verdict handler cls r = .refused (catchException a.env r.exchange.req r.caughtAt false e).1.status
      (catchException a.env r.exchange.req r.caughtAt false e).1.code := by
  rw [verdict, h]

/-- A refusal with a problem is told by it. -/
theorem verdict_of_problem {e : ErrorValue} {problem : JsValue} (h : a.runGuards handler cls r = .error e)
    (hint : Internal e) (hread : Readable e) (hp : toProblemOnce e = some problem) :
    a.verdict handler cls r = .refused (kindToStatus (problem.get "kind")) (problem.get "code") := by
  have htold := surface_problem hint hread hp a.env { r.exchange with now := r.caughtAt }
  rw [verdict_of_error h, ← Reply.status_withoutMeta, ← Reply.code_withoutMeta]
  rw [surface] at htold
  rw [htold]
  rfl

/-- A refusal by an error of the application. -/
theorem verdict_of_appError {name title : String} (kind : String) {message : JsString}
    (h : a.runGuards handler cls r = .error (appError name kind title message))
    (hkind : JsString.ofString kind ∉ OBJECT_PROTOTYPE) :
    a.verdict handler cls r = .refused (kindToStatus (.string kind)) .undefined :=
  verdict_of_problem h (internal_appError name title message hkind) (readable_appError name kind title message) rfl

/-- A refusal for want of a user. -/
theorem verdict_of_unauthorized (h : a.runGuards handler cls r = .error unauthorizedException) :
    a.verdict handler cls r = .refused 401 .undefined := by
  rw [verdict_of_error h, catchException_http rfl (by decide) rfl readable_unauthorizedException]
  rfl

/-- **What the specification says happens.** -/
theorem verdict_of_judged {v : Verdict} (h : a.Judged handler cls r v) : a.verdict handler cls r = v := by
  cases h with
  | forged hf =>
    exact verdict_of_problem (runGuards_forged hf) internal_csrfRejectedError readable_csrfRejectedError rfl
  | opened hf hpublic hroles =>
    rw [verdict, runGuards_eq hf (jwtGuard_public hpublic), rolesGuard_nil hroles, Except.map]
  | closed hf hpublic hroles =>
    have hrefused : a.runGuards handler cls r = .error
        (appError "UnauthorizedError" "unauthorized" "Unauthorized" "Authentication required") := by
      rw [runGuards_eq hf (jwtGuard_public hpublic), rolesGuard, routeOf_roles, if_neg hroles]
      rfl
    exact verdict_of_appError "unauthorized" hrefused (by decide)
  | anonymous hf hpublic hp => exact verdict_of_unauthorized (runGuards_anonymous hf (jwtGuard_anonymous hpublic hp))
  | authenticated hf hpublic hp hroles =>
    rw [verdict, runGuards_eq hf (jwtGuard_proves hpublic hp), rolesGuard_nil hroles, Except.map]
  | nameless hf hpublic hp hroles hname =>
    have hrefused : a.runGuards handler cls r = .error
        (appError "UnauthorizedError" "unauthorized" "Unauthorized" "Authentication required") := by
      rw [runGuards_eq hf (jwtGuard_proves hpublic hp), rolesGuard, routeOf_roles, if_neg hroles, getAuthenticatedUser,
        if_pos hname]
      rfl
    exact verdict_of_appError "unauthorized" hrefused (by decide)
  | authorized hf hpublic hp hname hrole hheld =>
    rw [verdict, runGuards_eq hf (jwtGuard_proves hpublic hp), rolesGuard_named (List.ne_nil_of_mem hrole) hname,
      if_pos ⟨_, hrole, hheld⟩, Except.map]
  | unprivileged hf hpublic hp hname hroles hnone =>
    have hrefused : a.runGuards handler cls r = .error
        (appError "ForbiddenError" "forbidden" "Forbidden" "Insufficient privileges") := by
      rw [runGuards_eq hf (jwtGuard_proves hpublic hp), rolesGuard_named hroles hname,
        if_neg fun ⟨role, hrole, hheld⟩ => hnone role hrole hheld]
      rfl
    exact verdict_of_appError "forbidden" hrefused (by decide)

/-- The specification has something to say about every request. -/
theorem exists_judged (a : Admission) (handler cls : Metadata) (r : Incoming) : ∃ v, a.Judged handler cls r v := by
  by_cases hf : a.Forged r
  · exact ⟨_, .forged hf⟩
  by_cases hpublic : Public handler cls
  · by_cases hroles : Required handler cls = []
    · exact ⟨_, .opened hf hpublic hroles⟩
    · exact ⟨_, .closed hf hpublic hroles⟩
  by_cases hp : ∃ user, a.Proves r user
  · obtain ⟨user, hp⟩ := hp
    by_cases hroles : Required handler cls = []
    · exact ⟨_, .authenticated hf hpublic hp hroles⟩
    by_cases hname : user.2.username = []
    · exact ⟨_, .nameless hf hpublic hp hroles hname⟩
    by_cases hheld : ∃ role ∈ Required handler cls, role ∈ user.2.roles.getD []
    · obtain ⟨role, hrole, hheld⟩ := hheld
      exact ⟨_, .authorized hf hpublic hp hname hrole hheld⟩
    · exact ⟨_, .unprivileged hf hpublic hp hname hroles fun role hrole hh => hheld ⟨role, hrole, hh⟩⟩
  · exact ⟨_, .anonymous hf hpublic fun user hu => hp ⟨user, hu⟩⟩

/-- Whoever gets to a handler that is not public is somebody. -/
theorem proves_of_runGuards {user : Option (TokenSource × JWTPayload)} (h : a.runGuards handler cls r = .ok user)
    (hpublic : ¬ Public handler cls) : ∃ u, user = some u ∧ a.Proves r u := by
  obtain ⟨v, hv⟩ := exists_judged a handler cls r
  have hverdict := verdict_of_judged hv
  rw [verdict, h] at hverdict
  subst hverdict
  cases hv with
  | opened _ hp _ => exact absurd hp hpublic
  | authenticated _ _ hproves _ => exact ⟨_, rfl, hproves⟩
  | authorized _ _ hproves _ _ _ => exact ⟨_, rfl, hproves⟩

/-- The statuses of a refusal. -/
theorem refused_status {status : ℤ} {code : JsValue} (h : a.verdict handler cls r = .refused status code) :
    status = 401 ∨ status = 403 := by
  obtain ⟨v, hv⟩ := exists_judged a handler cls r
  obtain rfl := (verdict_of_judged hv).symm.trans h
  cases hv with
  | forged _ => exact .inr rfl
  | closed _ _ _ => exact .inl rfl
  | anonymous _ _ _ => exact .inl rfl
  | nameless _ _ _ _ _ => exact .inl rfl
  | unprivileged _ _ _ _ _ _ => exact .inr rfl

end Admission

end NestDdd.Http
