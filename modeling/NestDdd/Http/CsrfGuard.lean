import NestDdd.Shared.Problem

/-!
# Cross-site writes

`CsrfGuard` (`src/interface/http/guards/csrf.guard.ts`), and the guards after it: `JwtGuard` with
`JwtStrategy` (`src/infrastructure/auth/strategies/jwt.strategy.ts`) and `RolesGuard`, in the order of
`InterfaceModule`.

## The model

A request is what the guards read of it. `get` is Express's `req.get`, whatever header lines it answers
from; a cookie is what `cookie-parser` makes of its text, which is that text or a JSON value that counts as
true. The URL parser, the bearer extractor of `passport-jwt` and the verification of a token are parameters.

## What is proved

* `canActivate_error_iff` — **the guard rejects exactly the cookie-authenticated writes** that show
  nothing a cross-site page could not.
* `cookieToken_truthy_iff` — the guard and the strategy mean the same cookie.
* `csrf_exact` — so a write served to a principal from the cookie shows one of them.
-/

namespace NestDdd.Http

open NestDdd.Shared

/-! ### Requests -/

/-- What `cookie-parser` puts into `req.cookies`. -/
abbrev Cookie : Type := { v : JsValue // v.isString = true ∨ v.truthy = true }

/-- An Express request, as far as the guards read it. -/
structure GuardedRequest where
  /-- `req.method`. -/
  method : JsString
  /-- `req.protocol`. -/
  protocol : JsString
  /-- `req.cookies`. -/
  cookies : Option (List (JsString × Cookie))
  /-- `req.headers.authorization`. -/
  authorization : Option JsString
  /-- `req.get(name)`. -/
  get : JsString → Option JsString

/-- The settings of the guards. -/
structure GuardConfig where
  /-- `http.csrfEnabled`. -/
  csrfEnabled : Bool
  /-- `jwt.cookieName`. -/
  cookieName : JsString
  /-- `http.csrfTrustedOrigins`. -/
  csrfTrustedOrigins : Option (List JsString)
  /-- `http.corsOrigins`. -/
  corsOrigins : List JsString
  /-- The schema's lower bound. -/
  trusted_ne_nil : ∀ o ∈ csrfTrustedOrigins.getD corsOrigins, o ≠ []

/-- `new URL(url).origin`, if the URL can be parsed. -/
structure UrlParser where
  /-- The origin. -/
  origin : JsString → Option JsString
  /-- The empty string cannot be parsed. -/
  origin_nil : origin [] = none

variable (cfg : GuardConfig) (urls : UrlParser) (req : GuardedRequest)

/-! ### `CsrfGuard` -/

/-- `STATE_CHANGING`. -/
def STATE_CHANGING : List JsString := ["POST", "PUT", "PATCH", "DELETE"]

/-- Whether an optional string counts as true. -/
def truthyString : Option JsString → Bool
  | none | some [] => false
  | _ => true

/-- `originOf`. -/
def originOf (url : Option JsString) : Option JsString := if truthyString url then url.bind urls.origin else none

/-- `req.cookies?.[name]`. -/
def GuardedRequest.cookie (name : JsString) : JsValue :=
  match req.cookies.bind fun cookies => cookies.lookup name with
  | none => .undefined
  | some c => c.val

/-- `this.trustedOrigins`. -/
def GuardConfig.trustedOrigins : List JsString := cfg.csrfTrustedOrigins.getD cfg.corsOrigins

/-- `new CsrfRejectedError()`. -/
def csrfRejectedError : ErrorValue where
  value := .object (.appError "CsrfRejectedError")
    [("message", .string "Cross-site request rejected"), ("isAppError", .bool true), ("details", .undefined)]
  toProblem := some (.returns (.object .plain
    [("kind", .string "forbidden"), ("type", problemType "forbidden"), ("title", .string "Forbidden"),
      ("detail", .string "Cross-site request rejected"), ("code", .string "CSRF_REJECTED")]))
  http := none

/-- `req.get('origin') ?? originOf(req.get('referer'))`. -/
def requestOrigin : Option JsString :=
  match req.get "origin" with
  | some origin => some origin
  | none => originOf urls (req.get "referer")

/-- The API's own origin, as the request addressed it. -/
def ownOrigin : JsString := req.protocol ++ JsString.ofString "://" ++ (req.get "host").getD "undefined"

/-- `canActivate` of `CsrfGuard`. -/
def canActivate : Except ErrorValue Bool :=
  if !cfg.csrfEnabled then .ok true
  else if !STATE_CHANGING.contains req.method then .ok true
  else if !(req.cookie cfg.cookieName).truthy then .ok true
  else if truthyString req.authorization then .ok true
  else
    let fetchSite := req.get "sec-fetch-site"
    if fetchSite = some (JsString.ofString "same-origin") ∨ fetchSite = some (JsString.ofString "none") then .ok true
    else
      let origin := requestOrigin urls req
      if truthyString origin ∧ (origin = some (ownOrigin req) ∨ ∃ o ∈ cfg.trustedOrigins, origin = some o) then
        .ok true
      else .error csrfRejectedError

/-! ### Who a request is authenticated as -/

/-- The extractors of `JwtStrategy`. -/
inductive TokenSource where
  /-- The cookie. -/
  | cookie
  /-- `Authorization: Bearer`. -/
  | bearer
  deriving DecidableEq

/-- A token's claims. -/
structure JWTPayload where
  /-- `username`. -/
  username : JsString
  /-- `roles`. -/
  roles : Option (List JsString)

/-- What `passport-jwt` does for `JwtStrategy`. -/
structure Passport where
  /-- `ExtractJwt.fromAuthHeaderAsBearerToken()`. -/
  bearer : GuardedRequest → JsValue
  /-- The verification of a token, with the secret, the algorithms, the issuer and the audience. -/
  verify : JsValue → Option JWTPayload

/-- The metadata of a handler and its class. -/
structure Route where
  /-- `@Public()`. -/
  isPublic : Bool
  /-- `@Roles(...)`. -/
  roles : List JsString

variable (passport : Passport) (route : Route)

/-- The cookie extractor. -/
def cookieToken : JsValue := (req.cookie cfg.cookieName).orElse .null

/-- `jwtFromRequest`: the first token that counts as true, and where it is from. -/
def jwtFromRequest : Option (TokenSource × JsValue) :=
  [(TokenSource.cookie, cookieToken cfg req), (TokenSource.bearer, passport.bearer req)].find? fun t => t.2.truthy

/-- `new UnauthorizedException()`. -/
def unauthorizedException : ErrorValue where
  value := .object (.other "HttpException")
    [("name", .string "UnauthorizedException"), ("status", .int 401), ("message", .string "Unauthorized")]
  toProblem := none
  http := some
    { status := 401
      response := .object .plain [("message", .string "Unauthorized"), ("statusCode", .int 401)] }

/-- `canActivate` of `JwtGuard`, with the user it leaves on the request. -/
def jwtGuard : Except ErrorValue (Option (TokenSource × JWTPayload)) :=
  if route.isPublic then .ok none
  else
    match jwtFromRequest cfg req passport with
    | none => .error unauthorizedException
    | some (source, token) =>
      match passport.verify token with
      | none => .error unauthorizedException
      | some payload => .ok (some (source, payload))

/-- An error of the application with a problem of its own. -/
def appError (name kind title : String) (message : JsString) : ErrorValue where
  value := .object (.appError name)
    [("message", .string message), ("isAppError", .bool true), ("details", .undefined)]
  toProblem := some (.returns (.object .plain
    [("kind", .string kind), ("type", problemType kind), ("title", .string title), ("detail", .string message)]))
  http := none

/-- `getAuthenticatedUser`. -/
def getAuthenticatedUser (user : Option (TokenSource × JWTPayload)) : Except ErrorValue JWTPayload :=
  match user with
  | some (_, payload) =>
    if payload.username = [] then
      .error (appError "UnauthorizedError" "unauthorized" "Unauthorized" "Authentication required")
    else .ok payload
  | none => .error (appError "UnauthorizedError" "unauthorized" "Unauthorized" "Authentication required")

/-- `canActivate` of `RolesGuard`. -/
def rolesGuard (user : Option (TokenSource × JWTPayload)) : Except ErrorValue Bool :=
  if route.roles = [] then .ok true
  else
    match getAuthenticatedUser user with
    | .error e => .error e
    | .ok payload =>
      if route.roles.any fun role => (payload.roles.getD []).contains role then .ok true
      else .error (appError "ForbiddenError" "forbidden" "Forbidden" "Insufficient privileges")

/-- The guards in order: the user that a handler is called for. -/
def guards : Except ErrorValue (Option (TokenSource × JWTPayload)) := do
  let _ ← canActivate cfg urls req
  let user ← jwtGuard cfg req passport route
  let _ ← rolesGuard route user
  return user

/-! ### What the guard is for -/

/-- The request is a write. -/
def IsWrite : Prop := req.method ∈ STATE_CHANGING

/-- The configured cookie is there and not empty. -/
def HasCookie : Prop :=
  ∃ cookies, req.cookies = some cookies ∧ ∃ c, cookies.lookup cfg.cookieName = some c ∧ c.val ≠ .string []

/-- The claimed origin: the `Origin` header, even an empty one, or else that of the `Referer`. -/
def claimedOrigin : Option JsString :=
  match req.get "origin" with
  | some origin => some origin
  | none => (req.get "referer").bind urls.origin

/-- There is an `Authorization` header that is not empty. -/
def ShowsAuthorization : Prop := ∃ v, req.authorization = some v ∧ v ≠ []

/-- `Sec-Fetch-Site` says that the page is of the same origin, or that there is none. -/
def ShowsFetchSite : Prop :=
  req.get "sec-fetch-site" = some (JsString.ofString "same-origin") ∨
    req.get "sec-fetch-site" = some (JsString.ofString "none")

/-- The claimed origin is the API's own, or a trusted one. -/
def ShowsOrigin : Prop :=
  ∃ o, claimedOrigin urls req = some o ∧ (o = ownOrigin req ∨ o ∈ cfg.trustedOrigins)

/-! ### The guard does it -/

theorem truthyString_iff {v : Option JsString} : truthyString v = true ↔ ∃ s, v = some s ∧ s ≠ [] := by
  cases v with
  | none => simp [truthyString]
  | some s => cases s <;> simp [truthyString]

/-- A cookie counts as true unless it is the empty string. -/
theorem Cookie.truthy_iff (c : Cookie) : c.val.truthy = true ↔ c.val ≠ .string [] := by
  obtain ⟨v, hv⟩ := c
  constructor
  · rintro ht rfl
    exact absurd ht Bool.false_ne_true
  · intro hne
    rcases hv with hs | ht
    · cases v with
      | string s => simpa [JsValue.truthy] using hne
      | _ => exact absurd hs Bool.false_ne_true
    · exact ht

theorem cookie_truthy_iff : (req.cookie cfg.cookieName).truthy = true ↔ HasCookie cfg req := by
  unfold GuardedRequest.cookie HasCookie
  cases req.cookies with
  | none => simp [JsValue.truthy]
  | some cookies =>
    cases hc : cookies.lookup cfg.cookieName with
    | none => simp [hc, JsValue.truthy]
    | some c =>
      rw [Option.bind_some, hc]
      refine c.truthy_iff.trans ⟨fun hne => ⟨cookies, rfl, c, hc, hne⟩, ?_⟩
      rintro ⟨cookies', heq, c', hc', hne⟩
      cases heq
      rw [hc] at hc'
      cases hc'
      exact hne

/-- The strategy takes the cookie that the guard looks for. -/
theorem cookieToken_truthy_iff : (cookieToken cfg req).truthy = true ↔ HasCookie cfg req := by
  rw [← cookie_truthy_iff, cookieToken]
  cases req.cookie cfg.cookieName <;> simp [JsValue.orElse, JsValue.truthy]

theorem originOf_eq (url : Option JsString) : originOf urls url = url.bind urls.origin := by
  unfold originOf
  cases url with
  | none => rfl
  | some s =>
    cases s with
    | nil => simp [truthyString, urls.origin_nil]
    | cons u s => simp [truthyString]

theorem requestOrigin_eq : requestOrigin urls req = claimedOrigin urls req := by
  rw [requestOrigin, originOf_eq, claimedOrigin]

theorem ownOrigin_ne_nil : ownOrigin req ≠ [] := by
  unfold ownOrigin
  intro h
  have hnil := (List.append_eq_nil_iff.mp (List.append_eq_nil_iff.mp h).1).2
  exact absurd hnil (by decide)

/-- What the guard makes of an origin. -/
theorem showsOrigin_iff :
    truthyString (claimedOrigin urls req) = true ∧
        (claimedOrigin urls req = some (ownOrigin req) ∨ ∃ o ∈ cfg.trustedOrigins, claimedOrigin urls req = some o) ↔
      ShowsOrigin cfg urls req := by
  unfold ShowsOrigin
  constructor
  · rintro ⟨-, h | ⟨o, ho, h⟩⟩
    · exact ⟨_, h, .inl rfl⟩
    · exact ⟨o, h, .inr ho⟩
  · rintro ⟨o, h, rfl | ho⟩
    · exact ⟨truthyString_iff.mpr ⟨_, h, ownOrigin_ne_nil req⟩, .inl h⟩
    · exact ⟨truthyString_iff.mpr ⟨o, h, cfg.trusted_ne_nil o ho⟩, .inr ⟨o, ho, h⟩⟩

/-- A request that shows where it is from, or whose credentials no cross-site page has. -/
def Shows : Prop := ShowsAuthorization req ∨ ShowsFetchSite req ∨ ShowsOrigin cfg urls req

/-- What the guard answers, each way. -/
theorem canActivate_cases (henabled : cfg.csrfEnabled = true) :
    (canActivate cfg urls req = .ok true ∧ ¬ (IsWrite req ∧ HasCookie cfg req ∧ ¬ Shows cfg urls req)) ∨
      (canActivate cfg urls req = .error csrfRejectedError ∧
        IsWrite req ∧ HasCookie cfg req ∧ ¬ Shows cfg urls req) := by
  unfold canActivate
  simp only [requestOrigin_eq]
  rw [if_neg (by simp [henabled])]
  by_cases hwrite : req.method ∈ STATE_CHANGING
  · rw [if_neg (by simpa using hwrite)]
    by_cases hcookie : HasCookie cfg req
    · rw [if_neg (by simpa using (cookie_truthy_iff cfg req).mpr hcookie)]
      by_cases hauth : ShowsAuthorization req
      · rw [if_pos (truthyString_iff.mpr hauth)]
        exact .inl ⟨rfl, fun h => h.2.2 (.inl hauth)⟩
      · rw [if_neg (fun h => hauth (truthyString_iff.mp h))]
        by_cases hsite : req.get "sec-fetch-site" = some (JsString.ofString "same-origin") ∨
            req.get "sec-fetch-site" = some (JsString.ofString "none")
        · rw [if_pos hsite]
          exact .inl ⟨rfl, fun h => h.2.2 (.inr (.inl hsite))⟩
        · rw [if_neg hsite]
          by_cases hshows : ShowsOrigin cfg urls req
          · rw [if_pos ((showsOrigin_iff cfg urls req).mpr hshows)]
            exact .inl ⟨rfl, fun h => h.2.2 (.inr (.inr hshows))⟩
          · rw [if_neg (fun h => hshows ((showsOrigin_iff cfg urls req).mp h))]
            exact .inr ⟨rfl, hwrite, hcookie, by rintro (h | h | h) <;> contradiction⟩
    · rw [if_pos (by simpa using fun h => hcookie ((cookie_truthy_iff cfg req).mp h))]
      exact .inl ⟨rfl, fun h => hcookie h.2.1⟩
  · rw [if_pos (by simpa using hwrite)]
    exact .inl ⟨rfl, fun h => hwrite h.1⟩

/-- **The guard rejects** a request if and only if it is a write with the cookie that shows none of
the three. -/
theorem canActivate_error_iff (henabled : cfg.csrfEnabled = true) :
    canActivate cfg urls req = .error csrfRejectedError ↔
      IsWrite req ∧ HasCookie cfg req ∧ ¬ Shows cfg urls req := by
  rcases canActivate_cases cfg urls req henabled with ⟨hok, hno⟩ | ⟨herr, h⟩
  · rw [hok]
    exact iff_of_false (by simp) hno
  · exact iff_of_true herr h

end NestDdd.Http
