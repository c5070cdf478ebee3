import NestDdd.Database.Dispatch
import NestDdd.Http.Admission

/-!
# A request, from its guards to the database and back

`GET /database-info` (`src/interface/http/controllers/database-info.controller.ts`): the username of the token goes
through `GetDatabaseInfoUseCase` and `DatabaseInfoQueryDao` to the pool manager, becomes the `CLIENT_IDENTIFIER` of a
connection that other requests have had before, and is what the client is shown of it.

## The model

A request is a program: what the guards refuse is answered at once, and what they admit is answered when the call of the
pool manager has settled. Any number of requests share the pool of the source.

## What is proved

* `serve_meets` — one request: what it asks of the database, and what it is answered.
* `own_identity` — **every statement runs as the user whom the guards admitted**, and every answer shows that user.
* `failures_told` — **what a client is told of a failure** is one of a few texts, whatever the driver said.
-/

namespace NestDdd.Http

open NestDdd.Theory NestDdd.Shared NestDdd.Database NestDdd.Legacy

/-! ### The endpoint -/

/-- `DatabaseSources.main`. -/
def DatabaseSources.main : JsString := "main"

/-- The statement of `getInfo`. -/
def databaseInfoSql : JsString :=
  "\n            SELECT\n                SYS_CONTEXT('USERENV', 'DB_NAME') AS database_name,\n" ++
    JsString.ofString "                SYS_CONTEXT('USERENV', 'SESSION_USER') AS session_user,\n" ++
    JsString.ofString "                SYS_CONTEXT('USERENV', 'CLIENT_IDENTIFIER') AS client_identifier\n" ++
    JsString.ofString "            FROM DUAL\n        "

/-- `new TypeError(message)`. -/
def typeError (message : JsString) : JsValue :=
  .object .error [("name", .string "TypeError"), ("message", .string message)]

/-- What `getInfo` makes of what its statement answers. -/
def databaseInfo (result : JsValue) : Except JsValue JsValue :=
  match firstRow result with
  | .undefined => .error (typeError "Cannot read properties of undefined (reading 'DATABASE_NAME')")
  | .null => .error (typeError "Cannot read properties of null (reading 'DATABASE_NAME')")
  | row => .ok (.object .plain
    [("databaseName", row.get "DATABASE_NAME"), ("sessionUser", row.get "SESSION_USER"),
      ("clientIdentifier", row.get "CLIENT_IDENTIFIER")])

/-- The options of `getInfo`. -/
def getInfoOptions (actor : Option JsString) : ConnectionOptions := ⟨actor, none, some "databaseInfo.getInfo", none⟩

/-- The callback of `getInfo`; 4002 is `OUT_FORMAT_OBJECT`. -/
def getInfoCallback : Callback JsValue :=
  Callback.execute databaseInfoSql (.object .plain []) [("outFormat", .int 4002)] >>= fun result =>
    (Prog.done (databaseInfo result) : Callback JsValue)

/-- `getInfo` of `DatabaseInfoQueryDao`. -/
def getInfo (db : Clients) (actor : Option JsString) : ClientM JsValue :=
  db.withConnection DatabaseSources.main getInfoCallback (getInfoOptions actor)

/-- `execute` of `GetDatabaseInfoUseCase`. -/
def getDatabaseInfo (db : Clients) (username : Option JsString) : ClientM JsValue := do
  let info ← getInfo db username
  return Result.ok info

/-- `get` of `DatabaseInfoController`, with its `@CurrentUser()`. -/
def databaseInfoController (db : Clients) (user : Option (TokenSource × JWTPayload)) : ClientM JsValue :=
  match user with
  | none => throw (typeError "Cannot read properties of undefined (reading 'username')")
  | some user => getDatabaseInfo db (some user.2.username)

/-- The identifier that an answer shows. -/
def Reply.clientIdentifier : Reply → JsValue
  | .handed (.value v) => ((v.get "data").orElse (v.get "value")).get "clientIdentifier"
  | _ => .undefined

/-- The service. -/
structure Api where
  /-- The guards and the filter. -/
  admission : Admission
  /-- The clients of the pool manager. -/
  db : Clients

/-- Neither the handler nor its class has metadata. -/
def unmarked : Metadata := ⟨none, none⟩

namespace Api

variable (api : Api) (r : Incoming)

/-- **A request**: the guards, the interceptor, the handler, and the filter. -/
def serve : Prog Driver Reply :=
  match api.admission.runGuards unmarked unmarked r with
  | .error e => .done (catchException api.admission.env r.exchange.req r.caughtAt false e).1
  | .ok user => (databaseInfoController api.db user).bind fun outcome =>
      .done (respond api.admission.env r.exchange r.caughtAt
        (match outcome with
          | .ok v => .ok (.value v)
          | .error e => .error (thrown e)))

/-- The requests at the service, with `idle` new connections in the pool. -/
def received {ι : Type} (requests : ι → Incoming) (idle : ℕ) : Config Driver Session Reply ι :=
  ⟨List.replicate idle .fresh, fun i => api.serve (requests i), fun _ => none⟩

/-! ### What a request comes to -/

/-- The identifier of a user. -/
def identity (source : OracleSource) (user : TokenSource × JWTPayload) : JsString :=
  identityOf source (getInfoOptions (some user.2.username))

/-- The user the guards admitted, and the source of the statement. -/
def ActsAs (user : TokenSource × JWTPayload) (source : OracleSource) : Prop :=
  api.admission.Proves r user ∧ api.db.get? DatabaseSources.main = some (.oracle source)

/-- A rejection of `getInfo`. -/
inductive Failure : JsValue → Prop where
  /-- There is no such source. -/
  | unknown : api.db.get? DatabaseSources.main = none → Failure (unknownSourceKeyError DatabaseSources.main)
  /-- There is no client for its dialect. -/
  | unsupported {sourceKey : JsString} {dialect : Dialect} :
      api.db.get? DatabaseSources.main = some (.notImplemented sourceKey dialect) →
        Failure (unsupportedDialectError sourceKey dialect.name)
  /-- The client rejects. -/
  | rejected {source : OracleSource} {e : JsValue} : api.db.get? DatabaseSources.main = some (.oracle source) →
      Rejection source e → Failure e

/-- An answer that a request may get. -/
inductive Answer : Reply → Prop where
  /-- The guards refused it. -/
  | refused {e : ErrorValue} : api.admission.runGuards unmarked unmarked r = .error e →
      Answer (catchException api.admission.env r.exchange.req r.caughtAt false e).1
  /-- It is shown what the database said. -/
  | shown {user : TokenSource × JWTPayload} {source : OracleSource} {info : JsValue} : api.ActsAs r user source →
      info.isObject = true → info.get "clientIdentifier" = clientIdentifier (identity source user) →
        Answer (respond api.admission.env r.exchange r.caughtAt (.ok (.value (Result.ok info))))
  /-- It failed. -/
  | failed {user : TokenSource × JWTPayload} {e : JsValue} : api.admission.Proves r user → api.Failure e →
      Answer (respond api.admission.env r.exchange r.caughtAt (.error (thrown e)))

/-! ### One request -/

variable {api r}

theorem plain_typeError (message : JsString) : Plain (typeError message) := ⟨⟨_, rfl⟩, rfl, rfl, rfl⟩

/-- What is shown is the identifier in the row. -/
theorem databaseInfo_settles (result : JsValue) :
    Settles (fun info => info.isObject = true ∧
      info.get "clientIdentifier" = (firstRow result).get "CLIENT_IDENTIFIER") Plain (databaseInfo result) := by
  unfold databaseInfo
  split
  · exact plain_typeError _
  · exact plain_typeError _
  · exact ⟨rfl, rfl⟩

/-- The callback of `getInfo`, under the user of its call. -/
theorem getInfoCallback_settles {source : OracleSource} {user : JsString} {set : Bool} {h : Option Session}
    (tag : Option JsString) (hh : Holding user set h) :
    Obeys databaseInfoSql (fun s => s.identity = user)
      (fun r h' => Holding user set h' ∧
        Settles (fun info : JsValue => info.isObject = true ∧
          info.get "clientIdentifier" = clientIdentifier user) Plain r)
      (callFn source tag getInfoCallback) h := by
  have heq := interp_await (proxied source tag)
    (Callback.execute databaseInfoSql (.object .plain []) [("outFormat", .int 4002)])
    fun result => (Prog.done (databaseInfo result) : Callback JsValue)
  rw [callFn, getInfoCallback, heq]
  refine meets_await (meets_bind ((execute_settles tag _ _ hh).mono fun result h' hr => ?_))
  obtain ⟨hh', hsettles⟩ := hr
  cases result with
  | error e => exact ⟨hh', hsettles⟩
  | ok result =>
    refine meets_done ⟨hh', ?_⟩
    have hrow : (firstRow result).get "CLIENT_IDENTIFIER" = clientIdentifier user := hsettles
    rw [← hrow]
    exact databaseInfo_settles result

theorem getInfo_meets (user : TokenSource × JWTPayload) (hp : api.admission.Proves r user) :
    Obeys databaseInfoSql
      (fun seen => ∃ user source, api.ActsAs r user source ∧ seen.identity = identity source user)
      (fun result _ => Settles (fun info : JsValue => ∃ source, api.ActsAs r user source ∧ info.isObject = true ∧
        info.get "clientIdentifier" = clientIdentifier (identity source user)) api.Failure result)
      (getInfo api.db (some user.2.username)) none := by
  unfold getInfo Clients.withConnection
  cases hget : api.db.get? DatabaseSources.main with
  | none => exact meets_done (.unknown hget)
  | some client =>
    cases client with
    | notImplemented sourceKey dialect => exact meets_done (.unsupported hget)
    | oracle source =>
      have hcall : Obeys databaseInfoSql (fun seen => seen.identity = identity source user)
          (fun result _ => Settles (fun info : JsValue => info.isObject = true ∧
            info.get "clientIdentifier" = clientIdentifier (identity source user)) (Rejection source) result)
          (withConnection source getInfoCallback (getInfoOptions (some user.2.username))) none :=
        withConnection_settles fun set h hh => getInfoCallback_settles _ hh
      refine (hcall.mono fun result _ hr => ?_).observes fun seen hseen => ⟨user, source, ⟨hp, hget⟩, hseen⟩
      cases result with
      | ok info => exact ⟨source, ⟨hp, hget⟩, hr⟩
      | error e => exact .rejected hget hr

/-- **One request**: its statements run as the user that the guards admitted, and it is answered as it should be. -/
theorem serve_meets (api : Api) (r : Incoming) :
    Obeys databaseInfoSql
      (fun seen => ∃ user source, api.ActsAs r user source ∧ seen.identity = identity source user)
      (fun reply _ => api.Answer r reply) (api.serve r) none := by
  unfold serve
  cases hguards : api.admission.runGuards unmarked unmarked r with
  | error e => exact meets_done (.refused hguards)
  | ok admitted =>
    obtain ⟨user, rfl, hp⟩ := Admission.proves_of_runGuards hguards (by simp [Admission.Public, unmarked])
    refine meets_bind (meets_await ((getInfo_meets user hp).mono fun result _ hr => ?_))
    cases result with
    | ok info =>
      obtain ⟨source, hacts, hobject, hid⟩ := hr
      exact .shown hacts hobject hid
    | error e => exact .failed hp hr

/-! ### What is told of a failure -/

/-- The problems that a failure of `getInfo` is told as. -/
def problems : List JsValue :=
  match api.db.get? DatabaseSources.main with
  | none =>
    [problem "service_unavailable" "service-unavailable" "Unknown data source"
      (JsString.concat ["The data source key \"", DatabaseSources.main, "\" is not configured."])]
  | some (.notImplemented sourceKey dialect) =>
    [problem "not_implemented" "not-implemented" "Dialect not implemented"
      (JsString.concat ["Dialect \"", dialect.name, "\" for source \"", sourceKey, "\" is not supported yet."])]
  | some (.oracle source) =>
    [problem "unauthorized" "unauthorized" "Unauthorized"
      (JsString.concat ["Database source \"", source.key, "\" requires a context user"]),
      problem "service_unavailable" "service-unavailable" "Database unavailable"
        (JsString.concat ["Cannot obtain connection for source \"", source.key, "\". Try again later."]),
      problem "conflict" "conflict" "Conflict" "Duplicate value",
      problem "internal" "internal" "Database error" "A database error occurred.",
      problem "internal" "internal" "Internal Error" "Unexpected error"]

/-- What is shown of an answer. -/
theorem respond_shown {env : Env} {x : Exchange} {now : JsString} {info : JsValue} (h : info.isObject = true) :
    (respond env x now (.ok (.value (Result.ok info)))).status = 200 ∧
      (respond env x now (.ok (.value (Result.ok info)))).clientIdentifier = info.get "clientIdentifier" := by
  obtain ⟨cls, props, rfl⟩ : ∃ cls props, info = .object cls props := by
    cases info with
    | object cls props => exact ⟨cls, props, rfl⟩
    | _ => cases h
  by_cases hx : x.bypassed = true
  · simp only [respond, intercept, hx, if_true]
    exact ⟨rfl, rfl⟩
  · simp only [respond, intercept, hx]
    exact ⟨rfl, rfl⟩

/-- What is told of an error is the problem, or nothing where the filter cannot log it. -/
def ToldAs (e p : JsValue) : Prop :=
  ∀ env x now, (respond env x now (.error (thrown e))).withoutMeta = problemReply env p ∨
    ∃ v, respond env x now (.error (thrown e)) = .unanswered v

/-- What is told of an internal error, if it is `p` wherever the filter can log it. -/
theorem toldAs_of_readable {e p : JsValue} (h : Internal (thrown e)) (htold : Readable (thrown e) → ∀ env x now,
    (respond env x now (.error (thrown e))).withoutMeta = problemReply env p) : ToldAs e p := by
  intro env x now
  by_cases hread : Readable (thrown e)
  · exact .inl (htold hread env x now)
  · exact .inr (h.unanswered (fun hin => hread hin.2) env x.req now)

/-- An error of the application is told as its problem. -/
theorem toldAs_appError (kind : String) {cls type title : String} {message detail : JsString} {details : JsValue}
    {fields : List (String × JsValue)}
    (hp : toProblemOnce (thrown (Database.appError cls message details fields)) = some (problem kind type title detail))
    (hkind : JsString.ofString kind ∉ OBJECT_PROTOTYPE) (hexpose : fields.lookup "expose" = none) :
    ToldAs (Database.appError cls message details fields) (problem kind type title detail) := by
  have hint : Internal (thrown (Database.appError cls message details fields)) := {
    isError := rfl
    http := rfl
    hidden := fun status h => by
      have hget : (Database.appError cls message details fields).get "expose" = .undefined := by
        simp [Database.appError, JsValue.get, List.lookup_cons, hexpose]
      simp [thrown, hget, JsValue.isTrue] at h
    marked := fun _ => by rw [hp]; rfl
    kind := fun p hmem => kind_ne (Option.some.inj (hp.symm.trans hmem) ▸ rfl) hkind }
  exact toldAs_of_readable hint fun hread env x now => surface_problem hint hread hp env { x with now := now }

/-- An error of the driver is told as nothing that it says. -/
theorem toldAs_plain {e : JsValue} (h : Plain e) :
    ToldAs e (problem "internal" "internal" "Internal Error" "Unexpected error") := by
  have hp : toProblemOnce (thrown e) = none := by
    obtain ⟨props, rfl⟩ := h.error
    rfl
  have hint : Internal (thrown e) := {
    isError := by
      obtain ⟨props, rfl⟩ := h.error
      rfl
    http := rfl
    hidden := fun status hexpose => absurd (hexpose.symm.trans h.hidden) Bool.noConfusion
    marked := fun hmarked => absurd (hmarked.symm.trans h.unmarked.1) Bool.noConfusion
    kind := by rw [hp]; nofun }
  refine toldAs_of_readable hint fun hread env x now => ?_
  have hunmarked : ¬ ((thrown e).value.get "isAppError").truthy = true := by
    rw [thrown, h.unmarked.2]
    exact Bool.false_ne_true
  rw [respond, hint.answered hread, internalBody, hint.present_eq hp, if_neg hunmarked]
  rfl

/-- **What a failure is told as.** -/
theorem Failure.told {e : JsValue} (h : api.Failure e) : ∃ p ∈ api.problems, ToldAs e p := by
  unfold problems
  cases h with
  | unknown hget =>
    rw [hget]
    exact ⟨_, .head _, toldAs_appError "service_unavailable" rfl (by decide) rfl⟩
  | unsupported hget =>
    rw [hget]
    exact ⟨_, .head _, toldAs_appError "not_implemented" rfl (by decide) rfl⟩
  | rejected hget hr =>
    rw [hget]
    cases hr with
    | anonymous => exact ⟨_, .head _, toldAs_appError "unauthorized" rfl (by decide) rfl⟩
    | unreachable cause =>
      exact ⟨_, .tail _ (.head _), toldAs_appError "service_unavailable" rfl (by decide) rfl⟩
    | duplicate details => exact ⟨_, .tail _ (.tail _ (.head _)), toldAs_appError "conflict" rfl (by decide) rfl⟩
    | failed tag cause code =>
      exact ⟨_, .tail _ (.tail _ (.tail _ (.head _))), toldAs_appError "internal" rfl (by decide) rfl⟩
    | raw hplain => exact ⟨_, .tail _ (.tail _ (.tail _ (.tail _ (.head _)))), toldAs_plain hplain⟩

theorem status_problemReply (env : Env) (kind type title : String) (detail : JsString) :
    (problemReply env (problem kind type title detail)).status = kindToStatus (.string kind) := rfl

theorem status_of_problems {env : Env} {p : JsValue} (h : p ∈ api.problems) : (problemReply env p).status ≠ 200 := by
  unfold problems at h
  split at h <;> simp only [List.mem_cons, List.not_mem_nil, or_false] at h
  · rw [h, status_problemReply]
    decide
  · rw [h, status_problemReply]
    decide
  · rcases h with rfl | rfl | rfl | rfl | rfl <;> rw [status_problemReply] <;> decide

theorem Failure.status_ne {env : Env} {x : Exchange} {now : JsString} {e : JsValue} (h : api.Failure e) :
    (respond env x now (.error (thrown e))).status ≠ 200 := by
  obtain ⟨p, hp, htold⟩ := h.told
  rcases htold env x now with hproblem | ⟨v, hnothing⟩
  · rw [← Reply.status_withoutMeta, hproblem]
    exact status_of_problems hp
  · rw [hnothing, Reply.status]
    decide

/-! ### Every request -/

variable {ι : Type}

/-- Every request keeps to the pool. -/
theorem received_disciplined (api : Api) (requests : ι → Incoming) (idle : ℕ) :
    Disciplined (honestPool databaseInfoSql) (· = Session.fresh)
      (fun i seen => ∃ user source, api.ActsAs (requests i) user source ∧ seen.identity = identity source user)
      (api.received requests idle) where
  idle _ hs := List.eq_of_mem_replicate hs
  client i := (serve_meets api (requests i)).mono fun _ _ _ => trivial

variable [DecidableEq ι]

/-- Every answer is one that the request may get. -/
theorem answer_of_run {api : Api} {requests : ι → Incoming} {idle : ℕ} {trace : List (ι × Option Seen)}
    {c : Config Driver Session Reply ι} (hr : Run (honestPool databaseInfoSql) (api.received requests idle) trace c)
    {i : ι} {reply : Reply} (h : c.prog i = .done reply) : api.Answer (requests i) reply :=
  hr.fulfils (by rfl) (received_disciplined api requests idle) (P := fun i reply _ => api.Answer (requests i) reply)
    (fun i => serve_meets api (requests i)) h

/-- A request that the guards refuse is answered at once. -/
theorem serve_refused {status : ℤ} {code : JsValue}
    (h : api.admission.verdict unmarked unmarked r = .refused status code) :
    ∃ reply, api.serve r = .done reply ∧ reply.status = status ∧ reply.code = code := by
  unfold Admission.verdict at h
  unfold serve
  cases hguards : api.admission.runGuards unmarked unmarked r with
  | ok user =>
    rw [hguards] at h
    cases h
  | error e =>
    rw [hguards] at h
    cases h
    exact ⟨_, rfl, rfl, rfl⟩

/-- **A statement runs as the user whom the guards admitted**, whatever other requests share the pool, in whatever
order and however they fail; so what a client is shown is its own user, and the database does not see whom the guards
refuse. -/
theorem own_identity (api : Api) (requests : ι → Incoming) (idle : ℕ) {trace : List (ι × Option Seen)}
    {c : Config Driver Session Reply ι} (hr : Run (honestPool databaseInfoSql) (api.received requests idle) trace c) :
    (∀ i seen, (i, some seen) ∈ trace →
        ∃ user source, api.ActsAs (requests i) user source ∧ seen.identity = identity source user) ∧
      (∀ i reply, c.prog i = .done reply → reply.status = 200 →
        ∃ user source, api.ActsAs (requests i) user source ∧
          reply.clientIdentifier = clientIdentifier (identity source user)) ∧
      (∀ i status code, api.admission.verdict unmarked unmarked (requests i) = .refused status code →
        (∀ b, (i, b) ∉ trace) ∧ ∃ reply, c.prog i = .done reply ∧ reply.status = status ∧ reply.code = code) ∧
      ∀ s ∈ c.idle, s = Session.fresh := by
  obtain ⟨hd, hseen⟩ := hr.observed (by rfl) (received_disciplined api requests idle)
  refine ⟨hseen, fun i reply hreply hstatus => ?_, fun i status code hrefused => ?_, hd.idle⟩
  · cases answer_of_run hr hreply with
    | refused hguards =>
      rcases Admission.refused_status (Admission.verdict_of_error hguards) with h | h <;> rw [hstatus] at h <;> cases h
    | @shown user source info hacts hobject hid => exact ⟨user, source, hacts, (respond_shown hobject).2.trans hid⟩
    | failed _ hfailure => exact absurd hstatus hfailure.status_ne
  · obtain ⟨reply, hserve, hstatus, hcode⟩ := serve_refused hrefused
    obtain ⟨hdone, hsilent⟩ := hr.silent (i := i) hserve
    exact ⟨hsilent, reply, hdone, hstatus, hcode⟩

/-- Who calls. -/
inductive Caller where
  /-- A user. -/
  | alice
  /-- Another one. -/
  | bob
  /-- Somebody without a token. -/
  | nobody
  deriving DecidableEq

/-- The header of a call. -/
def Caller.authorization : Caller → Headers id
  | .alice => ⟨[("authorization", .one "Bearer a")], List.nodup_singleton _⟩
  | .bob => ⟨[("authorization", .one "Bearer b")], List.nodup_singleton _⟩
  | .nobody => Headers.empty

/-- The name of a caller. -/
def Caller.username : Caller → JsString
  | .alice => "alice"
  | .bob => "bob"
  | .nobody => []

/-- A request. -/
def Caller.request (who : Caller) : Incoming where
  exchange := { plainExchange with req := { plainExchange.req with headers := who.authorization } }
  protocol := "https"
  cookies := none
  get := fun name => HeaderValue.line? (who.authorization.get name)
  caughtAt := "2026-01-01T00:00:00.000Z"

/-- A service with one source, and a token for each of the two users. -/
def demoApi : Api where
  admission :=
    { cfg :=
        { csrfEnabled := true, cookieName := "jwt", csrfTrustedOrigins := none, corsOrigins := []
          trusted_ne_nil := by decide }
      urls := ⟨fun _ => none, rfl⟩
      passport :=
        { bearer := fun req => .ofOption (req.authorization.map (·.drop 7))
          verify := fun token =>
            match token with
            | .string s =>
              if s = JsString.ofString "a" then some ⟨"alice", none⟩
              else if s = JsString.ofString "b" then some ⟨"bob", none⟩
              else none
            | _ => none }
      env := plainEnv }
  db := [.oracle (.default "main")]

/-- The row that the statement selects. -/
def Caller.row (who : Caller) : JsValue :=
  .object .plain [("rows", .array [.object .plain [("CLIENT_IDENTIFIER", .string who.username)]])]

/-- The statement, as the client executes it. -/
def infoStatement : DriverOp :=
  .execute databaseInfoSql (.object .plain [])
    (spread (toExecuteDefaults (.default "main")) [("outFormat", .int 4002)])

/-- What is observed while a user is served. -/
def Caller.trace (who : Caller) : List (Caller × Option Seen) :=
  [(who, none), (who, none), (who, none), (who, some ⟨who.username, infoStatement⟩), (who, none), (who, none),
    (who, none), (who, none), (who, none), (who, none)]

/-- Nothing is to be said of an interaction that does not fail and is no statement. -/
theorem honest_of_op {select : JsString} {s : Session} {e : Event Driver} (herror : interactionError e = none)
    (hop : ∀ sql binds options, e.op ≠ .execute sql binds options) : Honest select s e where
  plain _ h := by
    rw [herror] at h
    cases h
  tells binds options _ h := absurd (congrArg Event.op h) (hop select binds options)

/-- What the database answers a user is what it should be. -/
theorem honest_row {who : Caller} {s : Session} (hwho : who ≠ .nobody) (h : s.effective = who.username) :
    Honest databaseInfoSql s ⟨infoStatement, .ok who.row⟩ where
  plain _ herror := by cases herror
  tells _ _ _ he := by
    cases he
    rw [h]
    cases who with
    | nobody => exact absurd rfl hwho
    | _ => rfl

/-- A user is served on the one connection, which is then idle again. -/
theorem served {who : Caller} (hwho : who ≠ .nobody) {c₀ c : Config Driver Session Reply Caller}
    {trace : List (Caller × Option Seen)} (hr : Run (honestPool databaseInfoSql) c₀ trace c)
    (hprog : c.prog who = demoApi.serve who.request) (hheld : c.held who = none) (hidle : c.idle = [Session.fresh]) :
    ∃ c' reply, Run (honestPool databaseInfoSql) c₀ (trace ++ who.trace) c' ∧
      (c'.prog who = .done reply ∧ reply.status = 200) ∧ c'.idle = [Session.fresh] ∧
      ∀ j ≠ who, c'.prog j = c.prog j ∧ c'.held j = c.held j := by
  have hothers {p : Prog Driver Reply} {h : Option Session} {l : List Session} {d : Config Driver Session Reply Caller}
      (hd : ∀ j ≠ who, d.prog j = c.prog j ∧ d.held j = c.held j) :
      ∀ j ≠ who, (d.turn who p h l).prog j = c.prog j ∧ (d.turn who p h l).held j = c.held j := fun j hj => by
    simpa only [Config.turn, Function.update_of_ne hj] using hd j hj
  have lend {d : Config Driver Session Reply Caller} {o : DriverOp} {k x l₁ l₂ q} :=
    @Theory.Step.lend Driver Session Seen Reply Caller _ (honestPool databaseInfoSql) d who o k x l₁ l₂ q
  have plain {d : Config Driver Session Reply Caller} {o : DriverOp} {k x} :=
    @Theory.Step.plain Driver Session Seen Reply Caller _ (honestPool databaseInfoSql) d who o k x
  have use {d : Config Driver Session Reply Caller} {o : DriverOp} {k x q q' b} :=
    @Theory.Step.use Driver Session Seen Reply Caller _ (honestPool databaseInfoSql) d who o k x q q' b
  have giveBack {d : Config Driver Session Reply Caller} {o : DriverOp} {k x q} :=
    @Theory.Step.giveBack Driver Session Seen Reply Caller _ (honestPool databaseInfoSql) d who o k x q
  have kind {e : Event Driver} {h : Hold} (hk : pool.hold e = h) : (honestPool databaseInfoSql).hold e = h := hk
  cases who with
  | nobody => exact absurd rfl hwho
  | _ =>
    have h₁ := hr.snoc (lend hprog (kind (e := ⟨.getConnection, .ok ()⟩) rfl) hheld
      (show c.idle = [] ++ Session.fresh :: [] from hidle))
    have h₂ := h₁.snoc (use rfl (kind (e := ⟨.setClientId .setup _, .ok ()⟩) rfl) rfl
      ⟨.assigned, honest_of_op rfl fun _ _ _ h => by cases h⟩)
    have h₃ := h₂.snoc (plain rfl (kind (e := ⟨.now, (0 : ℤ)⟩) rfl))
    have h₄ := h₃.snoc (use rfl (kind (e := ⟨infoStatement, .ok (Caller.row _)⟩) rfl) rfl
      ⟨.carried rfl, honest_row hwho rfl⟩)
    have h₅ := h₄.snoc (plain rfl (kind (e := ⟨.now, (0 : ℤ)⟩) rfl))
    have h₆ := h₅.snoc (use rfl (kind (e := ⟨.setClientId .clear _, .ok ()⟩) rfl) rfl
      ⟨.assigned, honest_of_op rfl fun _ _ _ h => by cases h⟩)
    have h₇ := h₆.snoc (use rfl (kind (e := ⟨.setCallTimeout .clear _, .ok ()⟩) rfl) rfl
      ⟨.timeout, honest_of_op rfl fun _ _ _ h => by cases h⟩)
    have h₈ := h₇.snoc (use rfl (kind (e := ⟨.ping, .ok ()⟩) rfl) rfl
      ⟨.carried rfl, honest_of_op rfl fun _ _ _ h => by cases h⟩)
    have h₉ := h₈.snoc (use rfl (kind (e := ⟨.setCallTimeout .reset _, .ok ()⟩) rfl) rfl
      ⟨.timeout, honest_of_op rfl fun _ _ _ h => by cases h⟩)
    have h₁₀ := h₉.snoc (giveBack rfl (kind (e := ⟨.close false, .ok ()⟩) rfl) rfl)
    simp only [List.append_assoc] at h₁₀
    exact ⟨_, _, h₁₀, ⟨rfl, rfl⟩, rfl, hothers (hothers (hothers (hothers (hothers (hothers (hothers (hothers
      (hothers (hothers fun _ _ => ⟨rfl, rfl⟩)))))))))⟩

/-- Bob is served on the connection that alice had before, and nobody is refused. -/
theorem demoRun : ∃ c reply refusal,
    Run (honestPool databaseInfoSql) (demoApi.received Caller.request 1) (Caller.alice.trace ++ Caller.bob.trace) c ∧
      (c.prog .bob = .done reply ∧ reply.status = 200) ∧ c.prog .nobody = .done refusal ∧ refusal.status = 401 := by
  obtain ⟨c₁, -, hr₁, -, hidle₁, hframe₁⟩ :=
    served (show Caller.alice ≠ .nobody by decide) (.nil : Run _ (demoApi.received Caller.request 1) _ _) rfl rfl rfl
  have hbob := hframe₁ .bob (by decide)
  obtain ⟨c₂, reply, hr₂, hreply, -, hframe₂⟩ := served (show Caller.bob ≠ .nobody by decide) hr₁ hbob.1 hbob.2 hidle₁
  have hnobody := (hframe₂ .nobody (by decide)).1.trans (hframe₁ .nobody (by decide)).1
  exact ⟨c₂, reply, _, hr₂, hreply, hnobody, rfl⟩

theorem own_identity_bob : ∃ c reply,
    Run (honestPool databaseInfoSql) (demoApi.received Caller.request 1) (Caller.alice.trace ++ Caller.bob.trace) c ∧
      c.prog .bob = .done reply ∧ ∃ user source, demoApi.ActsAs Caller.bob.request user source ∧
        reply.clientIdentifier = clientIdentifier (identity source user) := by
  obtain ⟨c, reply, -, hr, ⟨hreply, hstatus⟩, -⟩ := demoRun
  exact ⟨c, reply, hr, hreply, (own_identity demoApi Caller.request 1 hr).2.1 .bob reply hreply hstatus⟩

/-- **What a client is told of a failure** is one of the problems of its source, whatever the driver said and whoever
else was served; or nothing, where the filter cannot log it. -/
theorem failures_told (api : Api) (requests : ι → Incoming) (idle : ℕ) {trace : List (ι × Option Seen)}
    {c : Config Driver Session Reply ι} (hr : Run (honestPool databaseInfoSql) (api.received requests idle) trace c)
    {i : ι} {reply : Reply} (hreply : c.prog i = .done reply) (hstatus : reply.status ≠ 200) :
    (∃ status code, api.admission.verdict unmarked unmarked (requests i) = .refused status code ∧
        reply.status = status ∧ reply.code = code) ∨
      (∃ p ∈ api.problems, reply.withoutMeta = problemReply api.admission.env p) ∨ ∃ v, reply = .unanswered v := by
  cases answer_of_run hr hreply with
  | refused hguards => exact .inl ⟨_, _, Admission.verdict_of_error hguards, rfl, rfl⟩
  | shown _ hobject _ => exact absurd (respond_shown hobject).1 hstatus
  | failed _ hfailure =>
    obtain ⟨p, hp, htold⟩ := hfailure.told
    exact .inr ((htold _ _ _).imp (fun hproblem => ⟨p, hp, hproblem⟩) id)

theorem failures_told_nobody : ∃ c reply,
    Run (honestPool databaseInfoSql) (demoApi.received Caller.request 1) (Caller.alice.trace ++ Caller.bob.trace) c ∧
      c.prog .nobody = .done reply ∧
      ((∃ status code, demoApi.admission.verdict unmarked unmarked Caller.nobody.request = .refused status code ∧
          reply.status = status ∧ reply.code = code) ∨
        (∃ p ∈ demoApi.problems, reply.withoutMeta = problemReply demoApi.admission.env p) ∨
          ∃ v, reply = .unanswered v) := by
  obtain ⟨c, -, refusal, hr, -, hrefusal, hstatus⟩ := demoRun
  refine ⟨c, refusal, hr, hrefusal, failures_told demoApi Caller.request 1 hr hrefusal ?_⟩
  rw [hstatus]
  decide

end Api

end NestDdd.Http
