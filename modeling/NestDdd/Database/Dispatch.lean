import NestDdd.Database.Identity
import NestDdd.Database.SourceRegistry
import NestDdd.Shared.Problem

/-!
# The calls of the pool manager

`PoolManager.withConnection` (`src/infrastructure/database/connection/pool.manager.ts`) hands a call on to the client of
its source: an `OracleClient`, or a `NotImplementedClient` that rejects. What a call comes to depends on what the driver
answers; here the driver is one that does what its documentation says.

## Assumptions

* An error of the driver is no error of the application: it has none of its markers.
* `SYS_CONTEXT('USERENV', 'CLIENT_IDENTIFIER')` is the identifier that the session has.

## What is proved

* `withConnection_settles` — the rule of a call of `OracleClient`: what its callback settles with, it settles with, and
  otherwise it is rejected with one of the errors it should be.
-/

namespace NestDdd.Database

open NestDdd.Theory NestDdd.Shared

/-! ### The clients -/

/-- A client of the manager, with what it was made of. -/
inductive Client where
  /-- `new OracleClient(pool, source, logger)`. -/
  | oracle (source : OracleSource)
  /-- `new NotImplementedClient(sourceKey, dialect)`. -/
  | notImplemented (sourceKey : JsString) (dialect : Dialect)

/-- The key that the client is kept at. -/
def Client.key : Client → JsString
  | .oracle source => source.key
  | .notImplemented sourceKey _ => sourceKey

/-- `new UnsupportedDialectError(sourceKey, dialect)`. -/
def unsupportedDialectError (sourceKey dialect : JsString) : JsValue :=
  infrastructureError "UnsupportedDialectError"
    (JsString.concat ["Dialect \"", dialect, "\" for source \"", sourceKey, "\" is not implemented"]) .undefined
    [("sourceKey", .string sourceKey), ("dialect", .string dialect)]

variable {α : Type}

/-- `withConnection` of a client. -/
def Client.withConnection (fn : Callback α) (options : ConnectionOptions) : Client → ClientM α
  | .oracle source => NestDdd.Database.withConnection source fn options
  | .notImplemented sourceKey dialect => throw (unsupportedDialectError sourceKey dialect.name)

/-- `this.clients`. -/
abbrev Clients := List Client

/-- `this.clients.get(sourceKey)`. -/
def Clients.get? (clients : Clients) (sourceKey : JsString) : Option Client :=
  clients.find? fun client => client.key == sourceKey

/-- `withConnection` of the manager. -/
def Clients.withConnection (clients : Clients) (sourceKey : JsString) (fn : Callback α) (options : ConnectionOptions) :
    ClientM α :=
  match clients.get? sourceKey with
  | none => throw (unknownSourceKeyError sourceKey)
  | some client => client.withConnection fn options

/-! ### Problems of the errors -/

/-- A problem. -/
def problem (kind type title : String) (detail : JsString) : JsValue :=
  .object .plain
    [("kind", .string kind), ("type", problemType type), ("title", .string title), ("detail", .string detail)]

/-- `toProblem` of a thrown value, by its class. -/
def toProblem (e : JsValue) : Option JsValue :=
  match e with
  | .object (.appError cls) _ =>
    match cls with
    | "UnauthorizedError" => some (problem "unauthorized" "unauthorized" "Unauthorized" (e.get "message").text)
    | "ConflictError" => some (problem "conflict" "conflict" "Conflict" (e.get "message").text)
    | "DatabaseConnectionError" =>
      some (problem "service_unavailable" "service-unavailable" "Database unavailable"
        (JsString.concat ["Cannot obtain connection for source \"", (e.get "sourceKey").text, "\". Try again later."]))
    | "DatabaseExecutionError" => some (problem "internal" "internal" "Database error" "A database error occurred.")
    | "UnknownSourceKeyError" =>
      some (problem "service_unavailable" "service-unavailable" "Unknown data source"
        (JsString.concat ["The data source key \"", (e.get "sourceKey").text, "\" is not configured."]))
    | "UnsupportedDialectError" =>
      some (problem "not_implemented" "not-implemented" "Dialect not implemented"
        (JsString.concat ["Dialect \"", (e.get "dialect").text, "\" for source \"", (e.get "sourceKey").text,
          "\" is not supported yet."]))
    | _ => none
  | _ => none

/-- A value that was thrown, as the filter is given it. -/
def thrown (e : JsValue) : ErrorValue := { value := e, toProblem := (toProblem e).map .returns, http := none }

/-! ### The driver -/

/-- An error as the driver or the runtime throws it. -/
structure Plain (e : JsValue) : Prop where
  /-- It is an `Error`, and none of the application's. -/
  error : ∃ props, e = .object .error props
  /-- It is not for a client to see. -/
  hidden : (e.get "expose").isTrue = false
  /-- It has no marker. -/
  unmarked : (e.get "isDomainError").truthy = false ∧ (e.get "isAppError").truthy = false

/-- The error that an interaction with the connection fails with. -/
def interactionError : Event Driver → Option JsValue
  | ⟨.setCallTimeout .., .error e⟩ | ⟨.setClientId .., .error e⟩ | ⟨.execute .., .error e⟩ | ⟨.commit, .error e⟩
  | ⟨.rollback, .error e⟩ | ⟨.ping, .error e⟩ => some e
  | _ => none

/-- `const [row] = rows ?? []`; what the driver answers as `rows` is an array, if there is one. -/
def firstRow (result : JsValue) : JsValue :=
  if (result.get "rows").isArray then ((result.get "rows").elements.head?).getD .undefined else .undefined

/-- What `SYS_CONTEXT('USERENV', 'CLIENT_IDENTIFIER')` is. -/
def clientIdentifier (identity : JsString) : JsValue := if identity = [] then .null else .string identity

/-- **A driver that does what it should**, for a statement that selects the identifier. -/
structure Honest (select : JsString) (s : Session) (e : Event Driver) : Prop where
  /-- Its errors are its own. -/
  plain : ∀ error, interactionError e = some error → Plain error
  /-- The identifier it tells is the session's. -/
  tells : ∀ binds options result, e = ⟨.execute select binds options, .ok result⟩ →
    (firstRow result).get "CLIENT_IDENTIFIER" = clientIdentifier s.effective

/-- The pool of a source, with such a driver. -/
def honestPool (select : JsString) : Lending Driver Session Seen := pool.restrict (Honest select)

/-! ### What a call settles with -/

/-- The errors that a call of `OracleClient` may be rejected with. -/
inductive Rejection (source : OracleSource) : JsValue → Prop where
  /-- A user is required. -/
  | anonymous : Rejection source
      (unauthorizedError (JsString.concat ["Database source \"", source.key, "\" requires a context user"]))
  /-- There is no connection, or none any more. -/
  | unreachable (cause : JsValue) : Rejection source (databaseConnectionError source.key cause)
  /-- A unique constraint is violated. -/
  | duplicate (details : JsValue) : Rejection source (conflictError "Duplicate value" details)
  /-- A statement failed. -/
  | failed (tag : Option JsString) (cause code : JsValue) :
      Rejection source (databaseExecutionError source.key tag cause code)
  /-- An error without a code. -/
  | raw {e : JsValue} : Plain e → Rejection source e

theorem resolveContextUser_error {source : OracleSource} {options : ConnectionOptions} {e : JsValue}
    (h : resolveContextUser source options = .error e) : Rejection source e := by
  simp only [resolveContextUser] at h
  split_ifs at h with henabled hnamed hrequired
  · cases h
    exact .anonymous

/-- What becomes of an error that the callback fails with. -/
theorem mapError_plain (source : OracleSource) (tag : Option JsString) {e : JsValue} (h : Plain e) :
    Rejection source (mapError source e tag) := by
  unfold mapError mapOracleError
  split
  · exact .raw h
  · split
    · exact .raw h
    · split
      · exact .duplicate _
      · split
        · exact .unreachable e
        · exact .failed tag e _

/-! ### The rule of a call -/

/-- A client of the pool, when every idle connection is as new. -/
abbrev Obeys (select : JsString) (G : Seen → Prop) (P : α → Option Session → Prop) (p : Prog Driver α)
    (h : Option Session) : Prop :=
  Meets (honestPool select) (· = Session.fresh) G P p h

section Rules

variable {select : JsString} {G : Seen → Prop} {s : Session} {source : OracleSource} {options : ConnectionOptions}

/-- What a use fails with is an error of the driver. -/
theorem obeys_use {o : DriverOp} {P P' : Driver.Ans o → Option Session → Prop}
    (ho : ∀ x, driverHold ⟨o, x⟩ = .use) (hp : Follows G P (@Prog.ask Driver o) (some s))
    (hP : ∀ x h, (∀ e, interactionError ⟨o, x⟩ = some e → Plain e) → P x h → P' x h) :
    Obeys select G P' (@Prog.ask Driver o) (some s) :=
  meets_ask_restrict ho hp fun x h honest hpost => hP x h honest.plain hpost

/-- What a value or an error has to be. -/
def Settles {ε : Type} (Q : α → Prop) (R : ε → Prop) : Except ε α → Prop
  | .ok a => Q a
  | .error e => R e

/-- `acquire` sets the connection up, or is rejected as it should be. -/
theorem acquire_settles :
    Obeys select G
      (fun r h => Settles (fun contextUser => resolveContextUser source options = .ok contextUser ∧
        Holding (contextUser.getD []) (isNonEmpty contextUser) h) (Rejection source) r)
      (acquire source options) none := by
  refine meets_await (meets_done ?_)
  cases hu : resolveContextUser source options with
  | error e => exact resolveContextUser_error hu
  | ok contextUser =>
    refine meets_await (meets_tryCatch (Meets.restrict (follows_getConnection ?_ fun e => .unreachable e)))
    have htimeout : Obeys select G (fun r h => Settles (fun _ => h = some Session.fresh) Plain r)
        (Async.onlyIf (callTimeout source options).isPositive
          (ClientM.setCallTimeout .setup (callTimeout source options))) (some .fresh) := by
      have hset : Follows G (fun _ h => h = some Session.fresh)
          (ClientM.setCallTimeout .setup (callTimeout source options)) (some .fresh) :=
        follows_setCallTimeout fun _ => rfl
      refine meets_onlyIf (fun _ => obeys_use (fun _ => rfl) hset fun x h hplain hh => ?_) fun _ => rfl
      cases x with
      | ok _ => exact hh
      | error e => exact hplain e rfl
    refine meets_await (htimeout.mono fun r h hr => ?_)
    cases r with
    | error e => exact .raw hr
    | ok _ =>
      obtain rfl : h = some Session.fresh := hr
      refine meets_await (meets_onlyIf (fun hne => ?_) fun hne => ?_)
      · have hset : Follows G (fun r h => ∀ u, r = .ok u → h = some ⟨some (contextUser.getD []), []⟩)
            (ClientM.setClientId .setup (contextUser.getD [])) (some .fresh) :=
          follows_setClientId (fun _ _ _ => rfl) fun _ _ hu => (by cases hu)
        refine obeys_use (fun _ => rfl) hset fun x h hplain hh => ?_
        cases x with
        | ok u => exact ⟨rfl, _, hh u rfl, rfl, fun hf => by rw [hne] at hf; cases hf⟩
        | error e => exact .raw (hplain e rfl)
      · exact ⟨rfl, _, rfl, (getD_eq_nil hne).symm, fun _ => rfl⟩

/-- **The rule of a call**: its callback runs under the user of the call, and what the callback settles with is what
the call settles with. -/
theorem withConnection_settles {fn : Callback α} {Q : α → Prop}
    (hfn : ∀ set h, Holding (identityOf source options) set h →
      Obeys select (fun s => s.identity = identityOf source options)
        (fun r h' => Holding (identityOf source options) set h' ∧ Settles Q Plain r) (callFn source options.tag fn) h) :
    Obeys select (fun s => s.identity = identityOf source options)
      (fun r _ => Settles Q (Rejection source) r) (withConnection source fn options) none := by
  refine meets_await (acquire_settles.mono fun r h hr => ?_)
  cases r with
  | error e => exact hr
  | ok contextUser =>
    obtain ⟨hu, hh⟩ := hr
    have hid : contextUser.getD [] = identityOf source options := by rw [identityOf, hu]
    rw [hid] at hh
    refine meets_tryFinally (meets_tryCatch ((hfn _ h hh).mono fun r h' hr => ?_))
    obtain ⟨hh', hsettles⟩ := hr
    have hrelease : Obeys select (fun s => s.identity = identityOf source options) (fun r _ => r = .ok ⟨⟩)
        (release source (isNonEmpty contextUser)) h' := (release_follows source hh').restrict
    cases r with
    | ok a => exact hrelease.mono fun r _ hr => ⟨hr, hsettles⟩
    | error e => exact hrelease.mono fun r _ hr => ⟨hr, mapError_plain source options.tag hsettles⟩

variable {user : JsString} {set : Bool} {h : Option Session}

theorem logExecuted_returns (tag : Option JsString) (sql : JsString) (latencyMs : ℤ) (hh : Holding user set h) :
    Follows G (fun r h' => r = .ok ⟨⟩ ∧ Holding user set h') (logExecuted source tag sql latencyMs) h := by
  unfold logExecuted
  split
  · exact follows_log ⟨rfl, hh⟩
  · split
    · exact follows_log ⟨rfl, hh⟩
    · exact meets_done ⟨rfl, hh⟩

/-- **The rule of a statement** of a callback: what it answers tells the user of the call. -/
theorem execute_settles (tag : Option JsString) (binds : JsValue) (params : Props) (hh : Holding user set h) :
    Obeys select (fun s => s.identity = user)
      (fun r h' => Holding user set h' ∧
        Settles (fun result => (firstRow result).get "CLIENT_IDENTIFIER" = clientIdentifier user) Plain r)
      (executeWithDefaults source tag select binds params) h := by
  refine meets_await (meets_bind (Meets.restrict (follows_plain (fun _ => rfl) fun started => ?_)))
  refine meets_tryFinally ?_
  obtain ⟨s, rfl, hs, hf⟩ := hh
  refine meets_ask_restrict (fun _ => rfl) (keepsUser_roundTrip rfl _ ⟨s, rfl, hs, hf⟩) fun x h' honest hh' => ?_
  have hsettles :
      Settles (fun result => (firstRow result).get "CLIENT_IDENTIFIER" = clientIdentifier user) Plain x := by
    cases x with
    | ok result => exact (honest.tells _ _ result rfl).trans (by rw [hs])
    | error e => exact honest.plain e rfl
  refine meets_await (meets_bind (Meets.restrict (follows_plain (fun _ => rfl) fun ended => ?_)))
  exact ((logExecuted_returns tag select _ hh').mono fun r h'' hr => ⟨hr.1, hr.2, hsettles⟩).restrict

end Rules

end NestDdd.Database
