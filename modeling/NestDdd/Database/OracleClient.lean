import NestDdd.Theory.Program
import NestDdd.Database.Errors

/-!
# The Oracle client

`OracleClient` (`src/infrastructure/database/clients/oracle.client.ts`) borrows a
connection of a node-oracledb pool for each call, sets it up, runs the caller's
function on it and gives it back.

## The model

* `Conn` — what the caller's function may do: use the connection it is given, and
  talk to the rest of the world. `fn` is any program over it.
* `Driver` — what the client does: every interaction with node-oracledb, with the
  clock and with the logger. All of them but the clock and the logger may fail,
  the assignments to `callTimeout` and `clientId` included; each assignment carries
  the place in the source where it is made (`Site`). A call works on one connection,
  the one its `getConnection` returned, so the interactions do not name it.
* `withConnection`, `transaction`, `ping` — the methods, statement by statement. The
  connection handed to `fn` is the proxy of `withExecuteDefaults`, so `fn` is
  interpreted by `proxied`.

## Honest scope

A function uses its connection one operation at a time: node-oracledb queues the
operations of one connection, so concurrent uses inside `fn` take turns anyway. The
fields of a source that no function here reads (credentials, pool sizes) are left out.
-/

namespace NestDdd.Database

open NestDdd.Theory NestDdd.Shared

/-! ### Configuration and options -/

/-- The properties of an object, in the order of its keys. -/
abbrev Props := List (String × JsValue)

/-- `{ ...a, ...b }`. -/
def spread (a b : Props) : Props :=
  (a.map fun p => (p.1, (b.lookup p.1).getD p.2)) ++ b.filter fun p => (a.lookup p.1).isNone

/-- `contextUser` of a source: who the database attributes work to. -/
structure ContextUserConfig where
  /-- Whether the identifier is set at all. -/
  enabled : Bool
  /-- Whether a call must name a user. -/
  required : Bool
  /-- The longest identifier, in bytes. -/
  maxLength : ℕ
  /-- The schema's lower bound. -/
  one_le : 1 ≤ maxLength
  /-- The schema's upper bound. -/
  le_sixtyFour : maxLength ≤ 64

/-- An accepted `oracle` source, as far as its client reads it. -/
structure OracleSource where
  /-- The key it is known by. -/
  key : JsString
  /-- The longest a round trip may take; 0 is no limit. -/
  callTimeoutMs : ℕ
  /-- The longest a pool ping may take. -/
  poolPingTimeoutMs : ℕ
  /-- How long closing the pool waits for busy connections. -/
  drainTimeSec : ℕ
  /-- Statements at least this slow are warned about; 0 is never. -/
  slowQueryMs : ℕ
  /-- Whether statements are logged. -/
  logSql : Bool
  /-- The statement of a health check. -/
  healthQuery : JsString
  /-- Rows fetched at a time. -/
  fetchArraySize : ℕ
  /-- Rows fetched with the first round trip. -/
  prefetchRows : ℕ
  /-- The most rows of a result; 0 is no limit. -/
  maxRows : ℕ
  /-- Whether rows are objects rather than arrays. -/
  outFormatObject : Bool
  /-- Who work is attributed to. -/
  contextUser : ContextUserConfig

/-- The schema's defaults for a source. -/
def OracleSource.default (key : JsString) : OracleSource where
  key := key
  callTimeoutMs := 0
  poolPingTimeoutMs := 5000
  drainTimeSec := 10
  slowQueryMs := 1000
  logSql := false
  healthQuery := "SELECT 1 FROM DUAL"
  fetchArraySize := 100
  prefetchRows := 2
  maxRows := 0
  outFormatObject := false
  contextUser := ⟨true, false, 64, by decide, by decide⟩

/-- `ConnectionOptions`. -/
structure ConnectionOptions where
  /-- The end user the work is done for. -/
  contextUser : Option JsString
  /-- The longest a round trip of this call may take. -/
  callTimeoutMs : Option Number
  /-- A label for logs and errors. -/
  tag : Option JsString
  /-- The old name of `contextUser`. -/
  username : Option JsString

/-- The options of a call that gives none. -/
def ConnectionOptions.none : ConnectionOptions := ⟨.none, .none, .none, .none⟩

/-- `toExecuteDefaults`; 4002 and 4001 are the driver's `OUT_FORMAT_OBJECT` and
`OUT_FORMAT_ARRAY`. -/
def toExecuteDefaults (source : OracleSource) : Props :=
  [("fetchArraySize", .int source.fetchArraySize), ("prefetchRows", .int source.prefetchRows),
    ("maxRows", .int source.maxRows), ("outFormat", .int (if source.outFormatObject then 4002 else 4001))]

/-! ### The context user -/

/-- The loop of `truncateBytes`: take characters while they fit. -/
def truncateLoop (maxBytes : ℕ) (result : JsString) : List JsString → JsString
  | [] => result
  | char :: rest =>
    if JsString.byteLength (result ++ char) > maxBytes then result
    else truncateLoop maxBytes (result ++ char) rest

/-- `truncateBytes`: `CLIENT_IDENTIFIER` is limited in bytes, not characters. -/
def truncateBytes (value : JsString) (maxBytes : ℕ) : JsString :=
  if value.byteLength ≤ maxBytes then value else truncateLoop maxBytes [] value.chars

/-- `!!s` for a string that may be missing. -/
def isNonEmpty : Option JsString → Bool
  | some s => !s.isEmpty
  | none => false

/-- `resolveContextUser`: the identifier a call runs under, or the error that refuses it. -/
def resolveContextUser (source : OracleSource) (options : ConnectionOptions) :
    Except JsValue (Option JsString) :=
  let raw := (options.contextUser.or options.username).map JsString.trim
  if !source.contextUser.enabled then .ok none
  else if !isNonEmpty raw then
    if source.contextUser.required then
      .error (unauthorizedError
        (JsString.concat ["Database source \"", source.key, "\" requires a context user"]))
    else .ok none
  else .ok (raw.map (truncateBytes · source.contextUser.maxLength))

/-! ### What is asked of the world -/

/-- What the caller's function may do. -/
inductive ConnOp where
  /-- `connection.execute(sql, binds, options)`. -/
  | execute (sql : JsString) (binds : JsValue) (options : Props)
  /-- `connection.commit()`. -/
  | commit
  /-- `connection.rollback()`. -/
  | rollback
  /-- `connection.ping()`. -/
  | ping
  /-- `logger[level](message, fields)`. -/
  | log (line : LogLine)
  /-- Anything awaited that is not about the connection. -/
  | outside (request : JsValue)

/-- The interface of the caller's function. -/
def Conn : Interface where
  Op := ConnOp
  Ans
    | .execute .. | .outside _ => Except JsValue JsValue
    | .commit | .rollback | .ping => Except JsValue Unit
    | .log _ => Unit

/-- The place of an assignment to the connection. -/
inductive Site where
  /-- `withConnection`, between borrowing and the `try`. -/
  | setup
  /-- `release`, in the block that clears the context user. -/
  | clear
  /-- `release`, in the block that closes. -/
  | reset
  deriving DecidableEq

/-- What the client does. -/
inductive DriverOp where
  /-- `pool.getConnection()`. -/
  | getConnection
  /-- `connection.callTimeout = ms`. -/
  | setCallTimeout (site : Site) (ms : Number)
  /-- `connection.clientId = id`. -/
  | setClientId (site : Site) (id : JsString)
  /-- `connection.execute(sql, binds, options)`. -/
  | execute (sql : JsString) (binds : JsValue) (options : Props)
  /-- `connection.commit()`. -/
  | commit
  /-- `connection.rollback()`. -/
  | rollback
  /-- `connection.ping()`. -/
  | ping
  /-- `connection.close({ drop })`. -/
  | close (drop : Bool)
  /-- `Date.now()`. -/
  | now
  /-- `logger[level](message, fields)`. -/
  | log (line : LogLine)
  /-- Anything the caller's function awaits that is not about the connection. -/
  | outside (request : JsValue)

/-- The interface of the client. -/
def Driver : Interface where
  Op := DriverOp
  Ans
    | .execute .. | .outside _ => Except JsValue JsValue
    | .now => ℤ
    | .log _ => Unit
    | _ => Except JsValue Unit

/-- An asynchronous function that uses a connection. -/
abbrev Callback (α : Type) := Async Conn JsValue α

/-- An asynchronous method of the client. -/
abbrev ClientM (α : Type) := Async Driver JsValue α

namespace Callback

/-- `connection.execute(sql, binds, options)` in a callback. -/
def execute (sql : JsString) (binds : JsValue) (options : Props) : Callback JsValue :=
  @Prog.ask Conn (.execute sql binds options)

/-- `connection.commit()` in a callback. -/
def commit : Callback Unit := @Prog.ask Conn .commit

/-- `connection.rollback()` in a callback. -/
def rollback : Callback Unit := @Prog.ask Conn .rollback

/-- `connection.ping()` in a callback. -/
def ping : Callback Unit := @Prog.ask Conn .ping

/-- A log line written in a callback. -/
def log (line : LogLine) : Callback Unit := Async.lift (@Prog.ask Conn (.log line))

end Callback

namespace ClientM

/-- `pool.getConnection()`. -/
def getConnection : ClientM Unit := @Prog.ask Driver .getConnection

/-- `connection.callTimeout = ms`. -/
def setCallTimeout (site : Site) (ms : Number) : ClientM Unit :=
  @Prog.ask Driver (.setCallTimeout site ms)

/-- `connection.clientId = id`. -/
def setClientId (site : Site) (id : JsString) : ClientM Unit :=
  @Prog.ask Driver (.setClientId site id)

/-- `connection.execute(sql, binds, options)`. -/
def execute (sql : JsString) (binds : JsValue) (options : Props) : ClientM JsValue :=
  @Prog.ask Driver (.execute sql binds options)

/-- `connection.ping()`. -/
def ping : ClientM Unit := @Prog.ask Driver .ping

/-- `connection.close({ drop })`. -/
def close (drop : Bool) : ClientM Unit := @Prog.ask Driver (.close drop)

/-- `Date.now()`. -/
def now : ClientM ℤ := Async.lift (@Prog.ask Driver .now)

/-- A log line. -/
def log (line : LogLine) : ClientM Unit := Async.lift (@Prog.ask Driver (.log line))

end ClientM

/-! ### `withExecuteDefaults` -/

/-- `SQL_LOG_MAX`. -/
def SQL_LOG_MAX : ℕ := 500

/-- `sql.trim().slice(0, SQL_LOG_MAX)`. -/
def loggedSql (sql : JsString) : JsValue := .string (sql.trim.take SQL_LOG_MAX)

/-- The `finally` block of `execute`: the line about a statement, if there is one. -/
def logExecuted (source : OracleSource) (tag : Option JsString) (sql : JsString) (latencyMs : ℤ) :
    ClientM Unit :=
  let line (level : Level) (message : JsString) (logged : JsValue) : LogLine :=
    ⟨level, message, [("sourceKey", .string source.key), ("tag", .ofOption tag),
      ("latencyMs", .int latencyMs), ("sql", logged)]⟩
  if 0 < source.slowQueryMs ∧ (source.slowQueryMs : ℤ) ≤ latencyMs then
    ClientM.log (line .warn "db.query.slow" (if source.logSql then loggedSql sql else .undefined))
  else if source.logSql then ClientM.log (line .debug "db.query" (loggedSql sql))
  else pure ()

/-- The parameter `binds: unknown = []`: what is not given is an empty array. -/
def bindsOrDefault : JsValue → JsValue
  | .undefined => .array []
  | binds => binds

/-- `execute` of the proxy: the source's fetch defaults, and a line about slow statements. -/
def executeWithDefaults (source : OracleSource) (tag : Option JsString) (sql : JsString)
    (binds : JsValue) (options : Props) : ClientM JsValue := do
  let started ← ClientM.now
  (ClientM.execute sql (bindsOrDefault binds) (spread (toExecuteDefaults source) options)).tryFinally do
    let ended ← ClientM.now
    logExecuted source tag sql (ended - started)

/-- The proxy `withExecuteDefaults` returns: `execute` is its own, all else goes to the connection. -/
def proxied (source : OracleSource) (tag : Option JsString) : (o : Conn.Op) → Prog Driver (Conn.Ans o)
  | .execute sql binds options => executeWithDefaults source tag sql binds options
  | .commit => @Prog.ask Driver .commit
  | .rollback => @Prog.ask Driver .rollback
  | .ping => @Prog.ask Driver .ping
  | .log line => @Prog.ask Driver (.log line)
  | .outside request => @Prog.ask Driver (.outside request)

/-- `fn(this.withExecuteDefaults(connection, tag))`. -/
def callFn {α : Type} (source : OracleSource) (tag : Option JsString) (fn : Callback α) : ClientM α :=
  Prog.interp (proxied source tag) fn

/-! ### `withConnection` -/

variable {α : Type}

/-- `mapError`. -/
def mapError (source : OracleSource) (error : JsValue) (tag : Option JsString) : JsValue :=
  mapOracleError error source.key tag

/-- The `callTimeout` of a call. -/
def callTimeout (source : OracleSource) (options : ConnectionOptions) : Number :=
  options.callTimeoutMs.getD (.ofNat source.callTimeoutMs)

/-- `withConnection` up to its `try`: resolve the user, borrow, set the connection up. -/
def acquire (source : OracleSource) (options : ConnectionOptions) : ClientM (Option JsString) := do
  let contextUser ← (Prog.done (resolveContextUser source options) : ClientM (Option JsString))
  tryCatch ClientM.getConnection fun e => throw (databaseConnectionError source.key e)
  Async.onlyIf (callTimeout source options).isPositive
    (ClientM.setCallTimeout .setup (callTimeout source options))
  Async.onlyIf (isNonEmpty contextUser) (ClientM.setClientId .setup (contextUser.getD []))
  return contextUser

/-- The first block of `release`: clear the identifier and flush the clear. It returns
whether the connection is to be dropped. -/
def clearContext (source : OracleSource) : ClientM Bool :=
  tryCatch
    (do
      ClientM.setClientId .clear []
      ClientM.setCallTimeout .clear
        (.ofNat (if source.poolPingTimeoutMs = 0 then 5000 else source.poolPingTimeoutMs))
      ClientM.ping
      return false)
    fun e => do
      ClientM.log ⟨.warn, "db.context.clear.failed",
        [("sourceKey", .string source.key), ("action", .string "drop-connection"), ("error", e)]⟩
      return true

/-- The second block of `release`: reset the timeout and close. -/
def closeConnection (source : OracleSource) (drop : Bool) : ClientM Unit :=
  tryCatch
    (do
      ClientM.setCallTimeout .reset (.ofNat source.callTimeoutMs)
      ClientM.close drop)
    fun e =>
      ClientM.log ⟨.warn, "db.connection.release.failed",
        [("sourceKey", .string source.key), ("error", e)]⟩

/-- `release`. -/
def release (source : OracleSource) (clear : Bool) : ClientM Unit := do
  let drop ← (if clear then clearContext source else pure false : ClientM Bool)
  closeConnection source drop

/-- `withConnection`: borrow a connection, run `fn`, always return it to the pool. -/
def withConnection (source : OracleSource) (fn : Callback α) (options : ConnectionOptions) :
    ClientM α := do
  let contextUser ← acquire source options
  Async.tryFinally
    (tryCatch (callFn source options.tag fn) fun e => throw (mapError source e options.tag))
    (release source (isNonEmpty contextUser))

/-! ### `transaction` and `ping` -/

/-- The callback `transaction` hands to `withConnection`. -/
def transactionBody (source : OracleSource) (fn : Callback α) (options : ConnectionOptions) :
    Callback α :=
  tryCatch
    (do
      let result ← fn
      Callback.commit
      return result)
    fun e => do
      tryCatch Callback.rollback fun rollbackError =>
        Callback.log ⟨.warn, "db.rollback.failed",
          [("sourceKey", .string source.key), ("tag", .ofOption options.tag), ("error", rollbackError)]⟩
      throw e

/-- `transaction`. -/
def transaction (source : OracleSource) (fn : Callback α) (options : ConnectionOptions) : ClientM α :=
  withConnection source (transactionBody source fn options) options

/-- The callback of `ping`. -/
def pingBody (source : OracleSource) : Callback Unit :=
  if source.healthQuery = JsString.ofString "SELECT 1 FROM DUAL" then Callback.ping
  else do
    let _ ← Callback.execute source.healthQuery .undefined []
    return ()

/-- `ping(timeoutMs)`. -/
def ping (source : OracleSource) (timeoutMs : Number) : ClientM Unit := do
  let started ← ClientM.now
  withConnection source (pingBody source) ⟨none, some timeoutMs, some "ping", none⟩
  let ended ← ClientM.now
  ClientM.log ⟨.debug, "db.ping.ok",
    [("sourceKey", .string source.key), ("latencyMs", .int (ended - started))]⟩

end NestDdd.Database
