import NestDdd.Config.Env
import NestDdd.Config.LogFiles
import NestDdd.Json.Objects
import NestDdd.Zod.Schema

/-!
# The schemas of the configuration

The files of `src/infrastructure/config/schemas` and `rootSchema` of `load-config.ts`, each with its fields in their
order, their checks, defaults and messages. `DATABASE_CONFIG_JSON` may refer to other variables of the environment for
its secrets, so its schema reads the environment.

## The model

The WHATWG URL parser is the parameter `canParse`.
-/

namespace NestDdd.Config.Schemas

open NestDdd.Shared NestDdd.Theory NestDdd.Zod

/-- `process.env`. -/
abbrev Environment := JsString → Option JsString

/-! ### What the fields are made of -/

/-- `z.string().min(1)`. -/
def nonEmptyString : Schema := .checked .string [.minLength 1 none]

/-- `z.string().min(1).optional()`. -/
def optionalString : Schema := .optional nonEmptyString

/-- `z.string().default(value)`. -/
def stringDefault (value : JsString) : Schema := .default .string (.string value)

/-- `z.boolean().default(value)`. -/
def booleanDefault (value : Bool) : Schema := .default .boolean (.bool value)

/-- `z.enum(options).default(value)`. -/
def enumDefault (options : List JsString) (value : JsString) : Schema := .default (.enum options) (.string value)

/-- `z.coerce.number()` with checks and a default. -/
def coercedDefault (checks : List Check) (value : ℕ) : Schema :=
  .default (.checked (.number true) checks) (.number (.ofNat value))

/-- `z.number()` with checks and a default. -/
def numberDefault (checks : List Check) (value : ℕ) : Schema :=
  .default (.checked (.number false) checks) (.number (.ofNat value))

/-- `.int().min(n)`. -/
def intMin (n : ℕ) : List Check := [.int, .minimum n true]

/-- `.int().min(lo).max(hi)`. -/
def intBetween (lo hi : ℕ) : List Check := [.int, .minimum lo true, .maximum hi]

/-- `.int().positive()`. -/
def intPositive : List Check := [.int, .minimum 0 false]

/-- `z.array(item).default([])`. -/
def arrayDefault (item : Schema) : Schema := .default (.array item) (.array [])

/-- `.refine(holds, { message, path })`. -/
def refine (path : List JsString) (message : JsString) (holds : Datum → Bool) : Check :=
  .refine [⟨path, message, fun d => !holds d⟩]

/-- `!!value`. -/
def truthy : Datum → Bool
  | .undefined | .null => false
  | .bool b => b
  | .number (.finite q) => q != 0
  | .number .nan => false
  | .string s => !s.isEmpty
  | _ => true

/-- `a === b`, of strings. -/
def sameString : Datum → Datum → Bool
  | .string a, .string b => a == b
  | _, _ => false

/-- `typeof value === 'string' && value.length > 0`. -/
def isNonEmptyString : Datum → Bool
  | .string s => !s.isEmpty
  | _ => false

/-- `hasAll`. -/
def hasAll (o : Datum) (keys : List JsString) : Bool := keys.all fun k => isNonEmptyString (o.get k)

/-- `a <= b`, of finite numbers. -/
def atMost : Datum → Datum → Bool
  | .number (.finite a), .number (.finite b) => decide (a ≤ b)
  | _, _ => false

/-! ### The sections -/

/-- `appSchema`. -/
def appSchema : Schema := .object
  [("env", .enum ["development", "test", "staging", "production"])] false

/-- `/^\d+(\.\d+)?[bkmg]?$/i`. -/
def isSize (s : JsString) : Bool :=
  let (whole, fraction, rest) := scanPoint s
  let isUnit := rest.isEmpty || [JsString.ofString "b", "k", "m", "g"].contains (JsString.toLowerCase rest)
  let pointed := s.contains 0x2E
  !whole.isEmpty && (!pointed || !fraction.isEmpty) && isUnit

/-- `loggingSchema`. -/
def loggingSchema : Schema := .object
  [("logLevel", enumDefault ["debug", "info", "warn", "error"] "info"),
    ("showStackTraces", booleanDefault false),
    ("requestIdHeader", stringDefault "x-request-id"),
    ("toFile", booleanDefault true),
    ("directory", stringDefault "logs"),
    ("fileName", stringDefault "app.log"),
    ("filesLimit", coercedDefault (intBetween 1 365) 14),
    ("maxSize", .default (.checked .string [.regex "/^\\d+(\\.\\d+)?[bkmg]?$/i" isSize none]) (.string "10m")),
    ("pretty", .optional .boolean)] false

/-- `httpSchema`. -/
def httpSchema : Schema := .object
  [("port", coercedDefault [.minimum 1 true, .maximum 65535] 3000),
    ("corsOrigins", arrayDefault nonEmptyString),
    ("serverTimeout", coercedDefault [.minimum 2000 true] 120000),
    ("headersTimeout", coercedDefault [.minimum 2000 true] 121000),
    ("keepAliveTimeout", coercedDefault [.minimum 1000 true] 61000),
    ("jsonBodyLimit", stringDefault "1mb"),
    ("urlencodedBodyLimit", stringDefault "1mb"),
    ("swaggerEnabled", .optional .boolean),
    ("trustProxy", booleanDefault false),
    ("csrfEnabled", booleanDefault true),
    ("csrfTrustedOrigins", .optional (.array nonEmptyString))] false

/-- `jwtSchema`. -/
def jwtSchema : Schema := .object
  [("secret", .checked .string [.minLength 32 (some (JsString.ofString "JWT_SECRET must be at least 32 characters"))]),
    ("algorithms", .default
      (.checked (.array (.enum ["HS256", "HS384", "HS512", "RS256", "RS384", "RS512", "ES256", "ES384"]))
        [.minLength 1 none])
      (.array [.string "HS256"])),
    ("issuer", optionalString),
    ("audience", optionalString),
    ("cookieName", .default nonEmptyString (.string "jwt"))] false

/-- `legacySchema`. -/
def legacySchema : Schema := .checked (.object
  [("forwardEnabled", booleanDefault false),
    ("targetUrl", optionalString),
    ("forwardPrefixes", arrayDefault nonEmptyString),
    ("timeoutMs", coercedDefault intPositive 10000),
    ("preserveHostHeader", booleanDefault false),
    ("logRequests", booleanDefault true),
    ("logFileName", .default
      (.checked .string [.regex "/^[\\w.-]+$/" isBareName (some (JsString.ofString
        "LEGACY_LOG_FILE_NAME must be a bare file name inside LOGGING_DIR (letters, digits, dot, dash, underscore)"))])
      (.string "legacy-forward.log"))] false)
  [.refine
    [⟨["targetUrl"], "LEGACY_TARGET_URL is required when LEGACY_FORWARD_ENABLED=true",
        fun legacy => truthy (legacy.get "forwardEnabled") && !truthy (legacy.get "targetUrl")⟩,
      ⟨["forwardPrefixes"], "LEGACY_FORWARD_PREFIXES must list at least one prefix when LEGACY_FORWARD_ENABLED=true",
        fun legacy => truthy (legacy.get "forwardEnabled") && (legacy.get "forwardPrefixes").length? == some 0⟩]]

/-- `schedulerSchema`. -/
def schedulerSchema : Schema := .object
  [("enabled", booleanDefault false), ("timezone", .default nonEmptyString (.string "UTC"))] false

/-- `shutdownSchema`. -/
def shutdownSchema : Schema := .object
  [("drainDelayMs", coercedDefault (intMin 0) 5000),
    ("forceAfterMs", coercedDefault intPositive 10000),
    ("jobDrainMs", coercedDefault (intMin 0) 10000)] false

/-- `tlsSchema`. -/
def tlsSchema : Schema := .checked (.object
  [("enabled", booleanDefault false),
    ("keyFile", optionalString),
    ("certFile", optionalString),
    ("caFile", optionalString),
    ("passphrase", optionalString),
    ("minVersion", enumDefault ["TLSv1.2", "TLSv1.3"] "TLSv1.2")] false)
  [.refine
    [⟨["keyFile"], "TLS_KEY_FILE is required when TLS_ENABLED=true",
        fun tls => truthy (tls.get "enabled") && !truthy (tls.get "keyFile")⟩,
      ⟨["certFile"], "TLS_CERT_FILE is required when TLS_ENABLED=true",
        fun tls => truthy (tls.get "enabled") && !truthy (tls.get "certFile")⟩]]

/-- `clusterSchema`. -/
def clusterSchema : Schema := .object
  [("enabled", booleanDefault false),
    ("workers", coercedDefault (intMin 0) 0),
    ("respawn", booleanDefault true),
    ("respawnMaxPerMinute", coercedDefault (intMin 1) 10),
    ("isLeader", booleanDefault false)] false

/-! ### The database -/

/-- `DialectEnum` without `oracle`. -/
def unimplementedDialects : List JsString := ["postgres", "mysql", "mariadb", "mssql", "sqlite"]

/-- The fields of `BaseSource`, with what an extension puts in the place of three of them. -/
def baseSource (dialect poolMin poolMax : Schema) : List (JsString × Schema) :=
  [("key", nonEmptyString), ("dialect", dialect), ("poolMin", poolMin), ("poolMax", poolMax),
    ("defaultSchema", optionalString), ("extra", .optional .record)]

/-- `OracleContextUser`. -/
def OracleContextUser : Schema := .default (.object
  [("enabled", booleanDefault true), ("required", booleanDefault false),
    ("maxLength", numberDefault (intBetween 1 64) 64)] false)
  (.object [("enabled", .bool true), ("required", .bool false), ("maxLength", .number (.ofNat 64))])

/-- The fields of `OracleSource` under `target / auth`. -/
def oracleTarget (canParse : JsString → Bool) : List (JsString × Schema) :=
  [("connectionUrl", .optional (.checked .string [.url canParse])),
    ("connectString", optionalString),
    ("user", optionalString),
    ("password", optionalString),
    ("passwordEnv", optionalString),
    ("externalAuth", booleanDefault false),
    ("edition", optionalString),
    ("configDir", optionalString),
    ("walletLocation", optionalString),
    ("walletPassword", optionalString),
    ("walletPasswordEnv", optionalString),
    ("sslServerDNMatch", .optional .boolean),
    ("httpsProxy", optionalString),
    ("httpsProxyPort", .optional (.checked (.number false) (intBetween 1 65535)))]

/-- The fields of `OracleSource` under `pool`. -/
def oraclePool : List (JsString × Schema) :=
  [("poolIncrement", numberDefault (intMin 0) 1),
    ("poolTimeoutSec", numberDefault (intMin 0) 60),
    ("poolMaxLifetimeSessionSec", numberDefault (intMin 0) 0),
    ("poolPingIntervalSec", numberDefault [.int] 60),
    ("poolPingTimeoutMs", numberDefault (intMin 0) 5000),
    ("queueMax", numberDefault [.int, .minimum (-1) true] 500),
    ("queueTimeoutMs", numberDefault (intMin 0) 60000),
    ("stmtCacheSize", numberDefault (intMin 0) 30),
    ("enableStatistics", booleanDefault false),
    ("homogeneous", booleanDefault true),
    ("drainTimeSec", numberDefault (intMin 0) 10)]

/-- The fields of `OracleSource` under `network`. -/
def oracleNetwork : List (JsString × Schema) :=
  [("connectTimeoutSec", numberDefault (intMin 1) 20),
    ("expireTimeMin", numberDefault (intMin 0) 0),
    ("retryCount", numberDefault (intMin 0) 0),
    ("retryDelaySec", numberDefault (intMin 0) 1),
    ("callTimeoutMs", numberDefault (intMin 0) 0)]

/-- The fields of `OracleSource` under `fetch`. -/
def oracleFetch : List (JsString × Schema) :=
  [("fetchArraySize", numberDefault (intMin 1) 100),
    ("prefetchRows", numberDefault (intMin 0) 2),
    ("maxRows", numberDefault (intMin 0) 0),
    ("outFormat", enumDefault ["array", "object"] "array")]

/-- The fields of `OracleSource` under `behaviour`. -/
def oracleBehaviour : List (JsString × Schema) :=
  [("slowQueryMs", numberDefault (intMin 0) 1000),
    ("logSql", booleanDefault false),
    ("healthQuery", .default nonEmptyString (.string "SELECT 1 FROM DUAL")),
    ("contextUser", OracleContextUser)]

/-- The fields of `OracleSource` that `BaseSource` has not. -/
def oracleFields (canParse : JsString → Bool) : List (JsString × Schema) :=
  oracleTarget canParse ++ oraclePool ++ oracleNetwork ++ oracleFetch ++ oracleBehaviour

/-- What the first refinement of `OracleSource` asks for: a target, and how to log in there. -/
def hasCredentials (o : Datum) : Bool :=
  truthy (o.get "connectionUrl") || (truthy (o.get "externalAuth") && hasAll o ["connectString"]) ||
    hasAll o ["connectString", "user", "password"]

/-- `OracleSource`. -/
def OracleSource (canParse : JsString → Bool) : Schema := .checked (.object
  (baseSource (.enum ["oracle"]) (numberDefault (intMin 0) 2) (numberDefault (intMin 1) 10) ++ oracleFields canParse)
    false)
  [refine [] (JsString.ofString "oracle: provide connectionUrl, connectString+user+password (or passwordEnv), " ++
      JsString.ofString "or connectString with externalAuth") hasCredentials,
    refine ["poolMin"] "oracle: poolMin must be <= poolMax" fun o => atMost (o.get "poolMin") (o.get "poolMax")]

/-- `unimplementedSourceSchema`. -/
def unimplementedSourceSchema : Schema := .object
  (baseSource (.enum unimplementedDialects) (numberDefault (intMin 0) 0) (numberDefault (intMin 1) 10)) true

/-- `oracleDriverSchema`. -/
def oracleDriverSchema : Schema := .object
  [("thickMode", booleanDefault false),
    ("clientLibDir", optionalString),
    ("clientConfigDir", optionalString),
    ("fetchAsString", arrayDefault (.enum ["CLOB", "NCLOB", "NUMBER", "DATE", "JSON"])),
    ("fetchAsBuffer", arrayDefault (.enum ["BLOB"]))] false

mutual

/-- What `JSON.parse` has read. -/
def ofJson : Json.Value Double → Datum
  | .null => .null
  | .bool b => .bool b
  | .number x => .number (.ofDouble x)
  | .string s => .string s
  | .array l => .array (ofElements l)
  | .object l => .object (ofMembers l)

/-- The elements of an array. -/
def ofElements : List (Json.Value Double) → List Datum
  | [] => []
  | v :: l => ofJson v :: ofElements l

/-- The members of an object. -/
def ofMembers : List (JsString × Json.Value Double) → List (JsString × Datum)
  | [] => []
  | (k, v) :: l => (k, ofJson v) :: ofMembers l

end

/-- `parseJson(raw)`; `none` is an error. -/
def parseJson : Datum → Option Datum
  | .undefined | .null | .string [] => some .undefined
  | .array l => some (.array l)
  | .object l => some (.object l)
  | .string s => (Json.jsonParse s).map ofJson
  | _ => none

/-- `SECRET_ENV_FIELDS`. -/
def SECRET_ENV_FIELDS : List JsString := ["password", "walletPassword"]

/-- The body of the loop of `resolveSecretRefs`. -/
def resolveSecretRef (env : Environment) (members : List (JsString × Datum)) (field : JsString) :
    List (JsString × Datum) :=
  match (find field members).getD .undefined, find (field ++ JsString.ofString "Env") members with
  | .undefined, some (.string ref) =>
    if ref.isEmpty then members
    else put field (match env ref with | some value => .string value | none => .undefined) members
  | _, _ => members

theorem find_resolveSecretRef {env : Environment} {members : List (JsString × Datum)} {field key : JsString}
    (h : key ≠ field) : find key (resolveSecretRef env members field) = find key members := by
  unfold resolveSecretRef
  split
  · split
    · rfl
    · rw [find_put, if_neg h]
  · rfl

/-- `resolveSecretRefs`. -/
def resolveSecretRefs (env : Environment) : Datum → Datum
  | .object l => .object (SECRET_ENV_FIELDS.foldl (resolveSecretRef env) l)
  | d => d

/-- `list` of `parseSources`: an array, or the `sources` of an object. -/
def sourceList : Datum → Datum
  | .object l => (Datum.object l).get "sources"
  | d => d

/-- `parseSources`; `none` where it adds its issue. -/
def parseSources (env : Environment) (v : Datum) : Option Datum :=
  (parseJson v).map fun parsed =>
    match sourceList parsed with
    | .array l => .array (l.map (resolveSecretRefs env))
    | list => list

/-- The keys of sources. -/
def sourceKeys : Datum → List JsString
  | .array l => l.filterMap fun source => match source.get "key" with | .string s => some s | _ => none
  | _ => []

/-- The schema of `health`. -/
def healthSchema : Schema := .object
  [("pingOnBoot", booleanDefault true),
    ("timeoutMs", coercedDefault (intBetween 0 60000) 3000),
    ("maxRetries", coercedDefault (intBetween 0 100) 2),
    ("requiredSources", arrayDefault .string),
    ("concurrency", coercedDefault (intBetween 1 100) 3),
    ("jitterMs", coercedDefault (intBetween 0 5000) 250)] false

/-- `z.discriminatedUnion('dialect', [OracleSource, unimplementedSourceSchema])`. -/
def sourceSchema (canParse : JsString → Bool) : Schema :=
  .union "dialect" [(["oracle"], OracleSource canParse), (unimplementedDialects, unimplementedSourceSchema)]

/-- The schema of the sources, once they have been parsed. -/
def sourcesSchema (canParse : JsString → Bool) : Schema :=
  .checked (.array (sourceSchema canParse))
    [.minLength 1 none, refine [] "source keys must be unique" fun sources => decide (sourceKeys sources).Nodup]

/-- `databaseConfigSchema`. -/
def databaseConfigSchema (canParse : JsString → Bool) (env : Environment) : Schema := .object
  [("sources", .preprocess (parseSources env) "DATABASE_CONFIG_JSON is not valid JSON" (sourcesSchema canParse)),
    ("health", healthSchema),
    ("oracle", .default oracleDriverSchema
      (.object [("thickMode", .bool false), ("fetchAsString", .array []), ("fetchAsBuffer", .array [])])),
    ("useDbLink", booleanDefault false)] false

/-- The fields of `rootSchema`. -/
def rootFields (canParse : JsString → Bool) (env : Environment) : List (JsString × Schema) :=
  [("app", appSchema), ("logging", loggingSchema), ("http", httpSchema),
    ("database", .optional (databaseConfigSchema canParse env)), ("jwt", jwtSchema), ("legacy", legacySchema),
    ("scheduler", schedulerSchema), ("shutdown", shutdownSchema), ("tls", tlsSchema), ("cluster", clusterSchema)]

/-- `rootSchema`. -/
def rootSchema (canParse : JsString → Bool) (env : Environment) : Schema :=
  .checked (.object (rootFields canParse env) false)
    [.refine [⟨["legacy", "logFileName"], "LEGACY_LOG_FILE_NAME must differ from LOGGING_FILE_NAME",
      fun config => sameString ((config.get "legacy").get "logFileName") ((config.get "logging").get "fileName")⟩]]

theorem nodup_rootFields {canParse : JsString → Bool} {env : Environment} :
    ((rootFields canParse env).map Prod.fst).Nodup := by
  have h : ((rootFields (fun _ => true) fun _ => none).map Prod.fst).Nodup := by decide
  exact h

end NestDdd.Config.Schemas
