import NestDdd.Config.Schemas
import NestDdd.Shared.UpperCase
import NestDdd.Zod.Issues

/-!
# The configuration

`hydrate` and `loadConfig` of `src/infrastructure/config/load-config.ts`, and the issues of `InvalidConfigError`
(`invalid-config.error.ts`).

## The model

Zod is the parameter `zod`, with the laws of `NestDdd.Zod.Lawful`. `dotenv-flow` is the parameter `files`: the variables
of the `.env` files for a value of `NODE_ENV`. The locale that writes the messages of issues is a parameter too.

## What is proved

* `loadConfig_eq_ok_iff`, `loadConfig_eq_error_iff` — when it returns, and what, and when it throws.
* `parseConfig_eq_ok`, `fields_of_section`, `exists_parseConfig` — a configuration is accepted section by section.
* `mistakes_told` — **every setting that is wrong is told of**, at once, and in the words of the schema alone.
-/

namespace NestDdd.Config

open NestDdd.Shared NestDdd.Theory NestDdd.Zod NestDdd.Config.Schemas

/-! ### Variables -/

/-- How a variable is read. -/
inductive Reading where
  /-- `envString`. -/
  | text
  /-- `envBool`. -/
  | flag
  /-- `envList`. -/
  | list
  /-- `envList`, with each item in capitals. -/
  | capitals

/-- A list of strings. -/
def ofItems (items : Option (List JsString)) : Datum :=
  match items with
  | some items => .array (items.map .string)
  | none => .undefined

/-- A text. -/
def ofText (text : Option JsString) : Datum :=
  match text with
  | some text => .string text
  | none => .undefined

/-- What `envBool` hands to the schema. -/
def RawBool.datum : RawBool → Datum
  | .unset => .undefined
  | .bool b => .bool b
  | .invalid text => .string text

/-- What is read from a variable. -/
def Reading.read : Reading → Option JsString → Datum
  | .text, value => ofText (envString value)
  | .flag, value => (envBool value).datum
  | .list, value => ofItems (envList value)
  | .capitals, value => ofItems ((envList value).map (List.map JsString.toUpperCase))

/-- The keys of a section, each with how its variable is read, and which one that is. -/
abbrev Section := List (JsString × Reading × JsString)

/-- The object of a section. -/
def hydrateSection (env : Environment) (entries : Section) : Datum :=
  .object (entries.map fun v => (v.1, v.2.1.read (env v.2.2)))

/-- `app`. -/
def appVariables : Section := [("env", .text, "NODE_ENV")]

/-- `logging`. -/
def loggingVariables : Section :=
  [("logLevel", .text, "LOG_LEVEL"),
    ("showStackTraces", .flag, "SHOW_STACK_TRACES"),
    ("requestIdHeader", .text, "REQUEST_ID_HEADER"),
    ("toFile", .flag, "LOGGING_TO_FILE"),
    ("directory", .text, "LOGGING_DIR"),
    ("fileName", .text, "LOGGING_FILE_NAME"),
    ("filesLimit", .text, "LOGGING_FILES_LIMIT"),
    ("maxSize", .text, "LOGGING_MAX_SIZE"),
    ("pretty", .flag, "LOGGING_PRETTY")]

/-- `http`. -/
def httpVariables : Section :=
  [("port", .text, "PORT"),
    ("corsOrigins", .list, "CORS_ORIGINS"),
    ("serverTimeout", .text, "SERVER_TIMEOUT"),
    ("headersTimeout", .text, "HEADERS_TIMEOUT"),
    ("keepAliveTimeout", .text, "KEEP_ALIVE_TIMEOUT"),
    ("jsonBodyLimit", .text, "JSON_BODY_LIMIT"),
    ("urlencodedBodyLimit", .text, "URLENCODED_BODY_LIMIT"),
    ("swaggerEnabled", .flag, "SWAGGER_ENABLED"),
    ("trustProxy", .flag, "TRUST_PROXY"),
    ("csrfEnabled", .flag, "CSRF_ENABLED"),
    ("csrfTrustedOrigins", .list, "CSRF_TRUSTED_ORIGINS")]

/-- `database.health`. -/
def healthVariables : Section :=
  [("pingOnBoot", .flag, "DATABASE_PING_ON_BOOT"),
    ("timeoutMs", .text, "DATABASE_PING_TIMEOUT_MS"),
    ("maxRetries", .text, "DATABASE_PING_MAX_RETRIES"),
    ("requiredSources", .list, "DATABASE_PING_REQUIRED_SOURCES"),
    ("concurrency", .text, "DATABASE_PING_CONCURRENCY"),
    ("jitterMs", .text, "DATABASE_PING_JITTER_MS")]

/-- `database.oracle`. -/
def oracleVariables : Section :=
  [("thickMode", .flag, "ORACLE_THICK_MODE"),
    ("clientLibDir", .text, "ORACLE_CLIENT_LIB_DIR"),
    ("clientConfigDir", .text, "ORACLE_CLIENT_CONFIG_DIR"),
    ("fetchAsString", .capitals, "ORACLE_FETCH_AS_STRING"),
    ("fetchAsBuffer", .capitals, "ORACLE_FETCH_AS_BUFFER")]

/-- `jwt`. -/
def jwtVariables : Section :=
  [("secret", .text, "JWT_SECRET"),
    ("algorithms", .list, "JWT_ALGORITHMS"),
    ("issuer", .text, "JWT_ISSUER"),
    ("audience", .text, "JWT_AUDIENCE"),
    ("cookieName", .text, "JWT_COOKIE_NAME")]

/-- `legacy`. -/
def legacyVariables : Section :=
  [("forwardEnabled", .flag, "LEGACY_FORWARD_ENABLED"),
    ("targetUrl", .text, "LEGACY_TARGET_URL"),
    ("forwardPrefixes", .list, "LEGACY_FORWARD_PREFIXES"),
    ("timeoutMs", .text, "LEGACY_TIMEOUT_MS"),
    ("preserveHostHeader", .flag, "LEGACY_PRESERVE_HOST_HEADER"),
    ("logRequests", .flag, "LEGACY_LOG_REQUESTS"),
    ("logFileName", .text, "LEGACY_LOG_FILE_NAME")]

/-- `scheduler`. -/
def schedulerVariables : Section :=
  [("enabled", .flag, "SCHEDULER_ENABLED"), ("timezone", .text, "SCHEDULER_TIMEZONE")]

/-- `shutdown`. -/
def shutdownVariables : Section :=
  [("drainDelayMs", .text, "SHUTDOWN_DRAIN_DELAY_MS"),
    ("forceAfterMs", .text, "SHUTDOWN_FORCE_AFTER_MS"),
    ("jobDrainMs", .text, "SHUTDOWN_JOB_DRAIN_MS")]

/-- `tls`. -/
def tlsVariables : Section :=
  [("enabled", .flag, "TLS_ENABLED"),
    ("keyFile", .text, "TLS_KEY_FILE"),
    ("certFile", .text, "TLS_CERT_FILE"),
    ("caFile", .text, "TLS_CA_FILE"),
    ("passphrase", .text, "TLS_PASSPHRASE"),
    ("minVersion", .text, "TLS_MIN_VERSION")]

/-- `cluster`. -/
def clusterVariables : Section :=
  [("enabled", .flag, "CLUSTER_ENABLED"),
    ("workers", .text, "CLUSTER_WORKERS"),
    ("respawn", .flag, "CLUSTER_RESPAWN"),
    ("respawnMaxPerMinute", .text, "CLUSTER_RESPAWN_MAX_PER_MINUTE"),
    ("isLeader", .flag, "CLUSTER_LEADER")]

/-- `database`, which a service without one leaves out. -/
def hydrateDatabase (env : Environment) : Datum :=
  match envString (env "DATABASE_CONFIG_JSON") with
  | some databaseSources => .object
    [("sources", .string databaseSources),
      ("health", hydrateSection env healthVariables),
      ("oracle", hydrateSection env oracleVariables),
      ("useDbLink", Reading.read .flag (env "DATABASE_USE_DBLINK"))]
  | none => .undefined

/-- `hydrate`. -/
def hydrate (env : Environment) : Datum := .object
  [("app", hydrateSection env appVariables),
    ("logging", hydrateSection env loggingVariables),
    ("http", hydrateSection env httpVariables),
    ("database", hydrateDatabase env),
    ("jwt", hydrateSection env jwtVariables),
    ("legacy", hydrateSection env legacyVariables),
    ("scheduler", hydrateSection env schedulerVariables),
    ("shutdown", hydrateSection env shutdownVariables),
    ("tls", hydrateSection env tlsVariables),
    ("cluster", hydrateSection env clusterVariables)]

/-! ### Loading -/

/-- What `dotenv-flow` has in the files for a value of `NODE_ENV`. -/
abbrev EnvFiles := Option JsString → Environment

/-- `loadEnvFiles`: a variable that exists wins. -/
def loadEnvFiles (files : EnvFiles) (env : Environment) : Environment :=
  if env "NODE_ENV" = some (JsString.ofString "test") ∨ env "NODE_ENV" = some (JsString.ofString "testing") then env
  else fun name => (env name).or (files (env "NODE_ENV") name)

/-- An issue of `InvalidConfigError`. -/
structure ConfigIssue where
  /-- `path`. -/
  path : JsString
  /-- `code`. -/
  code : JsString
  /-- `message`. -/
  message : JsString
  deriving DecidableEq

/-- `path.join('.')`, or `(root)`. -/
def pathText (path : List Key) : JsString :=
  let joined := [0x2E].intercalate (path.map Key.text)
  if joined.isEmpty then "(root)" else joined

/-- What `loadConfig` says of an issue. -/
def ConfigIssue.of (locale : Reason → JsString) (i : Issue) : ConfigIssue :=
  ⟨pathText i.path, i.reason.code, i.text locale⟩

/-- What `loadConfig` validates, in the environment it has completed. -/
def parseConfig (zod : Library) (canParse : JsString → Bool) (env : Environment) : Parsed :=
  zod.safeParse (rootSchema canParse env) (hydrate env)

/-- `loadConfig`; an error is an `InvalidConfigError`. -/
def loadConfig (zod : Library) (canParse : JsString → Bool) (locale : Reason → JsString) (files : EnvFiles)
    (env : Environment) : Except (List ConfigIssue) Datum :=
  (parseConfig zod canParse (loadEnvFiles files env)).mapError (List.map (ConfigIssue.of locale))

/-! ### Sections -/

variable {zod : Library} {canParse : JsString → Bool} {locale : Reason → JsString} {files : EnvFiles}
  {env : Environment}

/-- The root is a record; the file of the forwarding log is not that of the application log. -/
theorem object_of_parseConfig {c : Datum} (h : parseConfig zod canParse env = .ok c) :
    (Schema.object (rootFields canParse env) false).safeParse (hydrate env) = .ok c ∧
      sameString ((c.get "legacy").get "logFileName") ((c.get "logging").get "fileName") = false := by
  obtain ⟨v, hv, hpasses⟩ := safeParse_checked_iff.mp (zod.safeParse_eq_ok_iff.mp h)
  obtain ⟨l, rfl⟩ := isRecord_iff.mp (safeParse_object nodup_rootFields hv).2.1
  obtain rfl := passes_eq rfl hpasses
  refine ⟨hv, Bool.eq_false_iff.mpr fun hsame => ?_⟩
  have hnone := hpasses.1
  simp [Check.issues, hsame] at hnone

/-- The root, section by section. -/
theorem parseConfig_eq_ok {c : Datum} (h : parseConfig zod canParse env = .ok c) :
    (∀ e ∈ rootFields canParse env, e.2.safeParse ((hydrate env).get e.1) = .ok (c.get e.1)) ∧
      sameString ((c.get "legacy").get "logFileName") ((c.get "logging").get "fileName") = false := by
  obtain ⟨hobject, hlogs⟩ := object_of_parseConfig h
  exact ⟨(safeParse_object nodup_rootFields hobject).2.2, hlogs⟩

/-- A section is a record, accepted field by field. -/
theorem fields_of_section {c : Datum} {fields : List (JsString × Schema)} {passthrough : Bool}
    (h : parseConfig zod canParse env = .ok c) (key : JsString) (s : Schema) (hmem : (key, s) ∈ rootFields canParse env)
    (hs : s = .object fields passthrough) (hnodup : (fields.map Prod.fst).Nodup) : (c.get key).isRecord = true ∧
      ∀ e ∈ fields, e.2.safeParse (((hydrate env).get key).get e.1) = .ok ((c.get key).get e.1) := by
  have hsection := (parseConfig_eq_ok h).1 _ hmem
  rw [hs] at hsection
  exact (safeParse_object hnodup hsection).2

/-- There is nothing but sections. -/
theorem get_of_not_section {c : Datum} (h : parseConfig zod canParse env = .ok c) {key : JsString}
    (hkey : key ∉ (rootFields canParse env).map Prod.fst) : c.get key = .undefined :=
  get_stripped (object_of_parseConfig h).1 hkey

/-- Sections that are accepted make a root that is, unless the two logs have one file. -/
theorem exists_parseConfig {w : JsString → Datum}
    (h : ∀ e ∈ rootFields canParse env, e.2.safeParse ((hydrate env).get e.1) = .ok (w e.1))
    (hlogs : sameString ((w "legacy").get "logFileName") ((w "logging").get "fileName") = false) :
    ∃ c, parseConfig zod canParse env = .ok c ∧ ∀ e ∈ rootFields canParse env, c.get e.1 = w e.1 := by
  have hobject : ∃ c, (Schema.object (rootFields canParse env) false).safeParse (hydrate env) = .ok c :=
    exists_safeParse_object rfl fun e he => ⟨w e.1, h e he⟩
  obtain ⟨c, hc⟩ := hobject
  have hget (e : JsString × Schema) (he : e ∈ rootFields canParse env) : c.get e.1 = w e.1 := by
    have hboth := (safeParse_object nodup_rootFields hc).2.2 e he
    rw [h e he] at hboth
    exact (Except.ok.inj hboth).symm
  refine ⟨c, zod.safeParse_eq_ok_iff.mpr (safeParse_checked_iff.mpr ⟨c, hc, ?_, ?_⟩), hget⟩
  · have hlegacy := hget ("legacy", legacySchema) (by simp [rootFields])
    have hlogging := hget ("logging", loggingSchema) (by simp [rootFields])
    simp only at hlegacy hlogging
    simp [Check.issues, hlegacy, hlogging, hlogs]
  · rfl

/-! ### What an error tells -/

theorem loadConfig_eq_ok_iff {c : Datum} : loadConfig zod canParse locale files env = .ok c ↔
    parseConfig zod canParse (loadEnvFiles files env) = .ok c := by
  rw [loadConfig]
  cases parseConfig zod canParse (loadEnvFiles files env) <;> simp [Except.mapError]

theorem loadConfig_eq_error_iff {issues : List ConfigIssue} : loadConfig zod canParse locale files env = .error issues ↔
    ∃ l, parseConfig zod canParse (loadEnvFiles files env) = .error l ∧ l.map (ConfigIssue.of locale) = issues := by
  rw [loadConfig]
  cases parseConfig zod canParse (loadEnvFiles files env) <;> simp [Except.mapError]

/-- What the schema can say does not depend on the environment. -/
theorem says_rootSchema {i : Issue} (h : (rootSchema canParse env).Says i) (canParse' : JsString → Bool)
    (env' : Environment) : (rootSchema canParse' env').Says i := h

theorem issues_of_error {l : List Issue} (h : parseConfig zod canParse env = .error l) :
    (zod.safeParse (rootSchema canParse env) (hydrate env)).issues = l := by
  rw [parseConfig] at h
  rw [h]
  rfl

/-- **Every setting that is wrong is told of** in one error, under its own path, whatever else is wrong; and the error
says what the schema would say in any other environment, with no part of a value. -/
theorem mistakes_told {issues : List ConfigIssue} (h : loadConfig zod canParse locale files env = .error issues) :
    (∀ (path : List Key) (t : Schema) (e : Datum) (i : Issue),
        At (rootSchema canParse (loadEnvFiles files env)) (hydrate (loadEnvFiles files env)) path t e →
          i ∈ (zod.safeParse t e).issues → ConfigIssue.of locale { i with path := path ++ i.path } ∈ issues) ∧
      ∀ c ∈ issues, ∃ i : Issue, c = .of locale i ∧ ∀ canParse' env', (rootSchema canParse' env').Says i := by
  obtain ⟨l, hl, rfl⟩ := loadConfig_eq_error_iff.mp h
  have hissues := issues_of_error hl
  constructor
  · intro path t e i hat hi
    exact List.mem_map_of_mem (hissues ▸ hat.issues zod hi)
  · intro c hc
    obtain ⟨i, hi, rfl⟩ := List.mem_map.mp hc
    exact ⟨i, rfl, says_rootSchema (says_of_issues zod (hissues ▸ hi))⟩

/-- An environment with two mistakes and nothing else. -/
def mistaken : Environment := fun name =>
  if name = JsString.ofString "PORT" then some (JsString.ofString "http")
  else if name = JsString.ofString "LOG_LEVEL" then some (JsString.ofString "loud")
  else none

/-- There the port is told of, among four settings. -/
theorem mistakes_told_mistaken :
    let issues : List ConfigIssue := [⟨"app.env", "invalid_value", []⟩, ⟨"logging.logLevel", "invalid_value", []⟩,
      ⟨"http.port", "invalid_type", []⟩, ⟨"jwt.secret", "invalid_type", []⟩]
    loadConfig .reference (fun _ => true) (fun _ => []) (fun _ _ => none) mistaken = .error issues ∧
      ⟨"http.port", "invalid_type", []⟩ ∈ issues ∧
      ∀ c ∈ issues, ∃ i : Issue, c = .of (fun _ => []) i ∧ ∀ canParse env, (rootSchema canParse env).Says i := by
  intro issues
  have herror : loadConfig .reference (fun _ => true) (fun _ => []) (fun _ _ => none) mistaken = .error issues := rfl
  obtain ⟨htold, hsays⟩ := mistakes_told herror
  have hport : At (rootSchema (fun _ => true) (loadEnvFiles (fun _ _ => none) mistaken))
      (hydrate (loadEnvFiles (fun _ _ => none) mistaken)) [.name "http", .name "port"]
      (coercedDefault [.minimum 1 true, .maximum 65535] 3000) (.string (JsString.ofString "http")) :=
    .checked (.field nodup_rootFields (List.mem_of_getElem? (i := 2) rfl)
      (.field (by decide) (List.mem_of_getElem? (i := 0) rfl) .here))
  exact ⟨herror, htold _ _ _ ⟨[], .invalidType "number" .nan, none⟩ hport List.mem_cons_self, hsays⟩

theorem exists_of_any {ε α : Type} {x : Except ε α} {p : α → Bool} (h : x.toOption.any p = true) :
    ∃ a, x = .ok a ∧ p a = true := by
  cases x with
  | error e => cases h
  | ok a => exact ⟨a, rfl, h⟩

theorem eq_of_sameString {d e : Datum} (h : sameString d e = true) : d = e := by
  unfold sameString at h
  split at h
  · exact congrArg Datum.string (eq_of_beq h)
  · cases h

/-- A service with an Oracle database, whose password is in `PASSWORD`. -/
def withDatabase : Environment := fun name =>
  if name = JsString.ofString "NODE_ENV" then some (JsString.ofString "production")
  else if name = JsString.ofString "JWT_SECRET" then some (JsString.ofString "0123456789abcdef0123456789abcdef")
  else if name = JsString.ofString "PASSWORD" then some (JsString.ofString "tiger")
  else if name = JsString.ofString "DATABASE_CONFIG_JSON" then some (JsString.ofString <|
    "[\x7b\"key\":\"a\",\"dialect\":\"oracle\",\"connectString\":\"db\",\"user\":\"scott\"," ++
    "\"passwordEnv\":\"PASSWORD\"\x7d]")
  else none

/-- Where the password is, in the configuration. -/
def passwordPath : List Key := [.name "database", .name "sources", .index 0, .name "password"]

theorem loadConfig_withDatabase :
    ∃ c, loadConfig .reference (fun _ => true) (fun _ => []) (fun _ _ => none) withDatabase = .ok c ∧
      c.follow passwordPath = .string (JsString.ofString "tiger") := by
  obtain ⟨c, hc, hsecret⟩ := exists_of_any
    (x := loadConfig .reference (fun _ => true) (fun _ => []) (fun _ _ => none) withDatabase)
    (p := fun c => sameString (c.follow passwordPath) (.string (JsString.ofString "tiger"))) (by decide +kernel)
  exact ⟨c, hc, eq_of_sameString hsecret⟩

end NestDdd.Config
