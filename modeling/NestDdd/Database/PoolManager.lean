import NestDdd.Common.Semaphore
import NestDdd.Shared.Js
import NestDdd.Theory.Machine
import Mathlib.Data.Finset.Dedup

/-!
# The pool manager and its pings at boot

`PoolManager` (`src/infrastructure/database/connection/pool.manager.ts`) keeps one
client for each configured source. `init` makes them: a pool for Oracle, a placeholder
for every other dialect. `pingAll` pings the implemented ones when the service boots,
a bounded number at a time and each up to `retries + 1` times, and rejects when a
required one stays silent.

## The model

`pingAll` is a `Machine`. Its state holds the semaphore, where the task of each source
stands (`Phase`), the failures recorded so far and the lines logged; `answers` is what
each source answered to its pings, kept for the specification only. The events are what
the outside decides: a woken task is back, a ping is answered, a backoff is over, a task
that returned gives up its slot. Between two events the code runs to its next `await`.

## Honest scope

* The time-out of a ping belongs to the client: here a ping is answered in some way.
* The jitter before the first ping and the length of a backoff are only time.
* Pools that fail to open (`init`) are given by `createPool`.
-/

namespace NestDdd.Database

open NestDdd.Common NestDdd.Shared NestDdd.Theory

/-! ### The sources and their clients -/

/-- `DatabaseSource['dialect']`. -/
inductive Dialect where
  | oracle
  | postgres
  | mysql
  | mariadb
  | mssql
  | sqlite
  deriving DecidableEq

/-- The dialect as the configuration writes it. -/
def Dialect.name : Dialect → JsString
  | .oracle => "oracle"
  | .postgres => "postgres"
  | .mysql => "mysql"
  | .mariadb => "mariadb"
  | .mssql => "mssql"
  | .sqlite => "sqlite"

/-- `DatabaseSource`, as far as `init` looks at it. -/
structure DatabaseSource where
  /-- `key`. -/
  key : JsString
  /-- `dialect`. -/
  dialect : Dialect

/-- The client of a source. -/
inductive DatabaseClient where
  /-- `OracleClient`. -/
  | oracleClient
  /-- `NotImplementedClient`. -/
  | notImplementedClient
  deriving DecidableEq

/-- `client.implemented`. -/
def DatabaseClient.implemented : DatabaseClient → Bool
  | .oracleClient => true
  | .notImplementedClient => false

/-- One entry of the maps `clients` and `meta`, which have the same keys. -/
structure Entry where
  /-- The key. -/
  key : JsString
  /-- The client. -/
  client : DatabaseClient
  /-- The dialect in `meta`. -/
  dialect : Dialect

/-- `PoolManager`: the entries, in the order they were set. -/
structure PoolManager where
  /-- The entries of `clients` and `meta`. -/
  entries : List Entry
  /-- A map has each key once. -/
  nodup : (entries.map Entry.key).Nodup

namespace PoolManager

/-- `new PoolManager(logger)`. -/
def empty : PoolManager := ⟨[], List.nodup_nil⟩

variable (pm : PoolManager)

/-- `hasSource`. -/
def hasSource (key : JsString) : Prop := key ∈ pm.entries.map Entry.key

instance (key : JsString) : Decidable (pm.hasSource key) :=
  inferInstanceAs (Decidable (key ∈ pm.entries.map Entry.key))

/-- `meta.set` and `clients.set`, for a key that is not there yet. -/
def set (e : Entry) (h : ¬ pm.hasSource e.key) : PoolManager where
  entries := pm.entries ++ [e]
  nodup := by
    rw [List.map_append]
    refine List.nodup_append.mpr ⟨pm.nodup, List.nodup_singleton _, ?_⟩
    intro a ha b hb hab
    rw [List.mem_singleton.mp hb] at hab
    exact h (hab ▸ ha)

/-- The body of the loop of `init`. -/
def initSource (createPool : DatabaseSource → Except JsValue Unit) (source : DatabaseSource) :
    Except JsValue PoolManager :=
  if h : pm.hasSource source.key then .ok pm
  else
    match source.dialect with
    | .oracle => (createPool source).map fun _ => pm.set ⟨source.key, .oracleClient, .oracle⟩ h
    | dialect => .ok (pm.set ⟨source.key, .notImplementedClient, dialect⟩ h)

/-- `init`; `createPool` opens the pool of a source, or throws. -/
def init (createPool : DatabaseSource → Except JsValue Unit) (sources : List DatabaseSource) :
    Except JsValue PoolManager :=
  sources.foldlM (fun pm source => pm.initSource createPool source) pm

/-- `implementedKeys`. -/
def implementedKeys : List JsString := (pm.entries.filter (·.client.implemented)).map Entry.key

/-- `placeholderKeys`. -/
def placeholderKeys : List JsString := (pm.entries.filter (!·.client.implemented)).map Entry.key

/-- `this.meta.get(key)?.dialect ?? 'unknown'`. -/
def dialectOf (key : JsString) : JsString :=
  ((pm.entries.find? (·.key == key)).map (·.dialect.name)).getD "unknown"

end PoolManager

/-! ### What `pingAll` is given and what it throws -/

/-- `PingAllOptions`, with the defaults in place. -/
structure PingAllOptions where
  /-- `retries`. -/
  retries : ℕ
  /-- `requiredSet`. -/
  requiredSet : Option (Finset JsString)
  /-- `concurrency`. -/
  concurrency : ℤ

/-- `reqSet`: the required set if it is given and not empty, or else all that is implemented. -/
def PoolManager.reqSet (pm : PoolManager) (opts : PingAllOptions) : Finset JsString :=
  match opts.requiredSet with
  | none => pm.implementedKeys.toFinset
  | some keys => if keys = ∅ then pm.implementedKeys.toFinset else keys

/-- `DbHealthFailure`. -/
structure DbHealthFailure where
  /-- `sourceKey`. -/
  sourceKey : JsString
  /-- `dialect`. -/
  dialect : JsString
  /-- `message`. -/
  message : JsString
  /-- `attempts`. -/
  attempts : ℕ
  /-- `latencyMs`. -/
  latencyMs : Option ℤ

/-- `{ ...failure }`. -/
def DbHealthFailure.fields (f : DbHealthFailure) : List (String × JsValue) :=
  [("sourceKey", .string f.sourceKey), ("dialect", .string f.dialect), ("message", .string f.message),
    ("attempts", .int f.attempts)] ++ (f.latencyMs.map fun n => ("latencyMs", JsValue.int n)).toList

/-- `AggregateDbHealthError`. -/
structure AggregateDbHealthError where
  /-- `failures`. -/
  failures : List DbHealthFailure

/-- The message of an `AggregateDbHealthError`. -/
def AggregateDbHealthError.message (_ : AggregateDbHealthError) : JsString :=
  "One or more database sources are unavailable"

/-- `error instanceof Error`. -/
def isError : JsValue → Bool
  | .object .error _ | .object (.appError _) _ | .object (.domainError _) _ => true
  | _ => false

/-- `errorMessage`. -/
def errorMessage (error : JsValue) : JsString :=
  if isError error then
    if isError (error.get "cause") then
      JsString.concat [(error.get "message").text, ": ", ((error.get "cause").get "message").text]
    else (error.get "message").text
  else error.text

/-! ### The tasks -/

/-- What a client answers to a ping: its promise resolves, or rejects with a value. -/
abbrev Answer := Except JsValue Unit

/-- Where the task of a source stands. -/
inductive Phase where
  /-- It waits in `sem.with`. -/
  | waiting
  /-- Its ping number `attempt` is out, since `started`. -/
  | pinging (attempt : ℕ) (started : ℤ)
  /-- Ping number `attempt` failed, and it waits before the next. -/
  | backingOff (attempt : ℕ)
  /-- Its function has returned, and the slot is still held. -/
  | returned
  /-- It is over. -/
  | done
  deriving DecidableEq

/-- Whether the task holds a slot. -/
def Phase.Busy : Phase → Prop
  | .waiting | .done => False
  | .pinging _ _ | .backingOff _ | .returned => True

/-- The state of a call of `pingAll`. -/
structure Boot where
  /-- `sem`. -/
  sem : Semaphore JsString
  /-- The tasks. -/
  phase : JsString → Phase
  /-- `failures`. -/
  failures : List DbHealthFailure
  /-- The lines logged. -/
  logs : List LogLine
  /-- What each source answered so far. -/
  answers : JsString → List Answer

/-- What the outside decides. -/
inductive BootEvent where
  /-- The task of `key`, woken by the semaphore, is back at time `now`. -/
  | resumed (key : JsString) (now : ℤ)
  /-- The ping of `key` is answered at time `now`. -/
  | answered (key : JsString) (answer : Answer) (now : ℤ)
  /-- The backoff of `key` is over at time `now`. -/
  | backedOff (key : JsString) (now : ℤ)
  /-- The `finally` block of `sem.with` runs for `key`. -/
  | released (key : JsString)

namespace Boot

variable (pm : PoolManager) (opts : PingAllOptions)

/-- `this.logger[level](message, fields)`. -/
def log (s : Boot) (level : Level) (message : JsString) (fields : List (String × JsValue)) : Boot :=
  { s with logs := s.logs ++ [⟨level, message, fields⟩] }

/-- `sem.with(fn)`, up to its first `await`: with a slot, the first ping goes out. -/
def enter (s : Boot) (key : JsString) (now : ℤ) : Boot :=
  { s with
    sem := s.sem.enter key
    phase := Function.update s.phase key (if 0 < s.sem.count then .pinging 1 now else .waiting) }

/-- One round of the loop over `placeholderKeys`. -/
def skip (s : Boot) (key : JsString) : Boot :=
  if key ∈ pm.reqSet opts then
    { s with
      failures := s.failures ++ [{
        sourceKey := key
        dialect := pm.dialectOf key
        message := JsString.concat ["dialect \"", pm.dialectOf key, "\" is not implemented"]
        attempts := 0
        latencyMs := none }] }
  else
    s.log .warn (JsString.concat ["[", key, "] db.ping.skipped [not implemented]"])
      [("sourceKey", .string key), ("dialect", .string (pm.dialectOf key))]

/-- Before the placeholders are looked at. -/
def fresh : Boot where
  sem := .new opts.concurrency
  phase := fun _ => .done
  failures := []
  logs := []
  answers := fun _ => []

/-- `pingAll` up to `Promise.all`, with every task entered at its time of `clock`. -/
def start (clock : JsString → ℤ) : Boot :=
  pm.implementedKeys.foldl (fun s key => s.enter key (clock key))
    (pm.placeholderKeys.foldl (skip pm opts) (fresh opts))

/-- The ping was answered: the line, and the task returns. -/
def succeed (s : Boot) (key : JsString) (attempt : ℕ) : Boot :=
  { s with phase := Function.update s.phase key .returned }.log .info
    (JsString.concat ["[", key, "] db.ping.success"])
    [("sourceKey", .string key), ("dialect", .string (pm.dialectOf key)),
      ("required", .bool (decide (key ∈ pm.reqSet opts))), ("attempt", .int attempt)]

/-- The failure the task records when all retries are exhausted. -/
def failureOf (key : JsString) (error : JsValue) (latency : ℤ) : DbHealthFailure where
  sourceKey := key
  dialect := pm.dialectOf key
  message := errorMessage error
  attempts := opts.retries + 1
  latencyMs := some latency

/-- All retries are exhausted: a required source is a failure, an optional one a warning. -/
def exhaust (s : Boot) (key : JsString) (failure : DbHealthFailure) : Boot :=
  if key ∈ pm.reqSet opts then
    { s with
      phase := Function.update s.phase key .returned
      failures := s.failures ++ [failure] }.log .error
      (JsString.concat ["[", key, "] db.ping.fail [required]"]) failure.fields
  else
    { s with phase := Function.update s.phase key .returned }.log .warn
      (JsString.concat ["[", key, "] db.ping.fail [optional]"]) failure.fields

/-- The answer is kept for the specification. -/
def hear (s : Boot) (key : JsString) (answer : Answer) : Boot :=
  { s with answers := Function.update s.answers key (s.answers key ++ [answer]) }

/-- The `catch` block and what follows it. -/
def fail (s : Boot) (key : JsString) (attempt : ℕ) (started : ℤ) (error : JsValue) (now : ℤ) : Boot :=
  if attempt ≤ opts.retries then { s with phase := Function.update s.phase key (.backingOff attempt) }
  else s.exhaust pm opts key (failureOf pm opts key error (now - started))

/-- What the code does about an event. -/
def step (s : Boot) : BootEvent → Boot
  | .resumed key now => { s with sem := { s.sem with woken := s.sem.woken.erase key } }.enter key now
  | .answered key answer now =>
    match s.phase key, answer with
    | .pinging attempt _, .ok () => (s.hear key answer).succeed pm opts key attempt
    | .pinging attempt started, .error e => (s.hear key answer).fail pm opts key attempt started e now
    | _, _ => s
  | .backedOff key now =>
    match s.phase key with
    | .backingOff attempt => { s with phase := Function.update s.phase key (.pinging (attempt + 1) now) }
    | _ => s
  | .released key =>
    { s with
      sem := s.sem.leave key
      phase := Function.update s.phase key .done }

/-- When an event can happen. -/
def Enabled (s : Boot) : BootEvent → Prop
  | .resumed key _ => key ∈ s.sem.woken
  | .answered key _ _ => ∃ attempt started, s.phase key = .pinging attempt started
  | .backedOff key _ => ∃ attempt, s.phase key = .backingOff attempt
  | .released key => s.phase key = .returned

/-- `Promise.all` has settled: every task is over. -/
def Settled (s : Boot) : Prop := ∀ key, s.phase key = .done

/-- How `pingAll` ends once every task is over. -/
def outcome (s : Boot) : Except AggregateDbHealthError Unit :=
  if 0 < s.failures.length then .error ⟨s.failures⟩ else .ok ()

end Boot

/-- `pingAll`. -/
def PoolManager.pingAll (pm : PoolManager) (opts : PingAllOptions) : Machine Boot BootEvent where
  Initial s := ∃ clock, s = Boot.start pm opts clock
  Enabled := Boot.Enabled
  next := Boot.step pm opts

/-! ### The specification -/

/-- Whether a client answered a ping. -/
def Answered (answers : List Answer) : Prop := .ok () ∈ answers

/-- Pings until the first success, and never more than `retries + 1`. -/
structure UntilSuccess (retries : ℕ) (answers : List Answer) : Prop where
  /-- Only the last one may be a success. -/
  failed : .ok () ∉ answers.dropLast
  /-- The bound. -/
  bounded : answers.length ≤ retries + 1
  /-- Nothing ends it but a success or the bound. -/
  complete : Answered answers ∨ answers.length = retries + 1

namespace Boot

/-- The pings sent to a source so far. -/
def sent (s : Boot) (key : JsString) : ℕ :=
  (s.answers key).length + match s.phase key with | .pinging _ _ => 1 | _ => 0

/-- The key names a source with an implemented client that answered a ping. -/
def Healthy (pm : PoolManager) (s : Boot) (key : JsString) : Prop :=
  key ∈ pm.implementedKeys ∧ Answered (s.answers key)

/-- **What `pingAll` promises**, of a call that has settled. -/
structure Contract (pm : PoolManager) (opts : PingAllOptions) (s : Boot) : Prop where
  /-- It resolves if and only if every required source is healthy. -/
  resolves : s.outcome = .ok () ↔ ∀ key ∈ pm.reqSet opts, s.Healthy pm key
  /-- Otherwise it rejects, and the failures name exactly the required sources that are not. -/
  rejects : (∃ key ∈ pm.reqSet opts, ¬ s.Healthy pm key) → ∃ failures,
    s.outcome = .error ⟨failures⟩ ∧
      ∀ key, key ∈ failures.map DbHealthFailure.sourceKey ↔ key ∈ pm.reqSet opts ∧ ¬ s.Healthy pm key
  /-- Every implemented source is pinged until its first success, within the bound. -/
  pings : ∀ key ∈ pm.implementedKeys, UntilSuccess opts.retries (s.answers key)

end Boot

end NestDdd.Database
