import NestDdd.Config.Inherited
import NestDdd.Config.LogFiles
import NestDdd.Config.Settled
import NestDdd.Config.Waits

/-!
# Slices of the configuration

Most of the program takes a slice of the configuration: `startPrimary` its `StartPrimaryConfig`, which `AppConfig`
"satisfies structurally" (`src/infrastructure/cluster/cluster-primary.ts`), the logs their three names, the timers the
waits. Here are the slices of what `loadConfig` returns.

## What is proved

* `safeParse_stringDefault`, `safeParse_flag`, `safeParse_coercedDefault`, .. — what is made of one variable.
* `exists_logsOf`, `exists_shutdownOf`, `exists_waitsOf`, `exists_primaryOf` — a slice is there, and what its own loader
  makes of the environment.
* `slices` — **every slice is there**, within its bounds.
-/

namespace NestDdd.Config

open NestDdd.Shared NestDdd.Theory NestDdd.Zod NestDdd.Config.Schemas NestDdd.Cluster

/-! ### Reading -/

/-- A text. -/
def textOf : Datum → Option JsString
  | .string s => some s
  | _ => none

/-- A boolean. -/
def flagOf : Datum → Option Bool
  | .bool b => some b
  | _ => none

/-- An integer within bounds. -/
def boundedOf (lo hi : ℕ) : Datum → Option (Bounded lo hi)
  | .number (.finite q) =>
    if q.den = 1 ∧ 0 ≤ q.num then
      if h : lo ≤ q.num.toNat ∧ q.num.toNat ≤ hi then some ⟨q.num.toNat, h⟩ else none
    else none
  | _ => none

/-- The slice of the log files. -/
def logsOf (c : Datum) : Option LogConfig := do
  let directory ← textOf ((c.get "logging").get "directory")
  let fileName ← textOf ((c.get "logging").get "fileName")
  let logFileName ← textOf ((c.get "legacy").get "logFileName")
  some ⟨directory, fileName, logFileName⟩

/-- The slice `shutdown`. -/
def shutdownOf (c : Datum) : Option ShutdownConfig := do
  let drainDelayMs ← boundedOf 0 MAX_SAFE_INTEGER ((c.get "shutdown").get "drainDelayMs")
  let forceAfterMs ← boundedOf 1 MAX_SAFE_INTEGER ((c.get "shutdown").get "forceAfterMs")
  let jobDrainMs ← boundedOf 0 MAX_SAFE_INTEGER ((c.get "shutdown").get "jobDrainMs")
  some ⟨drainDelayMs, forceAfterMs, jobDrainMs⟩

/-- A source, as far as `runClusterBootRails` reads it. -/
def capacityOf (source : Datum) : Option PoolCapacity := do
  let key ← textOf (source.get "key")
  let poolMax ← boundedOf 1 MAX_SAFE_INTEGER (source.get "poolMax")
  some ⟨key, poolMax⟩

/-- `config.database?.sources ?? []`. -/
def sourcesOf (c : Datum) : List Datum :=
  match (c.get "database").get "sources" with
  | .array sources => sources
  | _ => []

/-- The slice of `startPrimary`. -/
def primaryOf (c : Datum) : Option StartPrimaryConfig := do
  let sources ← (sourcesOf c).mapM capacityOf
  let workers ← boundedOf 0 MAX_SAFE_INTEGER ((c.get "cluster").get "workers")
  let respawn ← flagOf ((c.get "cluster").get "respawn")
  let respawnMaxPerMinute ← boundedOf 1 MAX_SAFE_INTEGER ((c.get "cluster").get "respawnMaxPerMinute")
  let shutdown ← shutdownOf c
  some
    { sources := sources
      workers := workers
      respawn := respawn
      respawnMaxPerMinute := respawnMaxPerMinute
      one_le := respawnMaxPerMinute.property.1
      drainDelayMs := shutdown.drainDelayMs
      forceAfterMs := shutdown.forceAfterMs
      forceAfter_pos := shutdown.forceAfterMs.property.1
      jobDrainMs := shutdown.jobDrainMs }

/-! ### One variable -/

variable {zod : Library} {canParse : JsString → Bool} {locale : Reason → JsString} {files : EnvFiles}
  {env : Environment} {c w : Datum}

theorem safeParse_stringDefault {value : JsString} {text : Option JsString}
    (h : (stringDefault value).safeParse (ofText text) = .ok w) : w = .string (text.getD value) := by
  cases text with
  | none => exact (safeParse_eq_ok_iff.mp h).2.symm
  | some text =>
    rw [stringDefault, safeParse_default rfl] at h
    exact (safeParse_string h).1.symm

/-- A flag is what `envBool` and the default make of it. -/
theorem safeParse_flag {value : Bool} {raw : RawBool} (h : (booleanDefault value).safeParse raw.datum = .ok w) :
    ∃ b, raw.parse value = some b ∧ w = .bool b := by
  cases raw with
  | unset => exact ⟨value, rfl, (safeParse_eq_ok_iff.mp h).2.symm⟩
  | bool b => exact ⟨b, rfl, (safeParse_eq_ok_iff.mp h).2.symm⟩
  | invalid text => cases (safeParse_eq_ok_iff.mp h).1

/-- The checks leave the integers between two bounds. -/
def Spans (checks : List Check) (lo hi : ℕ) : Prop :=
  ∀ q : ℚ, (∀ c ∈ checks, c.issues (.number (.finite q)) = []) → q.den = 1 ∧ (lo : ℤ) ≤ q.num ∧ q.num ≤ hi

theorem int_of_issues {q : ℚ} (h : Check.int.issues (.number (.finite q)) = []) :
    q.den = 1 ∧ q.num ≤ (MAX_SAFE_INTEGER : ℤ) := by
  rw [Check.issues, intIssues] at h
  split_ifs at h with hden hmax hmin
  have hone : q.den = 1 := not_not.mp hden
  refine ⟨hone, ?_⟩
  rw [← Rat.coe_int_num_of_den_eq_one hone, maxSafeInteger, not_lt] at hmax
  exact_mod_cast hmax

theorem minimum_of_issues {n : ℕ} {q : ℚ} (hden : q.den = 1)
    (h : (Check.minimum n true).issues (.number (.finite q)) = []) : (n : ℤ) ≤ q.num := by
  rw [Check.issues] at h
  split at h
  · next hle =>
    have hle' : (n : ℚ) ≤ q := hle.elim le_of_lt fun heq => heq.2.ge
    rw [← Rat.coe_int_num_of_den_eq_one hden] at hle'
    exact_mod_cast hle'
  · cases h

theorem positive_of_issues {q : ℚ} (h : (Check.minimum 0 false).issues (.number (.finite q)) = []) : 1 ≤ q.num := by
  rw [Check.issues] at h
  split at h
  · next hlt =>
    have hpos : 0 < q.num := Rat.num_pos.mpr (hlt.resolve_right fun heq => Bool.false_ne_true heq.1)
    omega
  · cases h

theorem maximum_of_issues {n : ℕ} {q : ℚ} (hden : q.den = 1)
    (h : (Check.maximum n).issues (.number (.finite q)) = []) : q.num ≤ (n : ℤ) := by
  rw [Check.issues] at h
  split at h
  · next hle =>
    rw [← Rat.coe_int_num_of_den_eq_one hden] at hle
    exact_mod_cast hle
  · cases h

theorem spans_intMin (lo : ℕ) : Spans (intMin lo) lo MAX_SAFE_INTEGER := by
  intro q h
  obtain ⟨hden, hmax⟩ := int_of_issues (h _ List.mem_cons_self)
  exact ⟨hden, minimum_of_issues hden (h _ (List.mem_cons_of_mem _ List.mem_cons_self)), hmax⟩

theorem spans_intPositive : Spans intPositive 1 MAX_SAFE_INTEGER := by
  intro q h
  obtain ⟨hden, hmax⟩ := int_of_issues (h _ List.mem_cons_self)
  exact ⟨hden, positive_of_issues (h _ (List.mem_cons_of_mem _ List.mem_cons_self)), hmax⟩

theorem spans_intBetween (lo hi : ℕ) : Spans (intBetween lo hi) lo hi := by
  intro q h
  have hden := (int_of_issues (h _ List.mem_cons_self)).1
  refine ⟨hden, minimum_of_issues hden (h _ (List.mem_cons_of_mem _ List.mem_cons_self)), ?_⟩
  exact maximum_of_issues hden (h _ (List.mem_cons_of_mem _ (List.mem_cons_of_mem _ List.mem_cons_self)))

/-- **A number that passes the checks** is an integer within their bounds. -/
theorem safeParse_bounded {coerce : Bool} {checks : List Check} {lo hi : ℕ} {d : Datum} (hspans : Spans checks lo hi)
    (hkeeps : checks.all Check.keeps = true) (h : (Schema.checked (.number coerce) checks).safeParse d = .ok w) :
    ∃ n : Bounded lo hi, w = .number (.ofNat n) ∧ (if coerce then .number d.toNumber else d) = w := by
  obtain ⟨hnumber, hissues⟩ := (safeParse_kept_iff (keeps_of_all hkeeps)).mp h
  obtain ⟨q, rfl, hd⟩ := safeParse_number hnumber
  obtain ⟨hden, hlo, hhi⟩ := hspans q hissues
  have hnat : ((q.num.toNat : ℕ) : ℤ) = q.num := Int.toNat_of_nonneg (by omega)
  have hq : q = (q.num.toNat : ℕ) := by
    rw [← Rat.coe_int_num_of_den_eq_one hden, ← Int.cast_natCast, Rat.num_intCast, hnat]
  exact ⟨⟨q.num.toNat, by omega, by omega⟩, congrArg (fun q => Datum.number (.finite q)) hq, hd⟩

@[simp] theorem boundedOf_ofNat {lo hi : ℕ} (n : Bounded lo hi) : boundedOf lo hi (.number (.ofNat n)) = some n := by
  have hn := n.property
  rw [Number.ofNat, boundedOf]
  simp [hn]

/-- **A number from a variable** is what its own loader makes of it. -/
theorem safeParse_coercedDefault {checks : List Check} {lo hi : ℕ} {text : Option JsString} (value : Bounded lo hi)
    (hspans : Spans checks lo hi) (hkeeps : checks.all Check.keeps = true)
    (h : (coercedDefault checks value).safeParse (ofText text) = .ok w) :
    ∃ n, intSetting lo hi value (text.map JsString.toNumber) = some n ∧ boundedOf lo hi w = some n := by
  cases text with
  | none =>
    obtain rfl := (safeParse_eq_ok_iff.mp h).2
    exact ⟨value, intSetting_none value, boundedOf_ofNat value⟩
  | some text =>
    rw [coercedDefault, safeParse_default rfl] at h
    obtain ⟨n, rfl, htext⟩ := safeParse_bounded hspans hkeeps h
    have hnumber : text.toNumber = .ofNat n := Datum.number.inj htext
    refine ⟨n, ?_, boundedOf_ofNat n⟩
    rw [Option.map_some, hnumber, intSetting_ofNat]

/-- A number from `DATABASE_CONFIG_JSON` is within its bounds. -/
theorem safeParse_numberDefault {checks : List Check} {lo hi : ℕ} {d : Datum} (value : Bounded lo hi)
    (hspans : Spans checks lo hi) (hkeeps : checks.all Check.keeps = true)
    (h : (numberDefault checks value).safeParse d = .ok w) : ∃ n, boundedOf lo hi w = some n := by
  cases hd : d.isUndefined with
  | true =>
    obtain ⟨-, heq⟩ := safeParse_eq_ok_iff.mp h
    rw [numberDefault, Schema.run, hd] at heq
    obtain rfl := heq
    exact ⟨value, boundedOf_ofNat value⟩
  | false =>
    rw [numberDefault, safeParse_default hd] at h
    obtain ⟨n, rfl, -⟩ := safeParse_bounded hspans hkeeps h
    exact ⟨n, boundedOf_ofNat n⟩

/-- A text with a check is what the default makes of it, and passes. -/
theorem safeParse_pattern {pattern value : JsString} {test : JsString → Bool} {message : Option JsString}
    {text : Option JsString} (hvalue : test value = true)
    (h : (Schema.default (.checked .string [.regex pattern test message]) (.string value)).safeParse (ofText text) =
      .ok w) : w = .string (text.getD value) ∧ test (text.getD value) = true := by
  cases text with
  | none => exact ⟨(safeParse_eq_ok_iff.mp h).2.symm, hvalue⟩
  | some text =>
    rw [safeParse_default rfl] at h
    obtain ⟨hstring, hissues⟩ := (safeParse_kept_iff (keeps_of_all rfl)).mp h
    obtain ⟨rfl, -⟩ := safeParse_string hstring
    refine ⟨rfl, ?_⟩
    have hnone := hissues _ List.mem_cons_self
    rw [ofText, Check.issues] at hnone
    split at hnone
    · next htest => exact htest
    · cases hnone

/-! ### The log files -/

/-- The variables of the log files. -/
def logEnv (env : Environment) : LogEnv :=
  ⟨env "LOGGING_DIR", env "LOGGING_FILE_NAME", env "LEGACY_LOG_FILE_NAME"⟩

/-- **The logs are called what their own loader calls them.** -/
theorem exists_logsOf (h : parseConfig zod canParse env = .ok c) :
    ∃ logs, loadLogConfig (logEnv env) = some logs ∧ logsOf c = some logs := by
  obtain ⟨hfields, hsame⟩ := parseConfig_eq_ok h
  obtain ⟨-, hlogging⟩ := fields_of_section h "logging" loggingSchema (by simp [rootFields]) rfl (by decide)
  have hlegacy := hfields ("legacy", legacySchema) (by simp [rootFields])
  obtain ⟨hobject, -⟩ := (safeParse_kept_iff (keeps_of_all rfl)).mp hlegacy
  obtain ⟨-, -, hlegacy⟩ := safeParse_object (by decide) hobject
  have hdirectory := safeParse_stringDefault (hlogging ("directory", stringDefault "logs") (by simp))
  have hfileName := safeParse_stringDefault (hlogging ("fileName", stringDefault "app.log") (by simp))
  obtain ⟨hlogFileName, hbare⟩ := safeParse_pattern (by decide) (hlegacy _ (List.mem_of_getElem? (i := 6) rfl))
  simp only at hdirectory hfileName hlogFileName
  rw [hfileName, hlogFileName] at hsame
  refine ⟨⟨(envString (env "LOGGING_DIR")).getD "logs", (envString (env "LOGGING_FILE_NAME")).getD "app.log",
    (envString (env "LEGACY_LOG_FILE_NAME")).getD "legacy-forward.log"⟩, ?_, ?_⟩
  · have hne : (envString (env "LEGACY_LOG_FILE_NAME")).getD "legacy-forward.log" ≠
        (envString (env "LOGGING_FILE_NAME")).getD "app.log" := by
      intro heq
      rw [heq, sameString, beq_self_eq_true] at hsame
      cases hsame
    simp only [loadLogConfig, logEnv, hbare, hne, Bool.not_true, Bool.false_eq_true, if_false]
  · rw [logsOf, hdirectory, hfileName, hlogFileName]
    rfl

/-! ### The shutdown -/

/-- The variables of the shutdown, as numbers. -/
def rawShutdown (env : Environment) : RawShutdown where
  drainDelayMs := (envString (env "SHUTDOWN_DRAIN_DELAY_MS")).map JsString.toNumber
  forceAfterMs := (envString (env "SHUTDOWN_FORCE_AFTER_MS")).map JsString.toNumber
  jobDrainMs := (envString (env "SHUTDOWN_JOB_DRAIN_MS")).map JsString.toNumber

/-- **The shutdown waits as its own loader says.** -/
theorem exists_shutdownOf (h : parseConfig zod canParse env = .ok c) :
    ∃ shutdown, Config.shutdownSchema (rawShutdown env) = some shutdown ∧ shutdownOf c = some shutdown := by
  obtain ⟨-, hfields⟩ := fields_of_section h "shutdown" Schemas.shutdownSchema (by simp [rootFields]) rfl (by decide)
  obtain ⟨drain, hdrain, hdrain'⟩ := safeParse_coercedDefault ⟨5000, by decide⟩ (spans_intMin 0) rfl
    (hfields ("drainDelayMs", coercedDefault (intMin 0) 5000) (by simp))
  obtain ⟨force, hforce, hforce'⟩ := safeParse_coercedDefault ⟨10000, by decide⟩ spans_intPositive rfl
    (hfields ("forceAfterMs", coercedDefault intPositive 10000) (by simp))
  obtain ⟨job, hjob, hjob'⟩ := safeParse_coercedDefault ⟨10000, by decide⟩ (spans_intMin 0) rfl
    (hfields ("jobDrainMs", coercedDefault (intMin 0) 10000) (by simp))
  refine ⟨⟨drain, force, job⟩, ?_, ?_⟩
  · simp only [Config.shutdownSchema, rawShutdown, hdrain, hforce, hjob]
    rfl
  · simp only [shutdownOf, hdrain', hforce', hjob']
    rfl

/-! ### The primary -/

theorem exists_mapM {α β : Type} {f : α → Option β} {l : List α} (h : ∀ x ∈ l, ∃ y, f x = some y) :
    ∃ l', l.mapM f = some l' := by
  induction l with
  | nil => exact ⟨[], rfl⟩
  | cons x l ih =>
    obtain ⟨y, hy⟩ := h x List.mem_cons_self
    obtain ⟨l', hl'⟩ := ih fun z hz => h z (List.mem_cons_of_mem _ hz)
    exact ⟨y :: l', by rw [List.mapM_cons, hy, hl']; rfl⟩

/-- A source that is accepted has a key and a bound on its pool. -/
theorem exists_capacityOf {d : Datum} (h : (sourceSchema canParse).safeParse d = .ok w) :
    ∃ capacity, capacityOf w = some capacity := by
  have hbase {dialect poolMin poolMax : Schema} (hfields : ∀ e ∈ baseSource dialect poolMin poolMax,
      e.2.safeParse (d.get e.1) = .ok (w.get e.1)) : nonEmptyString.safeParse (d.get "key") = .ok (w.get "key") ∧
        poolMax.safeParse (d.get "poolMax") = .ok (w.get "poolMax") :=
    ⟨hfields ("key", nonEmptyString) (List.mem_of_getElem? (i := 0) rfl),
      hfields ("poolMax", poolMax) (List.mem_of_getElem? (i := 3) rfl)⟩
  have hboth : nonEmptyString.safeParse (d.get "key") = .ok (w.get "key") ∧
      (numberDefault (intMin 1) 10).safeParse (d.get "poolMax") = .ok (w.get "poolMax") := by
    obtain ⟨own, s, rfl, hpick, hs⟩ := exists_of_safeParse_union h
    obtain ⟨o, ho, -, rfl⟩ := mem_of_pickOption hpick
    simp only [List.mem_cons, List.not_mem_nil, or_false] at ho
    rcases ho with rfl | rfl
    · obtain ⟨hobject, -⟩ := (safeParse_kept_iff (keeps_of_all rfl)).mp hs
      have hfields := (safeParse_object nodup_oracleSourceFields hobject).2.2
      exact hbase fun e he => hfields e (List.mem_append_left _ he)
    · exact hbase (safeParse_object (nodup_baseSource _ _ _) hs).2.2
  obtain ⟨-, key, hkey⟩ := safeParse_string ((safeParse_kept_iff (keeps_of_all rfl)).mp hboth.1).1
  obtain ⟨poolMax, hpoolMax⟩ := safeParse_numberDefault ⟨10, by decide⟩ (spans_intMin 1) rfl hboth.2
  refine ⟨⟨key, poolMax⟩, ?_⟩
  rw [capacityOf, hkey, hpoolMax]
  rfl

/-- The section `database`, as far as it is read. -/
theorem safeParse_database {d : Datum} (h : (Schemas.databaseConfigSchema canParse env).safeParse d = .ok w) :
    w.isRecord = true ∧ healthSchema.safeParse (d.get "health") = .ok (w.get "health") ∧
      (Schema.preprocess (parseSources env) "DATABASE_CONFIG_JSON is not valid JSON" (sourcesSchema canParse)).safeParse
        (d.get "sources") = .ok (w.get "sources") := by
  have hnodup : ([JsString.ofString "sources", "health", "oracle", "useDbLink"] : List JsString).Nodup := by decide
  obtain ⟨-, hrecord, hfields⟩ := safeParse_object (by exact hnodup) h
  exact ⟨hrecord, hfields ("health", healthSchema) (List.mem_of_getElem? (i := 1) rfl),
    hfields _ (List.mem_of_getElem? (i := 0) rfl)⟩

/-- Either there is no database, or its section is accepted. -/
theorem database_of_parseConfig (h : parseConfig zod canParse env = .ok c) :
    (envString (env "DATABASE_CONFIG_JSON") = none ∧ c.get "database" = .undefined) ∨
      (envString (env "DATABASE_CONFIG_JSON")).isSome = true ∧
        (Schemas.databaseConfigSchema canParse env).safeParse (hydrateDatabase env) = .ok (c.get "database") := by
  have hsection : (Schema.optional (Schemas.databaseConfigSchema canParse env)).safeParse (hydrateDatabase env) =
      .ok (c.get "database") := (parseConfig_eq_ok h).1 (_, .optional _) (List.mem_of_getElem? (i := 3) rfl)
  unfold hydrateDatabase at hsection ⊢
  cases hjson : envString (env "DATABASE_CONFIG_JSON") with
  | none =>
    rw [hjson] at hsection
    exact .inl ⟨rfl, (safeParse_eq_ok_iff.mp hsection).2.symm⟩
  | some text =>
    rw [hjson, safeParse_optional rfl] at hsection
    exact .inr ⟨rfl, hsection⟩

/-- The sources of an accepted configuration are accepted ones. -/
theorem exists_of_mem_sourcesOf (h : parseConfig zod canParse env = .ok c) {x : Datum} (hx : x ∈ sourcesOf c) :
    ∃ d, (sourceSchema canParse).safeParse d = .ok x := by
  rcases database_of_parseConfig h with ⟨-, hnone⟩ | ⟨-, hsome⟩
  · rw [sourcesOf, hnone] at hx
    cases hx
  · obtain ⟨-, -, hsources⟩ := safeParse_database hsome
    have hagain := settled_sources _ _ hsources
    cases hv : parseSources env ((c.get "database").get "sources") with
    | none =>
      have hnil := (safeParse_eq_ok_iff.mp hagain).1
      rw [Schema.run, hv] at hnil
      cases hnil
    | some v =>
      rw [safeParse_preprocess hv] at hagain
      obtain ⟨harray, -⟩ := (safeParse_kept_iff (keeps_of_all rfl)).mp hagain
      obtain ⟨l, rfl⟩ := exists_of_safeParse_array harray
      obtain ⟨l', hl', hlength, helements⟩ := safeParse_array harray
      rw [sourcesOf, hl'] at hx
      obtain ⟨n, hn⟩ := List.mem_iff_getElem?.mp hx
      have hlt : n < l.length := hlength ▸ (List.getElem?_eq_some_iff.mp hn).1
      obtain ⟨y, hy, hok⟩ := helements n _ (List.getElem?_eq_getElem hlt)
      obtain rfl := Option.some.inj (hy.symm.trans hn)
      exact ⟨_, hok⟩

/-- **The primary's slice is there**, and waits as the shutdown says. -/
theorem exists_primaryOf (h : parseConfig zod canParse env = .ok c) {shutdown : ShutdownConfig}
    (hshutdown : shutdownOf c = some shutdown) : ∃ primary, primaryOf c = some primary ∧ shutdown.IsOf primary := by
  obtain ⟨-, hfields⟩ := fields_of_section h "cluster" clusterSchema (by simp [rootFields]) rfl (by decide)
  obtain ⟨workers, -, hworkers⟩ := safeParse_coercedDefault ⟨0, by decide⟩ (spans_intMin 0) rfl
    (hfields ("workers", coercedDefault (intMin 0) 0) (by simp))
  obtain ⟨respawn, hrespawn⟩ := safeParse_booleanDefault (hfields ("respawn", booleanDefault true) (by simp))
  obtain ⟨limit, -, hlimit⟩ := safeParse_coercedDefault ⟨10, by decide⟩ (spans_intMin 1) rfl
    (hfields ("respawnMaxPerMinute", coercedDefault (intMin 1) 10) (by simp))
  obtain ⟨sources, hsources⟩ := exists_mapM fun x hx => exists_capacityOf (exists_of_mem_sourcesOf h hx).choose_spec
  simp only at hworkers hrespawn hlimit
  refine ⟨_, by rw [primaryOf, hsources, hworkers, hrespawn, hlimit, hshutdown]; rfl, rfl, rfl, rfl⟩

/-! ### The waits -/

/-- A source has a client. -/
def implemented (c : Datum) : Bool :=
  (sourcesOf c).any fun source => sameString (source.get "dialect") (.string "oracle")

/-- The slice of the pings at boot. -/
def databaseWaitsOf (c : Datum) : Option DatabaseWaits := do
  let health := (c.get "database").get "health"
  let pingOnBoot ← flagOf (health.get "pingOnBoot")
  let maxRetries ← boundedOf 0 100 (health.get "maxRetries")
  let jitterMs ← boundedOf 0 5000 (health.get "jitterMs")
  some ⟨implemented c, pingOnBoot, maxRetries, jitterMs⟩

/-- The slice of the waits. -/
def waitsOf (c : Datum) : Option WaitConfig := do
  let clusterEnabled ← flagOf ((c.get "cluster").get "enabled")
  let schedulerEnabled ← flagOf ((c.get "scheduler").get "enabled")
  let shutdown ← shutdownOf c
  if (c.get "database").isUndefined then some ⟨clusterEnabled, schedulerEnabled, shutdown, none⟩
  else (databaseWaitsOf c).map fun database => ⟨clusterEnabled, schedulerEnabled, shutdown, some database⟩

/-- The variables of the pings at boot. -/
def rawDatabase (env : Environment) (implemented : Bool) : RawDatabase where
  implemented := implemented
  pingOnBoot := envBool (env "DATABASE_PING_ON_BOOT")
  maxRetries := (envString (env "DATABASE_PING_MAX_RETRIES")).map JsString.toNumber
  jitterMs := (envString (env "DATABASE_PING_JITTER_MS")).map JsString.toNumber

/-- The variables of the waits. -/
def rawWaits (env : Environment) (implemented : Bool) : RawWaits where
  clusterEnabled := envBool (env "CLUSTER_ENABLED")
  schedulerEnabled := envBool (env "SCHEDULER_ENABLED")
  shutdown := rawShutdown env
  database := (envString (env "DATABASE_CONFIG_JSON")).map fun _ => rawDatabase env implemented

/-- The pings at boot wait as their own loader says. -/
theorem exists_databaseWaitsOf
    (h : (Schemas.databaseConfigSchema canParse env).safeParse (hydrateDatabase env) = .ok (c.get "database"))
    (hjson : (envString (env "DATABASE_CONFIG_JSON")).isSome = true) :
    ∃ database, Config.databaseConfigSchema (rawDatabase env (implemented c)) = some database ∧
      databaseWaitsOf c = some database := by
  obtain ⟨text, htext⟩ := Option.isSome_iff_exists.mp hjson
  obtain ⟨-, hhealth, -⟩ := safeParse_database h
  have hget : (hydrateDatabase env).get "health" = hydrateSection env healthVariables := by
    rw [hydrateDatabase, htext]
    rfl
  rw [hget] at hhealth
  obtain ⟨-, -, hfields⟩ := safeParse_object (by decide) hhealth
  obtain ⟨ping, hping, hping'⟩ := safeParse_flag (hfields ("pingOnBoot", booleanDefault true) (by simp))
  obtain ⟨retries, hretries, hretries'⟩ := safeParse_coercedDefault ⟨2, by decide⟩ (spans_intBetween 0 100) rfl
    (hfields ("maxRetries", coercedDefault (intBetween 0 100) 2) (by simp))
  obtain ⟨jitter, hjitter, hjitter'⟩ := safeParse_coercedDefault ⟨250, by decide⟩ (spans_intBetween 0 5000) rfl
    (hfields ("jitterMs", coercedDefault (intBetween 0 5000) 250) (by simp))
  simp only at hping' hretries' hjitter'
  refine ⟨⟨implemented c, ping, retries, jitter⟩, ?_, ?_⟩
  · simp only [Config.databaseConfigSchema, rawDatabase, hping, hretries, hjitter]
    rfl
  · simp only [databaseWaitsOf, hping', hretries', hjitter']
    rfl

/-- **The program waits as its own loader says.** -/
theorem exists_waitsOf (h : parseConfig zod canParse env = .ok c) {shutdown : ShutdownConfig}
    (hraw : Config.shutdownSchema (rawShutdown env) = some shutdown) (hshutdown : shutdownOf c = some shutdown) :
    ∃ waits, loadWaits (rawWaits env (implemented c)) = some waits ∧ waitsOf c = some waits ∧
      waits.shutdown = shutdown := by
  obtain ⟨-, hcluster⟩ := fields_of_section h "cluster" clusterSchema (by simp [rootFields]) rfl (by decide)
  obtain ⟨-, hscheduler⟩ := fields_of_section h "scheduler" schedulerSchema (by simp [rootFields]) rfl (by decide)
  obtain ⟨clustered, hclustered, hclustered'⟩ := safeParse_flag (hcluster ("enabled", booleanDefault false) (by simp))
  obtain ⟨scheduled, hscheduled, hscheduled'⟩ :=
    safeParse_flag (hscheduler ("enabled", booleanDefault false) (by simp))
  simp only at hclustered' hscheduled'
  rcases database_of_parseConfig h with ⟨hjson, hnone⟩ | ⟨hjson, hsome⟩
  · refine ⟨⟨clustered, scheduled, shutdown, none⟩, ?_, ?_, rfl⟩
    · simp only [loadWaits, rawWaits, hclustered, hscheduled, hraw, hjson]
      rfl
    · simp only [waitsOf, hclustered', hscheduled', hshutdown, hnone]
      rfl
  · obtain ⟨database, hdatabase, hdatabase'⟩ := exists_databaseWaitsOf hsome hjson
    obtain ⟨l, hl⟩ := isRecord_iff.mp (safeParse_database hsome).1
    obtain ⟨text, htext⟩ := Option.isSome_iff_exists.mp hjson
    refine ⟨⟨clustered, scheduled, shutdown, some database⟩, ?_, ?_, rfl⟩
    · simp only [loadWaits, rawWaits, hclustered, hscheduled, hraw, htext, Option.map_some, hdatabase]
      rfl
    · simp only [waitsOf, hclustered', hscheduled', hshutdown, hdatabase']
      rw [hl]
      rfl

/-! ### All slices -/

/-- **Every slice is there**: the primary's, that of the waits and that of the log files; each is what its own loader
makes of the same environment, and the primary waits as the shutdown does. -/
theorem slices (h : loadConfig zod canParse locale files env = .ok c) :
    ∃ (primary : StartPrimaryConfig) (waits : WaitConfig) (logs : LogConfig),
      (primaryOf c = some primary ∧ waits.shutdown.IsOf primary) ∧
      (waitsOf c = some waits ∧ loadWaits (rawWaits (loadEnvFiles files env) (implemented c)) = some waits) ∧
      logsOf c = some logs ∧ loadLogConfig (logEnv (loadEnvFiles files env)) = some logs := by
  have hparse := loadConfig_eq_ok_iff.mp h
  obtain ⟨shutdown, hraw, hshutdown⟩ := exists_shutdownOf hparse
  obtain ⟨primary, hprimary, hof⟩ := exists_primaryOf hparse hshutdown
  obtain ⟨waits, hwaits, hwaits', rfl⟩ := exists_waitsOf hparse hraw hshutdown
  obtain ⟨logs, hlogs, hlogs'⟩ := exists_logsOf hparse
  exact ⟨primary, waits, logs, ⟨hprimary, hof⟩, ⟨hwaits', hwaits⟩, hlogs', hlogs⟩

/-- Those of `withDatabase`. -/
theorem slices_withDatabase :
    let files : EnvFiles := fun _ _ => none
    ∃ c primary waits logs, loadConfig .reference (fun _ => true) (fun _ => []) files withDatabase = .ok c ∧
      primaryOf c = some primary ∧ waitsOf c = some waits ∧ logsOf c = some logs ∧
        loadLogConfig (logEnv (loadEnvFiles files withDatabase)) = some logs := by
  intro files
  obtain ⟨c, hc, -⟩ := loadConfig_withDatabase
  obtain ⟨primary, waits, logs, ⟨hprimary, -⟩, ⟨hwaits, -⟩, hlogs, hloaded⟩ := slices hc
  exact ⟨c, primary, waits, logs, hc, hprimary, hwaits, hlogs, hloaded⟩

end NestDdd.Config
