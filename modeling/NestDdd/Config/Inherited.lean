import NestDdd.Cluster.Workers
import NestDdd.Config.LoadConfig

/-!
# The configuration of a worker

`forkWorker` (`src/infrastructure/cluster/cluster-primary.ts`) starts a worker in the primary's environment, with
`CLUSTER_LEADER` for the worker, and the worker loads its configuration from there: `main.ts` has loaded that of the
primary from the same environment.

## What is proved

* `loadEnvFiles_fork` — the files that the primary has read add nothing to what a worker has.
* `safeParse_sources_congr` — the sources are the same in every environment that has the same secrets.
* `inherited` — **a worker is configured as its primary**, in everything but what it is told of the leadership.
-/

namespace NestDdd.Config

open NestDdd.Shared NestDdd.Theory NestDdd.Zod NestDdd.Config.Schemas NestDdd.Cluster

/-! ### Environments -/

/-- `clusterApi.fork({ CLUSTER_LEADER: .. })`. -/
def fork (env : Environment) (isLeader : Bool) : Environment := fun name =>
  if name = JsString.ofString "CLUSTER_LEADER" then some (clusterLeader isLeader) else env name

/-- The variables that a source refers to for its secrets. -/
def secretRefs (source : Datum) : List JsString :=
  SECRET_ENV_FIELDS.filterMap fun field =>
    match source.get (field ++ JsString.ofString "Env") with
    | .string ref => some ref
    | _ => none

/-- Those of all sources. -/
def sourceRefs : Datum → List JsString
  | .array l => l.flatMap secretRefs
  | _ => []

/-- Those of `DATABASE_CONFIG_JSON`. -/
def referred (env : Environment) : List JsString :=
  match parseJson (ofText (envString (env "DATABASE_CONFIG_JSON"))) with
  | some parsed => sourceRefs (sourceList parsed)
  | none => []

variable {zod : Library} {canParse : JsString → Bool} {locale : Reason → JsString} {files : EnvFiles}
  {env env' : Environment}

theorem fork_of_ne {name : JsString} (h : name ≠ JsString.ofString "CLUSTER_LEADER") (isLeader : Bool) :
    fork env isLeader name = env name := if_neg h

/-- **The files add nothing** to the environment of a worker, if they leave `NODE_ENV` as it was. -/
theorem loadEnvFiles_fork (hnode : loadEnvFiles files env "NODE_ENV" = env "NODE_ENV") (isLeader : Bool) :
    loadEnvFiles files (fork (loadEnvFiles files env) isLeader) = fork (loadEnvFiles files env) isLeader := by
  have hsame : fork (loadEnvFiles files env) isLeader "NODE_ENV" = env "NODE_ENV" :=
    (fork_of_ne (by decide) isLeader).trans hnode
  rw [loadEnvFiles, hsame]
  split
  · rfl
  · next htest =>
    funext name
    unfold fork
    split
    · rfl
    · rw [loadEnvFiles, if_neg htest]
      cases env name with
      | some value => rfl
      | none => exact Option.or_self

theorem hydrateSection_congr {entries : Section} (h : ∀ v ∈ entries, env' v.2.2 = env v.2.2) :
    hydrateSection env' entries = hydrateSection env entries := by
  unfold hydrateSection
  congr 1
  refine List.map_congr_left fun v hv => ?_
  rw [h v hv]

/-- A section without `CLUSTER_LEADER`. -/
theorem hydrateSection_fork {entries : Section}
    (h : ∀ v ∈ entries, v.2.2 ≠ JsString.ofString "CLUSTER_LEADER") (isLeader : Bool) :
    hydrateSection (fork env isLeader) entries = hydrateSection env entries :=
  hydrateSection_congr fun v hv => fork_of_ne (h v hv) isLeader

/-! ### Secrets -/

theorem resolveSecretRef_congr {members : List (JsString × Datum)} {field : JsString}
    (h : ∀ ref, find (field ++ JsString.ofString "Env") members = some (.string ref) → env' ref = env ref) :
    resolveSecretRef env' members field = resolveSecretRef env members field := by
  unfold resolveSecretRef
  split
  · next ref _ href => rw [h ref href]
  · rfl

/-- A source has the secrets that it refers to. -/
theorem resolveSecretRefs_congr {source : Datum} (h : ∀ ref ∈ secretRefs source, env' ref = env ref) :
    resolveSecretRefs env' source = resolveSecretRefs env source := by
  cases source with
  | object l =>
    have hrefs (field : JsString) (hfield : field ∈ SECRET_ENV_FIELDS) (ref : JsString)
        (href : find (field ++ JsString.ofString "Env") l = some (.string ref)) : env' ref = env ref := by
      refine h ref (List.mem_filterMap.mpr ⟨field, hfield, ?_⟩)
      simp [Datum.get, Datum.members, href]
    have hfirst : resolveSecretRef env' l "password" = resolveSecretRef env l "password" :=
      resolveSecretRef_congr (hrefs _ (by decide))
    have hsecond : resolveSecretRef env' (resolveSecretRef env l "password") "walletPassword" =
        resolveSecretRef env (resolveSecretRef env l "password") "walletPassword" := by
      refine resolveSecretRef_congr fun ref href => ?_
      rw [find_resolveSecretRef (by decide)] at href
      exact hrefs _ (by decide) ref href
    show Datum.object (resolveSecretRef env' (resolveSecretRef env' l "password") "walletPassword") =
      .object (resolveSecretRef env (resolveSecretRef env l "password") "walletPassword")
    rw [hfirst, hsecond]
  | _ => rfl

theorem parseSources_congr {v : Datum}
    (h : ∀ parsed, parseJson v = some parsed → ∀ ref ∈ sourceRefs (sourceList parsed), env' ref = env ref) :
    parseSources env' v = parseSources env v := by
  unfold parseSources
  cases hparsed : parseJson v with
  | none => rfl
  | some parsed =>
    have hrefs := h parsed hparsed
    simp only [Option.map_some]
    congr 1
    cases hlist : sourceList parsed with
    | array l =>
      rw [hlist] at hrefs
      simp only [Datum.array.injEq]
      exact List.map_congr_left fun source hsource =>
        resolveSecretRefs_congr fun ref href => hrefs ref (List.mem_flatMap.mpr ⟨source, hsource, href⟩)
    | _ => rfl

/-- **The database is configured the same** in every environment that has the same secrets. -/
theorem safeParse_database_congr {d : Datum}
    (h : parseSources env' (d.get "sources") = parseSources env (d.get "sources")) :
    (Schemas.databaseConfigSchema canParse env').safeParse d =
      (Schemas.databaseConfigSchema canParse env).safeParse d := by
  have hrun : (Schemas.databaseConfigSchema canParse env').run d =
      (Schemas.databaseConfigSchema canParse env).run d := by
    cases d with
    | object l =>
      simp only [Schemas.databaseConfigSchema, Schema.run, runFields]
      rw [h]
    | _ => rfl
  rw [Schema.safeParse, hrun]
  rfl

/-! ### Sections -/

/-- A flag that is accepted is a boolean. -/
theorem safeParse_booleanDefault {value : Bool} {d w : Datum} (h : (booleanDefault value).safeParse d = .ok w) :
    ∃ b, w = .bool b := by
  obtain ⟨hnil, rfl⟩ := safeParse_eq_ok_iff.mp h
  cases d with
  | undefined => exact ⟨value, rfl⟩
  | bool b => exact ⟨b, rfl⟩
  | _ => cases hnil

theorem get_hydrateSection_of_ne {key : JsString} (h : key ≠ JsString.ofString "isLeader") (isLeader : Bool) :
    (hydrateSection (fork env isLeader) clusterVariables).get key = (hydrateSection env clusterVariables).get key := by
  simp only [Datum.get, Datum.members, hydrateSection, clusterVariables, List.map_cons, List.map_nil, find_cons,
    if_neg h]
  rfl

/-- **The section `cluster` of a worker** is that of its primary, with the leadership it is told of. -/
theorem safeParse_cluster_fork {w : Datum}
    (h : clusterSchema.safeParse (hydrateSection env clusterVariables) = .ok w) (isLeader : Bool) :
    ∃ w', clusterSchema.safeParse (hydrateSection (fork env isLeader) clusterVariables) = .ok w' ∧
      w'.get "isLeader" = .bool isLeader ∧ ∀ key, key ≠ JsString.ofString "isLeader" → w'.get key = w.get key := by
  refine safeParse_object_update (s := booleanDefault false) (by decide) h rfl (by simp) ?_
    fun key hkey => get_hydrateSection_of_ne hkey isLeader
  cases isLeader <;> rfl

theorem hydrateDatabase_fork (isLeader : Bool) : hydrateDatabase (fork env isLeader) = hydrateDatabase env := by
  have hjson : fork env isLeader "DATABASE_CONFIG_JSON" = env "DATABASE_CONFIG_JSON" := fork_of_ne (by decide) _
  have hlink : fork env isLeader "DATABASE_USE_DBLINK" = env "DATABASE_USE_DBLINK" := fork_of_ne (by decide) _
  rw [hydrateDatabase, hydrateDatabase, hjson, hlink, hydrateSection_fork (by decide +kernel),
    hydrateSection_fork (by decide +kernel)]

/-- Whatever else is read is what the primary reads. -/
theorem hydrate_fork (isLeader : Bool) : hydrate (fork env isLeader) = .object
    [("app", hydrateSection env appVariables),
      ("logging", hydrateSection env loggingVariables),
      ("http", hydrateSection env httpVariables),
      ("database", hydrateDatabase env),
      ("jwt", hydrateSection env jwtVariables),
      ("legacy", hydrateSection env legacyVariables),
      ("scheduler", hydrateSection env schedulerVariables),
      ("shutdown", hydrateSection env shutdownVariables),
      ("tls", hydrateSection env tlsVariables),
      ("cluster", hydrateSection (fork env isLeader) clusterVariables)] := by
  have hnames : ∀ entries ∈ [appVariables, loggingVariables, httpVariables, jwtVariables, legacyVariables,
      schedulerVariables, shutdownVariables, tlsVariables], ∀ v ∈ entries,
      v.2.2 ≠ JsString.ofString "CLUSTER_LEADER" := by decide +kernel
  have hsections := fun entries hentries => @hydrateSection_fork env entries (hnames entries hentries) isLeader
  simp only [List.forall_mem_cons, List.not_mem_nil, false_implies, implies_true, and_true] at hsections
  obtain ⟨happ, hlogging, hhttp, hjwt, hlegacy, hscheduler, hshutdown, htls⟩ := hsections
  rw [hydrate, happ, hlogging, hhttp, hydrateDatabase_fork, hjwt, hlegacy, hscheduler, hshutdown, htls]

/-- A worker reads the database's section as its primary does. -/
theorem safeParse_database_fork (h : JsString.ofString "CLUSTER_LEADER" ∉ referred env) (isLeader : Bool) :
    (Schema.optional (Schemas.databaseConfigSchema canParse (fork env isLeader))).safeParse (hydrateDatabase env) =
      (Schema.optional (Schemas.databaseConfigSchema canParse env)).safeParse (hydrateDatabase env) := by
  rw [hydrateDatabase]
  cases hjson : envString (env "DATABASE_CONFIG_JSON") with
  | none => rfl
  | some text =>
    have hsources : parseSources (fork env isLeader) (.string text) = parseSources env (.string text) := by
      refine parseSources_congr fun parsed hparsed ref href => fork_of_ne ?_ isLeader
      rintro rfl
      refine h ?_
      rw [referred, hjson, ofText, hparsed]
      exact href
    rw [safeParse_optional rfl, safeParse_optional rfl]
    exact safeParse_database_congr hsources

/-- **A worker accepts what its primary accepts**, and is told of the leadership. -/
theorem parseConfig_fork {c : Datum} (h : parseConfig zod canParse env = .ok c)
    (hsecrets : JsString.ofString "CLUSTER_LEADER" ∉ referred env) (isLeader : Bool) :
    ∃ c', parseConfig zod canParse (fork env isLeader) = .ok c' ∧ (c'.get "cluster").get "isLeader" = .bool isLeader ∧
      (∀ key, key ≠ JsString.ofString "cluster" → c'.get key = c.get key) ∧
      ∀ key, key ≠ JsString.ofString "isLeader" → (c'.get "cluster").get key = (c.get "cluster").get key := by
  obtain ⟨hfields, hlogs⟩ := parseConfig_eq_ok h
  have hcluster := hfields ("cluster", clusterSchema) (by simp [rootFields])
  obtain ⟨w', hw', hleader, hrest⟩ := safeParse_cluster_fork hcluster isLeader
  let w : JsString → Datum := fun key => if key = JsString.ofString "cluster" then w' else c.get key
  have hsections (e : JsString × Schema) (he : e ∈ rootFields canParse (fork env isLeader)) :
      e.2.safeParse ((hydrate (fork env isLeader)).get e.1) = .ok (w e.1) := by
    have hmem (e : JsString × Schema) (he : e ∈ rootFields canParse env) := hfields e he
    simp only [rootFields, List.forall_mem_cons, List.not_mem_nil, false_implies, implies_true, and_true] at hmem
    obtain ⟨happ, hlogging, hhttp, hdatabase, hjwt, hlegacy, hscheduler, hshutdown, htls, -⟩ := hmem
    have hdatabase' := (safeParse_database_fork hsecrets isLeader).trans hdatabase
    simp only [rootFields, List.mem_cons, List.not_mem_nil, or_false] at he
    rw [hydrate_fork]
    rcases he with rfl | rfl | rfl | rfl | rfl | rfl | rfl | rfl | rfl | rfl
    exacts [happ, hlogging, hhttp, hdatabase', hjwt, hlegacy, hscheduler, hshutdown, htls, hw']
  obtain ⟨c', hc', hget⟩ := exists_parseConfig hsections hlogs
  have hsection : c'.get "cluster" = w' := hget ("cluster", clusterSchema) (by simp [rootFields])
  refine ⟨c', hc', hsection ▸ hleader, fun key hkey => ?_, hsection ▸ hrest⟩
  by_cases hin : key ∈ (rootFields canParse (fork env isLeader)).map Prod.fst
  · obtain ⟨e, he, rfl⟩ := List.mem_map.mp hin
    exact (hget e he).trans (if_neg hkey)
  · rw [get_of_not_section hc' hin, get_of_not_section h hin]

theorem step_index {d : Datum} (h : d.isRecord = true) (n : ℕ) : d.step (.index n) = .undefined := by
  obtain ⟨l, rfl⟩ := isRecord_iff.mp h
  rfl

theorem follow_bool (b : Bool) (k : Key) (path : List Key) : (Datum.bool b).follow (k :: path) = .undefined := by
  cases k <;> exact follow_undefined path

/-- Whatever is accepted has a leadership to tell of. -/
theorem cluster_of_parseConfig {c : Datum} (h : parseConfig zod canParse env = .ok c) :
    c.isRecord = true ∧ (c.get "cluster").isRecord = true ∧ ∃ b, (c.get "cluster").get "isLeader" = .bool b := by
  have hrecord := (safeParse_object nodup_rootFields (object_of_parseConfig h).1).2.1
  obtain ⟨hsection, hfields⟩ := fields_of_section h "cluster" clusterSchema (by simp [rootFields]) rfl (by decide)
  exact ⟨hrecord, hsection, safeParse_booleanDefault (hfields ("isLeader", booleanDefault false) (by simp))⟩

/-- Configurations that differ in the leadership only are the same at every other path. -/
theorem follow_of_sections {c c' : Datum} {b b' : Bool} (hrecord : c.isRecord = true) (hrecord' : c'.isRecord = true)
    (hsection : (c.get "cluster").isRecord = true) (hsection' : (c'.get "cluster").isRecord = true)
    (hb : (c.get "cluster").get "isLeader" = .bool b) (hb' : (c'.get "cluster").get "isLeader" = .bool b')
    (hsections : ∀ key, key ≠ JsString.ofString "cluster" → c'.get key = c.get key)
    (hcluster : ∀ key, key ≠ JsString.ofString "isLeader" → (c'.get "cluster").get key = (c.get "cluster").get key)
    {path : List Key} (hpath : ¬ path <+: [.name "cluster", .name "isLeader"]) : c'.follow path = c.follow path := by
  -- the path leaves the objects, or passes one of the two keys by
  rcases path with _ | ⟨key | n, path⟩
  · exact absurd List.nil_prefix hpath
  · by_cases hkey : key = JsString.ofString "cluster"
    · subst hkey
      rcases path with _ | ⟨key | n, path⟩
      · exact absurd ⟨[.name "isLeader"], rfl⟩ hpath
      · show ((c'.get "cluster").get key).follow path = ((c.get "cluster").get key).follow path
        by_cases hkey : key = JsString.ofString "isLeader"
        · subst hkey
          rcases path with _ | ⟨k, path⟩
          · exact absurd List.prefix_rfl hpath
          · rw [hb', hb, follow_bool, follow_bool]
        · rw [hcluster key hkey]
      · show ((c'.get "cluster").step (.index n)).follow path = ((c.get "cluster").step (.index n)).follow path
        rw [step_index hsection, step_index hsection']
    · show (c'.get key).follow path = (c.get key).follow path
      rw [hsections key hkey]
  · rw [Datum.follow, Datum.follow, step_index hrecord, step_index hrecord']

/-- **A worker is configured as its primary**, in everything but what it is told of the leadership, if the files leave
`NODE_ENV` as it was and no secret is in `CLUSTER_LEADER`. -/
theorem inherited {c : Datum} (h : loadConfig zod canParse locale files env = .ok c)
    (hnode : loadEnvFiles files env "NODE_ENV" = env "NODE_ENV")
    (hsecrets : JsString.ofString "CLUSTER_LEADER" ∉ referred (loadEnvFiles files env)) (isLeader : Bool) :
    ∃ c', loadConfig zod canParse locale files (fork (loadEnvFiles files env) isLeader) = .ok c' ∧
      c'.follow [.name "cluster", .name "isLeader"] = .bool isLeader ∧
      ∀ path, ¬ path <+: [.name "cluster", .name "isLeader"] → c'.follow path = c.follow path := by
  have hparse := loadConfig_eq_ok_iff.mp h
  obtain ⟨c', hc', hleader, hsections, hcluster⟩ := parseConfig_fork hparse hsecrets isLeader
  refine ⟨c', ?_, hleader, fun path hpath => ?_⟩
  · rw [loadConfig_eq_ok_iff, loadEnvFiles_fork hnode]
    exact hc'
  · obtain ⟨hrecord, hsection, b, hb⟩ := cluster_of_parseConfig hparse
    obtain ⟨hrecord', hsection', -⟩ := cluster_of_parseConfig hc'
    exact follow_of_sections hrecord hrecord' hsection hsection' hb hleader hsections hcluster hpath

/-- The first worker of `withDatabase` is the leader, and has the password that its primary has looked up. -/
theorem inherited_withDatabase :
    let files : EnvFiles := fun _ _ => none
    ∃ c c', loadConfig .reference (fun _ => true) (fun _ => []) files withDatabase = .ok c ∧
      loadConfig .reference (fun _ => true) (fun _ => []) files (fork (loadEnvFiles files withDatabase) true) = .ok c' ∧
        c'.follow [.name "cluster", .name "isLeader"] = .bool true ∧
          c'.follow passwordPath = .string (JsString.ofString "tiger") := by
  intro files
  have hnode : loadEnvFiles files withDatabase "NODE_ENV" = withDatabase "NODE_ENV" := by decide
  have hsecrets : JsString.ofString "CLUSTER_LEADER" ∉ referred (loadEnvFiles files withDatabase) := by decide +kernel
  obtain ⟨c, hc, hpassword⟩ := loadConfig_withDatabase
  obtain ⟨c', hc', hleader, hrest⟩ := inherited hc hnode hsecrets true
  exact ⟨c, c', hc, hc', hleader, (hrest passwordPath (by decide)).trans hpassword⟩

end NestDdd.Config
