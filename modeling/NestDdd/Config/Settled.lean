import NestDdd.Config.LoadConfig
import NestDdd.Zod.Settles

/-!
# An accepted configuration is accepted again

`safeParse` does not look at a default, and what it accepts need not be what it would accept. The configuration that
`loadConfig` returns is, though: its defaults pass the checks of their fields, a URL that has been trimmed is trimmed,
and a source whose secrets have been looked up keeps them.

## What is proved

* `settled_rootSchema` — the schema accepts again what it has accepted, as it is.
* `accepted_again` — **the configuration is one that the schema accepts**, as it is.
-/

namespace NestDdd.Config.Schemas

open NestDdd.Shared NestDdd.Theory NestDdd.Zod

variable {canParse : JsString → Bool} {env : Environment}

/-- The fields of an Oracle source. -/
def oracleSourceFields (canParse : JsString → Bool) : List (JsString × Schema) :=
  baseSource (.enum ["oracle"]) (numberDefault (intMin 0) 2) (numberDefault (intMin 1) 10) ++ oracleFields canParse

theorem nodup_oracleSourceFields : ((oracleSourceFields canParse).map Prod.fst).Nodup := by
  have h : ((oracleSourceFields fun _ => true).map Prod.fst).Nodup := by decide +kernel
  exact h

/-! ### Secrets -/

/-- A secret that is referred to has been looked up: it is there, or the variable is not. -/
def LookedUp (env : Environment) (members : List (JsString × Datum)) (field : JsString) : Prop :=
  ∀ ref, (find field members).getD .undefined = .undefined →
    find (field ++ JsString.ofString "Env") members = some (.string ref) → ref ≠ [] →
      env ref = none ∧ find field members = some .undefined

theorem put_self {k : JsString} {v : Datum} {l : List (JsString × Datum)} (h : find k l = some v) : put k v l = l := by
  induction l with
  | nil => cases h
  | cons e l ih =>
    rw [find_cons] at h
    rw [put]
    split
    · next he =>
      rw [if_pos he.symm] at h
      rw [← he, ← Option.some.inj h]
    · next he =>
      rw [if_neg (Ne.symm he)] at h
      rw [ih h]

/-- What has been looked up is looked up no more. -/
theorem resolveSecretRef_of_lookedUp {members : List (JsString × Datum)} {field : JsString}
    (h : LookedUp env members field) : resolveSecretRef env members field = members := by
  unfold resolveSecretRef
  split
  · next ref hfield href =>
    split
    · rfl
    · next hne =>
      obtain ⟨henv, hself⟩ := h ref hfield href (fun hnil => hne (List.isEmpty_iff.mpr hnil))
      rw [henv]
      exact put_self hself
  · rfl

theorem ne_append_env (field : JsString) : field ++ JsString.ofString "Env" ≠ field := by
  intro heq
  have hnil := List.append_right_eq_self.mp heq
  exact absurd hnil (by decide)

theorem resolveSecretRef_of_ref {members : List (JsString × Datum)} {field ref : JsString}
    (hfield : (find field members).getD .undefined = .undefined)
    (href : find (field ++ JsString.ofString "Env") members = some (.string ref)) (hne : ref ≠ []) :
    resolveSecretRef env members field =
      put field (match env ref with | some value => .string value | none => .undefined) members := by
  rw [resolveSecretRef, hfield, href]
  exact if_neg fun hempty => hne (List.isEmpty_iff.mp hempty)

theorem resolveSecretRef_of_defined {members : List (JsString × Datum)} {field : JsString}
    (hfield : (find field members).getD .undefined ≠ .undefined) : resolveSecretRef env members field = members := by
  unfold resolveSecretRef
  split
  · next hundefined _ => exact absurd hundefined hfield
  · rfl

/-- A look-up looks up. -/
theorem lookedUp_resolveSecretRef (members : List (JsString × Datum)) (field : JsString) :
    LookedUp env (resolveSecretRef env members field) field := by
  intro ref hfield href hne
  rw [find_resolveSecretRef (ne_append_env field)] at href
  by_cases hbefore : (find field members).getD .undefined = .undefined
  · rw [resolveSecretRef_of_ref hbefore href hne, find_put, if_pos rfl] at hfield ⊢
    cases henv : env ref with
    | none => exact ⟨rfl, rfl⟩
    | some value =>
      rw [henv] at hfield
      cases hfield
  · rw [resolveSecretRef_of_defined hbefore] at hfield
    exact absurd hfield hbefore

theorem LookedUp.congr {members members' : List (JsString × Datum)} {field : JsString} (h : LookedUp env members field)
    (hfield : find field members' = find field members)
    (href : find (field ++ JsString.ofString "Env") members' = find (field ++ JsString.ofString "Env") members) :
    LookedUp env members' field := by
  intro ref
  rw [hfield, href]
  exact h ref

/-- **All secrets of a source have been looked up.** -/
theorem lookedUp_resolveSecretRefs (members : List (JsString × Datum)) :
    ∃ members', resolveSecretRefs env (.object members) = .object members' ∧
      ∀ field ∈ SECRET_ENV_FIELDS, LookedUp env members' field := by
  refine ⟨_, rfl, ?_⟩
  have hfirst : LookedUp env (resolveSecretRef env members "password") "password" := lookedUp_resolveSecretRef _ _
  have hsecond : LookedUp env (resolveSecretRef env (resolveSecretRef env members "password") "walletPassword")
      "walletPassword" := lookedUp_resolveSecretRef _ _
  refine List.forall_mem_cons.mpr ⟨?_, List.forall_mem_cons.mpr ⟨hsecond, fun _ h => absurd h List.not_mem_nil⟩⟩
  exact hfirst.congr (find_resolveSecretRef (by decide)) (find_resolveSecretRef (by decide))

theorem resolveSecretRefs_of_lookedUp {members : List (JsString × Datum)}
    (h : ∀ field ∈ SECRET_ENV_FIELDS, LookedUp env members field) :
    resolveSecretRefs env (.object members) = .object members := by
  have hfirst := resolveSecretRef_of_lookedUp (h "password" (by decide))
  have hsecond := resolveSecretRef_of_lookedUp (h "walletPassword" (by decide))
  show Datum.object (resolveSecretRef env (resolveSecretRef env members "password") "walletPassword") = _
  rw [hfirst, hsecond]

theorem safeParse_optionalString {d w : Datum} (h : optionalString.safeParse d = .ok w) : d = w := by
  cases hd : d.isUndefined with
  | true =>
    obtain ⟨-, heq⟩ := safeParse_eq_ok_iff.mp h
    rwa [optionalString, Schema.run, hd] at heq
  | false =>
    rw [optionalString, safeParse_optional hd] at h
    exact (safeParse_string ((safeParse_kept_iff (keeps_of_all rfl)).mp h).1).1

theorem get_eq_some {members : List (JsString × Datum)} {key text : JsString} :
    find key members = some (.string text) ↔ (Datum.object members).get key = .string text := by
  rw [Datum.get, Datum.members]
  cases find key members with
  | none => simp
  | some v => simp

/-- An Oracle source that is accepted has its secrets as they were. -/
theorem LookedUp.oracle {own own' : List (JsString × Datum)}
    (hok : (OracleSource canParse).safeParse (.object own) = .ok (.object own')) {field : JsString}
    (hfield : (field, optionalString) ∈ oracleSourceFields canParse)
    (henv : (field ++ JsString.ofString "Env", optionalString) ∈ oracleSourceFields canParse)
    (h : LookedUp env own field) : LookedUp env own' field := by
  obtain ⟨hobject, -⟩ := (safeParse_kept_iff (keeps_of_all rfl)).mp hok
  obtain ⟨-, -, hfields⟩ := safeParse_object nodup_oracleSourceFields hobject
  have hsame := safeParse_optionalString (hfields _ hfield)
  have hsameEnv := safeParse_optionalString (hfields _ henv)
  intro ref hundefined href hne
  have hundefined' : (find field own).getD .undefined = .undefined := hsame.trans hundefined
  have href' := get_eq_some.mpr (hsameEnv.trans (get_eq_some.mp href))
  obtain ⟨hnone, hthere⟩ := h ref hundefined' href' hne
  refine ⟨hnone, ?_⟩
  have hsome : (find field own').isSome = true :=
    isSome_find_of_object nodup_oracleSourceFields hobject hfield (by rw [hthere]; rfl)
  obtain ⟨u, hu⟩ := Option.isSome_iff_exists.mp hsome
  rw [hu] at hundefined ⊢
  exact congrArg some hundefined

/-! ### The database -/

/-- The kinds of sources. -/
def sourceOptions (canParse : JsString → Bool) : List (List JsString × Schema) :=
  [(["oracle"], OracleSource canParse), (unimplementedDialects, unimplementedSourceSchema)]

/-- The keys of `BaseSource`. -/
def baseKeys : List JsString := ["key", "dialect", "poolMin", "poolMax", "defaultSchema", "extra"]

theorem nodup_baseSource (dialect poolMin poolMax : Schema) :
    ((baseSource dialect poolMin poolMax).map Prod.fst).Nodup := by
  have h : baseKeys.Nodup := by decide
  exact h

theorem settles_sourcesSchema : (sourcesSchema canParse).settles = true := rfl

theorem tagged_sourceOptions : ∀ o ∈ sourceOptions canParse, o.2.tagged "dialect" = true := by
  intro o ho
  simp only [sourceOptions, List.mem_cons, List.not_mem_nil, or_false] at ho
  rcases ho with rfl | rfl
  exacts [rfl, rfl]

/-- **A source that is accepted keeps its secrets.** -/
theorem resolveSecretRefs_again {source x : Datum}
    (h : (sourceSchema canParse).safeParse (resolveSecretRefs env source) = .ok x) : resolveSecretRefs env x = x := by
  cases source with
  | object members =>
    obtain ⟨own, hown, hlooked⟩ := @lookedUp_resolveSecretRefs env members
    rw [hown] at h
    obtain ⟨-, s, -, hpick, hs⟩ := exists_of_safeParse_union h
    obtain ⟨o, ho, -, rfl⟩ := mem_of_pickOption hpick
    obtain ⟨own', rfl⟩ := isRecord_iff.mp (get_of_tagged (tagged_sourceOptions o ho) hs).1
    refine resolveSecretRefs_of_lookedUp fun field hfield => ?_
    simp only [List.mem_cons, List.not_mem_nil, or_false] at ho
    rcases ho with rfl | rfl
    · have hsecrets : ∀ field ∈ SECRET_ENV_FIELDS, (field, optionalString) ∈ oracleSourceFields canParse ∧
          (field ++ JsString.ofString "Env", optionalString) ∈ oracleSourceFields canParse := by
        refine List.forall_mem_cons.mpr ⟨⟨?_, ?_⟩, List.forall_mem_singleton.mpr ⟨?_, ?_⟩⟩
        · exact List.mem_of_getElem? (show (oracleSourceFields canParse)[9]? = some _ from rfl)
        · exact List.mem_of_getElem? (show (oracleSourceFields canParse)[10]? = some _ from rfl)
        · exact List.mem_of_getElem? (show (oracleSourceFields canParse)[15]? = some _ from rfl)
        · exact List.mem_of_getElem? (show (oracleSourceFields canParse)[16]? = some _ from rfl)
      exact (hlooked field hfield).oracle hs (hsecrets field hfield).1 (hsecrets field hfield).2
    · have hother : ∀ field ∈ SECRET_ENV_FIELDS, field ∉ baseKeys ∧ field ++ JsString.ofString "Env" ∉ baseKeys := by
        decide
      exact (hlooked field hfield).congr (find_passed hs (hother field hfield).1)
        (find_passed hs (hother field hfield).2)
  | _ =>
    obtain ⟨hnil, -⟩ := safeParse_eq_ok_iff.mp h
    cases hnil

/-- What `parseSources` makes of a list is a list of sources with their secrets. -/
theorem parseSources_eq_array {d : Datum} {l : List Datum} (h : parseSources env d = some (.array l)) :
    ∃ sources : List Datum, l = sources.map (resolveSecretRefs env) := by
  obtain ⟨parsed, -, hparsed⟩ := Option.map_eq_some_iff.mp h
  cases hlist : sourceList parsed with
  | array sources =>
    rw [hlist] at hparsed
    exact ⟨sources, (Datum.array.inj hparsed).symm⟩
  | _ =>
    rw [hlist] at hparsed
    cases hparsed

theorem settled_sources {message : JsString} :
    (Schema.preprocess (parseSources env) message (sourcesSchema canParse)).Settled := by
  refine settled_preprocess fun d v w hv hw => ?_
  obtain ⟨harray, -⟩ := (safeParse_kept_iff (keeps_of_all rfl)).mp hw
  obtain ⟨l, rfl⟩ := exists_of_safeParse_array harray
  obtain ⟨sources, rfl⟩ := parseSources_eq_array hv
  obtain ⟨l', rfl, hlength, helements⟩ := safeParse_array harray
  have hkept : l'.map (resolveSecretRefs env) = l' := by
    refine (List.map_congr_left fun x hx => ?_).trans (List.map_id l')
    obtain ⟨n, hn⟩ := List.mem_iff_getElem?.mp hx
    have hlt : n < sources.length := by
      rw [List.length_map] at hlength
      exact hlength ▸ (List.getElem?_eq_some_iff.mp hn).1
    have hsource : (sources.map (resolveSecretRefs env))[n]? = some (resolveSecretRefs env sources[n]) := by
      rw [List.getElem?_map, List.getElem?_eq_getElem hlt]
      rfl
    obtain ⟨y, hy, hok⟩ := helements n _ hsource
    obtain rfl := Option.some.inj (hy.symm.trans hn)
    exact resolveSecretRefs_again hok
  refine ⟨.array l', ?_, settled_of_settles settles_sourcesSchema _ _ hw⟩
  show some (Datum.array (l'.map (resolveSecretRefs env))) = _
  rw [hkept]

theorem settled_databaseConfigSchema : (databaseConfigSchema canParse env).Settled := by
  have hnodup : ([JsString.ofString "sources", "health", "oracle", "useDbLink"] : List JsString).Nodup := by decide
  refine settled_object hnodup (List.forall_mem_cons.mpr ⟨settled_sources, fun e he => settled_of_settles ?_⟩)
  simp only [List.mem_cons, List.not_mem_nil, or_false] at he
  rcases he with rfl | rfl | rfl
  exacts [rfl, rfl, rfl]

/-- **The schema accepts again what it has accepted**, as it is. -/
theorem settled_rootSchema : (rootSchema canParse env).Settled := by
  refine settled_checked (settled_object nodup_rootFields fun e he => ?_) (keeps_of_all rfl)
  have hother : e ≠ (JsString.ofString "database", .optional (databaseConfigSchema canParse env)) →
      e.2.settles = true := by
    intro hne
    simp only [rootFields, List.mem_cons, List.not_mem_nil, or_false] at he
    rcases he with rfl | rfl | rfl | rfl | rfl | rfl | rfl | rfl | rfl | rfl
    exacts [rfl, rfl, rfl, absurd rfl hne, rfl, rfl, rfl, rfl, rfl, rfl]
  by_cases hdatabase : e = (JsString.ofString "database", .optional (databaseConfigSchema canParse env))
  · rw [hdatabase]
    exact settled_optional settled_databaseConfigSchema rfl
  · exact settled_of_settles (hother hdatabase)

end NestDdd.Config.Schemas

namespace NestDdd.Config

open NestDdd.Shared NestDdd.Zod NestDdd.Config.Schemas

/-- **The configuration is one that the schema accepts**, as it is: every default and every secret in it included. -/
theorem accepted_again {zod : Library} {canParse : JsString → Bool} {locale : Reason → JsString} {files : EnvFiles}
    {env : Environment} {c : Datum} (h : loadConfig zod canParse locale files env = .ok c) :
    zod.safeParse (rootSchema canParse (loadEnvFiles files env)) c = .ok c :=
  zod.safeParse_eq_ok_iff.mpr (settled_rootSchema _ _ (zod.safeParse_eq_ok_iff.mp (loadConfig_eq_ok_iff.mp h)))

/-- That of `withDatabase` is, with the password that has been looked up. -/
theorem accepted_again_withDatabase :
    let files : EnvFiles := fun _ _ => none
    ∃ c, loadConfig .reference (fun _ => true) (fun _ => []) files withDatabase = .ok c ∧
      c.follow passwordPath = .string (JsString.ofString "tiger") ∧
        Library.reference.safeParse (rootSchema (fun _ => true) (loadEnvFiles files withDatabase)) c = .ok c := by
  intro files
  obtain ⟨c, hc, hpassword⟩ := loadConfig_withDatabase
  exact ⟨c, hc, hpassword, accepted_again hc⟩

end NestDdd.Config
