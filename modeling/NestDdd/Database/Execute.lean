import NestDdd.Database.OracleClient

/-!
# What a function does with its connection, and what the driver sees of it

`withExecuteDefaults` of `OracleClient` (`src/infrastructure/database/clients/oracle.client.ts`) hands a function a
proxy of its connection, whose `execute` adds the fetch defaults of the source and a line about a statement. The
function is to notice nothing of it, and the log is to say nothing that it must not.

## What is proved

* `lookup_spread` — an option that the function gives counts, and a default only where it gives none.
* `exec_executeWithDefaults_iff` — one statement under the proxy: the statement, its two clock readings and its line.
* `proxy_transparent` — **a run under the proxy is a run of the function**, with each of its calls spelt out.
-/

namespace NestDdd.Database

open NestDdd.Theory NestDdd.Shared

/-! ### The specification -/

/-- The line about a statement, if there is to be one: slow statements are warned about, and others are only there for
those who debug; the text is there only if it is to be logged. -/
def statementLine (source : OracleSource) (tag : Option JsString) (sql : JsString) (latencyMs : ℤ) : Option LogLine :=
  let fields (logged : JsValue) : Props :=
    [("sourceKey", .string source.key), ("tag", .ofOption tag), ("latencyMs", .int latencyMs), ("sql", logged)]
  if 0 < source.slowQueryMs ∧ (source.slowQueryMs : ℤ) ≤ latencyMs then
    some ⟨.warn, "db.query.slow", fields (if source.logSql then loggedSql sql else .undefined)⟩
  else if source.logSql then some ⟨.debug, "db.query", fields (loggedSql sql)⟩
  else none

/-- A call of the function, with what the clock says before and after it. -/
structure Timed where
  /-- The call and its answer. -/
  event : Event Conn
  /-- `Date.now()` before. -/
  started : ℤ
  /-- `Date.now()` after. -/
  ended : ℤ

/-- The line about a call. -/
def Timed.line (source : OracleSource) (tag : Option JsString) (e : Timed) : Option LogLine :=
  match e.event.op with
  | .execute sql _ _ => statementLine source tag sql (e.ended - e.started)
  | .log line => some line
  | _ => none

/-- What the driver sees of a call. -/
def Timed.driven (source : OracleSource) (tag : Option JsString) (e : Timed) : Trace Driver :=
  match e with
  | ⟨⟨.execute sql binds options, x⟩, started, ended⟩ =>
    [⟨.now, started⟩,
      ⟨.execute sql (bindsOrDefault binds) (spread (toExecuteDefaults source) options), x⟩,
      ⟨.now, ended⟩] ++
      (statementLine source tag sql (ended - started)).toList.map fun line => ⟨.log line, ()⟩
  | ⟨⟨.commit, x⟩, _, _⟩ => [⟨.commit, x⟩]
  | ⟨⟨.rollback, x⟩, _, _⟩ => [⟨.rollback, x⟩]
  | ⟨⟨.ping, x⟩, _, _⟩ => [⟨.ping, x⟩]
  | ⟨⟨.log line, x⟩, _, _⟩ => [⟨.log line, x⟩]
  | ⟨⟨.outside request, x⟩, _, _⟩ => [⟨.outside request, x⟩]

/-- The line of an interaction. -/
def lineOf (e : Event Driver) : Option LogLine :=
  match e.op with
  | .log line => some line
  | _ => none

/-- The option that counts. -/
def optionOf (defaults options : Props) (key : String) : Option JsValue := (options.lookup key).or (defaults.lookup key)

/-- What a line about a statement may say. -/
structure Discreet (source : OracleSource) (sql : JsString) (latencyMs : ℤ) (line : LogLine) : Prop where
  /-- It is a warning if and only if the statement was slow. -/
  level : line.level = .warn ↔ 0 < source.slowQueryMs ∧ (source.slowQueryMs : ℤ) ≤ latencyMs
  /-- It says which source and which call, how long, and what. -/
  fields : line.fields.map Prod.fst = ["sourceKey", "tag", "latencyMs", "sql"]
  /-- What it says of the statement is its beginning, and nothing unless it is to be logged. -/
  sql : line.fields.lookup "sql" = some .undefined ∨ source.logSql = true ∧
    ∃ text, line.fields.lookup "sql" = some (.string text) ∧ text <+: sql.trim ∧ text.length ≤ SQL_LOG_MAX

/-! ### The options -/

theorem lookup_map_value (f : String → JsValue → JsValue) (key : String) (props : Props) :
    (props.map fun p => (p.1, f p.1 p.2)).lookup key = (props.lookup key).map (f key) := by
  induction props with
  | nil => rfl
  | cons p props ih =>
    obtain ⟨k, v⟩ := p
    rw [List.map_cons, List.lookup_cons, List.lookup_cons]
    by_cases hk : key = k
    · subst hk
      simp
    · rw [beq_eq_false_iff_ne.mpr hk]
      exact ih

theorem lookup_filter_key (keep : String → Bool) (key : String) (props : Props) :
    (props.filter fun p => keep p.1).lookup key = if keep key then props.lookup key else none := by
  induction props with
  | nil => simp
  | cons p props ih =>
    obtain ⟨k, v⟩ := p
    rw [List.filter_cons, List.lookup_cons]
    by_cases hk : key = k
    · subst hk
      by_cases hkeep : keep key = true
      · simp [hkeep]
      · simp [hkeep, ih]
    · rw [beq_eq_false_iff_ne.mpr hk, ← ih]
      split
      · rw [List.lookup_cons, beq_eq_false_iff_ne.mpr hk]
      · rfl

/-- **Defaults give way**: an option that is given counts. -/
theorem lookup_spread (defaults options : Props) (key : String) :
    (spread defaults options).lookup key = optionOf defaults options key := by
  unfold spread optionOf
  rw [List.lookup_append, lookup_map_value fun k v => (options.lookup k).getD v,
    lookup_filter_key fun k => (defaults.lookup k).isNone]
  cases defaults.lookup key with
  | none => simp
  | some v => cases options.lookup key <;> rfl

/-! ### One statement -/

section

variable {source : OracleSource} {tag : Option JsString} {t : Trace Driver}

theorem exec_now_iff {r : Except JsValue ℤ} :
    Exec ClientM.now t r ↔ ∃ n, t = [⟨.now, n⟩] ∧ r = .ok n := by
  refine exec_lift_iff.trans (exists_congr fun n => and_congr_left fun _ => ?_)
  exact exec_ask_iff

/-- A clock reading, and what follows it. -/
theorem exec_now_await_iff {α : Type} {f : ℤ → ClientM α} {r : Except JsValue α} :
    Exec (ClientM.now >>= f : ClientM α) t r ↔ ∃ n t', t = ⟨.now, n⟩ :: t' ∧ Exec (f n) t' r := by
  rw [exec_await_iff]
  constructor
  · rintro (⟨t₁, n, t₂, hnow, hf, rfl⟩ | ⟨e, hnow, -⟩)
    · obtain ⟨m, rfl, hm⟩ := exec_now_iff.mp hnow
      cases hm
      exact ⟨n, t₂, rfl, hf⟩
    · obtain ⟨m, -, hm⟩ := exec_now_iff.mp hnow
      cases hm
  · rintro ⟨n, t', rfl, hf⟩
    exact .inl ⟨_, n, t', exec_now_iff.mpr ⟨n, rfl, rfl⟩, hf, rfl⟩

theorem exec_log_iff {line : LogLine} {r : Except JsValue Unit} :
    Exec (ClientM.log line) t r ↔ t = [⟨.log line, ()⟩] ∧ r = .ok () := by
  refine exec_lift_iff.trans ⟨?_, ?_⟩
  · rintro ⟨⟨⟩, h, rfl⟩
    exact ⟨exec_ask_iff.mp h, rfl⟩
  · rintro ⟨h, rfl⟩
    exact ⟨(), exec_ask_iff.mpr h, rfl⟩

/-- The `finally` block writes the line that there is to be. -/
theorem exec_logExecuted_iff {sql : JsString} {latencyMs : ℤ} {r : Except JsValue Unit} :
    Exec (logExecuted source tag sql latencyMs) t r ↔
      t = (statementLine source tag sql latencyMs).toList.map (fun line => ⟨.log line, ()⟩) ∧ r = .ok () := by
  unfold logExecuted statementLine
  simp only
  split
  · exact exec_log_iff
  · split
    · exact exec_log_iff
    · exact exec_return_iff

/-- **One statement under the proxy.** -/
theorem exec_executeWithDefaults_iff {sql : JsString} {binds : JsValue} {options : Props} {r : Except JsValue JsValue} :
    Exec (executeWithDefaults source tag sql binds options) t r ↔
      ∃ started ended, t = Timed.driven source tag ⟨⟨.execute sql binds options, r⟩, started, ended⟩ := by
  rw [executeWithDefaults, exec_now_await_iff]
  refine exists_congr fun started => ?_
  constructor
  · rintro ⟨t', rfl, h⟩
    obtain ⟨t₁, r₁, t₂, r₂, hexecute, hfinally, rfl, rfl⟩ := exec_tryFinally_iff.mp h
    obtain rfl := exec_ask_iff.mp hexecute
    obtain ⟨ended, t₃, rfl, hlog⟩ := exec_now_await_iff.mp hfinally
    obtain ⟨rfl, rfl⟩ := exec_logExecuted_iff.mp hlog
    exact ⟨ended, rfl⟩
  · rintro ⟨ended, rfl⟩
    refine ⟨_, rfl, exec_tryFinally_iff.mpr ⟨_, r, _, .ok (), exec_ask_iff.mpr rfl, ?_, rfl, rfl⟩⟩
    exact exec_now_await_iff.mpr ⟨ended, _, rfl, exec_logExecuted_iff.mpr ⟨rfl, rfl⟩⟩

/-- One call under the proxy. -/
theorem exec_proxied_iff {o : Conn.Op} {x : Conn.Ans o} :
    Exec (proxied source tag o) t x ↔ ∃ started ended, t = Timed.driven source tag ⟨⟨o, x⟩, started, ended⟩ := by
  cases o with
  | execute sql binds options => exact exec_executeWithDefaults_iff
  | commit => exact exec_ask_iff.trans ⟨fun h => ⟨0, 0, h⟩, fun ⟨_, _, h⟩ => h⟩
  | rollback => exact exec_ask_iff.trans ⟨fun h => ⟨0, 0, h⟩, fun ⟨_, _, h⟩ => h⟩
  | ping => exact exec_ask_iff.trans ⟨fun h => ⟨0, 0, h⟩, fun ⟨_, _, h⟩ => h⟩
  | log line => exact exec_ask_iff.trans ⟨fun h => ⟨0, 0, h⟩, fun ⟨_, _, h⟩ => h⟩
  | outside request => exact exec_ask_iff.trans ⟨fun h => ⟨0, 0, h⟩, fun ⟨_, _, h⟩ => h⟩

theorem spells_proxied_iff {q : Trace Conn} :
    Spells (proxied source tag) q t ↔
      ∃ es : List Timed, es.map Timed.event = q ∧ t = es.flatMap (Timed.driven source tag) := by
  constructor
  · intro h
    induction h with
    | nil => exact ⟨[], rfl, rfl⟩
    | cons hcall _ ih =>
      obtain ⟨started, ended, rfl⟩ := exec_proxied_iff.mp hcall
      obtain ⟨es, rfl, rfl⟩ := ih
      exact ⟨⟨_, started, ended⟩ :: es, rfl, rfl⟩
  · rintro ⟨es, rfl, rfl⟩
    induction es with
    | nil => exact .nil
    | cons e es ih => exact .cons (exec_proxied_iff.mpr ⟨e.started, e.ended, rfl⟩) ih

/-! ### The lines -/

/-- The lines of a call are the one about it, if there is one. -/
theorem filterMap_driven (e : Timed) :
    (e.driven source tag).filterMap lineOf = (e.line source tag).toList := by
  obtain ⟨⟨o, x⟩, started, ended⟩ := e
  cases o with
  | execute sql binds options =>
    simp only [Timed.driven, Timed.line]
    cases statementLine source tag sql (ended - started) <;> rfl
  | _ => rfl

theorem loggedSql_spec (sql : JsString) :
    ∃ text, loggedSql sql = .string text ∧ text <+: sql.trim ∧ text.length ≤ SQL_LOG_MAX :=
  ⟨_, rfl, List.take_prefix _ _, List.length_take_le _ _⟩

theorem statementLine_discreet {sql : JsString} {latencyMs : ℤ} {line : LogLine}
    (h : statementLine source tag sql latencyMs = some line) : Discreet source sql latencyMs line := by
  simp only [statementLine] at h
  obtain ⟨text, htext, hprefix, hlength⟩ := loggedSql_spec sql
  split_ifs at h with hslow hlog hlog
  · cases h
    exact ⟨iff_of_true rfl hslow, rfl, .inr ⟨hlog, text, congrArg some htext, hprefix, hlength⟩⟩
  · cases h
    exact ⟨iff_of_true rfl hslow, rfl, .inl rfl⟩
  · cases h
    exact ⟨iff_of_false (by simp) hslow, rfl, .inr ⟨hlog, text, congrArg some htext, hprefix, hlength⟩⟩

end

/-! ### A function under the proxy -/

/-- **The proxy is transparent**: its runs are the runs of the function, with the same answers and the same result, in
which every statement has the options of the source where the function gives none; and all that is logged besides what
the function logs is at most one discreet line for each statement, which depends on nothing else but its time. -/
theorem proxy_transparent {α : Type} (source : OracleSource) (tag : Option JsString) (fn : Callback α) :
    (∀ t r, Exec (callFn source tag fn) t r ↔
        ∃ es : List Timed, Exec fn (es.map Timed.event) r ∧ t = es.flatMap (Timed.driven source tag)) ∧
      (∀ options key, (spread (toExecuteDefaults source) options).lookup key =
        optionOf (toExecuteDefaults source) options key) ∧
      (∀ es : List Timed, (es.flatMap (Timed.driven source tag)).filterMap lineOf =
        es.filterMap (Timed.line source tag)) ∧
      ∀ sql latencyMs line, statementLine source tag sql latencyMs = some line →
        Discreet source sql latencyMs line := by
  refine ⟨fun t r => ?_, lookup_spread _, fun es => ?_, fun _ _ _ => statementLine_discreet⟩
  · refine exec_interp_iff.trans ⟨?_, ?_⟩
    · rintro ⟨q, hq, hspells⟩
      obtain ⟨es, rfl, rfl⟩ := spells_proxied_iff.mp hspells
      exact ⟨es, hq, rfl⟩
    · rintro ⟨es, hq, rfl⟩
      exact ⟨_, hq, spells_proxied_iff.mpr ⟨es, rfl, rfl⟩⟩
  · induction es with
    | nil => rfl
    | cons e es ih =>
      rw [List.flatMap_cons, List.filterMap_append, ih, filterMap_driven]
      cases h : e.line source tag <;> simp [h]

end NestDdd.Database
