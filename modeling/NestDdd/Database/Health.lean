import NestDdd.Database.SourceRegistry

/-!
# The health of the sources

`PoolManager.health` (`src/infrastructure/database/connection/pool.manager.ts`), which the readiness probe asks: every
implemented source is pinged, all at once, and each has its entry in the answer whatever its ping comes to.

## The model

Each source's part of the call runs at once up to its ping (`SourceTask`). What the pings come to is heard later, in
any order; `answers` is what has been heard so far, and the promise of the call is settled as soon as it says enough.

## What is proved

* `settled_iff` — **the call settles** when every implemented source has answered, and then it does not reject: it has
  one entry for each client, in the order of the clients.
* `ready_iff` — the implemented sources are all fine if and only if each of them answered its ping, and its pool told
  its counters.
-/

namespace NestDdd.Database

open NestDdd.Shared NestDdd.Theory

/-- What came of a client's ping. -/
structure Pinged where
  /-- What `client.ping(timeoutMs)` came to. -/
  answer : Answer
  /-- What `client.stats()` comes to after it. -/
  stats : Except JsValue JsValue
  /-- `Date.now() - started`. -/
  latencyMs : ℤ

/-- The ping resolved and the counters were read. -/
def Pinged.Fine (p : Pinged) : Prop := p.answer = .ok () ∧ ∃ pool, p.stats = .ok pool

/-- `SourceHealth`. -/
structure SourceHealth where
  /-- `sourceKey`. -/
  sourceKey : JsString
  /-- `dialect`. -/
  dialect : Dialect
  /-- `implemented`. -/
  implemented : Bool
  /-- `ok`. -/
  ok : Bool
  /-- `latencyMs`. -/
  latencyMs : ℤ
  /-- `error`. -/
  error : Option JsString
  /-- `pool`. -/
  pool : Option JsValue

/-- The object. -/
def SourceHealth.value (h : SourceHealth) : JsValue :=
  .object .plain ([("sourceKey", .string h.sourceKey), ("dialect", .string h.dialect.name),
    ("implemented", .bool h.implemented), ("ok", .bool h.ok), ("latencyMs", .int h.latencyMs)] ++
    (h.pool.map (("pool", ·))).toList ++ (h.error.map fun e => ("error", JsValue.string e)).toList)

/-- A source's part of `health`, as far as it runs at once. -/
inductive SourceTask where
  /-- `getDialect` has thrown. -/
  | threw (e : JsValue)
  /-- It is a placeholder. -/
  | placeholder (sourceKey : JsString) (dialect : Dialect)
  /-- Its ping is out. -/
  | pinging (sourceKey : JsString) (dialect : Dialect)

/-- The entry of a placeholder. -/
def placeholderHealth (sourceKey : JsString) (dialect : Dialect) : SourceHealth where
  sourceKey := sourceKey
  dialect := dialect
  implemented := false
  ok := false
  latencyMs := 0
  error := none
  pool := none

/-- The entry of an implemented source: that of the `try`, or that of the `catch`. -/
def pingedHealth (sourceKey : JsString) (dialect : Dialect) (p : Pinged) : SourceHealth where
  sourceKey := sourceKey
  dialect := dialect
  implemented := true
  ok := match p.answer, p.stats with
    | .ok (), .ok _ => true
    | _, _ => false
  latencyMs := p.latencyMs
  error := match p.answer, p.stats with
    | .ok (), .ok _ => none
    | .ok (), .error e | .error e, _ => some (errorMessage e)
  pool := match p.answer, p.stats with
    | .ok (), .ok pool => some pool
    | _, _ => none

/-- What has been heard of each source. -/
abbrev Answers := JsString → Option Pinged

/-- The promise of a source's part. -/
def SourceTask.settled (answers : Answers) : SourceTask → Option (Except JsValue SourceHealth)
  | .threw e => some (.error e)
  | .placeholder sourceKey dialect => some (.ok (placeholderHealth sourceKey dialect))
  | .pinging sourceKey dialect => (answers sourceKey).map fun p => .ok (pingedHealth sourceKey dialect p)

/-- What a promise has rejected with. -/
def rejected? {α : Type} : Option (Except JsValue α) → Option JsValue
  | some (.error e) => some e
  | _ => none

/-- `Promise.all`: the first rejection, or all the values once each is there. -/
def promiseAll {α : Type} (promises : List (Option (Except JsValue α))) : Option (Except JsValue (List α)) :=
  match promises.findSome? rejected? with
  | some e => some (.error e)
  | none => (promises.mapM fun (p : Option (Except JsValue α)) => p.bind Except.toOption).map .ok

namespace Registry

/-- The function that `health` maps over the entries, up to its `await`. -/
def task (r : Registry) (e : JsString × DatabaseClient) : SourceTask :=
  match r.getDialect e.1 with
  | .error err => .threw err
  | .ok dialect => if e.2.implemented then .pinging e.1 dialect else .placeholder e.1 dialect

/-- The parts of a call of `health`. -/
def healthTasks (r : Registry) : List SourceTask := r.clients.entries.map r.task

end Registry

/-- What a call of `health` has come to. -/
def healthSettled (answers : Answers) (tasks : List SourceTask) : Option (Except JsValue (List SourceHealth)) :=
  promiseAll (tasks.map (SourceTask.settled answers))

/-- The key of a source whose ping is out. -/
def SourceTask.pinged? : SourceTask → Option JsString
  | .pinging sourceKey _ => some sourceKey
  | _ => none

/-! ### The calls -/

/-- Values that are all there. -/
theorem promiseAll_ok {α β : Type} (f : β → Option (Except JsValue α)) (g : β → Option α) (l : List β)
    (h : ∀ b ∈ l, f b = (g b).map .ok) : promiseAll (l.map f) = (l.mapM g).map .ok := by
  have hnone : (l.map f).findSome? rejected? = none := by
    rw [List.findSome?_eq_none_iff]
    intro p hp
    obtain ⟨b, hb, rfl⟩ := List.mem_map.mp hp
    rw [h b hb]
    cases g b <;> rfl
  rw [promiseAll, hnone]
  refine congrArg (Option.map Except.ok) ?_
  clear hnone
  induction l with
  | nil => rfl
  | cons b l ih =>
    have hb : (f b).bind Except.toOption = g b := by
      rw [h b List.mem_cons_self]
      cases g b <;> rfl
    rw [List.map_cons, List.mapM_cons, List.mapM_cons, hb, ih fun b' hb' => h b' (List.mem_cons_of_mem _ hb')]

/-- A list of values that are there. -/
theorem mapM_eq_some_iff {α β : Type} (g : β → Option α) (l : List β) (values : List α) :
    l.mapM g = some values ↔ List.Forall₂ (fun b a => g b = some a) l values := by
  induction l generalizing values with
  | nil =>
    rw [List.mapM_nil, List.forall₂_nil_left_iff]
    exact ⟨fun h => (Option.some.inj h).symm, fun h => congrArg some h.symm⟩
  | cons b l ih =>
    rw [List.mapM_cons, List.forall₂_cons_left_iff]
    constructor
    · intro h
      obtain ⟨a, ha, hrest⟩ := Option.bind_eq_some_iff.mp h
      obtain ⟨as, has, heq⟩ := Option.bind_eq_some_iff.mp hrest
      exact ⟨a, as, ha, (ih as).mp has, (Option.some.inj heq).symm⟩
    · rintro ⟨a, as, ha, has, rfl⟩
      rw [ha, (ih as).mpr has]
      rfl

namespace Registry

variable {r : Registry} {answers : Answers} {entries : List SourceHealth}

/-- What the entry of a client is, once there is one. -/
def entryHealth (r : Registry) (answers : Answers) (e : JsString × DatabaseClient) : Option SourceHealth :=
  (r.getDialect e.1).toOption.bind fun dialect =>
    if e.2.implemented then (answers e.1).map (pingedHealth e.1 dialect)
    else some (placeholderHealth e.1 dialect)

/-- A client's dialect is known. -/
theorem Inv.dialect (h : r.Inv) {e : JsString × DatabaseClient} (he : e ∈ r.clients.entries) :
    ∃ dialect, r.getDialect e.1 = .ok dialect := by
  refine getDialect_iff.mpr (h.known e.1 ?_)
  rw [hasSource, OrderedMap.has_iff]
  exact List.mem_map_of_mem he

theorem Inv.settled_task (h : r.Inv) {e : JsString × DatabaseClient} (he : e ∈ r.clients.entries) :
    (r.task e).settled answers = (r.entryHealth answers e).map .ok := by
  obtain ⟨dialect, hdialect⟩ := h.dialect he
  rw [task, entryHealth, hdialect]
  cases e.2.implemented with
  | true =>
    show Option.map _ _ = Option.map _ (Option.map _ _)
    rw [Option.map_map]
    rfl
  | false => rfl

/-- **When `health` settles, and with what.** -/
theorem Inv.settled_iff (h : r.Inv) {outcome : Except JsValue (List SourceHealth)} :
    healthSettled answers r.healthTasks = some outcome ↔ ∃ values, outcome = .ok values ∧
      List.Forall₂ (fun e v => r.entryHealth answers e = some v) r.clients.entries values := by
  have hall := promiseAll_ok (fun e => (r.task e).settled answers) (r.entryHealth answers) r.clients.entries
    fun e he => h.settled_task he
  have htasks : r.healthTasks.map (SourceTask.settled answers) =
      r.clients.entries.map fun e => (r.task e).settled answers := List.map_map
  rw [healthSettled, htasks, hall, Option.map_eq_some_iff]
  constructor
  · rintro ⟨values, hvalues, rfl⟩
    exact ⟨values, rfl, (mapM_eq_some_iff _ _ _).mp hvalues⟩
  · rintro ⟨values, rfl, hvalues⟩
    exact ⟨values, (mapM_eq_some_iff _ _ _).mpr hvalues, rfl⟩

theorem sourceKey_entryHealth {e : JsString × DatabaseClient} {v : SourceHealth}
    (h : r.entryHealth answers e = some v) : v.sourceKey = e.1 := by
  obtain ⟨dialect, -, hv⟩ := Option.bind_eq_some_iff.mp h
  split at hv
  · obtain ⟨p, -, rfl⟩ := Option.map_eq_some_iff.mp hv
    rfl
  · obtain rfl := Option.some.inj hv
    rfl

/-- **One entry for each client**, in their order. -/
theorem keys_of_settled (h : List.Forall₂ (fun e v => r.entryHealth answers e = some v) r.clients.entries entries) :
    entries.map SourceHealth.sourceKey = r.clients.keys := by
  rw [OrderedMap.keys]
  generalize r.clients.entries = clients at h ⊢
  induction h with
  | nil => rfl
  | cons hv _ ih => rw [List.map_cons, List.map_cons, sourceKey_entryHealth hv, ih]

theorem ok_pingedHealth {sourceKey : JsString} {dialect : Dialect} {p : Pinged} :
    (pingedHealth sourceKey dialect p).ok = true ↔ p.Fine := by
  obtain ⟨answer, stats, latencyMs⟩ := p
  cases answer <;> cases stats <;> simp [pingedHealth, Pinged.Fine]

/-- What makes an entry fine. -/
theorem fine_entryHealth {e : JsString × DatabaseClient} {v : SourceHealth} (h : r.entryHealth answers e = some v) :
    (v.implemented = true → v.ok = true) ↔ (e.2.implemented = true → ∃ p, answers e.1 = some p ∧ p.Fine) := by
  obtain ⟨dialect, -, hv⟩ := Option.bind_eq_some_iff.mp h
  split at hv
  · next himplemented =>
    obtain ⟨p, hp, rfl⟩ := Option.map_eq_some_iff.mp hv
    refine (forall_prop_of_true rfl).trans (ok_pingedHealth.trans ?_)
    rw [forall_prop_of_true himplemented, hp]
    simp
  · next himplemented =>
    obtain rfl := Option.some.inj hv
    exact iff_of_true nofun fun h => absurd h himplemented

/-- **The implemented sources are all fine** if and only if each has answered. -/
theorem ready_iff (h : List.Forall₂ (fun e v => r.entryHealth answers e = some v) r.clients.entries entries) :
    ((entries.filter (·.implemented)).all (·.ok) = true) ↔
      ∀ e ∈ r.clients.entries, e.2.implemented = true → ∃ p, answers e.1 = some p ∧ p.Fine := by
  rw [List.all_eq_true]
  have hfilter : (∀ v ∈ entries.filter (·.implemented), v.ok = true) ↔
      ∀ v ∈ entries, v.implemented = true → v.ok = true := by
    simp only [List.mem_filter, and_imp]
  rw [hfilter]
  clear hfilter
  generalize r.clients.entries = clients at h ⊢
  induction h with
  | nil => simp
  | cons hv _ ih =>
    rw [List.forall_mem_cons, List.forall_mem_cons]
    exact and_congr (fine_entryHealth hv) ih

end Registry

end NestDdd.Database
