import NestDdd.Database.Errors
import NestDdd.Database.PoolManager
import NestDdd.Theory.History
import NestDdd.Theory.OrderedMap

/-!
# The two maps of the pool manager

`PoolManager` (`src/infrastructure/database/connection/pool.manager.ts`) with its two maps apart: `meta`, which `init`
sets before it opens the pool of a source, and `clients`, which it sets after that. `onModuleDestroy` closes the
clients and clears `clients` only.

## The model

The registry is a `Machine` whose events are the calls. A call of `init` brings its configuration and what opening each
source comes to in it, one of `onModuleDestroy` what closing each client comes to. `history` is kept for the
specification only.

## What is proved

* `neverHalfUpdated_iff` — **the maps agree throughout** if and only if no `init` meets a source that does not open,
  and nothing is registered when `onModuleDestroy` is called.
* `Inv.init` — whatever fails, a later `init` that succeeds leaves one client for each source, and opens no second
  pool.
* `init_coarse` — where the maps agree, an `init` that succeeds is that of the manager with one map.
* `failed_init_disagrees` — one source that does not open.
-/

namespace NestDdd.Database

open NestDdd.Shared NestDdd.Theory

/-! ### The registry -/

/-- `DatabaseSource`, as far as `init` reads it. -/
structure ConfiguredSource extends DatabaseSource where
  /-- `defaultSchema`. -/
  defaultSchema : Option JsString

/-- A value of `meta`. -/
structure SourceMeta where
  /-- `dialect`. -/
  dialect : Dialect
  /-- `defaultSchema`. -/
  defaultSchema : Option JsString

/-- What has been done to the pools of the sources. -/
inductive PoolEntry where
  /-- `oracledb.createPool` has made one. -/
  | opened (key : JsString)
  /-- `client.close()` has been called, with what it came to. -/
  | destroyed (key : JsString) (closed : Except JsValue Unit)

/-- `PoolManager`. -/
structure Registry where
  /-- `clients`. -/
  clients : OrderedMap JsString DatabaseClient
  /-- `meta`. -/
  sourceMeta : OrderedMap JsString SourceMeta
  /-- What has been done to the pools. -/
  history : List PoolEntry

/-- A call of `init`. -/
structure Attempt where
  /-- `config.sources`. -/
  sources : List ConfiguredSource
  /-- The schema refuses keys that are not unique. -/
  unique : (sources.map (·.key)).Nodup
  /-- `initOracleDriver(config.oracle)`, before the pool of a source. -/
  initOracleDriver : ConfiguredSource → Except JsValue Unit
  /-- `oracledb.createPool(toPoolAttributes(source))`. -/
  createPool : ConfiguredSource → Except JsValue Unit

/-- The calls. -/
inductive RegistryCall where
  /-- `init`. -/
  | init (a : Attempt)
  /-- `onModuleDestroy`; `close` is what closing the client of a key comes to. -/
  | onModuleDestroy (close : JsString → Except JsValue Unit)

/-- `new UnknownSourceKeyError(sourceKey)`. -/
def unknownSourceKeyError (sourceKey : JsString) : JsValue :=
  infrastructureError "UnknownSourceKeyError"
    (JsString.concat ["No database source configured for key \"", sourceKey, "\""]) .undefined
    [("sourceKey", .string sourceKey)]

namespace Registry

/-- `new PoolManager(logger)`. -/
def new : Registry := ⟨.empty, .empty, []⟩

variable (r : Registry)

/-- `hasSource`. -/
def hasSource (sourceKey : JsString) : Bool := r.clients.has sourceKey

/-- `getDialect`. -/
def getDialect (sourceKey : JsString) : Except JsValue Dialect :=
  match r.sourceMeta.get? sourceKey with
  | none => .error (unknownSourceKeyError sourceKey)
  | some m => .ok m.dialect

/-- The body of the loop of `init`, and whether it throws. -/
def initSource (a : Attempt) (source : ConfiguredSource) : Registry × Except JsValue Unit :=
  if r.clients.has source.key then (r, .ok ())
  else
    let r := { r with sourceMeta := r.sourceMeta.set source.key ⟨source.dialect, source.defaultSchema⟩ }
    match source.dialect with
    | .oracle =>
      match a.initOracleDriver source with
      | .error e => (r, .error e)
      | .ok () =>
        match a.createPool source with
        | .error e => (r, .error (databaseConnectionError source.key e))
        | .ok () =>
          ({ r with
              clients := r.clients.set source.key .oracleClient
              history := r.history ++ [.opened source.key] }, .ok ())
    | _ => ({ r with clients := r.clients.set source.key .notImplementedClient }, .ok ())

/-- The loop of `init`. -/
def initFrom (a : Attempt) (r : Registry) : List ConfiguredSource → Registry × Except JsValue Unit
  | [] => (r, .ok ())
  | source :: rest =>
    match r.initSource a source with
    | (r, .error e) => (r, .error e)
    | (r, .ok ()) => initFrom a r rest

/-- `init`. -/
def init (a : Attempt) : Registry × Except JsValue Unit := initFrom a r a.sources

/-- `onModuleDestroy`. -/
def onModuleDestroy (close : JsString → Except JsValue Unit) : Registry :=
  { r with
    clients := .empty
    history := r.history ++ r.clients.keys.map fun key => .destroyed key (close key) }

/-- What a call makes of the registry. -/
def next : RegistryCall → Registry
  | .init a => (r.init a).1
  | .onModuleDestroy close => r.onModuleDestroy close

/-- The registry, called again and again. -/
def machine : Machine Registry RegistryCall where
  Initial r := r = new
  Enabled _ _ := True
  next := next

end Registry

/-! ### The specification -/

/-- The source opens, if it is an Oracle one. -/
def Attempt.Opens (a : Attempt) (source : ConfiguredSource) : Prop :=
  source.dialect = .oracle → a.initOracleDriver source = .ok () ∧ a.createPool source = .ok ()

/-- Whether the source has a pool that has not been destroyed. -/
def isOpen (key : JsString) (history : List PoolEntry) : Bool :=
  history.foldl (fun b e => match e with
    | .opened k => b || decide (k = key)
    | .destroyed k _ => b && decide (k ≠ key)) false

namespace Registry

/-- A source is there if and only if it has a dialect. -/
def Agrees (r : Registry) : Prop := ∀ key, r.hasSource key = true ↔ ∃ d, r.getDialect key = .ok d

/-- **The registry is never half-updated** by a sequence of calls. -/
structure NeverHalfUpdated (calls : List RegistryCall) : Prop where
  /-- After each call, the maps agree. -/
  agrees : ∀ before r, before <+: calls → machine.Run before r → r.Agrees
  /-- An `init` that succeeds leaves one client for each source. -/
  complete : ∀ before a r, before ++ [.init a] <+: calls → machine.Run before r → (r.init a).2 = .ok () →
    ∀ source ∈ a.sources, ∃! client, (source.key, client) ∈ (r.init a).1.clients.entries
  /-- No pool is made for a source that has one. -/
  once : ∀ r, machine.Run calls r →
    Throughout (fun past e => ∀ key, e = .opened key → isOpen key past = false) r.history

/-- The condition: every source that is not there yet opens, and nothing is there when all is destroyed. -/
def Meets (r : Registry) : RegistryCall → Prop
  | .init a => ∀ source ∈ a.sources, r.hasSource source.key = false → a.Opens source
  | .onModuleDestroy _ => ∀ key, r.hasSource key = false

end Registry

/-! ### The pools so far -/

variable {key k : JsString} {history : List PoolEntry}

theorem isOpen_opened : isOpen key (history ++ [.opened k]) = (isOpen key history || decide (k = key)) := by
  simp [isOpen]

theorem isOpen_destroyed (close : JsString → Except JsValue Unit) (keys : List JsString) :
    isOpen key (history ++ keys.map fun k => .destroyed k (close k)) =
      (isOpen key history && decide (key ∉ keys)) := by
  induction keys using List.reverseRecOn with
  | nil => simp
  | append_singleton keys k ih =>
    rw [List.map_append, ← List.append_assoc, isOpen, List.foldl_append, ← isOpen, ih]
    by_cases hk : k = key
    · simp [hk]
    · simp [hk, Ne.symm hk]

namespace Registry

variable {r : Registry} {a : Attempt} {source : ConfiguredSource} {sources : List ConfiguredSource}

/-! ### What a source comes to -/

/-- A source that has not opened is in one map. -/
def described (r : Registry) (source : ConfiguredSource) : Registry :=
  { r with sourceMeta := r.sourceMeta.set source.key ⟨source.dialect, source.defaultSchema⟩ }

/-- A source that has opened is in both. -/
def registered (r : Registry) (source : ConfiguredSource) : Registry :=
  { r.described source with
    clients := r.clients.set source.key (if source.dialect = .oracle then .oracleClient else .notImplementedClient)
    history := r.history ++ if source.dialect = .oracle then [.opened source.key] else [] }

/-- **What the body of the loop does**: nothing, one map, or both. -/
theorem initSource_cases (r : Registry) (a : Attempt) (source : ConfiguredSource) :
    (r.hasSource source.key = true ∧ r.initSource a source = (r, .ok ())) ∨
    (r.hasSource source.key = false ∧ ¬ a.Opens source ∧ ∃ e, r.initSource a source = (r.described source, .error e)) ∨
    (r.hasSource source.key = false ∧ a.Opens source ∧ r.initSource a source = (r.registered source, .ok ())) := by
  cases hhas : r.hasSource source.key with
  | true => exact .inl ⟨rfl, if_pos hhas⟩
  | false =>
    have hnot : ¬ r.clients.has source.key = true := by
      rw [← hasSource, hhas]
      exact Bool.false_ne_true
    rw [initSource, if_neg hnot]
    by_cases hdialect : source.dialect = .oracle
    · rw [hdialect]
      cases hdriver : a.initOracleDriver source with
      | error e =>
        refine .inr (.inl ⟨rfl, fun h => ?_, e, ?_⟩)
        · have hok := (h hdialect).1
          rw [hdriver] at hok
          cases hok
        · simp only [described, hdialect]
      | ok _ =>
        cases hpool : a.createPool source with
        | error e =>
          refine .inr (.inl ⟨rfl, fun h => ?_, databaseConnectionError source.key e, ?_⟩)
          · have hok := (h hdialect).2
            rw [hpool] at hok
            cases hok
          · simp only [described, hdialect]
        | ok _ =>
          refine .inr (.inr ⟨rfl, fun _ => ⟨hdriver, hpool⟩, ?_⟩)
          simp only [registered, described, hdialect, if_true]
    · refine .inr (.inr ⟨rfl, fun h => absurd h hdialect, ?_⟩)
      simp only [registered, described, if_neg hdialect, List.append_nil]

/-! ### The invariant -/

/-- What holds of the registry whatever has failed. -/
structure Inv (r : Registry) : Prop where
  /-- A client's source is described. -/
  known : ∀ key, r.hasSource key = true → r.sourceMeta.has key = true
  /-- The pools that are open are those of the clients. -/
  pools : ∀ key, isOpen key r.history = true ↔ r.clients.get? key = some .oracleClient
  /-- No pool is made for a source that has one. -/
  once : Throughout (fun past e => ∀ key, e = .opened key → isOpen key past = false) r.history

theorem inv_new : new.Inv where
  known _ h := h
  pools _ := iff_of_false Bool.false_ne_true (Option.some_ne_none _).symm
  once := throughout_nil _

theorem Inv.described (h : r.Inv) (source : ConfiguredSource) : (r.described source).Inv where
  known key hkey := by
    rw [Registry.described, OrderedMap.has_set, h.known key hkey, Bool.or_true]
  pools := h.pools
  once := h.once

theorem Inv.registered (h : r.Inv) (hnew : r.hasSource source.key = false) : (r.registered source).Inv where
  known key hkey := by
    rw [hasSource, Registry.registered, OrderedMap.has_set, Bool.or_eq_true] at hkey
    rw [Registry.registered, Registry.described, OrderedMap.has_set, Bool.or_eq_true]
    exact hkey.imp_right (h.known key)
  pools key := by
    have hnone : r.clients.get? source.key = none := by
      rw [← Option.not_isSome_iff_eq_none, OrderedMap.isSome_get?, ← hasSource, hnew]
      exact Bool.false_ne_true
    have hpools := h.pools key
    simp only [Registry.registered, OrderedMap.get?_set]
    by_cases hdialect : source.dialect = .oracle
    · rw [if_pos hdialect, if_pos hdialect, isOpen_opened, Bool.or_eq_true, hpools, decide_eq_true_iff]
      by_cases hkey : key = source.key
      · simp [hkey]
      · rw [if_neg hkey, or_iff_left (Ne.symm hkey)]
    · rw [if_neg hdialect, if_neg hdialect, List.append_nil, hpools]
      by_cases hkey : key = source.key
      · rw [if_pos hkey, hkey, hnone]
        simp
      · rw [if_neg hkey]
  once := by
    simp only [Registry.registered]
    by_cases hdialect : source.dialect = .oracle
    · rw [if_pos hdialect]
      refine throughout_concat.mpr ⟨h.once, ?_⟩
      rintro key he
      obtain rfl : source.key = key := PoolEntry.opened.inj he
      rw [Bool.eq_false_iff]
      intro hopen
      have hclient := (h.pools source.key).mp hopen
      rw [hasSource, ← OrderedMap.isSome_get?, hclient] at hnew
      cases hnew
    · rw [if_neg hdialect, List.append_nil]
      exact h.once

theorem Inv.initFrom (h : r.Inv) : (Registry.initFrom a r sources).1.Inv := by
  induction sources generalizing r with
  | nil => exact h
  | cons source rest ih =>
    rw [Registry.initFrom]
    rcases r.initSource_cases a source with ⟨-, heq⟩ | ⟨-, -, e, heq⟩ | ⟨hnew, -, heq⟩
    · rw [heq]
      exact ih h
    · rw [heq]
      exact h.described source
    · rw [heq]
      exact ih (h.registered hnew)

theorem Inv.onModuleDestroy (h : r.Inv) (close : JsString → Except JsValue Unit) : (r.onModuleDestroy close).Inv where
  known key hkey := by cases hkey
  pools key := by
    rw [Registry.onModuleDestroy, isOpen_destroyed, Bool.and_eq_true, h.pools, decide_eq_true_iff]
    refine iff_of_false ?_ (Option.some_ne_none _).symm
    rintro ⟨hclient, hnot⟩
    refine hnot (OrderedMap.has_iff.mp ?_)
    rw [← OrderedMap.isSome_get?, hclient]
    rfl
  once := by
    have hdestroyed (keys : List JsString) :
        Throughout (fun past e => ∀ key, e = .opened key → isOpen key past = false)
          (r.history ++ keys.map fun key => .destroyed key (close key)) := by
      induction keys using List.reverseRecOn with
      | nil => simpa using h.once
      | append_singleton keys k ih =>
        rw [List.map_append, ← List.append_assoc]
        exact throughout_concat.mpr ⟨ih, fun key he => by cases he⟩
    exact hdestroyed r.clients.keys

/-- Every call keeps it. -/
theorem Inv.next (h : r.Inv) (call : RegistryCall) : (r.next call).Inv := by
  cases call with
  | init a => exact h.initFrom
  | onModuleDestroy close => exact h.onModuleDestroy close

theorem inv_run {calls : List RegistryCall} (h : machine.Run calls r) : r.Inv :=
  h.invariant (fun r hr => by rw [hr]; exact inv_new) fun _ call hr _ => hr.next call

/-! ### An `init` that succeeds -/

/-- What is there stays there. -/
theorem hasSource_registered :
    (r.registered source).hasSource key = true ↔ key = source.key ∨ r.hasSource key = true := by
  rw [hasSource, registered, OrderedMap.has_set, Bool.or_eq_true, decide_eq_true_iff, hasSource]

/-- **A loop that does not throw** leaves every source with a client, and what was there. -/
theorem hasSource_initFrom (h : (initFrom a r sources).2 = .ok ())
    (hkey : r.hasSource key = true ∨ key ∈ sources.map (·.key)) :
    (initFrom a r sources).1.hasSource key = true := by
  induction sources generalizing r with
  | nil => exact hkey.resolve_right List.not_mem_nil
  | cons source rest ih =>
    rw [initFrom] at h ⊢
    rcases r.initSource_cases a source with ⟨hhas, heq⟩ | ⟨-, -, e, heq⟩ | ⟨-, -, heq⟩
    · rw [heq] at h ⊢
      refine ih h ?_
      rcases hkey with hkey | hkey
      · exact .inl hkey
      · rcases List.mem_cons.mp hkey with rfl | hkey
        · exact .inl hhas
        · exact .inr hkey
    · rw [heq] at h
      cases h
    · rw [heq] at h ⊢
      refine ih h ?_
      rcases hkey with hkey | hkey
      · exact .inl (hasSource_registered.mpr (.inr hkey))
      · rcases List.mem_cons.mp hkey with rfl | hkey
        · exact .inl (hasSource_registered.mpr (.inl rfl))
        · exact .inr hkey

/-- **It leaves one client for each source**, whatever has failed before. -/
theorem existsUnique_client (h : (r.init a).2 = .ok ()) (hs : source ∈ a.sources) :
    ∃! client, (source.key, client) ∈ (r.init a).1.clients.entries := by
  have hhas : (r.init a).1.hasSource source.key = true :=
    hasSource_initFrom h (.inr (List.mem_map_of_mem (f := (·.key)) hs))
  obtain ⟨client, hclient⟩ := Option.isSome_iff_exists.mp hhas
  refine ⟨client, OrderedMap.get?_eq_some_iff.mp hclient, ?_⟩
  intro client' h'
  have hfound := OrderedMap.get?_eq_some_iff.mpr h'
  exact Option.some.inj (hfound.symm.trans hclient)

/-! ### When the maps agree -/

theorem getDialect_iff : (∃ d, r.getDialect key = .ok d) ↔ r.sourceMeta.has key = true := by
  rw [← OrderedMap.isSome_get?, getDialect]
  cases r.sourceMeta.get? key <;> simp

theorem Inv.agrees_iff (h : r.Inv) : r.Agrees ↔ ∀ key, r.sourceMeta.has key = true → r.hasSource key = true := by
  constructor
  · intro hr key hkey
    exact (hr key).mpr (getDialect_iff.mpr hkey)
  · intro hr key
    rw [getDialect_iff]
    exact ⟨h.known key, hr key⟩

/-- A source that is only described takes the maps apart. -/
theorem Inv.not_agrees_described (h : r.Inv) (hnew : r.hasSource source.key = false) :
    ¬ (r.described source).Agrees := by
  rw [(h.described source).agrees_iff]
  intro hagrees
  have hhas : (r.described source).hasSource source.key = true := by
    apply hagrees
    rw [Registry.described, OrderedMap.has_set, decide_eq_true rfl, Bool.true_or]
  have hold : r.hasSource source.key = true := hhas
  rw [hnew] at hold
  cases hold

/-- One that gets its client keeps them together. -/
theorem Inv.agrees_registered (h : r.Inv) (hr : r.Agrees) (hnew : r.hasSource source.key = false) :
    (r.registered source).Agrees := by
  rw [(h.registered hnew).agrees_iff]
  intro key hkey
  rw [Registry.registered, Registry.described, OrderedMap.has_set, Bool.or_eq_true, decide_eq_true_iff] at hkey
  exact hasSource_registered.mpr (hkey.imp_right (h.agrees_iff.mp hr key))

/-- **The loop keeps the maps together** if and only if every source that is not there yet opens. -/
theorem agrees_initFrom (h : r.Inv) (hr : r.Agrees) (hunique : (sources.map (·.key)).Nodup) :
    (initFrom a r sources).1.Agrees ↔ ∀ source ∈ sources, r.hasSource source.key = false → a.Opens source := by
  induction sources generalizing r with
  | nil => exact iff_of_true hr (by simp)
  | cons source rest ih =>
    obtain ⟨hnot, hrest⟩ := List.nodup_cons.mp hunique
    rw [initFrom, List.forall_mem_cons]
    rcases r.initSource_cases a source with ⟨hhas, heq⟩ | ⟨hnew, hfails, e, heq⟩ | ⟨hnew, hopens, heq⟩
    · rw [heq]
      have hhead : r.hasSource source.key = false → a.Opens source := by
        intro hno
        rw [hhas] at hno
        cases hno
      rw [and_iff_right hhead]
      exact ih h hr hrest
    · rw [heq]
      exact iff_of_false (h.not_agrees_described hnew) fun hall => hfails (hall.1 hnew)
    · rw [heq, and_iff_right fun _ => hopens]
      refine (ih (h.registered hnew) (h.agrees_registered hr hnew) hrest).trans ?_
      -- the other sources have other keys
      refine forall₂_congr fun s hs => ?_
      have hne : s.key ≠ source.key := by
        intro heq
        exact hnot (List.mem_map.mpr ⟨s, hs, heq⟩)
      have hsame : (r.registered source).hasSource s.key = r.hasSource s.key := by
        rw [Bool.eq_iff_iff, hasSource_registered, or_iff_right hne]
      rw [hsame]

theorem agrees_onModuleDestroy (h : r.Inv) (hr : r.Agrees) (close : JsString → Except JsValue Unit) :
    (r.onModuleDestroy close).Agrees ↔ ∀ key, r.hasSource key = false := by
  rw [(h.onModuleDestroy close).agrees_iff]
  refine forall_congr' fun key => ?_
  have hnone : (r.onModuleDestroy close).hasSource key = false := rfl
  have hsame : (r.onModuleDestroy close).sourceMeta.has key = r.hasSource key := by
    rw [Bool.eq_iff_iff, onModuleDestroy]
    exact ⟨h.agrees_iff.mp hr key, h.known key⟩
  rw [hnone, hsame]
  cases r.hasSource key <;> simp

/-- **A call keeps the maps together** if and only if it meets the condition. -/
theorem agrees_next (h : r.Inv) (hr : r.Agrees) (call : RegistryCall) : (r.next call).Agrees ↔ r.Meets call := by
  cases call with
  | init a => exact agrees_initFrom h hr a.unique
  | onModuleDestroy close => exact agrees_onModuleDestroy h hr close

/-- A run on from where the maps agree. -/
theorem agrees_throughout {before calls : List RegistryCall} (hrun : machine.Run before r) (hr : r.Agrees) :
    (∀ more r', more <+: calls → machine.Run (before ++ more) r' → r'.Agrees) ↔
      (machine.restrict Meets).Playable r calls := by
  induction calls generalizing before r with
  | nil =>
    refine iff_of_true ?_ trivial
    intro more r' hmore hrun'
    obtain rfl := List.prefix_nil.mp hmore
    rw [List.append_nil] at hrun'
    rwa [Machine.Run.unique (fun s hs => hs) hrun' hrun]
  | cons call calls ih =>
    have hnext : machine.Run (before ++ [call]) (r.next call) := hrun.snoc trivial
    have hstep := agrees_next (inv_run hrun) hr call
    constructor
    · intro hall
      have hagrees := hall [call] _ ⟨calls, rfl⟩ hnext
      refine ⟨⟨trivial, hstep.mp hagrees⟩, (ih hnext hagrees).mp ?_⟩
      intro more r' hmore hrun'
      refine hall (call :: more) r' (List.cons_prefix_cons.mpr ⟨rfl, hmore⟩) ?_
      rwa [List.append_assoc] at hrun'
    · rintro ⟨⟨-, hmeets⟩, hplay⟩ more r' hmore hrun'
      cases more with
      | nil =>
        rw [List.append_nil] at hrun'
        rwa [Machine.Run.unique (fun s hs => hs) hrun' hrun]
      | cons c more =>
        obtain ⟨rfl, htail⟩ := List.cons_prefix_cons.mp hmore
        refine (ih hnext (hstep.mpr hmeets)).mpr hplay more r' htail ?_
        rwa [List.append_assoc]

theorem agrees_new : new.Agrees := by
  rw [inv_new.agrees_iff]
  intro key hkey
  exact hkey

/-- **The registry is never half-updated** if and only if no `init` meets a source that does not open, and nothing is
registered when all is destroyed. -/
theorem neverHalfUpdated_iff (calls : List RegistryCall) :
    NeverHalfUpdated calls ↔ (machine.restrict Meets).Playable new calls := by
  have hall := @agrees_throughout new [] calls (.init rfl) agrees_new
  simp only [List.nil_append] at hall
  rw [← hall]
  constructor
  · intro h
    exact h.agrees
  · intro h
    exact ⟨h, fun _ _ _ _ _ hok _ hs => existsUnique_client hok hs, fun _ hrun => (inv_run hrun).once⟩

/-- An `init` whose only source does not open. -/
theorem failed_init_disagrees :
    ∃ a : Attempt, let r := (new.init a).1
      r.hasSource "main" = false ∧ r.getDialect "main" = .ok .oracle ∧ ¬ NeverHalfUpdated [.init a] := by
  let a : Attempt :=
    { sources := [⟨⟨"main", .oracle⟩, none⟩]
      unique := List.nodup_singleton _
      initOracleDriver := fun _ => .ok ()
      createPool := fun _ => .error (.string "ORA-12541") }
  have hhas : (new.init a).1.hasSource "main" = false := by decide
  have hdialect : (new.init a).1.getDialect "main" = .ok .oracle := rfl
  refine ⟨a, hhas, hdialect, ?_⟩
  intro h
  have hrun : machine.Run [.init a] (new.init a).1 :=
    Machine.Run.play (M := machine) rfl ⟨trivial, trivial⟩
  have hagrees := h.agrees [.init a] (new.init a).1 (List.prefix_refl _) hrun
  have hthere := (hagrees "main").mpr ⟨_, hdialect⟩
  rw [hhas] at hthere
  cases hthere

/-! ### The manager with one map -/

/-- A client with the dialect of its source. -/
def entryOf (r : Registry) (e : JsString × DatabaseClient) : Entry :=
  ⟨e.1, e.2, ((r.sourceMeta.get? e.1).map SourceMeta.dialect).getD .oracle⟩

/-- The entries of both maps. -/
def coarse (r : Registry) : PoolManager where
  entries := r.clients.entries.map r.entryOf
  nodup := by
    rw [List.map_map]
    exact r.clients.nodup

theorem hasSource_coarse : r.coarse.hasSource key ↔ r.hasSource key = true := by
  rw [PoolManager.hasSource, coarse, List.map_map, hasSource, OrderedMap.has_iff]
  rfl

/-- A source that opens is an entry more. -/
theorem entries_registered (h : r.hasSource source.key = false) :
    (r.registered source).coarse.entries = r.coarse.entries ++
      [⟨source.key, if source.dialect = .oracle then .oracleClient else .notImplementedClient, source.dialect⟩] := by
  have hentries : (r.registered source).clients.entries = r.clients.entries ++
      [(source.key, if source.dialect = .oracle then .oracleClient else .notImplementedClient)] :=
    OrderedMap.entries_set_of_not_has h
  have hself (client : DatabaseClient) :
      (r.registered source).entryOf (source.key, client) = ⟨source.key, client, source.dialect⟩ := by
    simp only [entryOf, registered, described, OrderedMap.get?_set, if_true, Option.map_some, Option.getD_some]
  have hcoarse : (r.registered source).coarse.entries =
      (r.registered source).clients.entries.map (r.registered source).entryOf := rfl
  rw [hcoarse, hentries, List.map_append, List.map_singleton, hself]
  refine congrArg (· ++ _) (List.map_congr_left fun e he => ?_)
  -- the entries that were there have other keys
  have hne : e.1 ≠ source.key := by
    intro heq
    have hhas : r.hasSource source.key = true :=
      OrderedMap.has_iff.mpr (heq ▸ List.mem_map_of_mem (f := Prod.fst) he)
    rw [h] at hhas
    cases hhas
  simp only [entryOf, registered, described, OrderedMap.get?_set, if_neg hne]

theorem coarse_eq_iff {pm : PoolManager} : pm = r.coarse ↔ pm.entries = r.coarse.entries := by
  cases pm
  exact PoolManager.mk.injEq _ _ _ _ ▸ Iff.rfl

theorem initSource_coarse (h : (r.initSource a source).2 = .ok ()) :
    r.coarse.initSource (fun _ => .ok ()) source.toDatabaseSource = .ok (r.initSource a source).1.coarse := by
  rcases r.initSource_cases a source with ⟨hhas, heq⟩ | ⟨-, -, e, heq⟩ | ⟨hnew, -, heq⟩
  · rw [heq, PoolManager.initSource, dif_pos (hasSource_coarse.mpr hhas)]
  · rw [heq] at h
    cases h
  · have hnot : ¬ r.coarse.hasSource source.key := by
      rw [hasSource_coarse, hnew]
      exact Bool.false_ne_true
    have hentries := entries_registered hnew
    rw [heq, PoolManager.initSource, dif_neg hnot]
    cases hdialect : source.dialect with
    | oracle =>
      rw [hdialect, if_pos rfl] at hentries
      exact congrArg Except.ok (coarse_eq_iff.mpr hentries.symm)
    | _ =>
      rw [hdialect, if_neg (by decide)] at hentries
      exact congrArg Except.ok (coarse_eq_iff.mpr hentries.symm)

/-- **An `init` that succeeds** is that of the manager with one map. -/
theorem init_coarse (h : (r.init a).2 = .ok ()) :
    r.coarse.init (fun _ => .ok ()) (a.sources.map ConfiguredSource.toDatabaseSource) = .ok (r.init a).1.coarse := by
  rw [init] at h ⊢
  rw [PoolManager.init]
  generalize a.sources = sources at h ⊢
  induction sources generalizing r with
  | nil => rfl
  | cons source rest ih =>
    rw [initFrom] at h ⊢
    rw [List.map_cons, List.foldlM_cons]
    cases hs : r.initSource a source with
    | mk r' outcome =>
      rw [hs] at h
      cases outcome with
      | error e => cases h
      | ok _ =>
        have hok : (r.initSource a source).2 = .ok () := by rw [hs]
        have hsource := initSource_coarse hok
        rw [hs] at hsource
        rw [hsource]
        exact ih h

end Registry

end NestDdd.Database
