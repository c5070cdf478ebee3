import NestDdd.Shared.Js
import Mathlib.Data.List.Find
import Mathlib.Data.List.Nodup

/-!
# The headers of a forwarded request

`src/infrastructure/legacy/forward-headers.util.ts`. A set of headers is an object: it
has each key once, and an assignment to a key that is there keeps its place. What
counts as the same key is a parameter, because Node's outgoing messages, which hold
headers too, look at a name in lower case.

## What is proved

* `Headers.get_set` — an assignment changes the value at its key and no other.
* `buildForwardHeaders_last` — a header of the inbound request reaches the legacy service
  unless it is hop-by-hop or one the forwarder sets itself.

## Honest scope

The order in which an object lists keys that look like array indices is not kept.
-/

namespace NestDdd.Legacy

open NestDdd.Shared

/-! ### Sets of headers -/

/-- The value of a header: `string | string[]`. -/
inductive HeaderValue where
  /-- One line. -/
  | one (value : JsString)
  /-- A line for each value. -/
  | many (values : List JsString)
  deriving DecidableEq

/-- Headers, each key once. -/
structure Headers (key : JsString → JsString) where
  /-- Names and values, in order. -/
  entries : List (JsString × HeaderValue)
  /-- No key is there twice. -/
  nodup : (entries.map fun e => key e.1).Nodup

namespace Headers

variable {key : JsString → JsString}

/-- `{}`. -/
def empty : Headers key := ⟨[], List.nodup_nil⟩

/-- `headers[name]`. -/
def get (h : Headers key) (name : JsString) : Option HeaderValue :=
  (h.entries.find? fun e => key e.1 == key name).map Prod.snd

/-- Whether the name is there. -/
def has (h : Headers key) (name : JsString) : Bool := h.entries.any fun e => key e.1 == key name

/-- The entries after `headers[name] = value`. -/
def setEntries (entries : List (JsString × HeaderValue)) (key : JsString → JsString) (name : JsString)
    (value : HeaderValue) : List (JsString × HeaderValue) :=
  if entries.any fun e => key e.1 == key name then
    entries.map fun e => if key e.1 = key name then (name, value) else e
  else entries ++ [(name, value)]

/-- `headers[name] = value`. -/
def set (h : Headers key) (name : JsString) (value : HeaderValue) : Headers key where
  entries := setEntries h.entries key name value
  nodup := by
    unfold setEntries
    by_cases hany : h.entries.any fun e => key e.1 == key name
    · rw [if_pos hany, List.map_map]
      have hkeys : ((fun e => key e.1) ∘ fun e : JsString × HeaderValue =>
          if key e.1 = key name then (name, value) else e) = fun e => key e.1 := by
        funext e
        by_cases he : key e.1 = key name
        · simp [he]
        · simp [he]
      rw [hkeys]
      exact h.nodup
    · rw [if_neg hany, List.map_append]
      refine List.nodup_append.mpr ⟨h.nodup, List.nodup_singleton _, ?_⟩
      intro a ha b hb hab
      obtain ⟨e, he, rfl⟩ := List.mem_map.mp ha
      rw [List.map_singleton, List.mem_singleton] at hb
      exact hany (List.any_eq_true.mpr ⟨e, he, by simp [hab, hb]⟩)

/-- The value of the first entry with a key. -/
def lookup (key : JsString → JsString) (k : JsString) (entries : List (JsString × HeaderValue)) :
    Option HeaderValue :=
  (entries.find? fun e => key e.1 == k).map Prod.snd

theorem lookup_append (k : JsString) (es fs : List (JsString × HeaderValue)) :
    lookup key k (es ++ fs) = (lookup key k es).or (lookup key k fs) := by
  unfold lookup
  rw [List.find?_append]
  cases es.find? fun e => key e.1 == k <;> rfl

theorem lookup_eq_none {k : JsString} {es : List (JsString × HeaderValue)}
    (h : ∀ e ∈ es, key e.1 ≠ k) : lookup key k es = none := by
  unfold lookup
  rw [List.find?_eq_none.mpr fun e he => by simpa using h e he]
  rfl

theorem lookup_congr {key' : JsString → JsString} {es : List (JsString × HeaderValue)}
    (h : ∀ e ∈ es, key e.1 = key' e.1) (k : JsString) : lookup key k es = lookup key' k es := by
  unfold lookup
  rw [List.find?_congr fun e he => by rw [h e he]]

theorem lookup_filter (p : JsString → Bool) (k : JsString) (es : List (JsString × HeaderValue)) :
    lookup id k (es.filter fun e => p e.1) = if p k then lookup id k es else none := by
  unfold lookup
  rw [List.find?_filter]
  by_cases hp : p k
  · rw [if_pos hp]
    congr 1
    refine List.find?_congr fun e _ => ?_
    by_cases he : e.1 = k
    · simp [he, hp]
    · simp [he]
  · rw [if_neg hp, Option.map_eq_none_iff, List.find?_eq_none]
    intro e _ he
    by_cases hek : e.1 = k
    · simp [hek, hp] at he
    · simp [hek] at he

theorem lookup_replace {name : JsString} {value : HeaderValue} {es : List (JsString × HeaderValue)}
    (k : JsString) :
    lookup key k (es.map fun e => if key e.1 = key name then (name, value) else e) =
      if k = key name then (lookup key k es).map fun _ => value else lookup key k es := by
  induction es with
  | nil => simp [lookup]
  | cons e es ih =>
    unfold lookup at *
    by_cases hname : key e.1 = key name
    · by_cases hk : k = key name
      · simp [hname, hk]
      · have hne : ¬ key name = k := fun he => hk he.symm
        simpa [hname, hk, hne] using ih
    · by_cases hk : key e.1 = k
      · have hne : ¬ k = key name := fun he => hname (hk.trans he)
        simp [hk, hne]
      · simpa [hname, hk] using ih

/-- **An assignment** changes the value at its key and no other. -/
theorem get_set (h : Headers key) (name : JsString) (value : HeaderValue) (k : JsString) :
    (h.set name value).get k = if key k = key name then some value else h.get k := by
  have hget : ∀ g : Headers key, g.get k = lookup key (key k) g.entries := fun _ => rfl
  rw [hget, hget]
  simp only [set, setEntries]
  by_cases hany : h.entries.any fun e => key e.1 == key name
  · rw [if_pos hany, lookup_replace]
    by_cases hk : key k = key name
    · obtain ⟨e, he, hek⟩ := List.any_eq_true.mp hany
      have hsome : (h.entries.find? fun e => key e.1 == key name).isSome :=
        List.find?_isSome.mpr ⟨e, he, hek⟩
      obtain ⟨f, hf⟩ := Option.isSome_iff_exists.mp hsome
      simp [hk, lookup, hf]
    · simp [hk]
  · rw [if_neg hany, lookup_append]
    by_cases hk : key k = key name
    · have hnone : lookup key (key k) h.entries = none := lookup_eq_none fun e he hek =>
        hany (List.any_eq_true.mpr ⟨e, he, by simp [hek, hk]⟩)
      rw [hnone, if_pos hk, hk]
      simp [lookup]
    · have hne : ¬ key name = key k := fun he => hk he.symm
      simp [lookup, hk, hne]

/-- `for (const [name, value] of entries) headers[name] = value`. -/
def setAll (h : Headers key) (entries : List (JsString × HeaderValue)) : Headers key :=
  entries.foldl (fun h e => h.set e.1 e.2) h

theorem mem_setAll {h : Headers key} {es : List (JsString × HeaderValue)} {e : JsString × HeaderValue}
    (he : e ∈ (h.setAll es).entries) : e ∈ h.entries ∨ e ∈ es := by
  induction es generalizing h with
  | nil => exact .inl he
  | cons f es ih =>
    rcases ih (h := h.set f.1 f.2) he with he | he
    · simp only [set, setEntries] at he
      split at he
      · obtain ⟨g, hg, rfl⟩ := List.mem_map.mp he
        by_cases hgf : key g.1 = key f.1
        · simp [hgf]
        · simp [hgf, hg]
      · rcases List.mem_append.mp he with he | he
        · exact .inl he
        · exact .inr (by simp [List.mem_singleton.mp he])
    · exact .inr (List.mem_cons_of_mem _ he)

/-- The last of several assignments to a key counts. -/
theorem get_setAll (h : Headers key) (entries : List (JsString × HeaderValue)) (k : JsString) :
    (h.setAll entries).get k = (lookup key (key k) entries.reverse).or (h.get k) := by
  induction entries generalizing h with
  | nil => rfl
  | cons e entries ih =>
    have hstep : h.setAll (e :: entries) = (h.set e.1 e.2).setAll entries := rfl
    rw [hstep, ih, get_set, List.reverse_cons, lookup_append, Option.or_assoc]
    congr 1
    by_cases hk : key k = key e.1
    · simp [lookup, hk]
    · have hne : ¬ key e.1 = key k := fun he => hk he.symm
      simp [lookup, hk, hne]

/-- A list with each key once gives a key the same value from either end. -/
theorem lookup_reverse {es : List (JsString × HeaderValue)} (h : (es.map fun e => key e.1).Nodup)
    (k : JsString) : lookup key k es.reverse = lookup key k es := by
  induction es with
  | nil => rfl
  | cons e es ih =>
    rw [List.map_cons, List.nodup_cons] at h
    rw [List.reverse_cons, lookup_append, ih h.2]
    by_cases hk : key e.1 = k
    · have hnone : lookup key k es = none := lookup_eq_none fun f hf hfk =>
        h.1 (List.mem_map.mpr ⟨f, hf, hfk.trans hk.symm⟩)
      rw [hnone]
      simp [lookup, hk]
    · simp [lookup, hk]

/-- Assignments to distinct new keys append them. -/
theorem entries_setAll {h : Headers key} {es : List (JsString × HeaderValue)}
    (hnodup : ((h.entries ++ es).map fun e => key e.1).Nodup) :
    (h.setAll es).entries = h.entries ++ es := by
  induction es generalizing h with
  | nil => simp [setAll]
  | cons e es ih =>
    have hnew : ¬ h.entries.any fun f => key f.1 == key e.1 := by
      intro hany
      obtain ⟨f, hf, hfe⟩ := List.any_eq_true.mp hany
      rw [List.map_append] at hnodup
      refine List.disjoint_of_nodup_append hnodup (List.mem_map_of_mem hf) ?_
      rw [beq_iff_eq] at hfe
      simp [hfe]
    have hset : (h.set e.1 e.2).entries = h.entries ++ [e] := if_neg hnew
    have hstep : h.setAll (e :: es) = (h.set e.1 e.2).setAll es := rfl
    rw [hstep, ih (by rw [hset]; simpa using hnodup), hset]
    simp

end Headers

/-- `IncomingHttpHeaders`: an object whose names Node has put in lower case. -/
structure IncomingHttpHeaders extends Headers id where
  /-- Every name is in lower case. -/
  lower : ∀ e ∈ entries, JsString.toLowerCase e.1 = e.1

/-- `OutgoingHttpHeaders`. -/
abbrev OutgoingHttpHeaders := Headers id

/-! ### The headers sent on -/

/-- `HOP_BY_HOP_HEADERS`. -/
def HOP_BY_HOP_HEADERS : List JsString :=
  ["connection", "keep-alive", "transfer-encoding", "upgrade", "proxy-authenticate",
    "proxy-authorization", "te", "trailer"]

/-- `HOP_BY_HOP_HEADERS.has(name.toLowerCase())`. -/
def isHopByHop (name : JsString) : Bool := HOP_BY_HOP_HEADERS.contains name.toLowerCase

/-- `stripHopByHopHeaders`; it is also the loop of `buildForwardHeaders`. -/
def stripHopByHopHeaders (headers : IncomingHttpHeaders) : OutgoingHttpHeaders :=
  Headers.empty.setAll (headers.entries.filter fun e => !isHopByHop e.1)

/-- `ForwardHeadersInput`. -/
structure ForwardHeadersInput where
  /-- `headers`. -/
  headers : IncomingHttpHeaders
  /-- `remoteAddress`. -/
  remoteAddress : JsString
  /-- `protocol`. -/
  protocol : JsString
  /-- `hostHeader`. -/
  hostHeader : Option JsString
  /-- `targetHost`. -/
  targetHost : JsString
  /-- `preserveHostHeader`. -/
  preserveHostHeader : Bool
  /-- `requestId.header`. -/
  requestIdHeader : JsString
  /-- `requestId.value`. -/
  requestIdValue : JsString

/-- `forwardedForValue`. -/
def forwardedForValue (existing : Option HeaderValue) (remoteAddress : JsString) : JsString :=
  match existing with
  | none | some (.one []) => remoteAddress
  | some (.one previous) => JsString.concat [previous, ", ", remoteAddress]
  | some (.many previous) =>
    JsString.concat [(previous.intersperse (JsString.ofString ", ")).flatten, ", ", remoteAddress]

/-- `buildForwardHeaders`. -/
def buildForwardHeaders (input : ForwardHeadersInput) : OutgoingHttpHeaders :=
  let headers := stripHopByHopHeaders input.headers
  let headers := headers.set "x-forwarded-for"
    (.one (forwardedForValue (input.headers.get "x-forwarded-for") input.remoteAddress))
  let headers := headers.set "x-forwarded-proto" (.one input.protocol)
  let headers := headers.set "x-forwarded-host" (.one (input.hostHeader.getD []))
  let headers := headers.set "host" (.one
    (if input.preserveHostHeader then input.hostHeader.getD input.targetHost else input.targetHost))
  headers.set input.requestIdHeader (.one input.requestIdValue)

/-! ### What reaches the legacy service -/

/-- Every name is in lower case. -/
def LowerCase (h : OutgoingHttpHeaders) : Prop := ∀ e ∈ h.entries, JsString.toLowerCase e.1 = e.1

theorem LowerCase.set {h : OutgoingHttpHeaders} (hl : LowerCase h) {name : JsString}
    (hname : name.toLowerCase = name) (value : HeaderValue) : LowerCase (h.set name value) := by
  intro e he
  simp only [Headers.set, Headers.setEntries] at he
  split at he
  · obtain ⟨f, hf, rfl⟩ := List.mem_map.mp he
    by_cases hfn : id f.1 = id name
    · rwa [if_pos hfn]
    · rw [if_neg hfn]
      exact hl f hf
  · rcases List.mem_append.mp he with he | he
    · exact hl e he
    · rwa [List.mem_singleton.mp he]

/-- Among names in lower case, the letter case makes no difference. -/
theorem LowerCase.lookup {h : OutgoingHttpHeaders} (hl : LowerCase h) (k : JsString) :
    Headers.lookup JsString.toLowerCase k h.entries.reverse = h.get k := by
  have hsame : Headers.lookup JsString.toLowerCase k h.entries.reverse =
      Headers.lookup id k h.entries.reverse :=
    Headers.lookup_congr (fun e he => hl e (List.mem_reverse.mp he)) k
  rw [hsame, Headers.lookup_reverse h.nodup]
  rfl

/-- The last value of a name, whatever its letter case, after an assignment to names in lower case. -/
theorem LowerCase.lookup_set {h : OutgoingHttpHeaders} (hl : LowerCase h) (name : JsString)
    (value : HeaderValue) (k : JsString) :
    Headers.lookup JsString.toLowerCase k (h.set name value).entries.reverse =
      if k = name.toLowerCase then some value else h.get k := by
  by_cases hany : h.entries.any fun e => id e.1 == id name
  · obtain ⟨e, he, hen⟩ := List.any_eq_true.mp hany
    have hen' : e.1 = name := beq_iff_eq.mp hen
    have hname : name.toLowerCase = name := by
      rw [← hen']
      exact hl e he
    rw [(hl.set hname value).lookup, Headers.get_set, hname]
    rfl
  · have hset : (h.set name value).entries = h.entries ++ [(name, value)] := if_neg hany
    rw [hset, List.reverse_append, Headers.lookup_append, hl.lookup]
    by_cases hkn : k = name.toLowerCase
    · simp [Headers.lookup, hkn]
    · have hne : ¬ name.toLowerCase = k := fun he => hkn he.symm
      simp [Headers.lookup, hkn, hne]

theorem entries_stripHopByHopHeaders (headers : IncomingHttpHeaders) :
    (stripHopByHopHeaders headers).entries = headers.entries.filter fun e => !isHopByHop e.1 := by
  have hnodup : ((headers.entries.filter fun e => !isHopByHop e.1).map fun e => id e.1).Nodup :=
    headers.nodup.sublist (List.filter_sublist.map _)
  exact Headers.entries_setAll hnodup

theorem stripHopByHopHeaders_lowerCase (headers : IncomingHttpHeaders) :
    LowerCase (stripHopByHopHeaders headers) := by
  intro e he
  rw [entries_stripHopByHopHeaders] at he
  exact headers.lower e (List.mem_filter.mp he).1

theorem stripHopByHopHeaders_get (headers : IncomingHttpHeaders) (k : JsString) :
    (stripHopByHopHeaders headers).get k = if isHopByHop k then none else headers.get k := by
  have hget : ∀ h : OutgoingHttpHeaders, h.get k = Headers.lookup id k h.entries := fun _ => rfl
  rw [hget, hget, entries_stripHopByHopHeaders, Headers.lookup_filter fun name => !isHopByHop name]
  cases isHopByHop k <;> rfl

/-- The headers `buildForwardHeaders` sets whatever the client sent. -/
def OWN_HEADERS : List JsString := ["x-forwarded-for", "x-forwarded-proto", "x-forwarded-host", "host"]

/-- The request id is set last, on names in lower case. -/
theorem buildForwardHeaders_eq_set (input : ForwardHeadersInput) :
    ∃ h : OutgoingHttpHeaders, LowerCase h ∧
      buildForwardHeaders input = h.set input.requestIdHeader (.one input.requestIdValue) ∧
      ∀ k ∉ OWN_HEADERS, h.get k = if isHopByHop k then none else input.headers.get k := by
  have hlower : ∀ name ∈ OWN_HEADERS, JsString.toLowerCase name = name := by decide
  have hstrip := stripHopByHopHeaders_lowerCase input.headers
  refine ⟨_, ?_, rfl, ?_⟩
  · refine (((hstrip.set (hlower _ ?_) _).set (hlower _ ?_) _).set (hlower _ ?_) _).set (hlower _ ?_) _ <;>
      simp [OWN_HEADERS]
  · intro k hown
    simp only [OWN_HEADERS, List.mem_cons, List.not_mem_nil, or_false, not_or] at hown
    obtain ⟨h₁, h₂, h₃, h₄⟩ := hown
    simp only [Headers.get_set, id_eq, h₁, h₂, h₃, h₄, if_false, stripHopByHopHeaders_get]

/-- **What reaches the legacy service** under a name, in any letter case: the request id if it is
that header's name, nothing if it is hop-by-hop, and otherwise what the client sent. -/
theorem buildForwardHeaders_last (input : ForwardHeadersInput) {k : JsString}
    (hown : k ∉ OWN_HEADERS) :
    Headers.lookup JsString.toLowerCase k (buildForwardHeaders input).entries.reverse =
      if k = input.requestIdHeader.toLowerCase then some (.one input.requestIdValue)
      else if isHopByHop k then none else input.headers.get k := by
  obtain ⟨h, hl, hbuild, hget⟩ := buildForwardHeaders_eq_set input
  rw [hbuild, hl.lookup_set, hget k hown]

/-- **The request id** reaches the legacy service under its name, whatever that is. -/
theorem buildForwardHeaders_requestId (input : ForwardHeadersInput) :
    Headers.lookup JsString.toLowerCase input.requestIdHeader.toLowerCase (buildForwardHeaders input).entries.reverse =
      some (.one input.requestIdValue) := by
  obtain ⟨h, hl, hbuild, -⟩ := buildForwardHeaders_eq_set input
  rw [hbuild, hl.lookup_set, if_pos rfl]

end NestDdd.Legacy
