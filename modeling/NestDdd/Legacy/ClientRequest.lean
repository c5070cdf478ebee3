import NestDdd.Legacy.ForwardHeaders
import NestDdd.Shared.UpperCase
import NestDdd.Theory.Http

/-!
# Node's client request

`http.request` and `ClientRequest` of Node 22, as far as the forwarder uses them: what
they refuse, the headers they add, and the bytes they write for a body piped in.

## The model

A request takes its headers by `setHeader`, which looks at a name in lower case. When
the head is written, a request that declares neither `Content-Length` nor
`Transfer-Encoding` is chunked, or has length 0 if it was ended before anything was
written to it; `GET`, `HEAD`, `DELETE`, `OPTIONS`, `TRACE` and `CONNECT` get no framing
at all. A value Node throws at is `none`.

## What is proved

* `delivered_iff` — the stream reads as one request with the body if and only if the
  headers delimit exactly the bytes written after them.
-/

namespace NestDdd.Legacy

open NestDdd.Shared NestDdd.Theory NestDdd.Theory.Http

/-! ### Characters -/

/-- `Buffer.from(s, 'latin1')`. -/
def latin1 (s : JsString) : Bytes := s.map UInt16.toUInt8

/-- A character of a token (`checkIsHttpToken`). -/
def isTokenChar (u : UInt16) : Bool := u < 256 && isTokenByte u.toUInt8

/-- A character of a header's value (`checkInvalidHeaderChar`). -/
def isHeaderChar (u : UInt16) : Bool := u == 9 || (0x20 ≤ u && u ≤ 0x7E) || (0x80 ≤ u && u ≤ 0xFF)

/-- A character of a path (`INVALID_PATH_REGEX`). -/
def isPathChar (u : UInt16) : Bool := 0x21 ≤ u && u ≤ 0xFF

/-- `\w`. -/
def isWordChar (u : UInt16) : Bool :=
  (0x41 ≤ u && u ≤ 0x5A) || (0x61 ≤ u && u ≤ 0x7A) || (0x30 ≤ u && u ≤ 0x39) || u == 0x5F

/-- The lines of a header. -/
def HeaderValue.lines : HeaderValue → List JsString
  | .one value => [value]
  | .many values => values

/-- `validateHeaderName` and `validateHeaderValue`. -/
def isValidHeader (e : JsString × HeaderValue) : Bool :=
  e.1 != [] && e.1.all isTokenChar && e.2.lines.all fun v => v.all isHeaderChar

/-! ### The request -/

/-- A `ClientRequest` whose headers have been set. -/
structure ClientRequest where
  /-- `method`. -/
  method : JsString
  /-- `path`. -/
  path : JsString
  /-- `kOutHeaders`. -/
  headers : Headers JsString.toLowerCase

/-- `http.request({ method, path, headers })`. -/
def request (method path : JsString) (headers : OutgoingHttpHeaders) : Option ClientRequest :=
  if method != [] && method.all isTokenChar && path.all isPathChar && headers.entries.all isValidHeader then
    some {
      method := method.toUpperCase
      path := if path = [] then "/" else path
      headers := Headers.empty.setAll headers.entries }
  else none

namespace ClientRequest

/-- The methods whose requests are not chunked by default. -/
def METHODS_WITHOUT_BODY : List JsString := ["GET", "HEAD", "DELETE", "OPTIONS", "TRACE", "CONNECT"]

/-- `useChunkedEncodingByDefault`. -/
def useChunkedEncodingByDefault (c : ClientRequest) : Bool := !METHODS_WITHOUT_BODY.contains c.method

/-- The lines of the headers. -/
def lines (c : ClientRequest) : List (JsString × JsString) :=
  c.headers.entries.flatMap fun e => e.2.lines.map fun v => (e.1, v)

/-- Whether a line has the name. -/
def declares (c : ClientRequest) (name : JsString) : Bool := c.lines.any fun l => l.1.toLowerCase == name

/-- `/(?:^|\W)chunked(?:$|\W)/i.test(value)`. -/
def saysChunked (value : JsString) : Bool :=
  (value.splitOnP fun u => !isWordChar u).any fun word : JsString =>
    word.toLowerCase == JsString.ofString "chunked"

/-- `getHeader('expect')` counts as true, so the head is stored when the request is made. -/
def storesEarly (c : ClientRequest) : Bool :=
  match c.headers.get "expect" with
  | none => false
  | some (.one value) => value != []
  | some (.many _) => true

/-- What `_storeHeader` adds for the body, and whether the body is chunked. -/
def storeBody (c : ClientRequest) (chunks : List Bytes) : List (JsString × JsString) × Bool :=
  if c.declares "content-length" || c.declares "transfer-encoding" then
    ([], c.lines.any fun l => l.1.toLowerCase == JsString.ofString "transfer-encoding" && saysChunked l.2)
  else if !c.useChunkedEncodingByDefault then ([], false)
  else if !c.declares "trailer" && !c.storesEarly && chunks.isEmpty then ([("Content-Length", "0")], false)
  else ([("Transfer-Encoding", "chunked")], true)

/-- The `Connection` line of a request made with the global agent. -/
def connectionLine (c : ClientRequest) : List (JsString × JsString) :=
  if c.declares "connection" then [] else [("Connection", "keep-alive")]

/-- Every line of the head. -/
def allLines (c : ClientRequest) (chunks : List Bytes) : List (JsString × JsString) :=
  c.lines ++ c.connectionLine ++ (c.storeBody chunks).1

/-- The body as it is written. -/
def writtenBody (c : ClientRequest) (chunks : List Bytes) : Bytes :=
  if (c.storeBody chunks).2 then writeChunks chunks else chunks.flatten

/-- The bytes of a request whose body is piped in as `chunks`; a trailer without the chunked coding
is an error. -/
def stream (c : ClientRequest) (chunks : List Bytes) : Option Bytes :=
  if !(c.storeBody chunks).2 && c.declares "trailer" then none
  else
    some (writeHead (latin1 c.method) (latin1 c.path)
      ((c.allLines chunks).map fun l => (latin1 l.1, latin1 l.2)) ++ c.writtenBody chunks)

/-- The values of a header, one for each line. -/
def values (c : ClientRequest) (name : JsString) : List JsString :=
  ((c.headers.get name).map HeaderValue.lines).getD []

/-! ### Reading the head back -/

variable {c : ClientRequest}

theorem lines_filter (k : JsString) {es : List (JsString × HeaderValue)}
    (h : (es.map fun e => JsString.toLowerCase e.1).Nodup) :
    ((es.flatMap fun e => e.2.lines.map fun v => (e.1, v)).filter fun l =>
      l.1.toLowerCase == k).map Prod.snd =
        ((Headers.lookup JsString.toLowerCase k es).map HeaderValue.lines).getD [] := by
  induction es with
  | nil => rfl
  | cons e es ih =>
    rw [List.map_cons, List.nodup_cons] at h
    rw [List.flatMap_cons, List.filter_append, List.map_append, ih h.2]
    by_cases he : e.1.toLowerCase = k
    · have hnone : Headers.lookup JsString.toLowerCase k es = none :=
        Headers.lookup_eq_none fun f hf hfk => h.1 (List.mem_map.mpr ⟨f, hf, hfk.trans he.symm⟩)
      rw [hnone]
      simp [Headers.lookup, he, List.filter_map, Function.comp_def]
    · simp [Headers.lookup, he, List.filter_map, Function.comp_def]

theorem values_eq {k : JsString} (hk : k.toLowerCase = k) :
    c.values k = (c.lines.filter fun l => l.1.toLowerCase == k).map Prod.snd := by
  have hget : c.headers.get k = Headers.lookup JsString.toLowerCase (k.toLowerCase) c.headers.entries := rfl
  rw [values, hget, hk]
  exact (lines_filter k c.headers.nodup).symm

theorem declares_eq {k : JsString} (hk : k.toLowerCase = k) : c.declares k = !(c.values k).isEmpty := by
  rw [values_eq hk, declares]
  induction c.lines with
  | nil => rfl
  | cons l ls ih =>
    by_cases hl : l.1.toLowerCase = k
    · simp [hl]
    · have hb : (l.1.toLowerCase == k) = false := beq_eq_false_iff_ne.mpr hl
      simpa [hb] using ih

/-! ### From characters to bytes -/

/-- Every character is one byte in latin1. -/
def IsLatin1 (s : JsString) : Prop := ∀ u ∈ s, u < 256

instance (s : JsString) : Decidable (IsLatin1 s) := List.decidableBAll (fun u => u < 256) s

theorem lower_toUInt8 {u : UInt16} (h : u < 256) :
    lower u.toUInt8 = (if 0x41 ≤ u && u ≤ 0x5A then u + 0x20 else u).toUInt8 := by
  have hall : ∀ n : Fin 256, lower (UInt16.ofNat n.1).toUInt8 =
      (if 0x41 ≤ UInt16.ofNat n.1 && UInt16.ofNat n.1 ≤ 0x5A then UInt16.ofNat n.1 + 0x20
        else UInt16.ofNat n.1).toUInt8 := by decide +kernel
  have hu : u.toNat < 256 := by simpa [UInt16.lt_iff_toNat_lt] using h
  simpa using hall ⟨u.toNat, hu⟩

/-- Lower case and latin1 commute. -/
theorem latin1_toLowerCase {s : JsString} (h : IsLatin1 s) :
    (latin1 s).map lower = latin1 s.toLowerCase := by
  simp only [latin1, JsString.toLowerCase, List.map_map]
  exact List.map_congr_left fun u hu => lower_toUInt8 (h u hu)

theorem latin1_injective {s t : JsString} (hs : IsLatin1 s) (ht : IsLatin1 t) (h : latin1 s = latin1 t) :
    s = t := by
  induction s generalizing t with
  | nil => simpa [latin1, eq_comm] using h
  | cons u s ih =>
    cases t with
    | nil => simp [latin1] at h
    | cons v t =>
      simp only [latin1, List.map_cons, List.cons.injEq] at h
      have huv : u = v := by
        have hu := hs u List.mem_cons_self
        have hv := ht v List.mem_cons_self
        have h8 := congrArg UInt8.toNat h.1
        simp only [UInt16.toNat_toUInt8, UInt16.lt_iff_toNat_lt] at h8 hu hv
        rw [Nat.mod_eq_of_lt (by simpa using hu), Nat.mod_eq_of_lt (by simpa using hv)] at h8
        exact UInt16.toNat_inj.mp h8
      rw [huv, ih (fun w hw => hs w (List.mem_cons_of_mem _ hw))
        (fun w hw => ht w (List.mem_cons_of_mem _ hw)) h.2]

theorem isLatin1_toLowerCase {s : JsString} (h : IsLatin1 s) : IsLatin1 s.toLowerCase := by
  intro u hu
  obtain ⟨v, hv, rfl⟩ := List.mem_map.mp hu
  have hv' := h v hv
  have hall : ∀ n : Fin 256, (if 0x41 ≤ UInt16.ofNat n.1 && UInt16.ofNat n.1 ≤ 0x5A then
      UInt16.ofNat n.1 + 0x20 else UInt16.ofNat n.1) < 256 := by decide +kernel
  have hlt : v.toNat < 256 := by simpa [UInt16.lt_iff_toNat_lt] using hv'
  simpa using hall ⟨v.toNat, hlt⟩

/-- The values of a field, read from the bytes of the lines. -/
theorem valuesOf_lines {k : JsString} (hk : IsLatin1 k) {ls : List (JsString × JsString)}
    (hls : ∀ l ∈ ls, IsLatin1 l.1) :
    valuesOf (latin1 k) ((ls.map fun l => (latin1 l.1, latin1 l.2)).map normalise) =
      ((ls.filter fun l => l.1.toLowerCase == k).map Prod.snd).map fun v => trim (latin1 v) := by
  induction ls with
  | nil => rfl
  | cons l ls ih =>
    have hrest := ih fun l' hl' => hls l' (List.mem_cons_of_mem _ hl')
    have hl := hls l List.mem_cons_self
    have hname : (latin1 l.1).map lower = latin1 k ↔ l.1.toLowerCase = k := by
      rw [latin1_toLowerCase hl]
      exact ⟨latin1_injective (isLatin1_toLowerCase hl) hk, fun he => by rw [he]⟩
    unfold valuesOf at *
    by_cases he : l.1.toLowerCase = k
    · simp only [List.map_cons, List.filter_cons, normalise, hname, he, decide_true, if_true,
        beq_self_eq_true]
      rw [← hrest]
    · have hb : (l.1.toLowerCase == k) = false := beq_eq_false_iff_ne.mpr he
      simp only [List.map_cons, List.filter_cons, normalise, hname, he, decide_false, hb]
      exact hrest

/-! ### What a request may hold -/

/-- What `http.request` has checked. -/
structure Valid (c : ClientRequest) : Prop where
  /-- The method is a token. -/
  method : c.method ≠ [] ∧ ∀ u ∈ c.method, isTokenChar u = true
  /-- The path has no blank and no control character. -/
  path : c.path ≠ [] ∧ ∀ u ∈ c.path, isPathChar u = true
  /-- The headers. -/
  headers : ∀ e ∈ c.headers.entries, isValidHeader e = true

theorem request_spec {method path : JsString} {headers : OutgoingHttpHeaders}
    (h : request method path headers = some c) (hupper : method.toUpperCase = method) :
    c.Valid ∧ c.method = method ∧ c.headers = Headers.empty.setAll headers.entries := by
  unfold request at h
  split at h
  · rename_i hvalid
    simp only [Bool.and_eq_true, bne_iff_ne, ne_eq, List.all_eq_true] at hvalid
    obtain ⟨⟨⟨hne, htoken⟩, hpath⟩, hheaders⟩ := hvalid
    cases h
    refine ⟨⟨?_, ?_, fun e he => ?_⟩, hupper, rfl⟩
    · rw [hupper]
      exact ⟨hne, htoken⟩
    · by_cases hp : path = []
      · simp only [if_pos hp]
        exact ⟨by decide, List.all_eq_true.mp (by decide)⟩
      · simp only [if_neg hp]
        exact ⟨hp, hpath⟩
    · exact hheaders e ((Headers.mem_setAll he).resolve_left nofun)
  · cases h

theorem toNat_toUInt8 {u : UInt16} (h : u < 256) : u.toUInt8.toNat = u.toNat := by
  have hlt : u.toNat < 256 := by simpa [UInt16.lt_iff_toNat_lt] using h
  rw [UInt16.toNat_toUInt8, Nat.mod_eq_of_lt hlt]

theorem isLatin1_of_token {s : JsString} (h : ∀ u ∈ s, isTokenChar u = true) : IsLatin1 s := by
  intro u hu
  have htok := h u hu
  simp only [isTokenChar, Bool.and_eq_true, decide_eq_true_eq] at htok
  exact htok.1

/-- A token has neither a space nor an end of line, and reads as a token. -/
theorem latin1_token {s : JsString} (h : ∀ u ∈ s, isTokenChar u = true) :
    (latin1 s).all isTokenByte ∧ 32 ∉ latin1 s ∧ 13 ∉ latin1 s := by
  have hall : (latin1 s).all isTokenByte := by
    simp only [latin1, List.all_map, List.all_eq_true, Function.comp_apply]
    intro u hu
    have htok := h u hu
    simp only [isTokenChar, Bool.and_eq_true] at htok
    exact htok.2
  have hnone : ∀ b : UInt8, isTokenByte b = false → b ∉ latin1 s := fun b hb hm => by
    simp [List.all_eq_true.mp hall b hm] at hb
  exact ⟨hall, hnone 32 (by decide), hnone 13 (by decide)⟩

theorem latin1_path {s : JsString} (h : ∀ u ∈ s, isPathChar u = true) : 32 ∉ latin1 s ∧ 13 ∉ latin1 s := by
  have hlarge : ∀ b ∈ latin1 s, 33 ≤ b.toNat := by
    intro b hb
    obtain ⟨u, hu, rfl⟩ := List.mem_map.mp hb
    have hchar := h u hu
    simp only [isPathChar, Bool.and_eq_true, decide_eq_true_eq, UInt16.le_iff_toNat_le] at hchar
    have hlow : 33 ≤ u.toNat := hchar.1
    have hhigh : u.toNat ≤ 255 := hchar.2
    have hlt : u < 256 := by
      rw [UInt16.lt_iff_toNat_lt]
      exact Nat.lt_succ_of_le hhigh
    rw [toNat_toUInt8 hlt]
    exact hlow
  exact ⟨fun hm => absurd (hlarge 32 hm) (by decide), fun hm => absurd (hlarge 13 hm) (by decide)⟩

theorem latin1_value {s : JsString} (h : ∀ u ∈ s, isHeaderChar u = true) : 13 ∉ latin1 s := by
  intro hm
  obtain ⟨u, hu, he⟩ := List.mem_map.mp hm
  have hchar := h u hu
  simp only [isHeaderChar, Bool.or_eq_true, Bool.and_eq_true, beq_iff_eq, decide_eq_true_eq,
    UInt16.le_iff_toNat_le] at hchar
  have hnat : u.toNat % 256 = 13 := by
    rw [← UInt16.toNat_toUInt8, he]
    rfl
  have h20 : (32 : UInt16).toNat = 32 := rfl
  have h7e : (126 : UInt16).toNat = 126 := rfl
  have h80 : (128 : UInt16).toNat = 128 := rfl
  have hff : (255 : UInt16).toNat = 255 := rfl
  rcases hchar with (rfl | hchar) | hchar
  · exact absurd hnat (by decide)
  · omega
  · omega

/-- A line of the headers is a token and a value. -/
theorem Valid.line (h : c.Valid) {l : JsString × JsString} (hl : l ∈ c.lines) :
    l.1 ≠ [] ∧ (∀ u ∈ l.1, isTokenChar u = true) ∧ ∀ u ∈ l.2, isHeaderChar u = true := by
  obtain ⟨e, he, hl⟩ := List.mem_flatMap.mp hl
  obtain ⟨v, hv, rfl⟩ := List.mem_map.mp hl
  have hvalid := h.headers e he
  simp only [isValidHeader, Bool.and_eq_true, bne_iff_ne, ne_eq, List.all_eq_true] at hvalid
  exact ⟨hvalid.1.1, hvalid.1.2, hvalid.2 v hv⟩

/-- The lines Node adds are well formed too. -/
theorem Valid.allLines (h : c.Valid) (chunks : List Bytes) {l : JsString × JsString}
    (hl : l ∈ c.allLines chunks) :
    l.1 ≠ [] ∧ (∀ u ∈ l.1, isTokenChar u = true) ∧ ∀ u ∈ l.2, isHeaderChar u = true := by
  rcases List.mem_append.mp hl with hl | hl
  · rcases List.mem_append.mp hl with hl | hl
    · exact h.line hl
    · unfold connectionLine at hl
      split at hl
      · cases hl
      · rw [List.mem_singleton.mp hl]
        exact ⟨by decide, List.all_eq_true.mp (by decide), List.all_eq_true.mp (by decide)⟩
  · unfold storeBody at hl
    split at hl
    · cases hl
    · split at hl
      · cases hl
      · split at hl
        · rw [List.mem_singleton.mp hl]
          exact ⟨by decide, List.all_eq_true.mp (by decide), List.all_eq_true.mp (by decide)⟩
        · rw [List.mem_singleton.mp hl]
          exact ⟨by decide, List.all_eq_true.mp (by decide), List.all_eq_true.mp (by decide)⟩

/-- **The head is well formed.** -/
theorem Valid.wellFormed (h : c.Valid) (chunks : List Bytes) :
    WellFormed (latin1 c.method) (latin1 c.path)
      ((c.allLines chunks).map fun l => (latin1 l.1, latin1 l.2)) := by
  have hne : ∀ {s : JsString}, s ≠ [] → latin1 s ≠ [] := fun hs => by simpa [latin1] using hs
  refine ⟨⟨hne h.method.1, (latin1_token h.method.2).2⟩, ⟨hne h.path.1, latin1_path h.path.2⟩, ?_, ?_⟩
  · intro f hf
    obtain ⟨l, hl, rfl⟩ := List.mem_map.mp hf
    obtain ⟨hname, htoken, -⟩ := h.allLines chunks hl
    exact ⟨hne hname, (latin1_token htoken).1⟩
  · intro f hf
    obtain ⟨l, hl, rfl⟩ := List.mem_map.mp hf
    exact latin1_value (h.allLines chunks hl).2.2

/-! ### What the stream says -/

/-- The framing that the head declares. -/
def declaredFraming (c : ClientRequest) (chunks : List Bytes) : Option Framing :=
  framingOf (((c.allLines chunks).filter fun l =>
      l.1.toLowerCase == JsString.ofString "transfer-encoding").map fun l => trim (latin1 l.2))
    (((c.allLines chunks).filter fun l =>
      l.1.toLowerCase == JsString.ofString "content-length").map fun l => trim (latin1 l.2))

/-- The stream is one request with the method and the body, and nothing follows it. -/
def Delivered (stream method body : Bytes) : Prop :=
  ∃ r, readRequest stream = some (r, []) ∧ r.method = method ∧ r.body = body

/-- The declared framing delimits what is written. -/
def Framed (c : ClientRequest) (chunks : List Bytes) : Prop :=
  ∃ f, c.declaredFraming chunks = some f ∧ readBody f (c.writtenBody chunks) = some (chunks.flatten, [])

/-- **The stream is one request** if and only if the declared framing delimits what was written. -/
theorem delivered_iff (h : c.Valid) {chunks : List Bytes} {stream : Bytes}
    (hs : c.stream chunks = some stream) :
    Delivered stream (latin1 c.method) chunks.flatten ↔ c.Framed chunks := by
  have hlatin1 : ∀ l ∈ c.allLines chunks, IsLatin1 l.1 := fun l hl =>
    isLatin1_of_token (h.allLines chunks hl).2.1
  have hframing : framing (((c.allLines chunks).map fun l => (latin1 l.1, latin1 l.2)).map normalise) =
      c.declaredFraming chunks := by
    have hte : ascii "transfer-encoding" = latin1 "transfer-encoding" := by decide
    have hcl : ascii "content-length" = latin1 "content-length" := by decide
    have hvte := valuesOf_lines (k := "transfer-encoding") (by decide) hlatin1
    have hvcl := valuesOf_lines (k := "content-length") (by decide) hlatin1
    rw [framing, hte, hcl, hvte, hvcl, declaredFraming, List.map_map, List.map_map]
    rfl
  unfold ClientRequest.stream at hs
  split at hs
  · cases hs
  · cases hs
    rw [Delivered, readRequest_writeHead (h.wellFormed chunks), hframing]
    constructor
    · intro hread
      obtain ⟨r, hr, hm, hb⟩ := hread
      cases hf : c.declaredFraming chunks with
      | none => simp [hf] at hr
      | some f =>
        rw [hf, Option.bind_some, Option.map_eq_some_iff] at hr
        obtain ⟨q, hq, hqr⟩ := hr
        simp only [Prod.mk.injEq] at hqr
        refine ⟨f, hf, ?_⟩
        rw [hq, ← hb, ← hqr.1, ← hqr.2]
    · intro hread
      obtain ⟨f, hf, hq⟩ := hread
      simp only [hf, Option.bind_some, hq, Option.map_some]
      exact ⟨_, rfl, rfl, rfl⟩

/-! ### Which framing is declared -/

theorem filter_connectionLine {k : JsString} (hk : JsString.toLowerCase "Connection" ≠ k) :
    (c.connectionLine.filter fun l => l.1.toLowerCase == k) = [] := by
  unfold connectionLine
  split
  · rfl
  · simp [hk]

/-- The lines of a name are those of the headers and the one added for the body. -/
theorem filter_allLines {k : JsString} (hk : k.toLowerCase = k)
    (hne : JsString.toLowerCase "Connection" ≠ k) (chunks : List Bytes) (f : JsString → Bytes) :
    ((c.allLines chunks).filter fun l => l.1.toLowerCase == k).map (fun l => f l.2) =
      (c.values k).map f ++
        (((c.storeBody chunks).1.filter fun l => l.1.toLowerCase == k).map fun l => f l.2) := by
  rw [allLines, List.filter_append, List.filter_append, filter_connectionLine hne, List.append_nil,
    List.map_append, values_eq hk, List.map_map]
  rfl

theorem declares_framing_iff :
    (c.declares "content-length" || c.declares "transfer-encoding") = true ↔
      c.values "content-length" ≠ [] ∨ c.values "transfer-encoding" ≠ [] := by
  rw [declares_eq (by decide), declares_eq (by decide)]
  simp

/-- The framing that is declared is that of the headers and of the line added for the body. -/
theorem declaredFraming_eq (chunks : List Bytes) :
    c.declaredFraming chunks = framingOf
      ((c.values "transfer-encoding").map (fun v => trim (latin1 v)) ++
        (((c.storeBody chunks).1.filter fun l =>
          l.1.toLowerCase == JsString.ofString "transfer-encoding").map fun l => trim (latin1 l.2)))
      ((c.values "content-length").map (fun v => trim (latin1 v)) ++
        (((c.storeBody chunks).1.filter fun l =>
          l.1.toLowerCase == JsString.ofString "content-length").map fun l => trim (latin1 l.2))) := by
  rw [declaredFraming, filter_allLines (by decide) (by decide) chunks fun v => trim (latin1 v),
    filter_allLines (by decide) (by decide) chunks fun v => trim (latin1 v)]

/-- A request that declares a framing keeps it. -/
theorem declaredFraming_given (h : c.values "content-length" ≠ [] ∨ c.values "transfer-encoding" ≠ [])
    (chunks : List Bytes) :
    c.declaredFraming chunks = framingOf ((c.values "transfer-encoding").map fun v => trim (latin1 v))
      ((c.values "content-length").map fun v => trim (latin1 v)) := by
  have hstore : (c.storeBody chunks).1 = [] := by rw [storeBody, if_pos (declares_framing_iff.mpr h)]
  rw [declaredFraming_eq, hstore]
  simp

/-- Its body is chunked if a transfer coding says so. -/
theorem writtenBody_given (h : c.values "content-length" ≠ [] ∨ c.values "transfer-encoding" ≠ [])
    (chunks : List Bytes) :
    c.writtenBody chunks =
      if (c.values "transfer-encoding").any saysChunked then writeChunks chunks else chunks.flatten := by
  have hany : (c.values "transfer-encoding").any saysChunked =
      c.lines.any fun l => l.1.toLowerCase == JsString.ofString "transfer-encoding" && saysChunked l.2 := by
    rw [values_eq (by decide), List.any_map, List.any_filter]
    rfl
  rw [writtenBody, storeBody, if_pos (declares_framing_iff.mpr h), hany]

/-- **What Node does by default**: the body is delimited unless the method is one of those without a
body and there is one all the same. -/
theorem default_iff (hcl : c.values "content-length" = []) (hte : c.values "transfer-encoding" = [])
    {chunks : List Bytes} (hchunks : ∀ chunk ∈ chunks, chunk ≠ []) :
    c.Framed chunks ↔ c.useChunkedEncodingByDefault = true ∨ chunks.flatten = [] := by
  have hdeclares : ¬ (c.declares "content-length" || c.declares "transfer-encoding") = true := by
    rw [declares_framing_iff, hcl, hte]
    simp
  rw [Framed, declaredFraming_eq, hte, hcl, writtenBody, storeBody, if_neg hdeclares]
  by_cases hdefault : c.useChunkedEncodingByDefault = true
  · simp only [hdefault, Bool.not_true, Bool.false_eq_true, if_false, true_or, iff_true]
    by_cases hempty : (!c.declares "trailer" && !c.storesEarly && chunks.isEmpty) = true
    · -- ended before anything was written: a length of 0
      have hnil : chunks = [] := by
        simp only [Bool.and_eq_true, List.isEmpty_iff] at hempty
        exact hempty.2
      rw [if_pos hempty, hnil]
      exact ⟨.length 0, by decide, rfl⟩
    · rw [if_neg hempty]
      have hread := readChunks_writeChunks hchunks (length_lt_length_writeChunks chunks) []
      rw [List.append_nil] at hread
      exact ⟨.chunked, by decide, hread⟩
  · simp only [hdefault, Bool.not_false, if_true, false_or, Bool.false_eq_true, if_false]
    constructor
    · intro hread
      obtain ⟨f, hf, hbody⟩ := hread
      have hzero : f = .length 0 := by
        have hnone : framingOf [] [] = some (.length 0) := rfl
        simp only [List.map_nil, List.filter_nil, List.append_nil, hnone, Option.some.injEq] at hf
        exact hf.symm
      rw [hzero] at hbody
      simp only [readBody, Nat.zero_le, if_true, List.take_zero, Option.some.injEq, Prod.mk.injEq] at hbody
      exact hbody.1.symm
    · intro hnil
      refine ⟨.length 0, rfl, ?_⟩
      rw [hnil]
      rfl

end ClientRequest

end NestDdd.Legacy
