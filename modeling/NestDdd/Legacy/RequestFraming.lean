import NestDdd.Legacy.Forward

/-!
# The framing of a forwarded request

What the legacy service reads on its connection, against what the client sent.

## What is proved

* `framing_iff` — the stream of a forwarded request is one request with the client's
  method and body if and only if `KeepsFraming`. The case that goes wrong with any
  ordinary request-id header is a chunked body on a method that Node sends without
  framing: `transfer-encoding` is stripped, and the body is read as the next request
  (`smuggled_request`).
-/

namespace NestDdd.Legacy

open NestDdd.Shared NestDdd.Theory NestDdd.Theory.Http

/-- When the framing of the body survives the hop. A request-id header that is itself one of the two
framing headers keeps it only where the id it carries is the client's own framing. -/
def KeepsFraming (opts : ForwardOptions) (req : IncomingRequest) : Prop :=
  if opts.requestIdHeader.toLowerCase = "content-length" then
    req.delimiter = .contentLength ∧ isSafeCorrelationId (candidate opts req) = true
  else if opts.requestIdHeader.toLowerCase = "transfer-encoding" then req.delimiter = .chunked
  else
    ¬ (req.delimiter = .chunked ∧ req.method ∈ ClientRequest.METHODS_WITHOUT_BODY ∧ req.body ≠ [])

variable {opts : ForwardOptions} {uuid : Uuid} {req : IncomingRequest} {c : ClientRequest}

/-! ### The two framing headers of the outbound request -/

theorem outbound_spec (h : outbound opts uuid req = some c) :
    c.Valid ∧ c.method = req.method ∧ ∀ k : JsString, k.toLowerCase = k → k ∉ OWN_HEADERS →
      c.headers.get k =
        if k = opts.requestIdHeader.toLowerCase then some (.one (requestIdFor opts uuid req))
        else if isHopByHop k then none else req.headers.get k := by
  obtain ⟨hvalid, hmethod, hheaders⟩ := ClientRequest.request_spec h req.method_upper
  refine ⟨hvalid, hmethod, fun k hk hown => ?_⟩
  have hlast := buildForwardHeaders_last (forwardHeadersInput opts uuid req) hown
  rw [hheaders, Headers.get_setAll, hk, hlast]
  exact Option.or_none

/-- The lines of a framing header. -/
theorem values_outbound (h : outbound opts uuid req = some c) {k : JsString} (hk : k.toLowerCase = k)
    (hown : k ∉ OWN_HEADERS) :
    c.values k =
      if k = opts.requestIdHeader.toLowerCase then [requestIdFor opts uuid req]
      else if isHopByHop k then [] else ((req.headers.get k).map HeaderValue.lines).getD [] := by
  rw [ClientRequest.values, (outbound_spec h).2.2 k hk hown]
  split
  · rfl
  · split <;> rfl

theorem contentLength_outbound (h : outbound opts uuid req = some c) :
    c.values "content-length" =
      if opts.requestIdHeader.toLowerCase = "content-length" then [requestIdFor opts uuid req]
      else ((req.headers.get "content-length").map HeaderValue.lines).getD [] := by
  rw [values_outbound h (by decide) (by decide), if_neg (show ¬ isHopByHop _ = true by decide)]
  simp only [eq_comm]

theorem transferEncoding_outbound (h : outbound opts uuid req = some c) :
    c.values "transfer-encoding" =
      if opts.requestIdHeader.toLowerCase = "transfer-encoding" then [requestIdFor opts uuid req] else [] := by
  rw [values_outbound h (by decide) (by decide), if_pos (show isHopByHop _ = true by decide)]
  simp only [eq_comm]

theorem requestIdFor_eq_candidate (h : isSafeCorrelationId (candidate opts req) = true) {v : JsString}
    (hv : candidate opts req = some v) : requestIdFor opts uuid req = v := by
  rw [requestIdFor, if_pos h, hv]
  rfl

theorem requestIdFor_eq_uuid (h : ¬ isSafeCorrelationId (candidate opts req) = true) :
    requestIdFor opts uuid req = uuid.value := by
  rw [requestIdFor, if_neg h]

/-! ### A UUID frames nothing -/

/-- The hyphen of a UUID survives. -/
theorem hyphen_mem_trim (uuid : Uuid) : 45 ∈ trim (latin1 uuid.value) := by
  refine mem_trim (List.mem_map.mpr ⟨0x2D, uuid.hyphen_mem, rfl⟩) (by decide)

theorem readNat_uuid (uuid : Uuid) : readNat 10 (trim (latin1 uuid.value)) = none :=
  readNat_eq_none (hyphen_mem_trim uuid) (by decide)

theorem lower_uuid (uuid : Uuid) : (trim (latin1 uuid.value)).map lower ≠ ascii "chunked" := by
  intro he
  have hm : lower 45 ∈ (trim (latin1 uuid.value)).map lower := List.mem_map_of_mem (hyphen_mem_trim uuid)
  rw [he] at hm
  exact absurd hm (by decide)

/-! ### The word `chunked` -/

/-- The word `chunked`, in any letter case, has only letters. -/
theorem letter_of_chunked {v : JsString} (h : v.toLowerCase = "chunked") :
    ∀ u ∈ v, (0x41 ≤ u && u ≤ 0x5A) || (0x61 ≤ u && u ≤ 0x7A) := by
  intro u hu
  have hm : (if 0x41 ≤ u && u ≤ 0x5A then u + 0x20 else u) ∈ JsString.toLowerCase v :=
    List.mem_map_of_mem hu
  rw [h] at hm
  by_cases hcap : (0x41 ≤ u && u ≤ 0x5A) = true
  · simp [hcap]
  · rw [if_neg hcap] at hm
    have hall : ∀ w ∈ JsString.ofString "chunked", (0x61 ≤ w && w ≤ 0x7A) = true :=
      List.all_eq_true.mp (by decide)
    simp [hall u hm]

theorem isLatin1_of_chunked {v : JsString} (h : v.toLowerCase = "chunked") : ClientRequest.IsLatin1 v := by
  intro u hu
  have hletter := letter_of_chunked h u hu
  simp only [Bool.or_eq_true, Bool.and_eq_true, decide_eq_true_eq] at hletter
  rw [UInt16.lt_iff_toNat_lt]
  rcases hletter with hu | hu
  · exact Nat.lt_of_le_of_lt (UInt16.le_iff_toNat_le.mp hu.2) (by decide)
  · exact Nat.lt_of_le_of_lt (UInt16.le_iff_toNat_le.mp hu.2) (by decide)

/-- The value reads as the chunked coding. -/
theorem lower_of_chunked {v : JsString} (h : v.toLowerCase = "chunked") :
    (trim (latin1 v)).map lower = ascii "chunked" := by
  have hlower : (latin1 v).map lower = ascii "chunked" := by
    rw [ClientRequest.latin1_toLowerCase (isLatin1_of_chunked h), h]
    decide
  have htrim : trim (latin1 v) = latin1 v := by
    refine trim_eq_self fun b hb => ?_
    have hm : lower b ∈ (latin1 v).map lower := List.mem_map_of_mem hb
    rw [hlower] at hm
    by_contra hblank
    simp only [isBlank, Bool.not_eq_false, Bool.or_eq_true, decide_eq_true_eq] at hblank
    rcases hblank with rfl | rfl
    · exact absurd hm (by decide)
    · exact absurd hm (by decide)
  rw [htrim, hlower]

/-- And Node knows it for the chunked coding. -/
theorem saysChunked_of_chunked {v : JsString} (h : v.toLowerCase = "chunked") :
    ClientRequest.saysChunked v = true := by
  have hword : ∀ u ∈ v, (!isWordChar u) = false := by
    intro u hu
    have hletter := letter_of_chunked h u hu
    simp only [Bool.or_eq_true] at hletter
    rcases hletter with hu | hu
    · simp [isWordChar, hu]
    · simp [isWordChar, hu]
  rw [ClientRequest.saysChunked, List.splitOnP_eq_singleton hword]
  simp [h]

theorem isSafe_of_chunked {v : JsString} (h : v.toLowerCase = "chunked") :
    isSafeCorrelationId (some v) = true := by
  have hlen : v.length = 7 := by
    have hmap : v.length = (JsString.toLowerCase v).length := (List.length_map _).symm
    rw [hmap, h]
    decide
  have hne : v ≠ [] := fun he => by simp [he] at hlen
  have hall : v.all isSafeChar = true := by
    refine List.all_eq_true.mpr fun u hu => ?_
    have hletter := letter_of_chunked h u hu
    simp only [Bool.or_eq_true] at hletter
    rcases hletter with hu | hu
    · simp [isSafeChar, hu]
    · simp [isSafeChar, hu]
  simp [isSafeCorrelationId, SAFE_CORRELATION_ID, hne, hlen, hall]

/-! ### The cases -/

/-- With a `Content-Length` and no transfer coding, the declared length decides. -/
theorem contentLength_iff {v : JsString} (hcl : c.values "content-length" = [v])
    (hte : c.values "transfer-encoding" = []) (chunks : List Bytes) :
    c.Framed chunks ↔ readNat 10 (trim (latin1 v)) = some chunks.flatten.length := by
  have hgiven : c.values "content-length" ≠ [] ∨ c.values "transfer-encoding" ≠ [] := .inl (by simp [hcl])
  rw [ClientRequest.Framed, ClientRequest.declaredFraming_given hgiven,
    ClientRequest.writtenBody_given hgiven, hcl, hte]
  simp only [List.map_nil, List.map_cons, framingOf, List.any_nil, Bool.false_eq_true, if_false]
  constructor
  · intro hread
    obtain ⟨f, hf, hbody⟩ := hread
    obtain ⟨n, hn, rfl⟩ := Option.map_eq_some_iff.mp hf
    rw [hn, readBody_length_iff.mp hbody]
  · intro hn
    rw [hn]
    exact ⟨_, rfl, readBody_length_iff.mpr rfl⟩

/-- With a transfer coding, the word `chunked` decides. -/
theorem transferEncoding_iff (uuid : Uuid) {v : JsString} (hte : c.values "transfer-encoding" = [v])
    (hv : v.toLowerCase = "chunked" ∨ v = uuid.value) {chunks : List Bytes}
    (hchunks : ∀ chunk ∈ chunks, chunk ≠ []) :
    c.Framed chunks ↔ v.toLowerCase = "chunked" := by
  have hgiven : c.values "content-length" ≠ [] ∨ c.values "transfer-encoding" ≠ [] := .inr (by simp [hte])
  rw [ClientRequest.Framed, ClientRequest.declaredFraming_given hgiven,
    ClientRequest.writtenBody_given hgiven, hte]
  simp only [List.map_cons, List.map_nil, framingOf, List.any_cons, List.any_nil, Bool.or_false]
  constructor
  · intro hread
    obtain ⟨f, hf, -⟩ := hread
    rcases hv with hv | hv
    · exact hv
    · rw [hv, if_neg (lower_uuid uuid)] at hf
      cases hf
  · intro hchunked
    rw [if_pos (lower_of_chunked hchunked), if_pos (saysChunked_of_chunked hchunked)]
    have hread := readChunks_writeChunks hchunks (length_lt_length_writeChunks chunks) []
    rw [List.append_nil] at hread
    exact ⟨.chunked, rfl, hread⟩

/-- The id takes the place of the client's `Content-Length`. -/
theorem framed_contentLength_id (hc : outbound opts uuid req = some c)
    (hid : opts.requestIdHeader.toLowerCase = "content-length") :
    c.Framed req.chunks ↔
      req.delimiter = .contentLength ∧ isSafeCorrelationId (candidate opts req) = true := by
  have hcl := contentLength_outbound hc
  have hte := transferEncoding_outbound hc
  rw [if_pos hid] at hcl
  rw [hid, if_neg (by decide)] at hte
  rw [contentLength_iff hcl hte]
  by_cases hsafe : isSafeCorrelationId (candidate opts req) = true
  · have hdelimited := req.delimited
    have hnone : req.headers.get "content-length" = none →
        isSafeCorrelationId (candidate opts req) = false := by
      intro hget
      simp [candidate, hid, hget, isSafeCorrelationId]
    cases hd : req.delimiter with
    | contentLength =>
      rw [hd] at hdelimited
      obtain ⟨-, v, hv, hn⟩ := hdelimited
      have hcand : candidate opts req = some v := by simp [candidate, hid, hv, HeaderValue.first]
      rw [requestIdFor_eq_candidate hsafe hcand, trim_of_readNat hn, hn]
      simp [hsafe]
    | none =>
      rw [hd] at hdelimited
      simp [hnone hdelimited.1] at hsafe
    | chunked =>
      rw [hd] at hdelimited
      simp [hnone hdelimited.1] at hsafe
  · rw [requestIdFor_eq_uuid hsafe, readNat_uuid]
    simp [hsafe]

/-- The id takes the place of the transfer coding. -/
theorem framed_transferEncoding_id (hc : outbound opts uuid req = some c)
    (hid : opts.requestIdHeader.toLowerCase = "transfer-encoding") :
    c.Framed req.chunks ↔ req.delimiter = .chunked := by
  have hte := transferEncoding_outbound hc
  rw [if_pos hid] at hte
  have hdelimited := req.delimited
  have hnone : req.headers.get "transfer-encoding" = none → ¬ c.Framed req.chunks := by
    intro hget
    have hrefused : ¬ isSafeCorrelationId (candidate opts req) = true := by
      simp [candidate, hid, hget, isSafeCorrelationId]
    rw [requestIdFor_eq_uuid hrefused] at hte
    rw [transferEncoding_iff uuid hte (.inr rfl) req.chunks_ne]
    intro hchunked
    have hhyphen : JsString.toLowerCase uuid.value = "chunked" → False := fun he =>
      lower_uuid uuid (lower_of_chunked he)
    exact hhyphen hchunked
  cases hd : req.delimiter with
  | chunked =>
    rw [hd] at hdelimited
    obtain ⟨-, v, hv, hchunked⟩ := hdelimited
    have hcand : candidate opts req = some v := by simp [candidate, hid, hv, HeaderValue.first]
    have hsafe : isSafeCorrelationId (candidate opts req) = true := hcand ▸ isSafe_of_chunked hchunked
    rw [requestIdFor_eq_candidate hsafe hcand] at hte
    rw [transferEncoding_iff uuid hte (.inl hchunked) req.chunks_ne]
    exact iff_of_true hchunked rfl
  | none =>
    rw [hd] at hdelimited
    exact iff_of_false (hnone hdelimited.2.1) (by simp)
  | contentLength =>
    rw [hd] at hdelimited
    exact iff_of_false (hnone hdelimited.1) (by simp)

/-- Under any other name the id leaves the framing alone, and a transfer coding is stripped. -/
theorem framed_other_id (hc : outbound opts uuid req = some c)
    (hcl' : opts.requestIdHeader.toLowerCase ≠ "content-length")
    (hte' : opts.requestIdHeader.toLowerCase ≠ "transfer-encoding") :
    c.Framed req.chunks ↔
      ¬ (req.delimiter = .chunked ∧ req.method ∈ ClientRequest.METHODS_WITHOUT_BODY ∧ req.body ≠ []) := by
  have hcl := contentLength_outbound hc
  have hte := transferEncoding_outbound hc
  rw [if_neg hcl'] at hcl
  rw [if_neg hte'] at hte
  have hmethod := (outbound_spec hc).2.1
  have hdefault : c.useChunkedEncodingByDefault = true ↔
      req.method ∉ ClientRequest.METHODS_WITHOUT_BODY := by
    simp [ClientRequest.useChunkedEncodingByDefault, hmethod]
  have hdelimited := req.delimited
  cases hd : req.delimiter with
  | none =>
    rw [hd] at hdelimited
    obtain ⟨hget, -, hbody⟩ := hdelimited
    rw [hget] at hcl
    rw [ClientRequest.default_iff hcl hte req.chunks_ne]
    exact iff_of_true (.inr hbody) fun hbad => by cases hbad.1
  | contentLength =>
    rw [hd] at hdelimited
    obtain ⟨-, v, hv, hn⟩ := hdelimited
    rw [hv] at hcl
    rw [contentLength_iff hcl hte, trim_of_readNat hn, hn]
    exact iff_of_true rfl fun hbad => by cases hbad.1
  | chunked =>
    rw [hd] at hdelimited
    rw [hdelimited.1] at hcl
    rw [ClientRequest.default_iff hcl hte req.chunks_ne, hdefault, IncomingRequest.body]
    tauto

/-- **The framing of a forwarded request**: the legacy service reads one request, with the client's
method and body and nothing after it, if and only if the framing survives the hop. -/
theorem framing_iff (opts : ForwardOptions) (uuid : Uuid) (req : IncomingRequest) {stream : Bytes}
    (h : forward opts uuid req = some stream) :
    ClientRequest.Delivered stream (latin1 req.method) req.body ↔ KeepsFraming opts req := by
  obtain ⟨c, hc, hstream⟩ := Option.bind_eq_some_iff.mp h
  obtain ⟨hvalid, hmethod, -⟩ := outbound_spec hc
  rw [← hmethod, IncomingRequest.body, ClientRequest.delivered_iff hvalid hstream]
  unfold KeepsFraming
  by_cases hidcl : opts.requestIdHeader.toLowerCase = "content-length"
  · rw [if_pos hidcl]
    exact framed_contentLength_id hc hidcl
  · rw [if_neg hidcl]
    by_cases hidte : opts.requestIdHeader.toLowerCase = "transfer-encoding"
    · rw [if_pos hidte]
      exact framed_transferEncoding_id hc hidte
    · rw [if_neg hidte]
      exact framed_other_id hc hidcl hidte

/-- A forwarder with the default header. -/
def plainOptions : ForwardOptions := ⟨"legacy-host:8080", false, "x-request-id"⟩

/-- A UUID. -/
def someUuid : Uuid := ⟨"123e4567-e89b-12d3-a456-426614174000", by decide⟩

/-- A request with a chunked body in one piece. -/
def chunkedRequest (method : JsString) (hm : method.toUpperCase = method) (body : Bytes) (hb : body ≠ []) :
    IncomingRequest where
  method := method
  method_upper := hm
  originalUrl := "/v1/legacy"
  protocol := "http"
  remoteAddress := none
  headers := {
    entries := [("host", .one "api"), ("transfer-encoding", .one "chunked")]
    nodup := by decide
    lower := by decide }
  chunks := [body]
  chunks_ne := by simpa using hb
  delimiter := .chunked
  delimited := ⟨by decide, "chunked", by decide, by decide⟩

/-- A `POST` with the chunked body `hello`. -/
def helloRequest : IncomingRequest := chunkedRequest "POST" (by decide) (ascii "hello") (by decide)

/-- It arrives as it was sent. -/
theorem chunked_post_framed : ∃ stream, forward plainOptions someUuid helloRequest = some stream ∧
    ClientRequest.Delivered stream (latin1 "POST") (ascii "hello") := by
  have hsome : (forward plainOptions someUuid helloRequest).isSome := by decide +kernel
  obtain ⟨stream, hstream⟩ := Option.isSome_iff_exists.mp hsome
  have hbody : helloRequest.body = ascii "hello" := by decide
  have hkeeps : KeepsFraming plainOptions helloRequest := by
    rw [KeepsFraming, if_neg (by decide), if_neg (by decide)]
    intro hbad
    exact absurd hbad.2.1 (by decide)
  refine ⟨stream, hstream, ?_⟩
  rw [← hbody]
  exact (framing_iff plainOptions someUuid helloRequest hstream).mpr hkeeps

/-- A body that is itself a request. -/
def smuggled : Bytes := ascii "GET /admin HTTP/1.1\r\nhost: legacy-host\r\n\r\n"

/-- A `GET` with that body, chunked. -/
def smugglingRequest : IncomingRequest := chunkedRequest "GET" (by decide) smuggled (by decide)

/-- **The chunked body of a `GET`** is read by the legacy service as its next request. -/
theorem smuggled_request : ∃ stream, forward plainOptions someUuid smugglingRequest = some stream ∧
    ¬ ClientRequest.Delivered stream (latin1 "GET") smuggled ∧
      ∃ first second, readRequest stream = some (first, smuggled) ∧ first.body = [] ∧
        readRequest smuggled = some (second, []) ∧ second.target = ascii "/admin" := by
  have hfirst : ((forward plainOptions someUuid smugglingRequest).bind readRequest).map
      (fun p => (p.1.body, p.2)) = some ([], smuggled) := by decide +kernel
  have hsecond : (readRequest smuggled).map (fun p => (p.1.target, p.2)) = some (ascii "/admin", []) := by
    decide +kernel
  obtain ⟨p, hp, hpe⟩ := Option.map_eq_some_iff.mp hfirst
  obtain ⟨q, hq, hqe⟩ := Option.map_eq_some_iff.mp hsecond
  obtain ⟨stream, hstream, hread⟩ := Option.bind_eq_some_iff.mp hp
  obtain ⟨first, rest⟩ := p
  obtain ⟨second, rest'⟩ := q
  simp only [Prod.mk.injEq] at hpe hqe
  rw [hpe.2] at hread
  rw [hqe.2] at hq
  refine ⟨stream, hstream, fun hdelivered => ?_, first, second, hread, hpe.1, hq, hqe.1⟩
  obtain ⟨r, hr, -, -⟩ := hdelivered
  rw [hread, Option.some.injEq, Prod.mk.injEq] at hr
  exact absurd hr.2 (by decide)

end NestDdd.Legacy
