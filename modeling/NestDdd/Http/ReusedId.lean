import NestDdd.Http.RequestId

/-!
# A caller's id on every route

Three places look a caller's correlation id up under `logging.requestIdHeader`: `genReqId` and
`RequestIdMiddleware` on a routed request, `LegacyForwarder.requestIdFor` on a forwarded one. Node hands the
names of headers on in lower case; only the forwarder puts the configured name in lower case too.

## What is proved

* `reuses_iff` — **a safe id is reused on every route** exactly if the configured name has no capitals.
* `id_lost_when_routed` — with the usual spelling of the default name, it is not.
-/

namespace NestDdd.Http

open NestDdd.Shared NestDdd.Legacy

/-- A request has one line under a name, in whatever case, and its value is a safe id. -/
def Carries (headers : IncomingHttpHeaders) (name v : JsString) : Prop :=
  (headers.get name.toLowerCase = some (.one v) ∨ headers.get name.toLowerCase = some (.many [v])) ∧
    SAFE_CORRELATION_ID v = true

/-- **What is expected** of the configured name. -/
structure Reuses (env : Env) : Prop where
  /-- `genReqId` resolves the caller's id. -/
  genReqId : ∀ (client : IncomingRequest) (url : JsString) (uuid : Uuid) (v : JsString),
    Carries client.headers env.requestIdHeader v → (pinoHttp env uuid (arrival client url).req).id = some v
  /-- So does `RequestIdMiddleware` after it. -/
  middleware : ∀ (client : IncomingRequest) (url : JsString) (uuid uuid' : Uuid) (v : JsString),
    Carries client.headers env.requestIdHeader v →
      middlewareId env uuid' (pinoHttp env uuid (arrival client url).req) = v
  /-- So does the forwarder. -/
  forwarder : ∀ (f : Forwarder) (client : IncomingRequest) (uuid : Uuid) (v : JsString),
    Carries client.headers env.requestIdHeader v → requestIdFor (f.options env) uuid client = v
  /-- The forwarded request carries it. -/
  forwarded : ∀ (f : Forwarder) (client : IncomingRequest) (uuid : Uuid) (v : JsString) (c : ClientRequest),
    Carries client.headers env.requestIdHeader v → outbound (f.options env) uuid client = some c →
      c.headers.get env.requestIdHeader = some (.one v)

/-! ### The look-ups -/

variable {headers : IncomingHttpHeaders} {name v : JsString}

theorem Carries.first (h : Carries headers name v) :
    (headers.get name.toLowerCase).bind HeaderValue.first = some v := by
  rcases h.1 with hget | hget
  · rw [hget]
    rfl
  · rw [hget]
    rfl

theorem Carries.isSafe (h : Carries headers name v) : isSafeCorrelationId (some v) = true := by
  rw [isSafeCorrelationId_some]
  exact h.2

/-- Node has no header under a name with capitals. -/
theorem get_of_capitals (hname : name.toLowerCase ≠ name) : headers.get name = none := by
  unfold Headers.get
  rw [Option.map_eq_none_iff, List.find?_eq_none]
  intro e he heq
  have hlower := headers.lower e he
  have hsame : e.1 = name := beq_iff_eq.mp heq
  rw [hsame] at hlower
  exact hname hlower

/-- The forwarder finds the id under any spelling of its name. -/
theorem requestIdFor_of_carries {opts : ForwardOptions} {client : IncomingRequest} (uuid : Uuid)
    (h : Carries client.headers opts.requestIdHeader v) : requestIdFor opts uuid client = v := by
  rw [requestIdFor, candidate, h.first, if_pos h.isSafe, Option.getD_some]

theorem pinoHttp_arrival (env : Env) (uuid : Uuid) (client : IncomingRequest) (url : JsString) :
    (pinoHttp env uuid (arrival client url).req).id =
      some ((safeCandidate env (arrival client url).req).getD uuid.value) := by
  rw [pinoHttp, env.pinoHttp.asks _ _ (.inl rfl)]
  rfl

theorem toLowerCase_toLowerCase (s : JsString) : s.toLowerCase.toLowerCase = s.toLowerCase := by
  unfold JsString.toLowerCase
  rw [List.map_map]
  refine List.map_congr_left fun u _ => ?_
  simp only [Function.comp, Bool.and_eq_true, decide_eq_true_eq]
  by_cases hu : 0x41 ≤ u ∧ u ≤ 0x5A
  · have hnot : ¬ (0x41 ≤ u + 0x20 ∧ u + 0x20 ≤ 0x5A) := by
      rintro ⟨-, h⟩
      obtain ⟨h₁, h₂⟩ := hu
      rw [UInt16.le_iff_toNat_le] at h h₁ h₂
      simp only [UInt16.toNat_add, UInt16.reduceToNat] at h h₁ h₂
      omega
    simp only [hu, and_self, if_true, hnot, if_false]
  · simp only [hu, if_false]

/-- A client's request under any name, with an id that is no UUID. -/
theorem exists_carries (name : JsString) :
    ∃ (client : IncomingRequest) (v : JsString), Carries client.headers name v ∧ v.length < 36 := by
  -- the headers that delimit a body have to do so
  by_cases hlength : name.toLowerCase = "content-length"
  · refine ⟨{ blankId with
        headers := { entries := [("content-length", .one "0")], nodup := by decide, lower := by decide }
        delimiter := .contentLength
        delimited := ⟨by decide, _, rfl, by decide⟩ }, "0", ⟨.inl ?_, by decide⟩, by decide⟩
    rw [hlength]
    decide
  · by_cases hchunked : name.toLowerCase = "transfer-encoding"
    · refine ⟨{ blankId with
          headers := { entries := [("transfer-encoding", .one "chunked")], nodup := by decide, lower := by decide }
          delimiter := .chunked
          delimited := ⟨by decide, _, rfl, by decide⟩ }, "chunked", ⟨.inl ?_, by decide⟩, by decide⟩
      rw [hchunked]
      decide
    · refine ⟨{ blankId with
          headers := { entries := [(name.toLowerCase, .one "trace-17")], nodup := List.nodup_singleton _
                       lower := by simpa using toLowerCase_toLowerCase name }
          delimited := ⟨?_, ?_, rfl⟩ }, "trace-17", ⟨.inl ?_, by decide⟩, by decide⟩
      · simpa [Headers.get] using hlength
      · simpa [Headers.get] using hchunked
      · simp [Headers.get]

theorem length_uuid (uuid : Uuid) : uuid.value.length = 36 := by
  have hshape := uuid.shape
  simp only [isUuid, Bool.and_eq_true, beq_iff_eq] at hshape
  exact hshape.1

/-- **A safe id is reused on every route** if and only if the configured name has no capitals. -/
theorem reuses_iff (env : Env) : Reuses env ↔ env.requestIdHeader.toLowerCase = env.requestIdHeader := by
  constructor
  · intro h
    by_contra hname
    obtain ⟨client, v, hcarries, hlen⟩ := exists_carries env.requestIdHeader
    have hid := h.genReqId client [] freshUuid v hcarries
    have hnone : (arrival client []).req.headers.get env.requestIdHeader = none := get_of_capitals hname
    rw [pinoHttp_arrival, safeCandidate, hnone] at hid
    obtain rfl : freshUuid.value = v := Option.some.inj hid
    rw [length_uuid] at hlen
    exact absurd hlen (Nat.lt_irrefl 36)
  · intro hname
    have hid (client : IncomingRequest) (url : JsString) (uuid : Uuid) (v : JsString)
        (hc : Carries client.headers env.requestIdHeader v) :
        (pinoHttp env uuid (arrival client url).req).id = some v := by
      have hfirst := hc.first
      rw [hname] at hfirst
      have hcandidate : safeCandidate env (arrival client url).req = some v := by
        simp only [safeCandidate, arrival, hfirst, hc.isSafe, if_true]
      rw [pinoHttp_arrival, hcandidate, Option.getD_some]
    refine ⟨hid, fun client url uuid uuid' v hc => ?_, fun f client uuid v hc => ?_,
      fun f client uuid v c hc hout => ?_⟩
    · rw [middlewareId, hid client url uuid v hc, if_pos hc.isSafe, Option.getD_some]
    · exact requestIdFor_of_carries uuid hc
    · rw [get_outbound hout, requestIdFor_of_carries uuid hc]

/-- A caller's id under the configured name, which is lost on a routed request and kept on a forwarded one. -/
theorem id_lost_when_routed :
    let env : Env := { plainEnv with requestIdHeader := "X-Request-Id" }
    ∃ client : IncomingRequest, Carries client.headers env.requestIdHeader "trace-17" ∧
      (pinoHttp env freshUuid (arrival client "/v1/orders").req).id = some freshUuid.value ∧
      middlewareId env freshUuid (pinoHttp env freshUuid (arrival client "/v1/orders").req) = freshUuid.value ∧
      requestIdFor (plainForwarder.options env) freshUuid client = "trace-17" ∧
      freshUuid.value ≠ "trace-17" := by
  refine ⟨{ blankId with
      headers := { entries := [("x-request-id", .one "trace-17")], nodup := by decide, lower := by decide }
      delimited := ⟨by decide, by decide, rfl⟩ }, ⟨.inl (by decide), by decide⟩, by decide, by decide, by decide,
    by decide⟩

end NestDdd.Http
