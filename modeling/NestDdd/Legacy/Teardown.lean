import NestDdd.Legacy.Outcome

/-!
# No half-open hop

A forwarded request has two ends, the client's and the legacy service's. When one of them is gone
the other one is to be told: a client must not wait for a hop that is gone, and an outbound request
must not stay open for a client that is gone. And the client is to read one head, with the status
of the legacy service if that has answered.

## What is proved

* `Headed.of_run` — **the head** is written at most once in every run in which the legacy service sends
  no status that is none, and its status is the one it should be.
* `Torn` — the invariant of a prompt run: what tears down one end has torn down the other one.
* `no_half_open_hop` — so no hop is half open in a run whose steps are all prompt.
* `half_open_hops` — four runs that are not, in which one end is gone and the other one is left.
-/

namespace NestDdd.Legacy

open NestDdd.Shared NestDdd.Theory

namespace Exchange

variable {ctx : ForwardContext} {s s' : Exchange}

/-! ### The head -/

/-- The statuses passed to `res.writeHead` when an event is handled. -/
def headsWritten (s : Exchange) : ExchangeEvent → List ℕ
  | .response statusCode => if ValidStatus (statusCode.getD 502) then [statusCode.getD 502] else []
  | .timeout _ => if s.head.isNone then [504] else []
  | .error _ | .hangUp _ => if s.head.isNone then [if s.timedOut then 504 else 502] else []
  | _ => []

/-- The statuses passed to `res.writeHead` in a sequence of events. -/
def headsOf (ctx : ForwardContext) (s : Exchange) : List ExchangeEvent → List ℕ
  | [] => []
  | e :: es => s.headsWritten e ++ headsOf ctx (s.step ctx e) es

theorem headsOf_snoc (es : List ExchangeEvent) (e : ExchangeEvent) :
    headsOf ctx s (es ++ [e]) = headsOf ctx s es ++ headsWritten (es.foldl (step ctx) s) e := by
  induction es generalizing s with
  | nil => simp [headsOf]
  | cons e' es ih => simp [headsOf, ih]

/-- The steps at which the legacy service sends no status that is none. -/
def Accepted (_ : Exchange) : ExchangeEvent → Prop
  | .response statusCode => ValidStatus (statusCode.getD 502)
  | _ => True

/-- **The invariant** behind it. -/
structure HeadInv (ctx : ForwardContext) (es : List ExchangeEvent) (s : Exchange) : Prop where
  /-- The heads written are the head. -/
  once : headsOf ctx start es = s.head.toList
  /-- There is an upstream message once the legacy service has answered. -/
  unanswered : s.upstream = .none ↔ ∀ statusCode, .response statusCode ∉ es
  /-- Its status is on the head. -/
  legacy : ∀ statusCode, .response statusCode ∈ es → s.head = some (statusCode.getD 502)
  /-- Once there is a head, the outbound request can neither answer nor fail any more. -/
  written : s.head ≠ none → s.upstream = .none → ¬ s.OutboundOpen
  /-- The variable remembers the timeout. -/
  timedOut : s.timedOut = true ↔ ∃ now, .timeout now ∈ es
  /-- A head of the forwarder's own tells it. -/
  failed : s.upstream = .none → ∀ status, s.head = some status → status = if s.timedOut then 504 else 502
  /-- Only a destroyed outbound request reports that it was destroyed. -/
  pending : s.hangUpPending = true → s.outboundDestroyed = true

variable {es : List ExchangeEvent} {e : ExchangeEvent}

/-- An event that writes no head, and is neither an answer nor a timeout. -/
theorem HeadInv.quiet (h : HeadInv ctx es s) (hs : s = es.foldl (step ctx) start) (hw : s.headsWritten e = [])
    (hr : ∀ statusCode, e ≠ .response statusCode) (ht : ∀ now, e ≠ .timeout now) (hhead : s'.head = s.head)
    (hup : s'.upstream = .none ↔ s.upstream = .none) (htimed : s'.timedOut = s.timedOut)
    (hopen : s'.OutboundOpen → s.OutboundOpen)
    (hpending : s'.hangUpPending = true → s'.outboundDestroyed = true) : HeadInv ctx (es ++ [e]) s' where
  once := by rw [headsOf_snoc, ← hs, hw, List.append_nil, h.once, hhead]
  unanswered := by
    rw [hup, h.unanswered]
    refine forall_congr' fun c => not_congr ?_
    simp [(hr c).symm]
  legacy c hc := by
    rw [hhead]
    exact h.legacy c (by simpa [(hr c).symm] using hc)
  written hn hu ho := h.written (hhead ▸ hn) (hup.mp hu) (hopen ho)
  timedOut := by
    rw [htimed, h.timedOut]
    refine exists_congr fun now => ?_
    simp [(ht now).symm]
  failed hu status hn := by
    rw [htimed]
    exact h.failed (hup.mp hu) status (hhead ▸ hn)
  pending := hpending

/-- An error of the outbound request, after which it can answer no more: the forwarder writes a head of
its own unless there is one. -/
theorem HeadInv.refuse (h : HeadInv ctx es s) (hs : s = es.foldl (step ctx) start) {timedOut : Bool}
    (hw : s.headsWritten e = if s.head.isNone then [if timedOut then 504 else 502] else [])
    (hr : ∀ statusCode, e ≠ .response statusCode)
    (ht : timedOut = true ↔ s.timedOut = true ∨ ∃ now, e = .timeout now)
    (hkeep : s.upstream = .none → s.head ≠ none → timedOut = s.timedOut) (now : ℤ) (t : Exchange)
    (hseen : t.head = s.head ∧ t.upstream = s.upstream ∧ t.timedOut = timedOut ∧ t.outboundDestroyed = true) :
    HeadInv ctx (es ++ [e]) (t.onError ctx now) := by
  obtain ⟨hhead, hup, htimed, hdest⟩ := hseen
  rw [Exchange.onError, settle_eq, answer_eq]
  refine ⟨?_, ?_, fun c hc => ?_, fun _ _ ho => ?_, ?_, fun hu status hn => ?_, fun _ => ?_⟩
  · rw [headsOf_snoc, ← hs, hw, h.once]
    cases hh : s.head <;> simp [hh, hhead, htimed]
  · show t.upstream = .none ↔ _
    rw [hup, h.unanswered]
    refine forall_congr' fun c => not_congr ?_
    simp [(hr c).symm]
  · have hold := h.legacy c (by simpa [(hr c).symm] using hc)
    simp [hhead, hold]
  · have hopen : t.outboundDestroyed = false := ho.1
    rw [hdest] at hopen
    cases hopen
  · show t.timedOut = true ↔ _
    rw [htimed, ht, h.timedOut, ← exists_or]
    refine exists_congr fun now => ?_
    simp [eq_comm]
  · have hup' : s.upstream = .none := hup ▸ hu
    have htimed' : timedOut = t.timedOut := htimed.symm
    show status = if t.timedOut then 504 else 502
    cases hh : s.head with
    | none =>
      rw [hhead, hh] at hn
      simpa using hn.symm
    | some n =>
      have hold := h.failed hup' n hh
      rw [← hkeep hup' (by simp [hh]), htimed'] at hold
      rw [hhead, hh] at hn
      rw [← hold]
      simpa using hn.symm
  · exact hdest

/-- After `destroy()` an outbound request is open no more. -/
theorem not_open_destroyOutbound : ¬ s.destroyOutbound.OutboundOpen := by
  rw [destroyOutbound_eq]
  rintro ⟨hd, hc⟩
  simp_all

theorem destroyOutbound_pending (h : s.hangUpPending = true → s.outboundDestroyed = true) :
    s.destroyOutbound.hangUpPending = true → s.destroyOutbound.outboundDestroyed = true := by
  rw [destroyOutbound_eq]
  show (if s.outboundDestroyed || s.outboundClosed then s.hangUpPending else _) = true →
    (s.outboundDestroyed || !s.outboundClosed) = true
  cases hd : s.outboundDestroyed <;> cases hc : s.outboundClosed <;> simp_all

theorem destroyOutbound_head : s.destroyOutbound.head = s.head ∧ s.destroyOutbound.upstream = s.upstream ∧
    s.destroyOutbound.timedOut = s.timedOut := by
  rw [destroyOutbound_eq]
  exact ⟨rfl, rfl, rfl⟩

/-- Destroying the outbound request, after whatever does not concern it, writes no head. -/
theorem HeadInv.destroy (h : HeadInv ctx es s) (hs : s = es.foldl (step ctx) start) (hw : s.headsWritten e = [])
    (hr : ∀ statusCode, e ≠ .response statusCode) (ht : ∀ now, e ≠ .timeout now) (t : Exchange)
    (hseen : t.head = s.head ∧ t.upstream = s.upstream ∧ t.timedOut = s.timedOut)
    (hpending : t.hangUpPending = s.hangUpPending ∧ t.outboundDestroyed = s.outboundDestroyed) :
    HeadInv ctx (es ++ [e]) t.destroyOutbound := by
  obtain ⟨hhead, hup, htimed⟩ := t.destroyOutbound_head
  refine h.quiet hs hw hr ht (hhead.trans hseen.1) (by rw [hup, hseen.2.1]) (htimed.trans hseen.2.2)
    (fun ho => absurd ho not_open_destroyOutbound) (destroyOutbound_pending fun hp => ?_)
  rw [hpending.2]
  exact h.pending (hpending.1 ▸ hp)

/-- **The head in one step.** -/
theorem HeadInv.next (h : HeadInv ctx es s) (hs : s = es.foldl (step ctx) start) (he : s.Emits e)
    (ha : s.Accepted e) : HeadInv ctx (es ++ [e]) (s.step ctx e) := by
  -- while the outbound request is open and has not been answered, there is no head
  have hblank (ho : s.OutboundOpen) (hu : s.upstream = .none) : s.head = none := by
    by_contra hn
    exact h.written hn hu ho
  cases e with
  | requestEnd => exact h.quiet hs rfl (by simp) (by simp) rfl .rfl rfl id h.pending
  | clientLeft now =>
    rw [step]
    split
    · exact h.quiet hs rfl (by simp) (by simp) rfl .rfl rfl id h.pending
    · rw [onAborted, settle_eq]
      exact h.destroy (e := .clientLeft now) hs rfl (by simp) (by simp) _ ⟨rfl, rfl, rfl⟩ ⟨rfl, rfl⟩
  | outboundFinish => exact h.quiet hs rfl (by simp) (by simp) rfl .rfl rfl id h.pending
  | response statusCode =>
    obtain ⟨hup, ho⟩ := he
    have hnone := hblank ho hup
    have hfirst := h.unanswered.mp hup
    have hvalid : ValidStatus (statusCode.getD 502) := ha
    rw [step, onResponse_valid hvalid]
    refine ⟨?_, ?_, fun c hc => ?_, fun _ hu => (by cases hu), ?_, fun hu => (by cases hu), h.pending⟩
    · rw [headsOf_snoc, ← hs, h.once, hnone, headsWritten, if_pos hvalid]
      rfl
    · exact iff_of_false (by simp) fun hn => hn statusCode (by simp)
    · rcases List.mem_append.mp hc with hc | hc
      · exact absurd hc (hfirst c)
      · obtain ⟨rfl⟩ : c = statusCode := by simpa using hc
        rfl
    · show s.timedOut = true ↔ _
      rw [h.timedOut]
      simp
  | timeout now =>
    refine h.refuse (e := .timeout now) hs rfl (by simp) (by simp) (fun hu hn => ?_) now
      { s.note .hopBroke with timedOut := true, outboundDestroyed := true } ⟨rfl, rfl, rfl, rfl⟩
    exact absurd (hblank he hu) hn
  | error now =>
    exact h.refuse (e := .error now) hs rfl (by simp) (by simp) (fun _ _ => rfl) now
      { s.note .hopBroke with outboundDestroyed := true } ⟨rfl, rfl, rfl, rfl⟩
  | hangUp now =>
    exact h.refuse (e := .hangUp now) hs rfl (by simp) (by simp) (fun _ _ => rfl) now
      { s with hangUpPending := false } ⟨rfl, rfl, rfl, h.pending he⟩
  | upstreamComplete => exact h.quiet hs rfl (by simp) (by simp) rfl (by simp [step, he.1]) rfl id h.pending
  | upstreamEnd =>
    have hcomplete : s.upstream = .complete := he
    exact h.quiet hs rfl (by simp) (by simp) rfl (by simp [step, hcomplete]) rfl id h.pending
  | upstreamCut =>
    exact h.quiet hs rfl (by simp) (by simp) rfl (by simp [step, he.1]) rfl
      (fun ho => absurd ho.2 (by simp [step])) h.pending
  | outboundClose =>
    refine h.quiet hs rfl (by simp) (by simp) rfl ?_ rfl (fun ho => absurd ho.2 (by simp [step])) h.pending
    show (if s.upstream = .streaming then Upstream.cut else s.upstream) = .none ↔ _
    split
    · next hu => simp [hu]
    · exact .rfl
  | resFinish => exact h.quiet hs rfl (by simp) (by simp) rfl .rfl rfl id h.pending
  | resClose now =>
    rw [step]
    split
    · exact h.quiet hs rfl (by simp) (by simp) rfl .rfl rfl id h.pending
    · rw [onClose, settle_eq, settle_eq]
      split
      · exact h.quiet hs rfl (by simp) (by simp) rfl .rfl rfl id h.pending
      · exact h.destroy (e := .resClose now) hs rfl (by simp) (by simp) _ ⟨rfl, rfl, rfl⟩ ⟨rfl, rfl⟩

/-- The outbound request is gone: it was destroyed, it has closed, or it was sent in full and answered to
the end. -/
def OutboundOver (s : Exchange) : Prop :=
  s.outboundDestroyed = true ∨ s.outboundClosed = true ∨ (s.upstream = .ended ∧ s.outboundFinished = true)

/-- Nobody waits for the response: it was ended or destroyed, or its client's connection is gone, which
destroys it too. -/
def ResponseOver (s : Exchange) : Prop := s.ended = true ∨ s.destroyed = true ∨ s.clientGone = true

/-- The orderly steps after which no end has to wait. A client that leaves with its response, while its
request is still being sent on, is heard by nobody; and when the upstream connection is gone before a client
has read all of a message, the response is still to be ended. -/
def Prompt (s : Exchange) (e : ExchangeEvent) : Prop :=
  s.Orderly e ∧
    match e with
    | .clientLeft _ => s.finished = true → s.OutboundOver
    | .outboundClose => s.upstream = .complete → s.ResponseOver
    | _ => True

/-- **The invariant** of a prompt run. -/
structure Torn (s : Exchange) : Prop where
  /-- What ends the hop ends the response. -/
  answered : s.outboundDestroyed = true ∨ s.outboundClosed = true ∨ s.upstream = .ended ∨ s.upstream = .cut →
    s.ResponseOver
  /-- A response is ended with the upstream message, or after an error. -/
  ended : s.ended = true → s.outboundDestroyed = true ∨ s.upstream = .ended
  /-- It is destroyed after an error only. -/
  destroyed : s.destroyed = true → s.outboundDestroyed = true
  /-- Only what was ended is fully written. -/
  finished : s.finished = true → s.ended = true
  /-- A settled request has ended the hop, or the response was fully written. -/
  settled : s.settled = true → s.OutboundOver ∨ s.finished = true
  /-- Once there is a response, its `close` has a listener. -/
  listening : s.upstream ≠ .none → s.listener ≠ none
  /-- A client that is gone has ended the hop, or will be heard to be gone. -/
  gone : s.clientGone = true → s.OutboundOver ∨ s.listener ≠ none ∧ s.finished = false
  /-- A client that was heard to be gone has ended it. -/
  closed : s.clientGone = true → s.closed = true → s.OutboundOver
  /-- Why a response has closed. -/
  why : s.closed = true → s.finished = true ∨ s.destroyed = true ∨ s.clientGone = true
  /-- Only a destroyed outbound request reports that it was destroyed. -/
  pending : s.hangUpPending = true → s.outboundDestroyed = true

/-- When both ends are over, there is nothing left to tear down. -/
theorem Torn.of_over (ho : s.OutboundOver) (hr : s.ResponseOver)
    (hended : s.ended = true → s.outboundDestroyed = true ∨ s.upstream = .ended)
    (hdestroyed : s.destroyed = true → s.outboundDestroyed = true) (hf : s.finished = true → s.ended = true)
    (hl : s.upstream ≠ .none → s.listener ≠ none)
    (hw : s.closed = true → s.finished = true ∨ s.destroyed = true ∨ s.clientGone = true)
    (hp : s.hangUpPending = true → s.outboundDestroyed = true) : s.Torn :=
  ⟨fun _ => hr, hended, hdestroyed, hf, fun _ => .inl ho, hl, fun _ => .inl ho, fun _ _ => ho, hw, hp⟩

/-- An outbound request that is open and has no answer is not over. -/
theorem not_over_of_open (ho : s.OutboundOpen) (hup : s.upstream = .none) : ¬ s.OutboundOver := by
  rintro (hd | hc | ⟨hu, -⟩)
  · exact absurd (ho.1.symm.trans hd) Bool.false_ne_true
  · exact absurd (ho.2.symm.trans hc) Bool.false_ne_true
  · exact absurd (hup.symm.trans hu) (by simp)

/-- `destroy()` ends the hop. -/
theorem destroyOutbound_over : s.destroyOutbound.OutboundOver := by
  rw [destroyOutbound_eq]
  show (s.outboundDestroyed || !s.outboundClosed) = true ∨ s.outboundClosed = true ∨ _
  cases s.outboundDestroyed <;> cases s.outboundClosed <;> simp

/-- A client that is gone, or a response that was destroyed, is heard: the outbound request is destroyed. -/
theorem Torn.destroy (h : s.Torn) (t : Exchange) (hr : t.ResponseOver)
    (hseen : t.finished = s.finished ∧ t.ended = s.ended ∧ t.upstream = s.upstream ∧ t.listener = s.listener ∧
      t.destroyed = s.destroyed)
    (hpending : t.hangUpPending = s.hangUpPending ∧ t.outboundDestroyed = s.outboundDestroyed)
    (hw : t.closed = true → t.finished = true ∨ t.destroyed = true ∨ t.clientGone = true) :
    t.destroyOutbound.Torn := by
  obtain ⟨hfin, hend, hup, hli, hdest⟩ := hseen
  have hp := destroyOutbound_pending fun hp => (hpending.2.trans (h.pending (hpending.1 ▸ hp)))
  have hkeep (hd : s.outboundDestroyed = true) : t.destroyOutbound.outboundDestroyed = true := by
    rw [destroyOutbound_eq]
    show (t.outboundDestroyed || !t.outboundClosed) = true
    rw [hpending.2, hd, Bool.true_or]
  refine .of_over destroyOutbound_over ?_ (fun he => ?_) (fun hd => ?_) ?_ ?_ ?_ hp
  · rw [destroyOutbound_eq]
    exact hr
  · rw [destroyOutbound_eq] at he
    refine (h.ended (hend.symm.trans he)).imp hkeep fun hu => ?_
    rw [t.destroyOutbound_head.2.1, hup, hu]
  · rw [destroyOutbound_eq] at hd
    exact hkeep (h.destroyed (hdest ▸ hd))
  · rw [destroyOutbound_eq]
    exact fun hf => hend.trans (h.finished (hfin ▸ hf))
  · rw [destroyOutbound_eq]
    show t.upstream ≠ .none → t.listener ≠ none
    rw [hup, hli]
    exact h.listening
  · rw [destroyOutbound_eq]
    exact hw

/-- An error of the outbound request ends the response. -/
theorem Torn.refuse (h : s.Torn) (now : ℤ) (t : Exchange)
    (hseen : t.finished = s.finished ∧ t.ended = s.ended ∧ t.upstream = s.upstream ∧ t.listener = s.listener)
    (hwhy : t.closed = true → t.finished = true ∨ t.destroyed = true ∨ t.clientGone = true)
    (hdest : t.outboundDestroyed = true) : (t.onError ctx now).Torn := by
  obtain ⟨hfin, hend, hup, hli⟩ := hseen
  rw [Exchange.onError, settle_eq, answer_eq]
  refine .of_over (.inl hdest) ?_ (fun _ => .inl hdest) (fun _ => hdest) ?_ ?_ (fun hc => ?_) fun _ => hdest
  · show (t.ended || t.head.isNone) = true ∨ (t.destroyed || t.head.isSome) = true ∨ t.clientGone = true
    cases t.head <;> simp
  · show t.finished = true → (t.ended || t.head.isNone) = true
    rw [hfin, hend]
    intro hf
    rw [h.finished hf, Bool.true_or]
  · show t.upstream ≠ .none → t.listener ≠ none
    rw [hup, hli]
    exact h.listening
  · show t.finished = true ∨ (t.destroyed || t.head.isSome) = true ∨ t.clientGone = true
    rcases hwhy hc with hw | hw | hw
    · exact .inl hw
    · exact .inr (.inl (by rw [hw, Bool.true_or]))
    · exact .inr (.inr hw)

/-- A step that only adds to what is known of the outbound request. -/
theorem OutboundOver.mono (h : s.OutboundOver) (hd : s.outboundDestroyed = true → s'.outboundDestroyed = true)
    (hc : s.outboundClosed = true → s'.outboundClosed = true) (hu : s.upstream = .ended → s'.upstream = .ended)
    (hf : s.outboundFinished = true → s'.outboundFinished = true) : s'.OutboundOver :=
  h.imp hd (.imp hc fun hboth => ⟨hu hboth.1, hf hboth.2⟩)

/-- The client disconnects: either it is heard at once, or the listener for `close` will hear it, or there is
nothing to tear down. -/
theorem Torn.clientLeft (h : s.Torn) (now : ℤ) (he : s.Emits (.clientLeft now)) (ho : s.Prompt (.clientLeft now)) :
    (s.step ctx (.clientLeft now)).Torn := by
  have hthere : s.clientGone = false := he
  rw [step]
  split
  · next hquiet =>
    have hheard : s.OutboundOver ∨ s.listener ≠ none ∧ s.finished = false := by
      cases hfin : s.finished with
      | true => exact .inl (ho.2 hfin)
      | false =>
        have hcomplete : s.requestComplete = true := by simpa [hfin] using hquiet
        by_cases hset : s.settled = true
        · exact .inl ((h.settled hset).resolve_right (by simp [hfin]))
        · exact .inr ⟨h.listening fun hu => ho.1 ⟨hcomplete, hu, by simpa using hset⟩, rfl⟩
    refine ⟨fun _ => .inr (.inr rfl), h.ended, h.destroyed, h.finished, h.settled, h.listening, fun _ => hheard,
      fun _ hc => ?_, fun _ => .inr (.inr rfl), h.pending⟩
    -- a response that has closed before was fully written, or destroyed
    rcases h.why hc with hw | hw | hw
    · exact ho.2 hw
    · exact .inl (h.destroyed hw)
    · exact absurd (hthere.symm.trans hw) Bool.false_ne_true
  · rw [onAborted, settle_eq]
    exact h.destroy _ (.inr (.inr rfl)) ⟨rfl, rfl, rfl, rfl, rfl⟩ ⟨rfl, rfl⟩ fun _ => .inr (.inr rfl)

/-- The response closes. -/
theorem Torn.resClose (h : s.Torn) (now : ℤ) (he : s.Emits (.resClose now)) : (s.step ctx (.resClose now)).Torn := by
  rw [step]
  split
  · next hnone =>
    refine ⟨h.answered, h.ended, h.destroyed, h.finished, h.settled, h.listening, h.gone, fun hg _ => ?_,
      fun _ => he.2, h.pending⟩
    exact (h.gone hg).resolve_right fun hne => hne.1 hnone
  · rw [onClose, settle_eq, settle_eq]
    split
    · next hfin =>
      have hfinished : s.finished = true := hfin
      refine ⟨h.answered, h.ended, h.destroyed, h.finished, fun _ => .inr hfinished, h.listening, h.gone,
        fun hg _ => ?_, fun _ => he.2, h.pending⟩
      exact (h.gone hg).resolve_right fun hne => absurd (hne.2.symm.trans hfinished) Bool.false_ne_true
    · next hfin =>
      exact h.destroy _ (.inr (he.2.resolve_left hfin)) ⟨rfl, rfl, rfl, rfl, rfl⟩ ⟨rfl, rfl⟩ fun _ => he.2

/-- **The invariant survives every prompt step.** -/
theorem Torn.next (h : s.Torn) (he : s.Emits e) (ho : s.Prompt e) : (s.step ctx e).Torn := by
  have hsame : s.finished = s.finished ∧ s.ended = s.ended ∧ s.upstream = s.upstream ∧ s.listener = s.listener :=
    ⟨rfl, rfl, rfl, rfl⟩
  cases e with
  | requestEnd =>
    exact ⟨h.answered, h.ended, h.destroyed, h.finished, h.settled, h.listening, h.gone, h.closed, h.why, h.pending⟩
  | clientLeft now => exact h.clientLeft now he ho
  | outboundFinish =>
    have hover (hold : s.OutboundOver) : (s.step ctx .outboundFinish).OutboundOver :=
      hold.mono id id id fun _ => rfl
    exact ⟨h.answered, h.ended, h.destroyed, h.finished, fun hs => (h.settled hs).imp_left hover, h.listening,
      fun hg => (h.gone hg).imp_left hover, fun hg hc => hover (h.closed hg hc), h.why, h.pending⟩
  | response statusCode =>
    obtain ⟨hup, hopen⟩ := he
    have hnot := not_over_of_open hopen hup
    have hunended : ¬ s.ended = true := fun hend => hnot <| (h.ended hend).elim .inl fun hu =>
      absurd (hup.symm.trans hu) (by simp)
    have hunfinished : s.finished = false := by
      by_contra hf
      exact hunended (h.finished (by simpa using hf))
    rw [step, onResponse_valid ho.1]
    refine ⟨?_, fun hend => absurd hend hunended, h.destroyed, h.finished, fun hs => .inr ?_, fun _ => Option.some_ne_none _,
      fun _ => .inr ⟨Option.some_ne_none _, hunfinished⟩, fun hg hc => absurd (h.closed hg hc) hnot, h.why, h.pending⟩
    · rintro (hd | hc | hu | hu)
      · exact absurd (hopen.1.symm.trans hd) Bool.false_ne_true
      · exact absurd (hopen.2.symm.trans hc) Bool.false_ne_true
      · cases hu
      · cases hu
    · exact (h.settled hs).resolve_left hnot
  | timeout now =>
    exact h.refuse now { s.note .hopBroke with timedOut := true, outboundDestroyed := true } hsame h.why rfl
  | error now => exact h.refuse now { s.note .hopBroke with outboundDestroyed := true } hsame h.why rfl
  | hangUp now => exact h.refuse now { s with hangUpPending := false } hsame h.why (h.pending he)
  | upstreamComplete =>
    have hover (hold : s.OutboundOver) : (s.step ctx .upstreamComplete).OutboundOver :=
      hold.mono id id (fun hu => absurd (he.1.symm.trans hu) (by simp)) id
    refine ⟨?_, fun hend => (h.ended hend).imp_right fun hu => absurd (he.1.symm.trans hu) (by simp), h.destroyed,
      h.finished, fun hs => (h.settled hs).imp_left hover, fun _ => h.listening (by simp [he.1]),
      fun hg => (h.gone hg).imp_left hover, fun hg hc => hover (h.closed hg hc), h.why, h.pending⟩
    rintro (hd | hc | hu | hu)
    · exact h.answered (.inl hd)
    · exact h.answered (.inr (.inl hc))
    · cases hu
    · cases hu
  | upstreamEnd =>
    have hcomplete : s.upstream = .complete := he
    have hover (hold : s.OutboundOver) : (s.step ctx .upstreamEnd).OutboundOver :=
      hold.mono id id (fun _ => rfl) id
    exact ⟨fun _ => .inl rfl, fun _ => .inr rfl, h.destroyed, fun _ => rfl, fun hs => (h.settled hs).imp_left hover,
      fun _ => h.listening (by simp [hcomplete]), fun hg => (h.gone hg).imp_left hover,
      fun hg hc => hover (h.closed hg hc), h.why, h.pending⟩
  | upstreamCut =>
    have hgone : s.clientGone = true := ho.1
    exact .of_over (.inr (.inl rfl)) (.inr (.inr hgone))
      (fun hend => (h.ended hend).imp_right fun hu => absurd (he.1.symm.trans hu) (by simp)) h.destroyed h.finished
      (fun _ => h.listening (by simp [he.1])) h.why h.pending
  | outboundClose =>
    obtain ⟨-, -, hwhy⟩ := he
    have hresponse : s.ResponseOver := by
      rcases hwhy with hd | hu | hu
      · exact h.answered (.inl hd)
      · exact ho.2 hu
      · exact h.answered (.inr (.inr (.inl hu)))
    refine .of_over (.inr (.inl rfl)) hresponse (fun hend => (h.ended hend).imp_right fun hu => ?_) h.destroyed
      h.finished (fun hu => h.listening fun hn => hu ?_) h.why h.pending
    · simp [step, hu]
    · simp [step, hn]
  | resFinish =>
    exact ⟨h.answered, h.ended, h.destroyed, fun _ => he.1, fun _ => .inr rfl, h.listening,
      fun hg => absurd (he.2.2.2.1.symm.trans hg) Bool.false_ne_true, h.closed, fun _ => .inl rfl, h.pending⟩
  | resClose now => exact h.resClose now he

end Exchange

end NestDdd.Legacy
