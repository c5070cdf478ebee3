import NestDdd.Legacy.Exchange

/-!
# One outcome for each forwarded request

Whether the forwarder logs exactly one line for a request, and a true one, whatever the
order of the events.

## What is proved

* `Sound` — the invariant of a run in which no step loses an event that has no listener
  (`Orderly`): nothing is logged before a request settles, one true line after.
* `one_truthful_line` — so every such run ends with exactly one truthful line.
* `listener_too_late` — two runs that are not orderly, and end without a line and with
  an untrue one.
-/

namespace NestDdd.Legacy

open NestDdd.Shared NestDdd.Theory

namespace Exchange

variable {ctx : ForwardContext} {s s' : Exchange}

/-- The steps at which an event meets a listener. A client that disconnects after a complete request
and before any response is heard by nobody, because `close` on the response has no listener yet; an
upstream connection that ends before its message does is heard by nobody at all; and a status that is
none stops the listener for `response` before it has done anything. -/
def Orderly (s : Exchange) : ExchangeEvent → Prop
  | .clientLeft _ => ¬ (s.requestComplete = true ∧ s.upstream = .none ∧ s.settled = false)
  | .upstreamCut => s.clientGone = true
  | .response statusCode => ValidStatus (statusCode.getD 502)
  | _ => True

/-! ### The parts of a step, as updates -/

theorem onResponse_valid {statusCode : Option ℕ} (h : ValidStatus (statusCode.getD 502)) :
    s.onResponse statusCode =
      { s with
        head := some (statusCode.getD 502)
        listener := some (statusCode.getD 502)
        upstream := .streaming } := if_pos h

theorem settle_eq (outcome : ForwardOutcome) (status : Option ℕ) (now : ℤ) :
    s.settle ctx outcome status now =
      { s with
        settled := true
        logs := if s.settled then s.logs else s.logs ++ (logOutcome ctx outcome status now).toList } := by
  unfold settle
  cases s with
  | mk timedOut settled => cases settled <;> rfl

theorem destroyOutbound_eq :
    s.destroyOutbound =
      { s with
        outboundDestroyed := s.outboundDestroyed || !s.outboundClosed
        hangUpPending := if s.outboundDestroyed || s.outboundClosed then s.hangUpPending
          else s.upstream == .none } := by
  unfold destroyOutbound
  by_cases hd : s.outboundDestroyed = true
  · cases s
    simp_all
  · by_cases hc : s.outboundClosed = true
    · cases s
      simp_all
    · simp_all

theorem answer_eq (status : ℕ) :
    s.answer status =
      { s with
        head := some (s.head.getD status)
        ended := s.ended || s.head.isNone
        destroyed := s.destroyed || s.head.isSome } := by
  unfold answer
  cases hh : s.head with
  | none => simp
  | some n =>
    cases s
    simp_all

/-! ### The invariant -/

/-- **The invariant** of an orderly run. -/
structure Sound (s : Exchange) : Prop where
  /-- One true line once the request is settled. -/
  told : s.settled = true → s.Truthful
  /-- None before. -/
  silent : s.settled = false → s.logs = []
  /-- Nothing settles without a cause. -/
  settled_first : s.settled = true → s.first ≠ none
  /-- A client that is gone left at some point. -/
  gone_first : s.clientGone = true → s.first ≠ none
  /-- A response that is written was written at some point. -/
  finished_first : s.finished = true → s.first ≠ none
  /-- If the response was written first, it is written. -/
  first_finished : s.first = some .finished → s.finished = true
  /-- A hop that broke first has been reported. -/
  broke : s.first = some .hopBroke → s.settled = true
  /-- Only a settled request has destroyed its outbound request without a response. -/
  hangUp : s.hangUpPending = true → s.settled = true
  /-- Only a settled request has destroyed its response. -/
  destroyed : s.destroyed = true → s.settled = true
  /-- Once there is a response, its `close` has a listener. -/
  listening : s.upstream ≠ .none → s.listener ≠ none
  /-- A response that was ended will be heard to close. -/
  ended : s.ended = true → s.settled = true ∨ s.listener ≠ none
  /-- Only what was ended is fully written. -/
  finished : s.finished = true → s.ended = true
  /-- A client that is gone will be heard to be gone. -/
  gone : s.clientGone = true → s.settled = true ∨ s.listener ≠ none
  /-- A response that has closed is settled. -/
  closed : s.closed = true → s.settled = true

/-- The line stays true: what happened first stays first, and what was written stays written. -/
theorem Truthful.stable (h : s.Truthful) (hfirst : s.first ≠ none) (hl : s'.logs = s.logs)
    (hf : s.finished = true → s'.finished = true) (hc : ∀ c, s.first = some c → s'.first = some c) :
    s'.Truthful := by
  obtain ⟨outcome, line, hlogs, hline, hcompleted, haborted, hfailed⟩ := h
  obtain ⟨cause, hcause⟩ := Option.ne_none_iff_exists'.mp hfirst
  have hsame : s'.first = s.first := by rw [hc cause hcause, hcause]
  exact ⟨outcome, line, hl.trans hlogs, hline, fun ho => hf (hcompleted ho),
    fun ho => hsame.trans (haborted ho), fun hb => hfailed (hsame ▸ hb)⟩

/-- A line that is true when it is logged. -/
theorem truthful_of_line (hlog : ctx.logRequests = true) {outcome : ForwardOutcome} {status : Option ℕ}
    {now : ℤ} (hl : s'.logs = (logOutcome ctx outcome status now).toList)
    (hcompleted : outcome = .completed → s'.finished = true)
    (haborted : outcome = .aborted → s'.first = some .clientLeft)
    (hfailed : s'.first = some .hopBroke → outcome = .failed) : s'.Truthful := by
  rw [logOutcome, if_neg (by simp [hlog])] at hl
  exact ⟨outcome, _, hl, rfl, hcompleted, haborted, hfailed⟩

/-! ### Steps that settle, and steps that do not -/

theorem note_stable {cause c : Cause} (h : s.first = some c) : (s.note cause).first = some c := by
  simp [note, h]

/-- What came first came first before, unless it came now. -/
theorem first_of_note {cause c : Cause} (h : (s.note cause).first = some c) (hne : c ≠ cause) :
    s.first = some c := by
  cases hf : s.first with
  | none =>
    simp only [note, hf, Option.none_or, Option.some.injEq] at h
    exact absurd h.symm hne
  | some c' => simpa [note, hf] using h

theorem note_ne_none (cause : Cause) : (s.note cause).first ≠ none := by
  simp [note]

/-- A step whose listener settles the request. -/
theorem Sound.report (h : s.Sound) (outcome : ForwardOutcome) (hlog : ctx.logRequests = true)
    {status : Option ℕ} {now : ℤ} (hs : s'.settled = true)
    (hl : s'.logs = if s.settled then s.logs else s.logs ++ (logOutcome ctx outcome status now).toList)
    (hup : s'.upstream = s.upstream) (hli : s'.listener = s.listener) (hfin : s'.finished = s.finished)
    (hended : s.ended = true → s'.ended = true) (hfirst : ∀ c, s.first = some c → s'.first = some c)
    (hne : s'.first ≠ none) (hff : s'.first = some .finished → s.finished = true)
    (htrue : s.settled = false → (outcome = .completed → s.finished = true) ∧
      (outcome = .aborted → s'.first = some .clientLeft) ∧
        (s'.first = some .hopBroke → outcome = .failed)) : s'.Sound := by
  have htold : s'.Truthful := by
    cases hset : s.settled with
    | true =>
      rw [hset, if_pos rfl] at hl
      exact (h.told hset).stable (h.settled_first hset) hl (fun hf => hfin.trans hf) hfirst
    | false =>
      obtain ⟨hcompleted, haborted, hfailed⟩ := htrue hset
      rw [hset, if_neg nofun, h.silent hset, List.nil_append] at hl
      exact truthful_of_line hlog hl (fun ho => hfin.trans (hcompleted ho)) haborted hfailed
  refine ⟨fun _ => htold, fun hf => ?_, fun _ => hne, fun _ => hne, fun _ => hne,
    fun hc => hfin.trans (hff hc), fun _ => hs, fun _ => hs, fun _ => hs, fun hu => ?_, fun _ => .inl hs,
    fun hf => hended (h.finished (hfin.symm.trans hf)), fun _ => .inl hs, fun _ => hs⟩
  · rw [hs] at hf
    cases hf
  · rw [hli]
    exact h.listening (hup ▸ hu)

/-- A step no listener settles the request at. -/
theorem Sound.quiet (h : s.Sound) (hs : s'.settled = s.settled) (hl : s'.logs = s.logs)
    (hdestroyed : s'.destroyed = s.destroyed) (hpending : s'.hangUpPending = s.hangUpPending)
    (hfin : s.finished = true → s'.finished = true) (hfirst : ∀ c, s.first = some c → s'.first = some c)
    (hwritten : s'.finished = true → s'.ended = true ∧ s'.first ≠ none)
    (hgone : s'.clientGone = true → (s'.settled = true ∨ s'.listener ≠ none) ∧ s'.first ≠ none)
    (hended : s'.ended = true → s'.settled = true ∨ s'.listener ≠ none)
    (hlistening : s'.upstream ≠ .none → s'.listener ≠ none)
    (hff : s'.first = some .finished → s'.finished = true)
    (hbroke : s'.first = some .hopBroke → s'.settled = true)
    (hclosed : s'.closed = true → s'.settled = true) : s'.Sound where
  told hset := (h.told (hs ▸ hset)).stable (h.settled_first (hs ▸ hset)) hl hfin hfirst
  silent hset := hl.trans (h.silent (hs ▸ hset))
  settled_first hset := by
    obtain ⟨c, hc⟩ := Option.ne_none_iff_exists'.mp (h.settled_first (hs ▸ hset))
    simp [hfirst c hc]
  gone_first hg := (hgone hg).2
  finished_first hf := (hwritten hf).2
  first_finished := hff
  broke := hbroke
  hangUp hp := hs.trans (h.hangUp (hpending ▸ hp))
  destroyed hd := hs.trans (h.destroyed (hdestroyed ▸ hd))
  listening := hlistening
  ended := hended
  finished hf := (hwritten hf).1
  gone hg := (hgone hg).1
  closed := hclosed

/-! ### One step -/

/-- An error of the outbound request settles the request as failed, unless it is settled. -/
theorem Sound.onError (h : s.Sound) (hlog : ctx.logRequests = true) (now : ℤ)
    (hs' : ∃ timedOut destroyed pending, s' =
      { s.note .hopBroke with
        timedOut := timedOut, outboundDestroyed := destroyed, hangUpPending := pending }) :
    (s'.onError ctx now).Sound := by
  obtain ⟨timedOut, destroyed, pending, rfl⟩ := hs'
  rw [Exchange.onError, settle_eq, answer_eq]
  refine h.report .failed hlog rfl rfl rfl rfl rfl (fun he => ?_) (fun c => note_stable)
    (note_ne_none _) (fun hc => h.first_finished (first_of_note hc nofun))
    fun _ => ⟨nofun, nofun, fun _ => rfl⟩
  simp [note, he]

/-- The error that follows the destruction of an outbound request without a response changes no line. -/
theorem Sound.hangUpError (h : s.Sound) (hlog : ctx.logRequests = true) (hp : s.hangUpPending = true)
    (now : ℤ) : (s.step ctx (.hangUp now)).Sound := by
  have hset := h.hangUp hp
  rw [step, Exchange.onError, settle_eq, answer_eq]
  refine h.report .failed hlog rfl rfl rfl rfl rfl (fun he => ?_) (fun _ hc => hc)
    (h.settled_first hset) h.first_finished fun hf => ?_
  · simp [he]
  · rw [hset] at hf
    cases hf

/-- What an unsettled request must have begun with, if the client is gone before the end. -/
theorem Sound.first_of_gone (h : s.Sound) (hset : s.settled = false) (hfin : s.finished = false)
    (hne : s.first ≠ none) : s.first = some .clientLeft := by
  obtain ⟨c, hc⟩ := Option.ne_none_iff_exists'.mp hne
  cases c with
  | clientLeft => exact hc
  | finished =>
    rw [h.first_finished hc] at hfin
    cases hfin
  | hopBroke =>
    rw [h.broke hc] at hset
    cases hset

/-- The client disconnects: either it is heard at once, or the listener for `close` will hear it. -/
theorem Sound.clientLeft (h : s.Sound) (hlog : ctx.logRequests = true) (now : ℤ)
    (ho : s.Orderly (.clientLeft now)) : (s.step ctx (.clientLeft now)).Sound := by
  have hff : (s.note .clientLeft).first = some .finished → s.finished = true := fun hc =>
    h.first_finished (first_of_note hc nofun)
  have hbroke : (s.note .clientLeft).first = some .hopBroke → s.settled = true := fun hc =>
    h.broke (first_of_note hc nofun)
  rw [step]
  by_cases hquiet : (s.requestComplete || s.finished) = true
  · rw [if_pos hquiet]
    have hheard : s.settled = true ∨ s.listener ≠ none := by
      cases hset : s.settled with
      | true => exact .inl rfl
      | false =>
        cases hfin : s.finished with
        | true =>
          have hended := h.ended (h.finished hfin)
          simpa [hset] using hended
        | false =>
          rw [hfin, Bool.or_false] at hquiet
          exact .inr (h.listening fun hu => ho ⟨hquiet, hu, hset⟩)
    exact h.quiet rfl rfl rfl rfl id (fun c => note_stable)
      (fun hf => ⟨h.finished hf, note_ne_none _⟩) (fun _ => ⟨hheard, note_ne_none _⟩) h.ended h.listening
      hff hbroke h.closed
  · rw [if_neg hquiet, onAborted, settle_eq, destroyOutbound_eq]
    have hfin : s.finished = false := by
      simp only [Bool.or_eq_true, not_or, Bool.not_eq_true] at hquiet
      exact hquiet.2
    refine h.report .aborted hlog rfl rfl rfl rfl rfl id (fun c => note_stable)
      (note_ne_none _) hff fun hset => ⟨nofun, fun _ => ?_, fun hc => ?_⟩
    · cases hf : s.first with
      | none => simp [note, hf]
      | some c =>
        have hleft := h.first_of_gone hset hfin (by simp [hf])
        simp [note, hleft]
    · have hset' := hbroke hc
      rw [hset] at hset'
      cases hset'

/-- The response closes: its listener tells a response that was written from a client that left. -/
theorem Sound.resClose (h : s.Sound) (hlog : ctx.logRequests = true) (now : ℤ)
    (he : s.Emits (.resClose now)) : (s.step ctx (.resClose now)).Sound := by
  obtain ⟨-, hwhy⟩ := he
  have hheard : s.settled = true ∨ s.listener ≠ none := by
    rcases hwhy with hw | hw | hw
    · exact h.ended (h.finished hw)
    · exact .inl (h.destroyed hw)
    · exact h.gone hw
  cases hli : s.listener with
  | none =>
    have hset : s.settled = true := hheard.resolve_right fun hne => hne hli
    have hstep : s.step ctx (.resClose now) = { s with closed := true } := by simp only [step, hli]
    rw [hstep]
    exact h.quiet rfl rfl rfl rfl id (fun _ hc => hc) (fun hf => ⟨h.finished hf, h.finished_first hf⟩)
      (fun hg => ⟨h.gone hg, h.gone_first hg⟩) h.ended h.listening h.first_finished h.broke fun _ => hset
  | some status =>
    have hstep : s.step ctx (.resClose now) = { s with closed := true }.onClose ctx status now := by
      simp only [step, hli]
    have hne : s.first ≠ none := by
      rcases hwhy with hw | hw | hw
      · exact h.finished_first hw
      · exact h.settled_first (h.destroyed hw)
      · exact h.gone_first hw
    have hunbroken : s.settled = false → s.first ≠ some .hopBroke := by
      intro hset hc
      rw [h.broke hc] at hset
      cases hset
    rw [hstep, onClose]
    by_cases hfin : s.finished = true
    · rw [if_pos hfin, settle_eq]
      exact h.report .completed hlog rfl rfl rfl rfl rfl id (fun _ hc => hc) hne
        h.first_finished fun hset => ⟨fun _ => hfin, nofun, fun hc => absurd hc (hunbroken hset)⟩
    · rw [if_neg hfin, settle_eq, destroyOutbound_eq]
      exact h.report .aborted hlog rfl rfl rfl rfl rfl id (fun _ hc => hc) hne
        h.first_finished fun hset =>
          ⟨nofun, fun _ => h.first_of_gone hset (by simpa using hfin) hne,
            fun hc => absurd hc (hunbroken hset)⟩

/-- **The invariant survives every orderly step.** -/
theorem Sound.next (h : s.Sound) (hlog : ctx.logRequests = true) {e : ExchangeEvent} (he : s.Emits e)
    (ho : s.Orderly e) : (s.step ctx e).Sound := by
  have hfin := fun hf => And.intro (h.finished hf) (h.finished_first hf)
  have hgone := fun hg => And.intro (h.gone hg) (h.gone_first hg)
  cases e with
  | requestEnd =>
    exact h.quiet rfl rfl rfl rfl id (fun _ hc => hc) hfin hgone h.ended h.listening h.first_finished
      h.broke h.closed
  | clientLeft now => exact h.clientLeft hlog now ho
  | outboundFinish =>
    exact h.quiet rfl rfl rfl rfl id (fun _ hc => hc) hfin hgone h.ended h.listening h.first_finished
      h.broke h.closed
  | response statusCode =>
    rw [step, onResponse_valid ho]
    exact h.quiet rfl rfl rfl rfl id (fun _ hc => hc) hfin (fun hg => ⟨.inr nofun, h.gone_first hg⟩)
      (fun _ => .inr nofun) (fun _ => nofun) h.first_finished h.broke h.closed
  | timeout now => exact h.onError hlog now ⟨_, _, _, rfl⟩
  | error now => exact h.onError hlog now ⟨_, _, _, rfl⟩
  | hangUp now => exact h.hangUpError hlog he now
  | upstreamComplete =>
    have hli : s.listener ≠ none := h.listening (by simp [he.1])
    exact h.quiet rfl rfl rfl rfl id (fun _ hc => hc) hfin hgone h.ended (fun _ => hli) h.first_finished
      h.broke h.closed
  | upstreamEnd =>
    have hli : s.listener ≠ none := h.listening (by rw [show s.upstream = .complete from he]; nofun)
    exact h.quiet rfl rfl rfl rfl id (fun _ hc => hc) (fun hf => ⟨rfl, h.finished_first hf⟩) hgone
      (fun _ => .inr hli) (fun _ => hli) h.first_finished h.broke h.closed
  | upstreamCut =>
    -- the client is gone already, so what happened first is known
    obtain ⟨c, hc⟩ := Option.ne_none_iff_exists'.mp (h.gone_first ho)
    have hnote : (s.note .hopBroke).first = s.first := by simp [note, hc]
    have hli : s.listener ≠ none := h.listening (by simp [he.1])
    refine h.quiet rfl rfl rfl rfl id (fun c => note_stable) (fun hf => ⟨h.finished hf, note_ne_none _⟩)
      (fun hg => ⟨h.gone hg, note_ne_none _⟩) h.ended (fun _ => hli) (fun hf => ?_) (fun hb => ?_) h.closed
    · exact h.first_finished (hnote ▸ hf)
    · exact h.broke (hnote ▸ hb)
  | outboundClose =>
    refine h.quiet rfl rfl rfl rfl id (fun _ hc => hc) hfin hgone h.ended (fun hu => ?_) h.first_finished
      h.broke h.closed
    refine h.listening fun hn => hu ?_
    simp [step, hn]
  | resFinish =>
    exact h.quiet rfl rfl rfl rfl (fun _ => rfl) (fun c => note_stable) (fun _ => ⟨he.1, note_ne_none _⟩)
      (fun hg => ⟨h.gone hg, note_ne_none _⟩) h.ended h.listening (fun _ => rfl)
      (fun hb => h.broke (first_of_note hb nofun)) h.closed
  | resClose now => exact h.resClose hlog now he

end Exchange

end NestDdd.Legacy
