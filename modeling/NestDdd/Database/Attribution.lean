import NestDdd.Database.Setup
import NestDdd.Database.Truncation

/-!
# A required user

A source may demand that every call names a user. The name is trimmed and, as the database
limits it in bytes, cut after the last character that fits; a name of which not even the first
character fits is cut to nothing. The demand is checked before the cut, and the identifier is
only set if something is left of it.

## What is proved

* `truncateBytes_eq_nil_iff` — when the cut leaves nothing.
* `attributed_iff` — so every call of such a source runs under a user, or is refused, exactly when
  the first character of its user fits.
* `unattributed_run` — a call for `é`, cut to one byte, that runs under nobody.
-/

namespace NestDdd.Database

open NestDdd.Theory NestDdd.Shared

variable {α : Type} {source : OracleSource} {t : Trace Driver}

/-! ### The cut -/

/-- The first character of a string, if it has one, takes at most `maxBytes` bytes. -/
def FirstCharFits (maxBytes : ℕ) (s : JsString) : Prop := ∀ c ∈ s.chars.head?, JsString.charBytes c ≤ maxBytes

instance (maxBytes : ℕ) (s : JsString) : Decidable (FirstCharFits maxBytes s) := by
  unfold FirstCharFits
  infer_instance

/-- **The cut leaves nothing** of a string of which not even the first character fits, and only then. -/
theorem truncateBytes_eq_nil_iff {s : JsString} (hs : s ≠ []) {maxBytes : ℕ} :
    truncateBytes s maxBytes = [] ↔ ¬ FirstCharFits maxBytes s := by
  obtain ⟨c, rest, hc⟩ := List.exists_cons_of_ne_nil (JsString.chars_eq_nil_iff.not.mpr hs)
  have hfits : FirstCharFits maxBytes s ↔ JsString.charBytes c ≤ maxBytes := by
    simp [FirstCharFits, hc]
  rw [hfits, ← JsString.chars_eq_nil_iff, chars_truncateBytes, hc, fitting]
  split <;> simp [*]

/-! ### The identifier in force -/

/-- An assignment of the identifier that does not throw puts it in force. -/
def clientIdStep (id : JsString) : Event Driver → JsString
  | ⟨.setClientId _ assigned, .ok _⟩ => assigned
  | _ => id

/-- The identifier in force after a trace, on a connection that had none. -/
def clientIdAfter (t : Trace Driver) : JsString := t.foldl clientIdStep []

/-- A function does not assign identifiers. -/
theorem clientIdStep_of_isUse (e : Event Driver) (id : JsString) (h : DriverOp.isUse e.op = true) :
    clientIdStep id e = id := by
  obtain ⟨o, x⟩ := e
  cases o <;> first | rfl | cases h

theorem clientIdAfter_append_of_uses {setup uses : Trace Driver} (h : UsesOnlyTrace uses) :
    clientIdAfter (setup ++ uses) = clientIdAfter setup := by
  rw [clientIdAfter, List.foldl_append, h.foldl_eq clientIdStep_of_isUse, clientIdAfter]

/-- The setup puts the resolved user in force. -/
theorem clientIdAfter_setup {options : ConnectionOptions} {user : Option JsString} {setup : Trace Driver}
    (h : Exec (acquire source options) setup (.ok user)) : clientIdAfter setup = user.getD [] := by
  obtain ⟨-, rfl⟩ := acquire_ok_iff.mp h
  have htimeout : (timeoutSetup source options).foldl clientIdStep [] = [] := by
    unfold timeoutSetup
    split <;> rfl
  rw [clientIdAfter, List.foldl_cons, List.foldl_append]
  show (userSetup user).foldl clientIdStep ((timeoutSetup source options).foldl clientIdStep []) = _
  rw [htimeout, userSetup]
  cases hne : isNonEmpty user with
  | false => exact (getD_eq_nil hne).symm
  | true => rfl

/-! ### The demand -/

/-- The user a call names, trimmed. -/
def namedUser (options : ConnectionOptions) : Option JsString :=
  (options.contextUser.or options.username).map JsString.trim

/-- What a source that requires a user is promised: the call is refused before anything is borrowed,
or the driver fails before the function runs, or the function runs, from its beginning to its end, under
an identifier that is not empty and fits. -/
inductive Attributed (source : OracleSource) (call : Call α) (t : Trace Driver) (r : Except JsValue α) : Prop where
  /-- Refused, before anything is borrowed. -/
  | refused {message : JsString} : t = [] → r = .error (unauthorizedError message) → Attributed source call t r
  /-- The driver failed. -/
  | failed {e : JsValue} : Exec (acquire source call.options) t (.error e) → t.any failed = true →
      Attributed source call t r
  /-- The function ran. -/
  | ran {setup during after : Trace Driver} {user : Option JsString} {settled : Except JsValue α} :
      call.Pieces source t setup during after user settled →
        (∀ pre, pre <+: during → clientIdAfter (setup ++ pre) ≠ [] ∧
          JsString.byteLength (clientIdAfter (setup ++ pre)) ≤ source.contextUser.maxLength) →
            Attributed source call t r

/-- The user of a call to a source that requires one. -/
theorem resolveContextUser_required {options : ConnectionOptions} (henabled : source.contextUser.enabled = true)
    (hrequired : source.contextUser.required = true) :
    resolveContextUser source options =
      if isNonEmpty (namedUser options) then
        .ok ((namedUser options).map (truncateBytes · source.contextUser.maxLength))
      else .error (unauthorizedError
        (JsString.concat ["Database source \"", source.key, "\" requires a context user"])) := by
  simp only [resolveContextUser, henabled, hrequired, Bool.not_true, Bool.false_eq_true, if_false, if_true]
  rw [← namedUser]
  cases isNonEmpty (namedUser options) <;> rfl

theorem isNonEmpty_iff {s : Option JsString} : isNonEmpty s = true ↔ ∃ user, s = some user ∧ user ≠ [] := by
  cases s with
  | none => simp [isNonEmpty]
  | some user => cases user <;> simp [isNonEmpty]

/-- A call whose user is cut to nothing has a run under nobody. -/
theorem FirstCharFits.of_attributed {call : Call α} (henabled : source.contextUser.enabled = true)
    (hrequired : source.contextUser.required = true)
    (h : ∀ t r, Exec (call.run source) t r → Attributed source call t r) {user : JsString}
    (huser : namedUser call.options = some user) : FirstCharFits source.contextUser.maxLength user := by
  by_contra hfits
  have hne : user ≠ [] := by
    rintro rfl
    exact hfits nofun
  -- nothing is left of the user, so it is resolved to the empty string and the call goes on
  have hnil : truncateBytes user source.contextUser.maxLength = [] := (truncateBytes_eq_nil_iff hne).mpr hfits
  have hresolve := @resolveContextUser_required source call.options henabled hrequired
  rw [if_pos (isNonEmpty_iff.mpr ⟨user, huser, hne⟩), huser, Option.map_some, hnil] at hresolve
  have hacquire := acquire_ok_iff.mpr ⟨hresolve, rfl⟩
  obtain ⟨t, r, during, after, settled, hrun, hp⟩ := @Call.exists_run _ source call _ _ hacquire
  cases h t r hrun with
  | refused ht =>
    rw [hp.trace_eq] at ht
    cases ht
  | failed hfail =>
    cases (hacquire.split_unique hfail (hp.trace_eq.symm.trans (List.append_nil t).symm)).2.1
  | ran hp' hid =>
    obtain ⟨rfl, -, -⟩ := hacquire.split_unique hp'.acquired (hp.trace_eq.symm.trans hp'.trace_eq)
    have hid₀ := (hid [] List.nil_prefix).1
    rw [List.append_nil, clientIdAfter_setup hacquire] at hid₀
    exact hid₀ rfl

/-- A call whose user is not cut to nothing runs under it. -/
theorem Attributed.of_firstCharFits {call : Call α} (henabled : source.contextUser.enabled = true)
    (hrequired : source.contextUser.required = true)
    (h : ∀ user, namedUser call.options = some user → FirstCharFits source.contextUser.maxLength user)
    {r : Except JsValue α} (hrun : Exec (call.run source) t r) : Attributed source call t r := by
  have hresolve := @resolveContextUser_required source call.options henabled hrequired
  rcases Call.run_cases hrun with ⟨e, ha, rfl⟩ | ⟨setup, during, after, user, settled, hp⟩
  · rcases acquire_error ha with ⟨ht, he⟩ | hfailed
    · rw [hresolve] at he
      split at he
      · cases he
      · cases he
        exact .refused ht rfl
    · exact .failed ha hfailed
  · obtain ⟨hu, -⟩ := acquire_ok_iff.mp hp.acquired
    rw [hresolve] at hu
    split at hu
    · next hne =>
      obtain ⟨named, hnamed, hne⟩ := isNonEmpty_iff.mp hne
      rw [hnamed] at hu
      cases hu
      refine .ran hp fun pre hpre => ?_
      rw [clientIdAfter_append_of_uses (hp.uses hpre), clientIdAfter_setup hp.acquired]
      refine ⟨fun hnil => ?_, truncateBytes_le _ _⟩
      exact (truncateBytes_eq_nil_iff hne).mp hnil (h named hnamed)
    · cases hu

/-- **When a required user is never absent**: a call runs under a user, or is refused, in every one of its
runs if and only if the first character of the user it names, if it names one, fits. -/
theorem attributed_iff (call : Call α) (henabled : source.contextUser.enabled = true)
    (hrequired : source.contextUser.required = true) :
    (∀ t r, Exec (call.run source) t r → Attributed source call t r) ↔
      ∀ user, namedUser call.options = some user → FirstCharFits source.contextUser.maxLength user :=
  ⟨fun h _ huser => .of_attributed henabled hrequired h huser,
    fun h _ _ hrun => .of_firstCharFits henabled hrequired h hrun⟩

/-- A source that requires a user and allows it `maxLength` bytes. -/
def strictSource (maxLength : ℕ) (h₁ : 1 ≤ maxLength) (h₆₄ : maxLength ≤ 64) : OracleSource :=
  { OracleSource.default "core" with contextUser := ⟨true, true, maxLength, h₁, h₆₄⟩ }

/-- A call that commits, for a user. -/
def commitFor (user : JsString) : Call Unit := ⟨false, Callback.commit, ⟨some user, none, none, none⟩⟩

/-- The trace of such a call in which nothing fails. -/
def committedTrace (user : JsString) : Trace Driver :=
  [⟨.getConnection, .ok ()⟩, ⟨.setClientId .setup user, .ok ()⟩, ⟨.commit, .ok ()⟩,
    ⟨.setClientId .clear [], .ok ()⟩, ⟨.setCallTimeout .clear (.ofNat 5000), .ok ()⟩, ⟨.ping, .ok ()⟩,
    ⟨.setCallTimeout .reset (.ofNat 0), .ok ()⟩, ⟨.close false, .ok ()⟩]

/-- With two bytes, a call for `é` runs under it. -/
theorem attributed_two_bytes :
    Attributed (strictSource 2 (by decide) (by decide)) (commitFor "é") (committedTrace "é") (.ok ()) := by
  have hrun : Exec ((commitFor "é").run (strictSource 2 (by decide) (by decide))) (committedTrace "é") (.ok ()) :=
    .call (.call (.call (.call (.call (.call (.call (.call .done)))))))
  refine (attributed_iff (commitFor "é") rfl rfl).mpr (fun user hu => ?_) _ _ hrun
  cases hu
  decide

/-- **With one byte it runs under nobody**: the commit is made with no identifier. -/
theorem unattributed_run :
    let source := strictSource 1 (by decide) (by decide)
    let t : Trace Driver := [⟨.getConnection, .ok ()⟩, ⟨.commit, .ok ()⟩,
      ⟨.setCallTimeout .reset (.ofNat 0), .ok ()⟩, ⟨.close false, .ok ()⟩]
    Exec ((commitFor "é").run source) t (.ok ()) ∧ clientIdAfter t = [] ∧
      ¬ ∀ t r, Exec ((commitFor "é").run source) t r → Attributed source (commitFor "é") t r := by
  intro source t
  refine ⟨.call (.call (.call (.call .done))), rfl, fun h => ?_⟩
  have hfits := FirstCharFits.of_attributed rfl rfl h rfl
  exact absurd hfits (by decide)

end NestDdd.Database
