import NestDdd.Theory.Lending
import NestDdd.Database.OracleClient

/-!
# Context users across the pool

A connection of the pool keeps its `CLIENT_IDENTIFIER` when it changes hands. The
client sets the identifier of the call's user when it borrows a connection and
clears it before it gives the connection back; here every call of the client is a
client of a lending pool, in which connections keep what was left in them.

## The model

`Session` is what matters of a connection: the identifier the server has, and the
one assigned since and not yet carried to it. Any round trip carries the pending
identifier before the statement it is about runs; a round trip that fails may have
done both, only the first, or nothing (`SessionUse`). A connection closed with
`drop: true`, or whose `close` failed, is lost to the pool (`driverHold`).

## What is proved

* `call_meets` — a call gives a connection back only with an empty identifier, and
  its statements run under its own user, provided it is lent a clean connection.
* `statement_identity` — any number of calls of `withConnection` and `transaction`,
  interleaved in any way, with any pattern of failures: whatever reaches the
  database for a call runs under that call's resolved user, and every idle
  connection has an empty identifier with none pending.
-/

namespace NestDdd.Database

open NestDdd.Theory NestDdd.Shared

/-! ### Sessions -/

/-- The identifier of a connection. -/
structure Session where
  /-- The identifier assigned and not yet carried to the server. -/
  pending : Option JsString
  /-- The identifier the server has. -/
  server : JsString

namespace Session

/-- A new connection: no identifier, and none pending. -/
def fresh : Session := ⟨none, []⟩

/-- The identifier the next statement to reach the server runs under. -/
def effective (s : Session) : JsString := s.pending.getD s.server

/-- A round trip carries the pending identifier. -/
def carry (s : Session) : Session := ⟨none, s.effective⟩

@[simp] theorem carry_fresh : fresh.carry = fresh := rfl

end Session

/-- A statement that reached the database, and the identifier it ran under. -/
structure Seen where
  /-- The `CLIENT_IDENTIFIER` in force. -/
  identity : JsString
  /-- The statement. -/
  statement : DriverOp

namespace DriverOp

/-- A statement, commit or rollback. -/
def isStatement : DriverOp → Bool
  | .execute .. | .commit | .rollback => true
  | _ => false

/-- A round trip to the database. -/
def isRoundTrip : DriverOp → Bool
  | .ping => true
  | o => o.isStatement

end DriverOp

/-- An interaction that failed. -/
def failed : Event Driver → Bool
  | ⟨.getConnection, .error _⟩ | ⟨.setCallTimeout .., .error _⟩ | ⟨.setClientId .., .error _⟩
  | ⟨.execute .., .error _⟩ | ⟨.commit, .error _⟩ | ⟨.rollback, .error _⟩ | ⟨.ping, .error _⟩
  | ⟨.close _, .error _⟩ | ⟨.outside _, .error _⟩ => true
  | _ => false

/-- What an interaction does to the connection's identifier, and what the database sees. -/
inductive SessionUse : Session → Event Driver → Option Seen → Session → Prop where
  /-- A round trip carries the pending identifier; a statement then runs. -/
  | carried {s : Session} {e : Event Driver} : e.op.isRoundTrip = true →
      SessionUse s e (if e.op.isStatement then some ⟨s.effective, e.op⟩ else none) s.carry
  /-- A round trip that fails may have carried the identifier only. -/
  | unseen {s : Session} {e : Event Driver} : e.op.isRoundTrip = true → failed e = true →
      SessionUse s e none s.carry
  /-- A round trip that fails may have carried nothing. -/
  | lost {s : Session} {e : Event Driver} : e.op.isRoundTrip = true → failed e = true →
      SessionUse s e none s
  /-- An assigned identifier is pending. -/
  | assigned {s : Session} {site : Site} {id : JsString} {x : Driver.Ans (.setClientId site id)} :
      SessionUse s ⟨.setClientId site id, x⟩ none ⟨some id, s.server⟩
  /-- An assignment that throws may have left things as they were. -/
  | notAssigned {s : Session} {site : Site} {id : JsString} {e : JsValue} :
      SessionUse s ⟨.setClientId site id, .error e⟩ none s
  /-- The timeout is not part of the session. -/
  | timeout {s : Session} {site : Site} {ms : Number} {x : Driver.Ans (.setCallTimeout site ms)} :
      SessionUse s ⟨.setCallTimeout site ms, x⟩ none s

/-- What an interaction does to the call's hold on a connection. -/
def driverHold : Event Driver → Hold
  | ⟨.getConnection, .ok _⟩ => .borrow
  | ⟨.getConnection, .error _⟩ | ⟨.now, _⟩ | ⟨.log _, _⟩ | ⟨.outside _, _⟩ => .plain
  | ⟨.close drop, .ok _⟩ => if drop then .discard else .giveBack
  | ⟨.close _, .error _⟩ => .discard
  | _ => .use

/-- The pool of a source. -/
def pool : Lending Driver Session Seen where
  hold := driverHold
  use := SessionUse
  fresh := .fresh

/-- The identifier a call is to run under: its resolved user, or the empty one. -/
def identityOf (source : OracleSource) (options : ConnectionOptions) : JsString :=
  match resolveContextUser source options with
  | .ok user => user.getD []
  | .error _ => []

/-! ### What a call keeps while it holds a connection -/

variable {G : Seen → Prop} {α : Type}

/-- A client of the pool, when every idle connection is as new. -/
abbrev Follows (G : Seen → Prop) {α : Type} (P : α → Option Session → Prop) (p : Prog Driver α)
    (h : Option Session) : Prop :=
  Meets pool (· = Session.fresh) G P p h

/-! #### One rule for each interaction -/

section Rules

variable {s : Session} {h : Option Session}

/-- The rule of a use of the held connection. -/
theorem follows_use {o : DriverOp} {P : Driver.Ans o → Option Session → Prop}
    (ho : ∀ x, driverHold ⟨o, x⟩ = .use)
    (hp : ∀ x b s', SessionUse s ⟨o, x⟩ b s' → (∀ c, b = some c → G c) ∧ P x (some s')) :
    Follows G P (@Prog.ask Driver o) (some s) := by
  refine meets_ask fun x b h' hl => ?_
  have hh : pool.hold ⟨o, x⟩ = .use := ho x
  cases hl with
  | plain hk => rw [hh] at hk; cases hk
  | giveBack hk => rw [hh] at hk; cases hk
  | discard hk => rw [hh] at hk; cases hk
  | use _ hu =>
    obtain ⟨hg, hp'⟩ := hp x b _ hu
    exact ⟨hg, fun hk => absurd (hh.symm.trans hk) (by simp), hp'⟩

/-- The rule of an interaction that is not about the connection. -/
theorem follows_plain {o : DriverOp} {P : Driver.Ans o → Option Session → Prop}
    (ho : ∀ x, driverHold ⟨o, x⟩ = .plain) (hp : ∀ x, P x h) :
    Follows G P (@Prog.ask Driver o) h := by
  refine meets_ask fun x b h' hl => ?_
  have hh : pool.hold ⟨o, x⟩ = .plain := ho x
  cases hl with
  | plain _ => exact ⟨by simp, fun hk => absurd (hh.symm.trans hk) (by simp), hp x⟩
  | borrow hk _ => rw [hh] at hk; cases hk
  | use hk _ => rw [hh] at hk; cases hk
  | giveBack hk => rw [hh] at hk; cases hk
  | discard hk => rw [hh] at hk; cases hk

theorem follows_getConnection {P : Except JsValue Unit → Option Session → Prop}
    (hok : P (.ok ()) (some .fresh)) (herr : ∀ e, P (.error e) none) :
    Follows G P ClientM.getConnection none := by
  refine meets_ask fun x b h' hl => ?_
  cases x with
  | ok _ =>
    cases hl with
    | plain hk => cases hk
    | borrow _ hc =>
      rw [hc]
      exact ⟨by simp, by simp, hok⟩
  | error e =>
    cases hl with
    | plain _ => exact ⟨by simp, by simp, herr e⟩
    | borrow hk _ => cases hk

theorem follows_setCallTimeout {site : Site} {ms : Number}
    {P : Except JsValue Unit → Option Session → Prop} (hp : ∀ r, P r (some s)) :
    Follows G P (ClientM.setCallTimeout site ms) (some s) := by
  refine follows_use (fun _ => rfl) fun x b s' hu => ?_
  cases hu with
  | carried ho => cases ho
  | unseen ho _ => cases ho
  | lost ho _ => cases ho
  | timeout => exact ⟨by simp, hp x⟩

theorem follows_setClientId {site : Site} {id : JsString}
    {P : Except JsValue Unit → Option Session → Prop} (hok : ∀ r, P r (some ⟨some id, s.server⟩))
    (herr : ∀ e, P (.error e) (some s)) :
    Follows G P (ClientM.setClientId site id) (some s) := by
  refine follows_use (fun _ => rfl) fun x b s' hu => ?_
  cases hu with
  | carried ho => cases ho
  | unseen ho _ => cases ho
  | lost ho _ => cases ho
  | assigned => exact ⟨by simp, hok x⟩
  | notAssigned => exact ⟨by simp, herr _⟩

theorem follows_ping {P : Except JsValue Unit → Option Session → Prop}
    (hok : P (.ok ()) (some s.carry)) (herr : ∀ e s', P (.error e) (some s')) :
    Follows G P ClientM.ping (some s) := by
  refine follows_use (fun _ => rfl) fun x b s' hu => ?_
  cases x with
  | ok _ =>
    cases hu with
    | carried _ => exact ⟨by simp [DriverOp.isStatement], hok⟩
    | unseen _ hf => cases hf
    | lost _ hf => cases hf
  | error e =>
    cases hu with
    | carried _ => exact ⟨by simp [DriverOp.isStatement], herr e _⟩
    | unseen _ _ => exact ⟨by simp, herr e _⟩
    | lost _ _ => exact ⟨by simp, herr e _⟩

theorem follows_log {line : LogLine} {P : Except JsValue Unit → Option Session → Prop}
    (hp : P (.ok ()) h) : Follows G P (ClientM.log line) h :=
  meets_bind (follows_plain (fun _ => rfl) fun _ => hp)

/-- A connection may be given back only as new; one that is dropped may be in any state. -/
theorem follows_close {drop : Bool} {P : Except JsValue Unit → Option Session → Prop}
    (hs : drop = false → s = .fresh) (hp : ∀ r, P r none) :
    Follows G P (ClientM.close drop) (some s) := by
  refine meets_ask fun x b h' hl => ?_
  have hh : pool.hold ⟨.close drop, x⟩ = .giveBack ∨ pool.hold ⟨.close drop, x⟩ = .discard := by
    cases x <;> cases drop <;> simp [pool, driverHold]
  cases hl with
  | plain hk => rw [hk] at hh; simp at hh
  | use hk _ => rw [hk] at hh; simp at hh
  | giveBack hk =>
    refine ⟨by simp, fun _ q hq => ?_, hp x⟩
    obtain rfl := Option.some.inj hq
    cases drop with
    | false => exact hs rfl
    | true => cases x <;> cases hk
  | discard hk => exact ⟨by simp, fun hk' => absurd (hk.symm.trans hk') (by simp), hp x⟩

end Rules

/-! #### The callback -/

/-- A connection is held on which statements run under `user`; without a user (`set` is
false) it is as new. -/
def Holding (user : JsString) (set : Bool) (h : Option Session) : Prop :=
  ∃ s, h = some s ∧ s.effective = user ∧ (set = false → s = Session.fresh)

/-- `p` leaves the user of the held connection alone, and its statements run under it. -/
abbrev KeepsUser (user : JsString) (set : Bool) (p : Prog Driver α) : Prop :=
  Keeps pool (· = Session.fresh) (fun s => s.identity = user) (Holding user set) p

variable {user : JsString} {set : Bool}

/-- A round trip leaves the user alone, whatever becomes of it. -/
theorem SessionUse.roundTrip {s s' : Session} {o : DriverOp} {x : Driver.Ans o} {b : Option Seen}
    (ho : o.isRoundTrip = true) (hu : SessionUse s ⟨o, x⟩ b s') :
    (s' = s ∨ s' = s.carry) ∧ ∀ c, b = some c → c.identity = s.effective := by
  cases hu with
  | carried _ =>
    refine ⟨.inr rfl, fun c hc => ?_⟩
    split at hc
    · obtain rfl := Option.some.inj hc
      rfl
    · cases hc
  | unseen _ _ => exact ⟨.inr rfl, by simp⟩
  | lost _ _ => exact ⟨.inl rfl, by simp⟩
  | assigned => cases ho
  | notAssigned => cases ho
  | timeout => cases ho

theorem keepsUser_roundTrip {o : DriverOp} (ho : o.isRoundTrip = true) :
    KeepsUser user set (@Prog.ask Driver o) := by
  intro h hr
  obtain ⟨s, rfl, hs, hf⟩ := hr
  have hh : ∀ x, driverHold ⟨o, x⟩ = .use := by
    intro x
    cases o <;> first | rfl | cases ho
  refine follows_use hh fun x b s' hu => ?_
  obtain ⟨hs', hb⟩ := hu.roundTrip ho
  refine ⟨fun c hc => (hb c hc).trans hs, s', rfl, ?_⟩
  rcases hs' with rfl | rfl
  · exact ⟨hs, hf⟩
  · exact ⟨hs, fun hset => by rw [hf hset, Session.carry_fresh]⟩

theorem keepsUser_plain {o : DriverOp} (ho : ∀ x : Driver.Ans o, driverHold ⟨o, x⟩ = .plain) :
    KeepsUser user set (@Prog.ask Driver o) := fun _ hr => follows_plain ho fun _ => hr

theorem keepsUser_lift {p : Prog Driver α} (hp : KeepsUser user set p) :
    KeepsUser user set (Async.lift p : ClientM α) :=
  hp.bind fun _ => keeps_done _

theorem keepsUser_now : KeepsUser user set ClientM.now := keepsUser_lift (keepsUser_plain fun _ => rfl)

theorem keepsUser_log (line : LogLine) : KeepsUser user set (ClientM.log line) :=
  keepsUser_lift (keepsUser_plain fun _ => rfl)

theorem keepsUser_logExecuted (source : OracleSource) (tag : Option JsString) (sql : JsString)
    (latencyMs : ℤ) : KeepsUser user set (logExecuted source tag sql latencyMs) := by
  unfold logExecuted
  split
  · exact keepsUser_log _
  · split
    · exact keepsUser_log _
    · exact keeps_done _

theorem keepsUser_executeWithDefaults (source : OracleSource) (tag : Option JsString) (sql : JsString)
    (binds : JsValue) (options : Props) :
    KeepsUser user set (executeWithDefaults source tag sql binds options) := by
  refine keepsUser_now.await fun started => ?_
  refine Keeps.tryFinally (keepsUser_roundTrip rfl) (keepsUser_now.await fun ended => ?_)
  exact keepsUser_logExecuted source tag sql (ended - started)

/-- Every use a callback makes of its connection leaves the user alone. -/
theorem keepsUser_proxied (source : OracleSource) (tag : Option JsString) (o : Conn.Op) :
    KeepsUser user set (proxied source tag o) := by
  cases o with
  | execute sql binds options => exact keepsUser_executeWithDefaults source tag sql binds options
  | commit => exact keepsUser_roundTrip rfl
  | rollback => exact keepsUser_roundTrip rfl
  | ping => exact keepsUser_roundTrip rfl
  | log line => exact keepsUser_plain fun _ => rfl
  | outside request => exact keepsUser_plain fun _ => rfl

theorem keepsUser_callFn (source : OracleSource) (tag : Option JsString) (fn : Callback α) :
    KeepsUser user set (callFn source tag fn) :=
  keeps_interp (keepsUser_proxied source tag) fn

/-! #### Acquiring and releasing -/

theorem getD_eq_nil {contextUser : Option JsString} (h : isNonEmpty contextUser = false) :
    contextUser.getD [] = [] := by
  cases contextUser with
  | none => rfl
  | some user =>
    cases user with
    | nil => rfl
    | cons _ _ => cases h

/-- A call that got its connection holds it with the user set, if there is one. -/
theorem acquire_follows (source : OracleSource) (options : ConnectionOptions) :
    Follows G
      (fun r h => ∀ contextUser, r = .ok contextUser →
        resolveContextUser source options = .ok contextUser ∧
          Holding (contextUser.getD []) (isNonEmpty contextUser) h)
      (acquire source options) none := by
  refine meets_await (meets_done ?_)
  cases hu : resolveContextUser source options with
  | error e => exact fun _ h => nomatch h
  | ok contextUser =>
    refine meets_await (meets_tryCatch (follows_getConnection ?_ fun e => fun _ h => nomatch h))
    -- the connection is new to this call; only `clientId` changes its session
    have hset : Follows G (fun _ h => h = some Session.fresh)
        (Async.onlyIf (callTimeout source options).isPositive
          (ClientM.setCallTimeout .setup (callTimeout source options))) (some .fresh) :=
      meets_onlyIf (fun _ => follows_setCallTimeout fun _ => rfl) fun _ => rfl
    refine meets_await (hset.mono fun r h hh => ?_)
    subst hh
    cases r with
    | error e => exact fun _ h => nomatch h
    | ok _ =>
      refine meets_await (meets_onlyIf (fun hne => ?_) fun hne => ?_)
      · refine follows_setClientId (fun r => ?_) fun e => fun _ h => nomatch h
        cases r with
        | error e => exact fun _ h => nomatch h
        | ok _ =>
          intro c hc
          cases hc
          exact ⟨rfl, _, rfl, rfl, fun hf => by rw [hne] at hf; cases hf⟩
      · intro c hc
        cases hc
        exact ⟨rfl, _, rfl, (getD_eq_nil hne).symm, fun _ => rfl⟩

/-- After the clearing block, a connection that is not to be dropped is as new. -/
theorem clearContext_follows (source : OracleSource) (s : Session) :
    Follows G (fun r h => ∃ drop s', r = .ok drop ∧ h = some s' ∧ (drop = false → s' = .fresh))
      (clearContext source) (some s) := by
  -- whatever fails, the handler decides for dropping
  have hdrop : ∀ e s', Follows G
      (fun r h => ∃ drop s', r = .ok drop ∧ h = some s' ∧ (drop = false → s' = .fresh))
      (do
        ClientM.log ⟨.warn, "db.context.clear.failed",
          [("sourceKey", .string source.key), ("action", .string "drop-connection"), ("error", e)]⟩
        return true : ClientM Bool) (some s') := fun e s' =>
    meets_await (follows_log ⟨true, s', rfl, rfl, nofun⟩)
  refine meets_tryCatch (meets_await (follows_setClientId (fun r => ?_) fun e => hdrop e _))
  cases r with
  | error e => exact hdrop e _
  | ok _ =>
    refine meets_await (follows_setCallTimeout fun r => ?_)
    cases r with
    | error e => exact hdrop e _
    | ok _ =>
      refine meets_await (follows_ping ?_ fun e s' => hdrop e s')
      exact ⟨false, _, rfl, rfl, fun _ => rfl⟩

theorem closeConnection_follows (source : OracleSource) {drop : Bool} {s : Session}
    (hs : drop = false → s = .fresh) :
    Follows G (fun r _ => r = .ok ⟨⟩) (closeConnection source drop) (some s) := by
  refine meets_tryCatch (meets_await (follows_setCallTimeout fun r => ?_))
  cases r with
  | error e => exact follows_log rfl
  | ok _ =>
    refine follows_close hs fun r => ?_
    cases r with
    | ok _ => rfl
    | error e => exact follows_log rfl

/-- `release` never throws, and gives the connection back as new or not at all. -/
theorem release_follows (source : OracleSource) {h : Option Session} (hh : Holding user set h) :
    Follows G (fun r _ => r = .ok ⟨⟩) (release source set) h := by
  obtain ⟨s, rfl, -, hf⟩ := hh
  refine meets_await ?_
  cases set with
  | false => exact closeConnection_follows source fun _ => hf rfl
  | true =>
    refine (clearContext_follows source s).mono fun r h hr => ?_
    obtain ⟨drop, s', rfl, rfl, hs'⟩ := hr
    exact closeConnection_follows source hs'

/-! #### A whole call -/

/-- **One call**: lent a connection as new, it runs its statements under its own user and
gives back a connection as new, or none. -/
theorem call_meets (source : OracleSource) (fn : Callback α) (options : ConnectionOptions) :
    Follows (fun s => s.identity = identityOf source options) (fun _ _ => True)
      (withConnection source fn options) none := by
  refine meets_await ((acquire_follows source options).mono fun r h hr => ?_)
  cases r with
  | error e => trivial
  | ok contextUser =>
    obtain ⟨hu, hh⟩ := hr contextUser rfl
    have hid : contextUser.getD [] = identityOf source options := by rw [identityOf, hu]
    rw [hid] at hh
    have hfn := keepsUser_callFn source options.tag fn h hh
    refine meets_tryFinally (meets_tryCatch (hfn.mono fun r h' hh' => ?_))
    have hrelease : Follows (fun s => s.identity = identityOf source options) (fun r _ => r = .ok ⟨⟩)
        (release source (isNonEmpty contextUser)) h' := release_follows source hh'
    cases r with
    | ok _ => exact hrelease.mono fun r _ hr => ⟨hr, trivial⟩
    | error e => exact hrelease.mono fun r _ hr => ⟨hr, trivial⟩

/-! ### Many calls -/

/-- A call of the client. -/
structure Call (α : Type) where
  /-- Whether it is a call of `transaction`, not of `withConnection`. -/
  transactional : Bool
  /-- The caller's function. -/
  fn : Callback α
  /-- The options. -/
  options : ConnectionOptions

/-- The call's body. -/
def Call.run (source : OracleSource) (call : Call α) : ClientM α :=
  if call.transactional then transaction source call.fn call.options
  else withConnection source call.fn call.options

/-- The calls about to begin, with `idle` new connections in the pool. -/
def start {ι : Type} (source : OracleSource) (calls : ι → Call α) (idle : ℕ) :
    Config Driver Session (Except JsValue α) ι :=
  ⟨List.replicate idle .fresh, fun i => (calls i).run source, fun _ => none⟩

variable {ι : Type} [DecidableEq ι]

/-- **Identity confinement**: in every interleaving of any calls that share a pool, and
whatever fails, every statement, commit or rollback that reaches the database for a call
runs under that call's resolved user; and every idle connection is as new. -/
theorem statement_identity (source : OracleSource) (calls : ι → Call α) (idle : ℕ)
    {trace : List (ι × Option Seen)} {c : Config Driver Session (Except JsValue α) ι}
    (hr : Run pool (start source calls idle) trace c) :
    (∀ i seen, (i, some seen) ∈ trace → seen.identity = identityOf source (calls i).options) ∧
      ∀ s ∈ c.idle, s = Session.fresh := by
  have h₀ : Disciplined pool (· = Session.fresh)
      (fun i seen => seen.identity = identityOf source (calls i).options)
      (start source calls idle) := by
    refine ⟨fun s hs => List.eq_of_mem_replicate hs, fun i => ?_⟩
    show Follows _ _ ((calls i).run source) none
    unfold Call.run
    split
    · exact call_meets source (transactionBody source (calls i).fn (calls i).options) _
    · exact call_meets source (calls i).fn (calls i).options
  obtain ⟨hd, hg⟩ := hr.observed (by rfl) h₀
  exact ⟨hg, hd.idle⟩

/-- Two calls that commit: one for alice, one for nobody. -/
def twoCommits (alice : Bool) : Call Unit :=
  ⟨false, Callback.commit, ⟨if alice then some "alice" else none, none, none, none⟩⟩

/-- What is observed when the second call is lent the connection alice's call gave back. -/
def twoCommitsTrace : List (Bool × Option Seen) :=
  [(true, none), (true, none), (true, some ⟨"alice", .commit⟩), (true, none), (true, none),
    (true, none), (true, none), (true, none), (false, none), (false, some ⟨[], .commit⟩)]

theorem twoCommitsRun : ∃ c, Run pool (start (.default "core") twoCommits 0) twoCommitsTrace c := by
  have h₀ : Run pool (start (.default "core") twoCommits 0) [] _ := .nil
  have h₁ := h₀.snoc (show Step pool _ true _ _ from
    .grow rfl (show pool.hold ⟨.getConnection, .ok ()⟩ = _ from rfl) rfl)
  have h₂ := h₁.snoc (show Step pool _ true _ _ from
    .use rfl (show pool.hold ⟨.setClientId .setup _, .ok ()⟩ = _ from rfl) rfl .assigned)
  have h₃ := h₂.snoc (show Step pool _ true _ _ from
    .use rfl (show pool.hold ⟨.commit, .ok ()⟩ = _ from rfl) rfl (.carried rfl))
  have h₄ := h₃.snoc (show Step pool _ true _ _ from
    .use rfl (show pool.hold ⟨.setClientId .clear _, .ok ()⟩ = _ from rfl) rfl .assigned)
  have h₅ := h₄.snoc (show Step pool _ true _ _ from
    .use rfl (show pool.hold ⟨.setCallTimeout .clear _, .ok ()⟩ = _ from rfl) rfl .timeout)
  have h₆ := h₅.snoc (show Step pool _ true _ _ from
    .use rfl (show pool.hold ⟨.ping, .ok ()⟩ = _ from rfl) rfl (.carried rfl))
  have h₇ := h₆.snoc (show Step pool _ true _ _ from
    .use rfl (show pool.hold ⟨.setCallTimeout .reset _, .ok ()⟩ = _ from rfl) rfl .timeout)
  have h₈ := h₇.snoc (show Step pool _ true _ _ from
    .giveBack rfl (show pool.hold ⟨.close false, .ok ()⟩ = _ from rfl) rfl)
  have h₉ := h₈.snoc (show Step pool _ false _ _ from
    .lend rfl (show pool.hold ⟨.getConnection, .ok ()⟩ = _ from rfl) rfl
      (show _ = [] ++ Session.fresh :: [] from rfl))
  have h₁₀ := h₉.snoc (show Step pool _ false _ _ from
    .use rfl (show pool.hold ⟨.commit, .ok ()⟩ = _ from rfl) rfl (.carried rfl))
  exact ⟨_, h₁₀⟩

theorem statement_identity_twoCommits : ∃ c, Run pool (start (.default "core") twoCommits 0) twoCommitsTrace c ∧
    (∀ i seen, (i, some seen) ∈ twoCommitsTrace →
      seen.identity = identityOf (.default "core") (twoCommits i).options) ∧ ∀ s ∈ c.idle, s = Session.fresh := by
  obtain ⟨c, hr⟩ := twoCommitsRun
  exact ⟨c, hr, statement_identity (.default "core") twoCommits 0 hr⟩

end NestDdd.Database
