import NestDdd.Theory.Program
import Mathlib.Logic.Function.Basic

/-!
# Lending a pooled resource

Clients run programs, each holding at most one resource of a pool at a time. A
resource has a state of its own, which a use may change and which the pool does
not look at: what one client leaves in it, the next one finds. This module says
what a client has to keep so that nobody finds anything, and that it is enough.

* `Lending` — which answered calls borrow, use, give back and discard the
  resource, what a use may do to its state, and what of it can be observed.
* `Meets` — the discipline of one client: whatever the world answers, what is
  observed of it satisfies `G`, and it gives a resource back only in a `clean`
  state; it may rely on borrowing a clean one. It is read off the program, one
  rule for each construct (`meets_bind`, `meets_tryCatch`, …); `Keeps` is the case
  of an invariant (`Keeps.bind`, `keeps_interp`, …).
* `Step`, `Run` — any number of clients taking their calls in any order, sharing
  the pool. A resource is in the pool or with one client.

## What is proved

* `Run.observed` — **locality**: if a new resource is clean and every client
  meets its discipline, then in every run, under every interleaving, all that is
  observed of a client satisfies that client's `G`, and every idle resource is
  clean.
-/

namespace NestDdd.Theory

universe u

/-- What an answered call does to the caller's hold on a resource. -/
inductive Hold where
  /-- The call is not about the resource. -/
  | plain
  /-- The caller now holds a resource: an idle one, or a new one. -/
  | borrow
  /-- The caller uses the resource it holds. -/
  | use
  /-- The resource goes back to the pool. -/
  | giveBack
  /-- The resource is lost to the pool. -/
  | discard
  deriving DecidableEq

/-- How the calls of an interface act on a resource with states `Q`, of whose uses
`O` is observed. -/
structure Lending (I : Interface.{u}) (Q O : Type u) where
  /-- The kind of an answered call. -/
  hold : Event I → Hold
  /-- What a use may do to the state, and what is observed of it. -/
  use : Q → Event I → Option O → Q → Prop
  /-- The state of a new resource. -/
  fresh : Q

variable {I J : Interface.{u}} {Q O α β : Type u} {ι : Type*}

/-! ### One client -/

/-- What one answered call does to what a client holds, when every resource it can
borrow is `clean`. -/
inductive Lending.Local (L : Lending I Q O) (clean : Q → Prop) :
    Option Q → Event I → Option O → Option Q → Prop where
  /-- The call is not about the resource. -/
  | plain {h : Option Q} {e : Event I} : L.hold e = .plain → L.Local clean h e none h
  /-- A clean resource is borrowed. -/
  | borrow {q : Q} {e : Event I} : L.hold e = .borrow → clean q → L.Local clean none e none (some q)
  /-- The resource is used. -/
  | use {q q' : Q} {e : Event I} {b : Option O} :
      L.hold e = .use → L.use q e b q' → L.Local clean (some q) e b (some q')
  /-- The resource goes back. -/
  | giveBack {q : Q} {e : Event I} : L.hold e = .giveBack → L.Local clean (some q) e none none
  /-- The resource is lost. -/
  | discard {q : Q} {e : Event I} : L.hold e = .discard → L.Local clean (some q) e none none

/-- `Meets L clean G P p h`: from holding `h`, whatever the world answers, all that is
observed of `p` satisfies `G`, `p` gives back only clean resources, and if it ends
then its value and what it holds satisfy `P`. -/
def Meets (L : Lending I Q O) (clean : Q → Prop) (G : O → Prop) (P : α → Option Q → Prop) :
    Prog I α → Option Q → Prop
  | .done a, h => P a h
  | .call o k, h => ∀ x b h', L.Local clean h ⟨o, x⟩ b h' →
      (∀ c, b = some c → G c) ∧ (L.hold ⟨o, x⟩ = .giveBack → ∀ q, h = some q → clean q) ∧
        Meets L clean G P (k x) h'

section Meets

variable {L : Lending I Q O} {clean : Q → Prop} {G : O → Prop}

theorem meets_done {P : α → Option Q → Prop} {a : α} {h : Option Q} (hp : P a h) :
    Meets L clean G P (.done a) h := hp

/-- The rule of sequencing. -/
theorem meets_bind {P : β → Option Q → Prop} {f : α → Prog I β} {p : Prog I α} {h : Option Q}
    (hp : Meets L clean G (fun a h' => Meets L clean G P (f a) h') p h) :
    Meets L clean G P (p.bind f) h := by
  induction p generalizing h with
  | done a => exact hp
  | call o k ih =>
    intro x b h' hl
    obtain ⟨hg, hc, hk⟩ := hp x b h' hl
    exact ⟨hg, hc, ih x hk⟩

/-- The rule of consequence. -/
theorem Meets.mono {P P' : α → Option Q → Prop} {p : Prog I α} {h : Option Q}
    (hp : Meets L clean G P p h) (hP : ∀ a h', P a h' → P' a h') : Meets L clean G P' p h := by
  induction p generalizing h with
  | done a => exact hP a h hp
  | call o k ih =>
    intro x b h' hl
    obtain ⟨hg, hc, hk⟩ := hp x b h' hl
    exact ⟨hg, hc, ih x hk⟩

/-- The rule of one call. -/
theorem meets_ask {o : I.Op} {P : I.Ans o → Option Q → Prop} {h : Option Q}
    (hp : ∀ x b h', L.Local clean h ⟨o, x⟩ b h' →
      (∀ c, b = some c → G c) ∧ (L.hold ⟨o, x⟩ = .giveBack → ∀ q, h = some q → clean q) ∧ P x h') :
    Meets L clean G P (Prog.ask o) h := hp

/-- The rule of `await`: `f` goes on from what `p` returns, and `P` holds of what `p` throws. -/
theorem meets_await {ε : Type u} {P : Except ε β → Option Q → Prop} {p : Async I ε α}
    {f : α → Async I ε β} {h : Option Q}
    (hp : Meets L clean G
      (fun r h' => match r with
        | .ok a => Meets L clean G P (f a) h'
        | .error e => P (.error e) h') p h) :
    Meets L clean G P (p >>= f : Async I ε β) h := by
  refine meets_bind (hp.mono fun r h' hr => ?_)
  cases r with
  | ok a => exact hr
  | error e => exact hr

/-- The rule of `try … catch`. -/
theorem meets_tryCatch {ε : Type u} {P : Except ε α → Option Q → Prop} {p : Async I ε α}
    {f : ε → Async I ε α} {h : Option Q}
    (hp : Meets L clean G
      (fun r h' => match r with
        | .ok a => P (.ok a) h'
        | .error e => Meets L clean G P (f e) h') p h) :
    Meets L clean G P (tryCatch p f : Async I ε α) h := by
  refine meets_bind (hp.mono fun r h' hr => ?_)
  cases r with
  | ok a => exact hr
  | error e => exact hr

/-- The rule of `if (c) p;`. -/
theorem meets_onlyIf {ε : Type u} {P : Except ε PUnit → Option Q → Prop} {c : Bool}
    {p : Async I ε PUnit} {h : Option Q} (hp : c = true → Meets L clean G P p h)
    (hn : c = false → P (.ok ⟨⟩) h) : Meets L clean G P (Async.onlyIf c p) h := by
  cases c with
  | true => exact hp rfl
  | false => exact hn rfl

/-- The rule of `try … finally`, for a `finally` block that does not throw. -/
theorem meets_tryFinally {ε : Type u} {P : Except ε α → Option Q → Prop} {p : Async I ε α}
    {q : Async I ε PUnit} {h : Option Q}
    (hp : Meets L clean G (fun r => Meets L clean G (fun s h' => s = .ok ⟨⟩ ∧ P r h') q) p h) :
    Meets L clean G P (p.tryFinally q) h := by
  refine meets_bind (hp.mono fun r h' hr => meets_bind (hr.mono fun s h'' hs => ?_))
  obtain ⟨rfl, hs⟩ := hs
  exact hs

/-! #### Invariants of one client -/

/-- `Keeps L clean G R p`: `p` keeps `R`, of what it holds, whatever the world answers. -/
def Keeps (L : Lending I Q O) (clean : Q → Prop) (G : O → Prop) (R : Option Q → Prop)
    (p : Prog I α) : Prop :=
  ∀ h, R h → Meets L clean G (fun _ h' => R h') p h

variable {R : Option Q → Prop}

theorem keeps_done (a : α) : Keeps L clean G R (.done a : Prog I α) := fun _ hr => hr

theorem Keeps.bind {p : Prog I α} {f : α → Prog I β} (hp : Keeps L clean G R p)
    (hf : ∀ a, Keeps L clean G R (f a)) : Keeps L clean G R (p.bind f) := by
  intro h hr
  exact meets_bind ((hp h hr).mono fun a h' hr' => hf a h' hr')

theorem Keeps.await {ε : Type u} {p : Async I ε α} {f : α → Async I ε β} (hp : Keeps L clean G R p)
    (hf : ∀ a, Keeps L clean G R (f a)) : Keeps L clean G R (p >>= f : Async I ε β) := by
  refine hp.bind fun r => ?_
  cases r with
  | ok a => exact hf a
  | error e => exact keeps_done _

theorem Keeps.tryFinally {ε : Type u} {p : Async I ε α} {q : Async I ε PUnit}
    (hp : Keeps L clean G R p) (hq : Keeps L clean G R q) : Keeps L clean G R (p.tryFinally q) := by
  refine hp.bind fun r => hq.bind fun s => ?_
  cases s with
  | ok _ => exact keeps_done _
  | error e => exact keeps_done _

/-- The rule of interpretation: what every interpreted call keeps, the whole
interpreted program keeps. -/
theorem keeps_interp {i : (o : J.Op) → Prog I (J.Ans o)} (hi : ∀ o, Keeps L clean G R (i o))
    (p : Prog J α) : Keeps L clean G R (p.interp i) := by
  induction p with
  | done a => exact keeps_done a
  | call o k ih => exact (hi o).bind ih

end Meets

/-! ### Many clients -/

/-- The idle resources, what each client has still to do, and what it holds. -/
structure Config (I : Interface.{u}) (Q α : Type u) (ι : Type*) where
  /-- The states of the idle resources. -/
  idle : List Q
  /-- What each client has still to do. -/
  prog : ι → Prog I α
  /-- What each client holds. -/
  held : ι → Option Q

variable [DecidableEq ι]

/-- Client `i` goes on with `p`, holding `h`, and leaves `l` idle. -/
def Config.turn (c : Config I Q α ι) (i : ι) (p : Prog I α) (h : Option Q) (l : List Q) :
    Config I Q α ι :=
  ⟨l, Function.update c.prog i p, Function.update c.held i h⟩

/-- **A step of the system**: client `i` has a call answered, and `b` is observed of it. -/
inductive Step (L : Lending I Q O) : Config I Q α ι → ι → Option O → Config I Q α ι → Prop where
  /-- A call that is not about the resource. -/
  | plain {c : Config I Q α ι} {i : ι} {o : I.Op} {k : I.Ans o → Prog I α} {x : I.Ans o} :
      c.prog i = .call o k → L.hold ⟨o, x⟩ = .plain → Step L c i none (c.turn i (k x) (c.held i) c.idle)
  /-- An idle resource is lent; it is no longer idle. -/
  | lend {c : Config I Q α ι} {i : ι} {o : I.Op} {k : I.Ans o → Prog I α} {x : I.Ans o}
      {l₁ l₂ : List Q} {q : Q} :
      c.prog i = .call o k → L.hold ⟨o, x⟩ = .borrow → c.held i = none → c.idle = l₁ ++ q :: l₂ →
        Step L c i none (c.turn i (k x) (some q) (l₁ ++ l₂))
  /-- A new resource is opened and lent. -/
  | grow {c : Config I Q α ι} {i : ι} {o : I.Op} {k : I.Ans o → Prog I α} {x : I.Ans o} :
      c.prog i = .call o k → L.hold ⟨o, x⟩ = .borrow → c.held i = none →
        Step L c i none (c.turn i (k x) (some L.fresh) c.idle)
  /-- The resource a client holds is used. -/
  | use {c : Config I Q α ι} {i : ι} {o : I.Op} {k : I.Ans o → Prog I α} {x : I.Ans o}
      {q q' : Q} {b : Option O} :
      c.prog i = .call o k → L.hold ⟨o, x⟩ = .use → c.held i = some q → L.use q ⟨o, x⟩ b q' →
        Step L c i b (c.turn i (k x) (some q') c.idle)
  /-- The resource a client holds goes back to the pool, in the state it is in. -/
  | giveBack {c : Config I Q α ι} {i : ι} {o : I.Op} {k : I.Ans o → Prog I α} {x : I.Ans o} {q : Q} :
      c.prog i = .call o k → L.hold ⟨o, x⟩ = .giveBack → c.held i = some q →
        Step L c i none (c.turn i (k x) none (q :: c.idle))
  /-- The resource a client holds is lost to the pool. -/
  | discard {c : Config I Q α ι} {i : ι} {o : I.Op} {k : I.Ans o → Prog I α} {x : I.Ans o} {q : Q} :
      c.prog i = .call o k → L.hold ⟨o, x⟩ = .discard → c.held i = some q →
        Step L c i none (c.turn i (k x) none c.idle)

/-- A run of the system, with what was observed of whom. -/
inductive Run (L : Lending I Q O) (c₀ : Config I Q α ι) :
    List (ι × Option O) → Config I Q α ι → Prop where
  /-- No steps. -/
  | nil : Run L c₀ [] c₀
  /-- One more step. -/
  | snoc {s : List (ι × Option O)} {c c' : Config I Q α ι} {i : ι} {b : Option O} :
      Run L c₀ s c → Step L c i b c' → Run L c₀ (s ++ [(i, b)]) c'

/-- Every idle resource is clean, and every client meets its discipline. -/
structure Disciplined (L : Lending I Q O) (clean : Q → Prop) (G : ι → O → Prop)
    (c : Config I Q α ι) : Prop where
  /-- Idle resources are clean. -/
  idle : ∀ q ∈ c.idle, clean q
  /-- Each client meets its discipline. -/
  client : ∀ i, Meets L clean (G i) (fun _ _ => True) (c.prog i) (c.held i)

variable {L : Lending I Q O} {clean : Q → Prop} {G : ι → O → Prop}

/-- A step is a step of its client, which leaves the other clients alone; what it adds
to the idle resources is what the client gave back. -/
theorem Step.local {c c' : Config I Q α ι} {i : ι} {b : Option O} (hs : Step L c i b c')
    (hf : clean L.fresh) (hc : ∀ q ∈ c.idle, clean q) :
    ∃ o k x h', c.prog i = .call o k ∧ L.Local clean (c.held i) ⟨o, x⟩ b h' ∧
      c'.prog = Function.update c.prog i (k x) ∧ c'.held = Function.update c.held i h' ∧
      ∀ q ∈ c'.idle, q ∈ c.idle ∨ L.hold ⟨o, x⟩ = .giveBack ∧ c.held i = some q := by
  cases hs with
  | plain hp hk => exact ⟨_, _, _, _, hp, .plain hk, rfl, rfl, fun q hq => .inl hq⟩
  | lend hp hk hn hl =>
    rw [hn]
    refine ⟨_, _, _, _, hp, .borrow hk (hc _ ?_), rfl, rfl, fun q hq => .inl ?_⟩
    · rw [hl]; simp
    · rw [hl]
      simp only [Config.turn, List.mem_append] at hq
      rcases hq with hq | hq <;> simp [hq]
  | grow hp hk hn =>
    rw [hn]
    exact ⟨_, _, _, _, hp, .borrow hk hf, rfl, rfl, fun q hq => .inl hq⟩
  | use hp hk hq hu =>
    rw [hq]
    exact ⟨_, _, _, _, hp, .use hk hu, rfl, rfl, fun q hq => .inl hq⟩
  | giveBack hp hk hq =>
    rw [hq]
    refine ⟨_, _, _, _, hp, .giveBack hk, rfl, rfl, fun q hq' => ?_⟩
    rcases List.mem_cons.mp hq' with rfl | hq'
    · exact .inr ⟨hk, rfl⟩
    · exact .inl hq'
  | discard hp hk hq =>
    rw [hq]
    exact ⟨_, _, _, _, hp, .discard hk, rfl, rfl, fun q hq => .inl hq⟩

/-- One step keeps the discipline, and what is observed of it satisfies its client's `G`. -/
theorem Disciplined.step (hf : clean L.fresh) {c c' : Config I Q α ι} {i : ι} {b : Option O}
    (hd : Disciplined L clean G c) (hs : Step L c i b c') :
    Disciplined L clean G c' ∧ ∀ o, b = some o → G i o := by
  obtain ⟨o, k, x, h', hp, hl, hprog, hheld, hidle⟩ := hs.local hf hd.idle
  have hm := hd.client i
  rw [hp] at hm
  obtain ⟨hg, hc, hk⟩ := hm x b h' hl
  refine ⟨⟨fun q hq => ?_, fun j => ?_⟩, hg⟩
  · rcases hidle q hq with hq | ⟨hgb, hq⟩
    · exact hd.idle q hq
    · exact hc hgb q hq
  · rw [hprog, hheld]
    by_cases hij : j = i
    · subst hij
      rw [Function.update_self, Function.update_self]
      exact hk
    · rw [Function.update_of_ne hij, Function.update_of_ne hij]
      exact hd.client j

/-- **Locality**: when a new resource is clean and every client meets its discipline,
all that is observed of a client in any run satisfies that client's `G`, and the
discipline holds at the end. -/
theorem Run.observed (hf : clean L.fresh) {c₀ c : Config I Q α ι} {s : List (ι × Option O)}
    (h₀ : Disciplined L clean G c₀) (hr : Run L c₀ s c) :
    Disciplined L clean G c ∧ ∀ i o, (i, some o) ∈ s → G i o := by
  induction hr with
  | nil => exact ⟨h₀, by simp⟩
  | snoc _ hs ih =>
    obtain ⟨hd, hg⟩ := ih
    obtain ⟨hd', hb⟩ := hd.step hf hs
    refine ⟨hd', fun i o hm => ?_⟩
    rcases List.mem_append.mp hm with hm | hm
    · exact hg i o hm
    · simp only [List.mem_singleton, Prod.mk.injEq] at hm
      obtain ⟨rfl, hb'⟩ := hm
      exact hb o hb'.symm

/-- **What a client ends with**: its postcondition, if it has one, holds when it is over. -/
theorem Run.fulfils (hf : clean L.fresh) {P : ι → α → Option Q → Prop} {c₀ c : Config I Q α ι}
    {s : List (ι × Option O)} (h₀ : Disciplined L clean G c₀)
    (hP : ∀ i, Meets L clean (G i) (P i) (c₀.prog i) (c₀.held i)) (hr : Run L c₀ s c) {i : ι} {a : α}
    (ha : c.prog i = .done a) : P i a (c.held i) := by
  have hmeets : ∀ i, Meets L clean (G i) (P i) (c.prog i) (c.held i) := by
    clear ha
    induction hr with
    | nil => exact hP
    | @snoc _ _ _ i _ hr hs ih =>
      obtain ⟨o, k, x, h', hp, hl, hprog, hheld, -⟩ := hs.local hf (hr.observed hf h₀).1.idle
      intro j
      rw [hprog, hheld]
      by_cases hij : j = i
      · subst hij
        have hm := ih j
        rw [hp] at hm
        rw [Function.update_self, Function.update_self]
        exact (hm x _ h' hl).2.2
      · rw [Function.update_of_ne hij, Function.update_of_ne hij]
        exact ih j
  have hm := hmeets i
  rwa [ha] at hm

/-- The client of a step has a call under way, and the others stand still. -/
theorem Step.asks {c c' : Config I Q α ι} {i : ι} {b : Option O} (hs : Step L c i b c') :
    ∃ o k p, c.prog i = .call o k ∧ c'.prog = Function.update c.prog i p := by
  cases hs with
  | plain hp _ => exact ⟨_, _, _, hp, rfl⟩
  | lend hp _ _ _ => exact ⟨_, _, _, hp, rfl⟩
  | grow hp _ _ => exact ⟨_, _, _, hp, rfl⟩
  | use hp _ _ _ => exact ⟨_, _, _, hp, rfl⟩
  | giveBack hp _ _ => exact ⟨_, _, _, hp, rfl⟩
  | discard hp _ _ => exact ⟨_, _, _, hp, rfl⟩

/-- A client that has nothing to do does nothing. -/
theorem Run.silent {c₀ c : Config I Q α ι} {s : List (ι × Option O)} (hr : Run L c₀ s c) {i : ι} {a : α}
    (ha : c₀.prog i = .done a) : c.prog i = .done a ∧ ∀ b, (i, b) ∉ s := by
  induction hr with
  | nil => exact ⟨ha, fun b => List.not_mem_nil⟩
  | @snoc _ _ _ j _ _ hs ih =>
    obtain ⟨hdone, hnone⟩ := ih
    obtain ⟨o, k, p, hcall, hprog⟩ := hs.asks
    have hne : i ≠ j := fun hi => by
      rw [← hi, hdone] at hcall
      cases hcall
    refine ⟨by rw [hprog, Function.update_of_ne hne, hdone], fun b hm => ?_⟩
    rcases List.mem_append.mp hm with hm | hm
    · exact hnone b hm
    · simp only [List.mem_singleton, Prod.mk.injEq] at hm
      exact hne hm.1

/-! ### What is known of the uses -/

/-- The lending of which more is known: every use is as `honest` says. -/
def Lending.restrict (L : Lending I Q O) (honest : Q → Event I → Prop) : Lending I Q O :=
  { L with use := fun q e b q' => L.use q e b q' ∧ honest q e }

variable {honest : Q → Event I → Prop} {G : O → Prop}

theorem Lending.Local.of_restrict {h h' : Option Q} {e : Event I} {b : Option O}
    (hl : (L.restrict honest).Local clean h e b h') : L.Local clean h e b h' := by
  cases hl with
  | plain hk => exact .plain hk
  | borrow hk hq => exact .borrow hk hq
  | use hk hu => exact .use hk hu.1
  | giveBack hk => exact .giveBack hk
  | discard hk => exact .discard hk

/-- What a client keeps, it keeps when more is known. -/
theorem Meets.restrict {P : α → Option Q → Prop} {p : Prog I α} {h : Option Q} (hp : Meets L clean G P p h) :
    Meets (L.restrict honest) clean G P p h := by
  induction p generalizing h with
  | done a => exact hp
  | call o k ih =>
    intro x b h' hl
    obtain ⟨hg, hc, hk⟩ := hp x b h' hl.of_restrict
    exact ⟨hg, hc, ih x hk⟩

/-- What is observed may be said in other words. -/
theorem Meets.observes {G' : O → Prop} {P : α → Option Q → Prop} {p : Prog I α} {h : Option Q}
    (hp : Meets L clean G P p h) (hG : ∀ o, G o → G' o) : Meets L clean G' P p h := by
  induction p generalizing h with
  | done a => exact hp
  | call o k ih =>
    intro x b h' hl
    obtain ⟨hg, hc, hk⟩ := hp x b h' hl
    exact ⟨fun c hb => hG c (hg c hb), hc, ih x hk⟩

/-- The rule of one use, of which more is known. -/
theorem meets_ask_restrict {o : I.Op} {P P' : I.Ans o → Option Q → Prop} {q : Q}
    (ho : ∀ x, L.hold ⟨o, x⟩ = .use) (hp : Meets L clean G P (Prog.ask o) (some q))
    (hP : ∀ x h, honest q ⟨o, x⟩ → P x h → P' x h) :
    Meets (L.restrict honest) clean G P' (Prog.ask o) (some q) := by
  intro x b h' hl
  obtain ⟨hg, hc, hpost⟩ := hp x b h' hl.of_restrict
  refine ⟨hg, hc, hP x h' ?_ hpost⟩
  have hh : L.hold ⟨o, x⟩ = .use := ho x
  cases hl with
  | plain hk => exact absurd (hh.symm.trans hk) (by simp)
  | use _ hu => exact hu.2
  | giveBack hk => exact absurd (hh.symm.trans hk) (by simp)
  | discard hk => exact absurd (hh.symm.trans hk) (by simp)

end NestDdd.Theory
