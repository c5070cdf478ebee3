import Mathlib.Data.List.Basic
import Mathlib.Logic.Basic

/-!
# Programs that talk to the world

A program is a tree: it has finished with a value, or it makes a call and goes on
according to the answer. The calls it may make and the answers they may get are
an `Interface`; what the world answers is not part of the program, so a statement
about every run of a program is a statement about every behaviour of the world.

An asynchronous function is a program that ends with a value or with a thrown
error (`Async`); `await` is its bind, and `try … catch` and `try … finally` are
as in JavaScript: what the `finally` block throws replaces what was being
returned or thrown.

## What is proved

* `exec_bind_iff` — a run of `p` and then `f` is a run of `p`, then a run of `f`
  from its value: the traces are joined end to end. The rules for asynchronous
  functions (`exec_await_iff`, `exec_tryCatch_iff`, `exec_tryFinally_iff`) are
  instances of it.
* `exists_exec` — every program has a run, if every call can be answered.
* `Exec.split_unique` — the run of a program is found in a trace in one way at most.
* `interp_bind` — interpreting the calls of a program by programs of another
  interface respects sequencing.
* `only_interp` — the calls of an interpreted program are its interpreter's;
  `Prog.Only.exec`: the calls of a run are calls the program can make.

## Honest scope

A tree is well founded, so a program makes finitely many calls in every run. A
callback that goes on for ever is represented, up to any moment, by one that
makes a call with no answer there.
-/

namespace NestDdd.Theory

universe u

/-- What a program may ask of the world. -/
structure Interface where
  /-- The calls. -/
  Op : Type u
  /-- The answers to a call; a call with no answer never returns. -/
  Ans : Op → Type u

/-- A program over an interface. -/
inductive Prog (I : Interface.{u}) (α : Type u) : Type u where
  /-- The program has finished with `a`. -/
  | done (a : α)
  /-- The program makes the call `o` and goes on with `k` of its answer. -/
  | call (o : I.Op) (k : I.Ans o → Prog I α)

/-- A call that has been answered. -/
structure Event (I : Interface.{u}) where
  /-- The call. -/
  op : I.Op
  /-- Its answer. -/
  ans : I.Ans op

/-- The answered calls of a run, in order. -/
abbrev Trace (I : Interface.{u}) := List (Event I)

variable {I J : Interface.{u}} {α β γ ε : Type u}

namespace Prog

/-- `p`, then `f` of its value. -/
def bind : Prog I α → (α → Prog I β) → Prog I β
  | .done a, f => f a
  | .call o k, f => .call o fun x => (k x).bind f

instance : Monad (Prog I) where
  pure := .done
  bind := bind

/-- One call. -/
def ask (o : I.Op) : Prog I (I.Ans o) := .call o .done

/-- Every call of `p` interpreted by a program of another interface. -/
def interp (h : (o : I.Op) → Prog J (I.Ans o)) : Prog I α → Prog J α
  | .done a => .done a
  | .call o k => (h o).bind fun x => (k x).interp h

@[simp] theorem pure_eq_done (a : α) : (pure a : Prog I α) = .done a := rfl

@[simp] theorem bind_eq (p : Prog I α) (f : α → Prog I β) : p >>= f = p.bind f := rfl

@[simp] theorem bind_done (a : α) (f : α → Prog I β) : (Prog.done a).bind f = f a := rfl

@[simp] theorem bind_call (o : I.Op) (k : I.Ans o → Prog I α) (f : α → Prog I β) :
    (Prog.call o k).bind f = .call o fun x => (k x).bind f := rfl

theorem bind_assoc (p : Prog I α) (f : α → Prog I β) (g : β → Prog I γ) :
    (p.bind f).bind g = p.bind fun a => (f a).bind g := by
  induction p with
  | done a => rfl
  | call o k ih => simp only [bind_call, ih]

/-- Interpretation respects sequencing. -/
theorem interp_bind (h : (o : I.Op) → Prog J (I.Ans o)) (p : Prog I α) (f : α → Prog I β) :
    (p.bind f).interp h = (p.interp h).bind fun a => (f a).interp h := by
  induction p with
  | done a => rfl
  | call o k ih => simp only [bind_call, interp, ih, bind_assoc]

end Prog

/-! ### Runs -/

/-- `Exec p t a`: the program `p` can run to its end with the answered calls `t`,
and then its value is `a`. -/
inductive Exec : Prog I α → Trace I → α → Prop where
  /-- A program that has finished. -/
  | done {a : α} : Exec (.done a) [] a
  /-- A call answered by `x`, and a run of what follows. -/
  | call {o : I.Op} {k : I.Ans o → Prog I α} {x : I.Ans o} {t : Trace I} {a : α} :
      Exec (k x) t a → Exec (.call o k) (⟨o, x⟩ :: t) a

theorem exec_done_iff {a b : α} {t : Trace I} :
    Exec (.done a : Prog I α) t b ↔ t = [] ∧ b = a := by
  constructor
  · rintro ⟨⟩
    exact ⟨rfl, rfl⟩
  · rintro ⟨rfl, rfl⟩
    exact .done

theorem exec_call_iff {o : I.Op} {k : I.Ans o → Prog I α} {t : Trace I} {a : α} :
    Exec (.call o k) t a ↔ ∃ x t', t = ⟨o, x⟩ :: t' ∧ Exec (k x) t' a := by
  constructor
  · rintro ⟨⟩
    exact ⟨_, _, rfl, ‹_›⟩
  · rintro ⟨x, t', rfl, h⟩
    exact .call h

/-- **Sequencing**: a run of `p` and then `f` is a run of the one, then a run of the other. -/
theorem exec_bind_iff {p : Prog I α} {f : α → Prog I β} {t : Trace I} {b : β} :
    Exec (p.bind f) t b ↔ ∃ t₁ a t₂, Exec p t₁ a ∧ Exec (f a) t₂ b ∧ t = t₁ ++ t₂ := by
  induction p generalizing t with
  | done a =>
    constructor
    · intro h
      exact ⟨[], a, t, .done, h, rfl⟩
    · rintro ⟨t₁, a', t₂, h₁, h₂, rfl⟩
      obtain ⟨rfl, rfl⟩ := exec_done_iff.mp h₁
      exact h₂
  | call o k ih =>
    rw [Prog.bind_call, exec_call_iff]
    constructor
    · rintro ⟨x, t', rfl, h⟩
      obtain ⟨t₁, a, t₂, h₁, h₂, rfl⟩ := (ih x).mp h
      exact ⟨_, a, t₂, .call h₁, h₂, rfl⟩
    · rintro ⟨t₁, a, t₂, h₁, h₂, rfl⟩
      obtain ⟨x, t', rfl, hk⟩ := exec_call_iff.mp h₁
      exact ⟨x, _, rfl, (ih x).mpr ⟨t', a, t₂, hk, h₂, rfl⟩⟩

theorem exec_ask_iff {o : I.Op} {t : Trace I} {x : I.Ans o} :
    Exec (Prog.ask o) t x ↔ t = [⟨o, x⟩] := by
  rw [Prog.ask, exec_call_iff]
  constructor
  · rintro ⟨y, t', rfl, h⟩
    obtain ⟨rfl, rfl⟩ := exec_done_iff.mp h
    rfl
  · rintro rfl
    exact ⟨x, [], rfl, .done⟩

/-- **Unique reading**: in a sequence of answered calls, a program's run is found in one
way at most. -/
theorem Exec.split_unique {p : Prog I α} {t₁ t₂ s₁ s₂ : Trace I} {a b : α} (h₁ : Exec p t₁ a)
    (h₂ : Exec p t₂ b) (h : t₁ ++ s₁ = t₂ ++ s₂) : t₁ = t₂ ∧ a = b ∧ s₁ = s₂ := by
  induction p generalizing t₁ t₂ with
  | done c =>
    obtain ⟨rfl, rfl⟩ := exec_done_iff.mp h₁
    obtain ⟨rfl, rfl⟩ := exec_done_iff.mp h₂
    exact ⟨rfl, rfl, h⟩
  | call o k ih =>
    obtain ⟨x, t₁', rfl, h₁'⟩ := exec_call_iff.mp h₁
    obtain ⟨y, t₂', rfl, h₂'⟩ := exec_call_iff.mp h₂
    rw [List.cons_append, List.cons_append, List.cons.injEq] at h
    obtain ⟨he, ht⟩ := h
    cases he
    obtain ⟨rfl, hab, hs⟩ := ih x h₁' h₂' ht
    exact ⟨rfl, hab, hs⟩

/-- Where every call can be answered, every program has a run. -/
theorem exists_exec [h : ∀ o, Nonempty (I.Ans o)] (p : Prog I α) : ∃ t a, Exec p t a := by
  induction p with
  | done a => exact ⟨[], a, .done⟩
  | call o k ih =>
    obtain ⟨x⟩ := h o
    obtain ⟨t, a, hrun⟩ := ih x
    exact ⟨_, a, .call hrun⟩

/-! ### The calls a program can make -/

/-- Every call `p` can make is in `S`. -/
def Prog.Only (S : I.Op → Prop) : Prog I α → Prop
  | .done _ => True
  | .call o k => S o ∧ ∀ x, (k x).Only S

section Only

variable {S S' : I.Op → Prop}

theorem only_done (a : α) : (Prog.done a : Prog I α).Only S := trivial

theorem only_ask {o : I.Op} (ho : S o) : (Prog.ask o).Only S := ⟨ho, fun _ => trivial⟩

theorem Prog.Only.bind {p : Prog I α} {f : α → Prog I β} (hp : p.Only S) (hf : ∀ a, (f a).Only S) :
    (p.bind f).Only S := by
  induction p with
  | done a => exact hf a
  | call o k ih => exact ⟨hp.1, fun x => ih x (hp.2 x)⟩

/-- The calls of an interpreted program are its interpreter's. -/
theorem only_interp {h : (o : J.Op) → Prog I (J.Ans o)} (hh : ∀ o, (h o).Only S) (p : Prog J α) :
    (p.interp h).Only S := by
  induction p with
  | done a => exact trivial
  | call o k ih => exact (hh o).bind ih

/-- The calls of a run are calls the program can make. -/
theorem Prog.Only.exec {p : Prog I α} {t : Trace I} {a : α} (hp : p.Only S) (h : Exec p t a) :
    ∀ e ∈ t, S e.op := by
  induction h with
  | done => simp
  | call _ ih =>
    intro e he
    rcases List.mem_cons.mp he with rfl | he
    · exact hp.1
    · exact ih (hp.2 _) e he

end Only

/-! ### Asynchronous functions -/

/-- An asynchronous function's body: a program that returns a value or throws. -/
def Async (I : Interface.{u}) (ε α : Type u) := Prog I (Except ε α)

namespace Async

/-- A program that does not throw. -/
def lift (p : Prog I α) : Async I ε α := p.bind fun a => .done (.ok a)

/-- `await p`, then `f` of its value. -/
def await (p : Async I ε α) (f : α → Async I ε β) : Async I ε β :=
  Prog.bind p fun
    | .ok a => f a
    | .error e => .done (.error e)

instance : Monad (Async I ε) where
  pure a := .done (.ok a)
  bind := await

/-- `try p catch (e) h`. -/
protected def tryCatch (p : Async I ε α) (h : ε → Async I ε α) : Async I ε α :=
  Prog.bind p fun
    | .ok a => .done (.ok a)
    | .error e => h e

instance : MonadExceptOf ε (Async I ε) where
  throw e := .done (.error e)
  tryCatch := Async.tryCatch

/-- `if (c) p;`. -/
def onlyIf (c : Bool) (p : Async I ε PUnit) : Async I ε PUnit := if c then p else pure ⟨⟩

/-- `try p finally q`: what `q` throws replaces the outcome of `p`. -/
def tryFinally (p : Async I ε α) (q : Async I ε PUnit) : Async I ε α :=
  Prog.bind p fun r => Prog.bind q fun
    | .ok _ => .done r
    | .error e => .done (.error e)

end Async

theorem interp_await (h : (o : I.Op) → Prog J (I.Ans o)) (p : Async I ε α) (f : α → Async I ε β) :
    Prog.interp h (p >>= f : Async I ε β) =
      (Prog.interp h p >>= fun a => Prog.interp h (f a) : Async J ε β) := by
  refine (Prog.interp_bind h p _).trans (congrArg (Prog.bind _) (funext fun r => ?_))
  cases r <;> rfl

theorem interp_tryCatch (h : (o : I.Op) → Prog J (I.Ans o)) (p : Async I ε α)
    (f : ε → Async I ε α) :
    Prog.interp h (tryCatch p f : Async I ε α) =
      (tryCatch (Prog.interp h p) fun e => Prog.interp h (f e) : Async J ε α) := by
  refine (Prog.interp_bind h p _).trans (congrArg (Prog.bind _) (funext fun r => ?_))
  cases r <;> rfl

section Only

variable {S : I.Op → Prop}

theorem Async.Only.await {p : Async I ε α} {f : α → Async I ε β} (hp : Prog.Only S p)
    (hf : ∀ a, Prog.Only S (f a)) : Prog.Only S (p >>= f : Async I ε β) := by
  refine hp.bind fun r => ?_
  cases r with
  | ok a => exact hf a
  | error e => exact only_done _

theorem Async.Only.tryCatch {p : Async I ε α} {f : ε → Async I ε α} (hp : Prog.Only S p)
    (hf : ∀ e, Prog.Only S (f e)) : Prog.Only S (tryCatch p f : Async I ε α) := by
  refine hp.bind fun r => ?_
  cases r with
  | ok a => exact only_done _
  | error e => exact hf e

theorem Async.Only.tryFinally {p : Async I ε α} {q : Async I ε PUnit} (hp : Prog.Only S p)
    (hq : Prog.Only S q) : Prog.Only S (p.tryFinally q) := by
  refine hp.bind fun r => hq.bind fun s => ?_
  cases s <;> exact only_done _

theorem Async.Only.lift {p : Prog I α} (hp : p.Only S) : Prog.Only S (Async.lift p : Async I ε α) :=
  hp.bind fun _ => only_done _

theorem Async.Only.onlyIf {c : Bool} {p : Async I ε PUnit} (hp : Prog.Only S p) :
    Prog.Only S (Async.onlyIf c p) := by
  cases c with
  | true => exact hp
  | false => exact only_done _

end Only

/-- A run of an asynchronous function that returns. -/
theorem exec_return_iff {a : α} {t : Trace I} {r : Except ε α} :
    Exec (pure a : Async I ε α) t r ↔ t = [] ∧ r = .ok a := exec_done_iff

/-- A run of an asynchronous function that throws. -/
theorem exec_throw_iff {e : ε} {t : Trace I} {r : Except ε α} :
    Exec (throw e : Async I ε α) t r ↔ t = [] ∧ r = .error e := exec_done_iff

/-- A run of `await p` and then `f`: `p` returns and `f` goes on, or `p` throws. -/
theorem exec_await_iff {p : Async I ε α} {f : α → Async I ε β} {t : Trace I} {r : Except ε β} :
    Exec (p >>= f : Async I ε β) t r ↔
      (∃ t₁ a t₂, Exec p t₁ (.ok a) ∧ Exec (f a) t₂ r ∧ t = t₁ ++ t₂) ∨
        ∃ e, Exec p t (.error e) ∧ r = .error e := by
  refine exec_bind_iff.trans ?_
  constructor
  · rintro ⟨t₁, x, t₂, h₁, h₂, rfl⟩
    cases x with
    | ok a => exact .inl ⟨t₁, a, t₂, h₁, h₂, rfl⟩
    | error e =>
      obtain ⟨rfl, rfl⟩ := exec_done_iff.mp h₂
      exact .inr ⟨e, by rwa [List.append_nil], rfl⟩
  · rintro (⟨t₁, a, t₂, h₁, h₂, rfl⟩ | ⟨e, h, rfl⟩)
    · exact ⟨t₁, .ok a, t₂, h₁, h₂, rfl⟩
    · exact ⟨t, .error e, [], h, .done, (List.append_nil t).symm⟩

/-- A run of `await p` and then `f` that returns. -/
theorem exec_await_ok_iff {p : Async I ε α} {f : α → Async I ε β} {t : Trace I} {b : β} :
    Exec (p >>= f : Async I ε β) t (.ok b) ↔
      ∃ t₁ a t₂, Exec p t₁ (.ok a) ∧ Exec (f a) t₂ (.ok b) ∧ t = t₁ ++ t₂ := by
  rw [exec_await_iff]
  simp

/-- A run of `try p catch (e) h`: `p` returns, or it throws and the handler runs. -/
theorem exec_tryCatch_iff {p : Async I ε α} {h : ε → Async I ε α} {t : Trace I}
    {r : Except ε α} :
    Exec (tryCatch p h : Async I ε α) t r ↔
      (∃ a, Exec p t (.ok a) ∧ r = .ok a) ∨
        ∃ t₁ e t₂, Exec p t₁ (.error e) ∧ Exec (h e) t₂ r ∧ t = t₁ ++ t₂ := by
  refine exec_bind_iff.trans ?_
  constructor
  · rintro ⟨t₁, x, t₂, h₁, h₂, rfl⟩
    cases x with
    | ok a =>
      obtain ⟨rfl, rfl⟩ := exec_done_iff.mp h₂
      exact .inl ⟨a, by rwa [List.append_nil], rfl⟩
    | error e => exact .inr ⟨t₁, e, t₂, h₁, h₂, rfl⟩
  · rintro (⟨a, h₁, rfl⟩ | ⟨t₁, e, t₂, h₁, h₂, rfl⟩)
    · exact ⟨t, .ok a, [], h₁, .done, (List.append_nil t).symm⟩
    · exact ⟨t₁, .error e, t₂, h₁, h₂, rfl⟩

/-- A run of `try p catch (e) { throw g(e) }` that returns. -/
theorem exec_rethrow_ok_iff {p : Async I ε α} {g : ε → ε} {t : Trace I} {a : α} :
    Exec (tryCatch p fun e => throw (g e) : Async I ε α) t (.ok a) ↔ Exec p t (.ok a) := by
  rw [exec_tryCatch_iff]
  simp [exec_throw_iff]

/-- A run of `if (c) p;`. -/
theorem exec_onlyIf_iff {c : Bool} {p : Async I ε PUnit} {t : Trace I} {r : Except ε PUnit} :
    Exec (Async.onlyIf c p) t r ↔ c = true ∧ Exec p t r ∨ c = false ∧ t = [] ∧ r = .ok ⟨⟩ := by
  cases c with
  | true => simp [Async.onlyIf]
  | false => simpa [Async.onlyIf] using exec_return_iff

/-- A run of `if (c) p;` that throws. -/
theorem exec_onlyIf_error_iff {c : Bool} {p : Async I ε PUnit} {t : Trace I} {e : ε} :
    Exec (Async.onlyIf c p) t (.error e) ↔ c = true ∧ Exec p t (.error e) := by
  rw [exec_onlyIf_iff]
  simp

/-- A run of a program that does not throw. -/
theorem exec_lift_iff {p : Prog I α} {t : Trace I} {r : Except ε α} :
    Exec (Async.lift p : Async I ε α) t r ↔ ∃ a, Exec p t a ∧ r = .ok a := by
  refine exec_bind_iff.trans ?_
  constructor
  · rintro ⟨t₁, a, t₂, h₁, h₂, rfl⟩
    obtain ⟨rfl, rfl⟩ := exec_done_iff.mp h₂
    exact ⟨a, by rwa [List.append_nil], rfl⟩
  · rintro ⟨a, h, rfl⟩
    exact ⟨t, a, [], h, .done, (List.append_nil t).symm⟩

/-- A run of `try p finally q`: both run, and what `q` throws takes precedence. -/
theorem exec_tryFinally_iff {p : Async I ε α} {q : Async I ε PUnit} {t : Trace I}
    {r : Except ε α} :
    Exec (p.tryFinally q) t r ↔
      ∃ t₁ r₁ t₂ r₂, Exec p t₁ r₁ ∧ Exec q t₂ r₂ ∧ t = t₁ ++ t₂ ∧
        r = (match r₂ with | .ok _ => r₁ | .error e => .error e) := by
  refine exec_bind_iff.trans ?_
  constructor
  · rintro ⟨t₁, r₁, _, h₁, h, rfl⟩
    obtain ⟨t₂, r₂, t₃, h₂, h₃, rfl⟩ := exec_bind_iff.mp h
    refine ⟨t₁, r₁, t₂, r₂, h₁, h₂, ?_⟩
    cases r₂ with
    | ok _ => obtain ⟨rfl, rfl⟩ := exec_done_iff.mp h₃; simp
    | error e => obtain ⟨rfl, rfl⟩ := exec_done_iff.mp h₃; simp
  · rintro ⟨t₁, r₁, t₂, r₂, h₁, h₂, rfl, rfl⟩
    refine ⟨t₁, r₁, t₂, h₁, exec_bind_iff.mpr ⟨t₂, r₂, [], h₂, ?_, (List.append_nil t₂).symm⟩, rfl⟩
    cases r₂ <;> exact .done

/-! ### Runs of an interpreted program -/

/-- `Spells h q t`: the answered calls `t` are what the calls of `q`, each interpreted by `h`, come to with the
answers of `q`. -/
inductive Spells (h : (o : I.Op) → Prog J (I.Ans o)) : Trace I → Trace J → Prop where
  /-- No calls. -/
  | nil : Spells h [] []
  /-- The calls of one interpreted call, and those of the others. -/
  | cons {o : I.Op} {x : I.Ans o} {s : Trace J} {q : Trace I} {t : Trace J} :
      Exec (h o) s x → Spells h q t → Spells h (⟨o, x⟩ :: q) (s ++ t)

/-- **Interpretation**: a run of the interpreted program is a run of the program, spelt out. -/
theorem exec_interp_iff {h : (o : I.Op) → Prog J (I.Ans o)} {p : Prog I α} {t : Trace J} {a : α} :
    Exec (p.interp h) t a ↔ ∃ q, Exec p q a ∧ Spells h q t := by
  induction p generalizing t with
  | done b =>
    rw [Prog.interp, exec_done_iff]
    constructor
    · rintro ⟨rfl, rfl⟩
      exact ⟨[], .done, .nil⟩
    · rintro ⟨q, hq, hs⟩
      obtain ⟨rfl, rfl⟩ := exec_done_iff.mp hq
      cases hs
      exact ⟨rfl, rfl⟩
  | call o k ih =>
    rw [Prog.interp, exec_bind_iff]
    constructor
    · rintro ⟨s, x, t', hs, ht, rfl⟩
      obtain ⟨q, hq, hspells⟩ := (ih x).mp ht
      exact ⟨⟨o, x⟩ :: q, .call hq, .cons hs hspells⟩
    · rintro ⟨_, hcall, hspells⟩
      obtain ⟨x, q, rfl, hq⟩ := exec_call_iff.mp hcall
      cases hspells with
      | cons hs hrest => exact ⟨_, x, _, hs, (ih x).mpr ⟨q, hq, hrest⟩, rfl⟩

end NestDdd.Theory
