import NestDdd.Shared.Js

/-!
# The syntax of JSON

Values, the tokens they are made of, and a parser for rows of tokens. The parser is a machine that reads one token
after the other: it has a stack of the arrays and objects that are open, and a state that says what may come next.

## What is proved

* `step_read` — the machine forgets nothing: what it has built is made of the tokens read.
* `run_tokens` — it reads a value's tokens as the value.
* `parseTokens_eq_some_iff` — **the parser accepts the tokens of values, and no others**.
-/

namespace NestDdd.Json

open NestDdd.Shared

/-! ### Values -/

/-- A value with numbers in `ν`. The members of an object come in an order, and a name may come twice. -/
inductive Value (ν : Type) where
  /-- `null`. -/
  | null
  /-- A boolean. -/
  | bool (b : Bool)
  /-- A number. -/
  | number (x : ν)
  /-- A string. -/
  | string (s : JsString)
  /-- An array. -/
  | array (elements : List (Value ν))
  /-- An object. -/
  | object (members : List (JsString × Value ν))

variable {ν μ : Type}

/-- Induction on a value, for the elements of an array and the members of an object. -/
@[elab_as_elim]
theorem Value.induct {motive : Value ν → Prop} (null : motive .null) (bool : ∀ b, motive (.bool b))
    (number : ∀ x, motive (.number x)) (string : ∀ s, motive (.string s))
    (array : ∀ l, (∀ v ∈ l, motive v) → motive (.array l))
    (object : ∀ l, (∀ e ∈ l, motive e.2) → motive (.object l)) (v : Value ν) : motive v :=
  @Value.rec ν motive (fun l => ∀ v ∈ l, motive v) (fun l => ∀ e ∈ l, motive e.2) (fun e => motive e.2) null bool number
    string array object (fun _ h => absurd h List.not_mem_nil)
    (fun _ _ hv hl => List.forall_mem_cons.mpr ⟨hv, hl⟩) (fun _ h => absurd h List.not_mem_nil)
    (fun _ _ he hl => List.forall_mem_cons.mpr ⟨he, hl⟩) (fun _ _ h => h) v

mutual

/-- The value with its numbers replaced. -/
def Value.map (f : ν → μ) : Value ν → Value μ
  | .null => .null
  | .bool b => .bool b
  | .number x => .number (f x)
  | .string s => .string s
  | .array l => .array (mapElements f l)
  | .object l => .object (mapMembers f l)

/-- The elements with their numbers replaced. -/
def mapElements (f : ν → μ) : List (Value ν) → List (Value μ)
  | [] => []
  | v :: l => v.map f :: mapElements f l

/-- The members with their numbers replaced. -/
def mapMembers (f : ν → μ) : List (JsString × Value ν) → List (JsString × Value μ)
  | [] => []
  | (k, v) :: l => (k, v.map f) :: mapMembers f l

end

theorem mapElements_eq (f : ν → μ) (l : List (Value ν)) : mapElements f l = l.map (Value.map f) := by
  induction l with
  | nil => rfl
  | cons v l ih => rw [mapElements, List.map_cons, ih]

theorem mapMembers_eq (f : ν → μ) (l : List (JsString × Value ν)) :
    mapMembers f l = l.map fun e => (e.1, e.2.map f) := by
  induction l with
  | nil => rfl
  | cons e l ih => rw [mapMembers, List.map_cons, ih]

/-! ### Tokens -/

/-- A token with numbers in `ν`. -/
inductive Token (ν : Type) where
  /-- `[`. -/
  | openArray
  /-- `]`. -/
  | closeArray
  /-- `{`. -/
  | openObject
  /-- `}`. -/
  | closeObject
  /-- `,`. -/
  | comma
  /-- `:`. -/
  | colon
  /-- `null`. -/
  | null
  /-- `true` or `false`. -/
  | bool (b : Bool)
  /-- A number. -/
  | number (x : ν)
  /-- A string. -/
  | string (s : JsString)

/-- Whether a token is a number. -/
def Token.isNumber : Token ν → Bool
  | .number _ => true
  | _ => false

mutual

/-- The tokens of a value. -/
def Value.tokens : Value ν → List (Token ν)
  | .null => [.null]
  | .bool b => [.bool b]
  | .number x => [.number x]
  | .string s => [.string s]
  | .array l => .openArray :: ([Token.comma].intercalate (elementsTokens l) ++ [.closeArray])
  | .object l => .openObject :: ([Token.comma].intercalate (membersTokens l) ++ [.closeObject])

/-- The tokens of each element. -/
def elementsTokens : List (Value ν) → List (List (Token ν))
  | [] => []
  | v :: l => v.tokens :: elementsTokens l

/-- The tokens of each member. -/
def membersTokens : List (JsString × Value ν) → List (List (Token ν))
  | [] => []
  | (k, v) :: l => (.string k :: .colon :: v.tokens) :: membersTokens l

end

/-- The tokens of a member. -/
def memberTokens (e : JsString × Value ν) : List (Token ν) := .string e.1 :: .colon :: e.2.tokens

theorem elementsTokens_eq (l : List (Value ν)) : elementsTokens l = l.map Value.tokens := by
  induction l with
  | nil => rfl
  | cons v l ih => rw [elementsTokens, List.map_cons, ih]

theorem membersTokens_eq (l : List (JsString × Value ν)) : membersTokens l = l.map memberTokens := by
  induction l with
  | nil => rfl
  | cons e l ih =>
    rw [membersTokens, List.map_cons, ih]
    rfl

theorem tokens_array (l : List (Value ν)) :
    (Value.array l).tokens = .openArray :: ([Token.comma].intercalate (l.map Value.tokens) ++ [.closeArray]) := by
  rw [Value.tokens, elementsTokens_eq]

theorem tokens_object (l : List (JsString × Value ν)) :
    (Value.object l).tokens = .openObject :: ([Token.comma].intercalate (l.map memberTokens) ++ [.closeObject]) := by
  rw [Value.tokens, membersTokens_eq]

/-! ### The parser -/

/-- An array or an object that is open, with what is in it so far. -/
inductive Frame (ν : Type) where
  /-- An array, before its next element. -/
  | array (elements : List (Value ν))
  /-- An object, before the value of a name. -/
  | object (members : List (JsString × Value ν)) (name : JsString)

/-- What may come next. -/
inductive State (ν : Type) where
  /-- A value. -/
  | value (stack : List (Frame ν))
  /-- The first element of an array, or its end. -/
  | firstElement (stack : List (Frame ν))
  /-- The first name of an object, or its end. -/
  | firstName (stack : List (Frame ν))
  /-- A name. -/
  | name (members : List (JsString × Value ν)) (stack : List (Frame ν))
  /-- The colon behind a name. -/
  | colon (members : List (JsString × Value ν)) (name : JsString) (stack : List (Frame ν))
  /-- What follows a value. -/
  | after (v : Value ν) (stack : List (Frame ν))

/-- A value begins. -/
def begin (stack : List (Frame ν)) : Token ν → Option (State ν)
  | .null => some (.after .null stack)
  | .bool b => some (.after (.bool b) stack)
  | .number x => some (.after (.number x) stack)
  | .string s => some (.after (.string s) stack)
  | .openArray => some (.firstElement stack)
  | .openObject => some (.firstName stack)
  | _ => none

/-- One token is read. -/
def step : State ν → Token ν → Option (State ν)
  | .value stack, k => begin stack k
  | .firstElement stack, .closeArray => some (.after (.array []) stack)
  | .firstElement stack, k => begin (.array [] :: stack) k
  | .firstName stack, .closeObject => some (.after (.object []) stack)
  | .firstName stack, .string s => some (.colon [] s stack)
  | .name members stack, .string s => some (.colon members s stack)
  | .colon members s stack, .colon => some (.value (.object members s :: stack))
  | .after v (.array elements :: stack), .comma => some (.value (.array (elements ++ [v]) :: stack))
  | .after v (.array elements :: stack), .closeArray => some (.after (.array (elements ++ [v])) stack)
  | .after v (.object members s :: stack), .comma => some (.name (members ++ [(s, v)]) stack)
  | .after v (.object members s :: stack), .closeObject => some (.after (.object (members ++ [(s, v)])) stack)
  | _, _ => none

/-- The value, at the end. -/
def State.result : State ν → Option (Value ν)
  | .after v [] => some v
  | _ => none

/-- The value a row of tokens is parsed as. -/
def parseTokens (ks : List (Token ν)) : Option (Value ν) := (ks.foldlM step (.value [])).bind State.result

/-! ### What has been read -/

/-- What is in front of a further element. -/
def Frame.read : Frame ν → List (Token ν)
  | .array elements => .openArray :: elements.flatMap fun v => v.tokens ++ [.comma]
  | .object members s => .openObject :: ((members.flatMap fun e => memberTokens e ++ [.comma]) ++ [.string s, .colon])

/-- What is in front of the value on top of a stack. -/
def stackRead : List (Frame ν) → List (Token ν)
  | [] => []
  | f :: stack => stackRead stack ++ f.read

/-- The tokens that lead to a state. -/
def State.read : State ν → List (Token ν)
  | .value stack => stackRead stack
  | .firstElement stack => stackRead stack ++ [.openArray]
  | .firstName stack => stackRead stack ++ [.openObject]
  | .name members stack => stackRead stack ++ .openObject :: members.flatMap fun e => memberTokens e ++ [.comma]
  | .colon members s stack =>
    stackRead stack ++ .openObject :: ((members.flatMap fun e => memberTokens e ++ [.comma]) ++ [.string s])
  | .after v stack => stackRead stack ++ v.tokens

theorem intercalate_concat {α : Type} (x : α) (l : List (List α)) (a : List α) :
    [x].intercalate (l ++ [a]) = (l.flatMap fun b => b ++ [x]) ++ a := by
  induction l with
  | nil => simp
  | cons b l ih =>
    cases l with
    | nil => simp
    | cons c l =>
      rw [List.cons_append, List.cons_append, List.intercalate_cons_cons, ← List.cons_append, ih,
        ← List.append_assoc]
      rfl

theorem tokens_array_concat (l : List (Value ν)) (v : Value ν) :
    (Value.array (l ++ [v])).tokens = (Frame.array l).read ++ (v.tokens ++ [.closeArray]) := by
  rw [tokens_array, List.map_append, List.map_singleton, intercalate_concat, List.flatMap_map, Frame.read,
    List.cons_append, List.append_assoc]

theorem tokens_object_concat (l : List (JsString × Value ν)) (s : JsString) (v : Value ν) :
    (Value.object (l ++ [(s, v)])).tokens = (Frame.object l s).read ++ (v.tokens ++ [.closeObject]) := by
  rw [tokens_object, List.map_append, List.map_singleton, intercalate_concat, List.flatMap_map, Frame.read,
    List.cons_append, List.append_assoc, List.append_assoc]
  rfl

theorem begin_read {stack : List (Frame ν)} {k : Token ν} {q : State ν} (h : begin stack k = some q) :
    q.read = stackRead stack ++ [k] := by
  cases k <;> cases h <;> rfl

/-- **The machine forgets nothing.** -/
theorem step_read {q q' : State ν} {k : Token ν} (h : step q k = some q') : q'.read = q.read ++ [k] := by
  cases q with
  | value stack => exact begin_read h
  | firstElement stack =>
    by_cases hk : k = .closeArray
    · subst hk
      cases h
      rw [State.read, State.read, List.append_assoc]
      rfl
    · have hbegin : begin (.array [] :: stack) k = some q' := by
        cases k <;> first | exact absurd rfl hk | exact h
      rw [begin_read hbegin]
      rfl
  | firstName stack =>
    cases k <;> cases h
    · rw [State.read, State.read, List.append_assoc]
      rfl
    · rw [State.read, State.read, List.append_assoc]
      rfl
  | name members stack =>
    cases k <;> cases h
    rw [State.read, State.read, List.append_assoc, List.cons_append]
  | colon members s stack =>
    cases k <;> cases h
    simp [State.read, stackRead, Frame.read]
  | after v stack =>
    cases stack with
    | nil => cases h
    | cons f stack =>
      cases f with
      | array elements =>
        cases k <;> cases h
        · rw [State.read, tokens_array_concat, State.read, stackRead, List.append_assoc, List.append_assoc]
        · simp [State.read, stackRead, Frame.read]
      | object members s =>
        cases k <;> cases h
        · rw [State.read, tokens_object_concat, State.read, stackRead, List.append_assoc, List.append_assoc]
        · simp [State.read, stackRead, Frame.read, memberTokens]

theorem run_read {q q' : State ν} {ks : List (Token ν)} (h : ks.foldlM step q = some q') : q'.read = q.read ++ ks := by
  induction ks generalizing q with
  | nil =>
    cases h
    exact (List.append_nil _).symm
  | cons k ks ih =>
    rw [List.foldlM_cons] at h
    obtain ⟨q₁, hstep, hrun⟩ := Option.bind_eq_some_iff.mp h
    rw [ih hrun, step_read hstep, List.append_assoc]
    rfl

/-! ### A value is read -/

theorem tokens_ne_nil (v : Value ν) : ∃ k ks, v.tokens = k :: ks ∧ k ≠ .closeArray := by
  cases v <;> exact ⟨_, _, rfl, nofun⟩

/-- The first element of an array is read as any other. -/
theorem run_firstElement {v : Value ν} {stack : List (Frame ν)} (ks : List (Token ν)) :
    (v.tokens ++ ks).foldlM step (.firstElement stack) =
      (v.tokens ++ ks).foldlM step (.value (.array [] :: stack)) := by
  obtain ⟨k, ks', hks, hk⟩ := tokens_ne_nil v
  have hstep : step (.firstElement stack) k = step (.value (.array [] :: stack)) k := by
    cases k <;> first | exact absurd rfl hk | rfl
  rw [hks, List.cons_append, List.foldlM_cons, List.foldlM_cons, hstep]

theorem run_elements {v : Value ν} {l : List (Value ν)}
    (h : ∀ w ∈ v :: l, ∀ stack, w.tokens.foldlM step (.value stack) = some (.after w stack))
    (before : List (Value ν)) (stack : List (Frame ν)) :
    ([Token.comma].intercalate ((v :: l).map Value.tokens) ++ [Token.closeArray]).foldlM step
      (.value (.array before :: stack)) = some (.after (.array (before ++ v :: l)) stack) := by
  induction l generalizing v before with
  | nil =>
    rw [List.map_singleton, List.intercalate_singleton, List.foldlM_append, h v List.mem_cons_self]
    rfl
  | cons w l ih =>
    have hrest := ih (fun w' hw => h w' (List.mem_cons_of_mem v hw)) (before ++ [v])
    rw [List.append_assoc, List.singleton_append] at hrest
    rw [List.map_cons, List.map_cons, List.intercalate_cons_cons, ← List.map_cons, List.append_assoc, List.append_assoc,
      List.foldlM_append, h v List.mem_cons_self, ← hrest]
    rfl

theorem run_member {e : JsString × Value ν}
    (h : ∀ stack, e.2.tokens.foldlM step (.value stack) = some (.after e.2 stack))
    (before : List (JsString × Value ν)) (stack : List (Frame ν)) :
    (memberTokens e).foldlM step (.name before stack) = some (.after e.2 (.object before e.1 :: stack)) := by
  rw [← h (.object before e.1 :: stack)]
  rfl

theorem run_members {e : JsString × Value ν} {l : List (JsString × Value ν)}
    (h : ∀ e' ∈ e :: l, ∀ stack, e'.2.tokens.foldlM step (.value stack) = some (.after e'.2 stack))
    (before : List (JsString × Value ν)) (stack : List (Frame ν)) :
    ([Token.comma].intercalate ((e :: l).map memberTokens) ++ [Token.closeObject]).foldlM step (.name before stack) =
      some (.after (.object (before ++ e :: l)) stack) := by
  induction l generalizing e before with
  | nil =>
    rw [List.map_singleton, List.intercalate_singleton, List.foldlM_append, run_member (h e List.mem_cons_self)]
    rfl
  | cons e' l ih =>
    have hrest := ih (fun e'' he => h e'' (List.mem_cons_of_mem e he)) (before ++ [e])
    rw [List.append_assoc, List.singleton_append] at hrest
    rw [List.map_cons, List.map_cons, List.intercalate_cons_cons, ← List.map_cons, List.append_assoc, List.append_assoc,
      List.foldlM_append, run_member (h e List.mem_cons_self), ← hrest]
    rfl

/-- **The tokens of a value are read as the value**, wherever it stands. -/
theorem run_tokens (v : Value ν) (stack : List (Frame ν)) :
    v.tokens.foldlM step (.value stack) = some (.after v stack) := by
  induction v using Value.induct generalizing stack with
  | null => rfl
  | bool b => rfl
  | number x => rfl
  | string s => rfl
  | array l ih =>
    cases l with
    | nil => rfl
    | cons v l =>
      have hrest := run_elements ih [] stack
      rw [List.nil_append] at hrest
      rw [tokens_array, ← hrest]
      cases l with
      | nil =>
        rw [List.map_singleton, List.intercalate_singleton, ← run_firstElement]
        rfl
      | cons w l =>
        rw [List.map_cons, List.map_cons, List.intercalate_cons_cons, List.append_assoc, List.append_assoc,
          ← run_firstElement]
        rfl
  | object l ih =>
    cases l with
    | nil => rfl
    | cons e l =>
      have hrest := run_members ih [] stack
      rw [List.nil_append] at hrest
      rw [tokens_object, ← hrest]
      cases l with
      | nil => rfl
      | cons e' l => rfl

/-! ### The parser -/

/-- **The parser accepts the tokens of values**, and no others. -/
theorem parseTokens_eq_some_iff {ks : List (Token ν)} {v : Value ν} : parseTokens ks = some v ↔ ks = v.tokens := by
  constructor
  · intro h
    obtain ⟨q, hrun, hresult⟩ := Option.bind_eq_some_iff.mp h
    have hread := run_read hrun
    cases q with
    | after w stack =>
      cases stack with
      | nil =>
        cases hresult
        exact hread.symm
      | cons f stack => cases hresult
    | value | firstElement | firstName | name | colon => cases hresult
  · rintro rfl
    rw [parseTokens, run_tokens]
    rfl

/-! ### Numbers stand apart -/

/-- No number follows a number. -/
def Apart : List (Token ν) → Prop
  | a :: b :: ks => (a.isNumber = true → b.isNumber = false) ∧ Apart (b :: ks)
  | _ => True

theorem step_number {q q' : State ν} {k : Token ν} (hk : k.isNumber = true) (h : step q k = some q') :
    ∃ v stack, q' = .after v stack := by
  cases k <;> cases hk
  cases q with
  | value | firstElement =>
    cases h
    exact ⟨_, _, rfl⟩
  | firstName | name | colon => cases h
  | after v stack => rcases stack with _ | ⟨_ | _, _⟩ <;> cases h

theorem step_after_isNumber {v : Value ν} {stack : List (Frame ν)} {q : State ν} {k : Token ν}
    (h : step (.after v stack) k = some q) : k.isNumber = false := by
  cases k with
  | number => rcases stack with _ | ⟨_ | _, _⟩ <;> cases h
  | _ => rfl

theorem apart_of_run {q q' : State ν} {ks : List (Token ν)} (h : ks.foldlM step q = some q') : Apart ks := by
  induction ks generalizing q with
  | nil => trivial
  | cons a ks ih =>
    rw [List.foldlM_cons] at h
    obtain ⟨q₁, hstep, hrun⟩ := Option.bind_eq_some_iff.mp h
    cases ks with
    | nil => trivial
    | cons b ks =>
      refine ⟨?_, ih hrun⟩
      intro ha
      obtain ⟨v, stack, rfl⟩ := step_number ha hstep
      rw [List.foldlM_cons] at hrun
      obtain ⟨q₂, hnext, -⟩ := Option.bind_eq_some_iff.mp hrun
      exact step_after_isNumber hnext

theorem apart_tokens (v : Value ν) : Apart v.tokens := apart_of_run (run_tokens v [])

end NestDdd.Json
