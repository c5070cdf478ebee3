import NestDdd.Shared.Js

/-!
# Problems, envelopes and the values that are told apart

`src/shared/problem.ts` and `src/shared/helpers.ts`: which errors can be presented to a client, and
which values are envelopes or results. The tests go by shape, as the source's do, and take any
value.

## The model

A `JsValue` has no methods, so an `ErrorValue` adds the two the service calls on an error:
`toProblem`, with what becomes of the call, and the answer of an `HttpException`. A call of
`toProblem` comes to the same each time.
-/

namespace NestDdd.Shared

namespace JsValue

/-- `Array.isArray(value)`. -/
def isArray : JsValue → Bool
  | .object (.other "Array") _ => true
  | _ => false

/-- `typeof value === 'object' && value !== null`. -/
def isObject : JsValue → Bool
  | .object _ _ => true
  | _ => false

/-- `isRecord`. -/
def isRecord (v : JsValue) : Bool := v.isObject && !v.isArray

/-- `typeof value === 'string'`. -/
def isString : JsValue → Bool
  | .string _ => true
  | _ => false

/-- `typeof value === 'boolean'`. -/
def isBool : JsValue → Bool
  | .bool _ => true
  | _ => false

/-- `value === true`. -/
def isTrue : JsValue → Bool
  | .bool b => b
  | _ => false

/-- `value === undefined`. -/
def isUndefined : JsValue → Bool
  | .undefined => true
  | _ => false

/-- The properties of an object. -/
def props : JsValue → List (String × JsValue)
  | .object _ props => props
  | _ => []

/-- The elements of an array. -/
def elements (v : JsValue) : List JsValue := v.props.map (·.2)

/-- `value.join(separator)`. -/
def join (v : JsValue) (separator : JsString) : JsString :=
  (v.elements.map fun x => (x.orElse (.string [])).text).intersperse separator |>.flatten

/-- `{ ...a, ...b }`. -/
def spread (a b : JsValue) : JsValue :=
  .object .plain (b.props ++ a.props.filter fun p => (b.props.lookup p.1).isNone)

/-- An object without one of its properties. -/
def erase (v : JsValue) (key : String) : JsValue :=
  match v with
  | .object cls props => .object cls (props.filter fun p => p.1 != key)
  | _ => v

/-- An object with one of its properties set. -/
def set (v : JsValue) (key : String) (value : JsValue) : JsValue :=
  match v with
  | .object cls props => .object cls ((key, value) :: props.filter fun p => p.1 != key)
  | _ => v

theorem lookup_filter_ne {key k : String} (hk : k ≠ key) (ps : List (String × JsValue)) :
    (ps.filter fun p => p.1 != key).lookup k = ps.lookup k := by
  induction ps with
  | nil => rfl
  | cons p ps ih =>
    obtain ⟨k', v⟩ := p
    by_cases hk' : k' = key
    · subst hk'
      have hne : (k == k') = false := by simpa using hk
      rw [List.filter_cons_of_neg (by simp), List.lookup_cons, hne, ih]
    · rw [List.filter_cons_of_pos (by simpa using hk'), List.lookup_cons, List.lookup_cons, ih]

theorem get_set_ne (v : JsValue) {key k : String} (hk : k ≠ key) (value : JsValue) :
    (v.set key value).get k = v.get k := by
  cases v with
  | object cls ps =>
    have hne : (k == key) = false := by simpa using hk
    simp only [set, get, List.lookup_cons, hne, lookup_filter_ne hk]
  | _ => rfl

theorem get_erase_ne (v : JsValue) {key k : String} (hk : k ≠ key) : (v.erase key).get k = v.get k := by
  cases v with
  | object cls ps => simp only [erase, get, lookup_filter_ne hk]
  | _ => rfl

end JsValue

/-! ### Envelopes and results -/

/-- `isEnvelope`. -/
def isEnvelope (v : JsValue) : Bool :=
  v.isRecord && v.has "success" && (v.get "success").isBool && v.has "meta" && (v.get "meta").isRecord

/-- `isResultLike`. -/
def isResultLike (v : JsValue) : Bool :=
  v.isRecord && v.has "ok" &&
    match v.get "ok" with
    | .bool true => v.has "value"
    | .bool false => v.has "error"
    | _ => false

/-! ### Errors -/

/-- What calling an error's `toProblem` comes to. -/
inductive ToProblem where
  /-- It throws. -/
  | throws
  /-- It returns a value. -/
  | returns (v : JsValue)

/-- What an `HttpException` answers with. -/
structure HttpAnswer where
  /-- `getStatus()`. -/
  status : ℤ
  /-- `getResponse()`. -/
  response : JsValue

/-- A value that is thrown, or that a failed `Result` carries. -/
structure ErrorValue where
  /-- The value. -/
  value : JsValue
  /-- Its `toProblem`, if that is a function. -/
  toProblem : Option ToProblem
  /-- Its answer, if it is an `HttpException`. -/
  http : Option HttpAnswer
  /-- Where the chain of its causes comes back to, if it does: the value itself, or one of its causes by number. -/
  loop : Option ℕ := none

theorem JsValue.isError_set (v : JsValue) (key : String) (value : JsValue) :
    (v.set key value).isError = v.isError := by
  cases v with
  | object cls props =>
    cases cls with
    | other name =>
      by_cases hname : name = "HttpException"
      · subst hname
        rfl
      · simp [JsValue.isError, JsValue.set, hname]
    | _ => rfl
  | _ => rfl

/-- `error instanceof Error`. -/
def ErrorValue.isError (e : ErrorValue) : Bool := e.http.isSome || e.value.isError

/-- `isProblemLike`. -/
def isProblemLike (v : JsValue) : Bool :=
  v.isObject && (v.get "kind").isString && (v.get "type").isString && (v.get "title").isString &&
    ((v.get "detail").isUndefined || (v.get "detail").isString)

/-- `isPresentableError`. -/
def isPresentableError (e : ErrorValue) : Bool :=
  e.value.isObject &&
    match e.toProblem with
    | some (.returns v) => isProblemLike v
    | _ => false

/-- `APP_NAME`. -/
def APP_NAME : String := "nestjs-ddd-lean"

/-- A value of `ProblemTypes`. -/
def problemType (word : String) : JsValue := .string s!"urn:{APP_NAME}:problem:{word}"

end NestDdd.Shared
