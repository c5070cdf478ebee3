import Mathlib.Data.Rat.Defs
import Mathlib.Algebra.Order.Ring.Rat

/-!
# JavaScript values

The values the service's own code looks at: strings of UTF-16 code units, numbers
as far as they are compared, and the dynamically shaped values a promise may
resolve to or a `throw` may carry. Also `Result` (`src/shared/result.ts`), which
is a plain object told apart from other values by its shape only.

A string of the program is a `JsString`; `String` is kept for what the source writes
as a literal, such as the key of a property or the message of a log line.
-/

namespace NestDdd.Shared

/-! ### Strings -/

/-- A string, as its UTF-16 code units. -/
abbrev JsString := List UInt16

namespace JsString

/-- A high surrogate, which starts a pair. -/
def isHigh (u : UInt16) : Bool := 0xD800 ≤ u && u ≤ 0xDBFF

/-- A low surrogate, which ends a pair. -/
def isLow (u : UInt16) : Bool := 0xDC00 ≤ u && u ≤ 0xDFFF

/-- What `for (const char of s)` goes through: a surrogate pair is one character,
a lone surrogate is one by itself. -/
def chars : JsString → List JsString
  | [] => []
  | [u] => [[u]]
  | u :: v :: s => if isHigh u && isLow v then [u, v] :: chars s else [u] :: chars (v :: s)

/-- The UTF-8 bytes of one character; a lone surrogate is written as U+FFFD, in three. -/
def charBytes : JsString → ℕ
  | [u] => if u < 0x80 then 1 else if u < 0x800 then 2 else 3
  | [_, _] => 4
  | _ => 0

/-- `Buffer.byteLength(s, 'utf8')`. -/
def byteLength (s : JsString) : ℕ := (s.chars.map charBytes).foldr (· + ·) 0

/-- White space and line terminators, as `trim` knows them. -/
def isSpace (u : UInt16) : Bool :=
  (0x9 ≤ u && u ≤ 0xD) || u == 0x20 || u == 0xA0 || u == 0x1680 || (0x2000 ≤ u && u ≤ 0x200A) ||
    u == 0x2028 || u == 0x2029 || u == 0x202F || u == 0x205F || u == 0x3000 || u == 0xFEFF

/-- `s.trim()`. -/
def trim (s : JsString) : JsString :=
  ((s.dropWhile isSpace).reverse.dropWhile isSpace).reverse

/-- `s.toLowerCase()`, on ASCII letters. The source lowers the names of headers, which are ASCII, and a word it
compares with ASCII words without a `k`: the Kelvin sign is the one other letter that is lowered into ASCII. -/
def toLowerCase (s : JsString) : JsString := s.map fun u => if 0x41 ≤ u && u ≤ 0x5A then u + 0x20 else u

/-- The code units of a character; above U+FFFF these are a surrogate pair. -/
def ofChar (c : Char) : JsString :=
  if c.toNat < 0x10000 then [UInt16.ofNat c.toNat]
  else [UInt16.ofNat (0xD800 + (c.toNat - 0x10000) / 0x400),
    UInt16.ofNat (0xDC00 + (c.toNat - 0x10000) % 0x400)]

/-- A literal's code units. -/
def ofString (s : String) : JsString := s.toList.flatMap ofChar

instance : Coe String JsString := ⟨ofString⟩

/-- `s.padStart(n, c)` for a single character `c`. -/
def padStart (n : ℕ) (c : UInt16) (s : JsString) : JsString := s.leftpad n c

/-- `a.join('')` of the texts in `a`. -/
def concat (a : List JsString) : JsString := a.flatten

end JsString

/-! ### Numbers -/

/-- A number. -/
inductive Number where
  /-- `NaN`. -/
  | nan
  /-- `Infinity`. -/
  | infinity
  /-- `-Infinity`. -/
  | negInfinity
  /-- A finite number. -/
  | finite (q : ℚ)
  deriving DecidableEq

namespace Number

/-- A natural number as a number. -/
def ofNat (n : ℕ) : Number := .finite n

/-- `n > 0`. -/
def isPositive : Number → Bool
  | .infinity => true
  | .finite q => decide (0 < q)
  | _ => false

end Number

/-! ### Values -/

/-- What `instanceof` can tell of an object. -/
inductive JsClass where
  /-- An object literal. -/
  | plain
  /-- An `Error` that is no error of the application. -/
  | error
  /-- A subclass of `AppError`. -/
  | appError (name : String)
  /-- A subclass of `DomainError`. -/
  | domainError (name : String)
  /-- Any other class. -/
  | other (name : String)
  deriving DecidableEq

/-- A value, by its shape. -/
inductive JsValue where
  /-- `undefined`. -/
  | undefined
  /-- `null`. -/
  | null
  /-- A boolean. -/
  | bool (b : Bool)
  /-- A number that is an integer. -/
  | int (n : ℤ)
  /-- Any other number, as `String(n)` writes it. -/
  | number (text : String)
  /-- A string. -/
  | string (s : JsString)
  /-- An object of a class, with the properties that can be read off it. -/
  | object (cls : JsClass) (props : List (String × JsValue))

namespace JsValue

/-- `value?.key`. -/
def get : JsValue → String → JsValue
  | .object _ props, key => (props.lookup key).getD .undefined
  | _, _ => .undefined

/-- `typeof value === 'object' && value !== null && key in value`. -/
def has : JsValue → String → Bool
  | .object _ props, key => (props.lookup key).isSome
  | _, _ => false

/-- Whether the value counts as true. -/
def truthy : JsValue → Bool
  | .undefined | .null => false
  | .bool b => b
  | .int n => n != 0
  | .number text => text != "NaN"
  | .string s => s != []
  | .object _ _ => true

/-- `a ?? b`. -/
def orElse : JsValue → JsValue → JsValue
  | .undefined, b | .null, b => b
  | a, _ => a

/-- `value instanceof Error`, by its class. -/
def isError : JsValue → Bool
  | .object .error _ | .object (.appError _) _ | .object (.domainError _) _ | .object (.other "HttpException") _ =>
    true
  | _ => false

/-- `Error.prototype.toString`, of a name and a message. -/
def errorText (name message : JsString) : JsString :=
  if name = [] then message else if message = [] then name else name ++ JsString.ofString ": " ++ message

mutual

/-- `String(value)`. -/
def text : JsValue → JsString
  | .undefined => "undefined"
  | .null => "null"
  | .bool b => if b then "true" else "false"
  | .int n => JsString.ofString (toString n)
  | .number text => text
  | .string s => s
  | .object cls props =>
    if cls = .other "Array" then ((itemTexts props).intersperse (JsString.ofString ",")).flatten
    else if isError (.object cls []) then
      errorText ((fieldText "name" props).getD "Error") ((fieldText "message" props).getD [])
    else "[object Object]"

/-- The texts of the elements of an array; `undefined` and `null` have none. -/
def itemTexts : List (String × JsValue) → List JsString
  | [] => []
  | (_, v) :: ps => (match v with | .undefined | .null => [] | v => text v) :: itemTexts ps

/-- The text of a property, unless it is `undefined`. -/
def fieldText (key : String) : List (String × JsValue) → Option JsString
  | [] => none
  | (k, v) :: ps =>
    if k = key then (match v with | .undefined => none | v => some (text v)) else fieldText key ps

end

/-- An array, as an object with its indices. -/
def array (xs : List JsValue) : JsValue :=
  .object (.other "Array") (xs.zipIdx.map fun p => (toString p.2, p.1))

/-- An optional string as a value. -/
def ofOption : Option JsString → JsValue
  | none => .undefined
  | some s => .string s

end JsValue

/-! ### Results -/

namespace Result

/-- `Result.ok(value)`. -/
def ok (value : JsValue) : JsValue := .object .plain [("ok", .bool true), ("value", value)]

/-- `Result.err(error)`. -/
def err (error : JsValue) : JsValue := .object .plain [("ok", .bool false), ("error", error)]

/-- A failed `Result`: an object with `ok: false` and an `error`. -/
def isFailed (v : JsValue) : Bool :=
  (match v.get "ok" with | .bool b => !b | _ => false) && v.has "error"

end Result

/-! ### Log lines -/

/-- The level of a log line. -/
inductive Level where
  | debug
  | info
  | warn
  | error
  deriving DecidableEq

/-- A line handed to the logger port: `logger[level](message, fields)`. -/
structure LogLine where
  /-- The level. -/
  level : Level
  /-- The message. -/
  message : JsString
  /-- The fields that go with it. -/
  fields : List (String × JsValue)

end NestDdd.Shared
