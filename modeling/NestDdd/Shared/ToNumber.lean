import NestDdd.Shared.Numeral

/-!
# Texts as numbers

`Number(text)` of the language, which takes more than the numerals of JSON: white space around the number, a plus sign,
a point without digits on one side, needless zeros, `Infinity`, and integers in base 2, 8 and 16.
-/

namespace NestDdd.Shared

open NestDdd.Theory

/-- A number of the machine, without the sign of a zero. -/
def Number.ofDouble : Double → Number
  | .nan => .nan
  | .infinity negative => if negative then .negInfinity else .infinity
  | .finite x => .finite (if x.negative then -x.magnitude else x.magnitude)

/-- The digits of `StrUnsignedDecimalLiteral`: those before the point, those behind it, and the rest. -/
def scanPoint (s : JsString) : JsString × JsString × JsString :=
  let whole := s.takeWhile isDecimalDigit
  match s.dropWhile isDecimalDigit with
  | [] => (whole, [], [])
  | u :: rest =>
    if u = 0x2E then (whole, rest.takeWhile isDecimalDigit, rest.dropWhile isDecimalDigit) else (whole, [], u :: rest)

/-- `StrUnsignedDecimalLiteral`, behind a sign. -/
def readDecimal (negative : Bool) (s : JsString) : Number :=
  if s = JsString.ofString "Infinity" then .ofDouble (.infinity negative)
  else
    let (whole, fraction, rest) := scanPoint s
    let (power, rest) := scanExponent rest
    if whole ++ fraction = [] ∨ rest ≠ [] then .nan
    else .ofDouble (nearest negative (Decimal.value ⟨digitsValue (whole ++ fraction), power - fraction.length⟩))

/-- What a digit stands for, in a base up to 16. -/
def radixDigit (base : ℕ) (u : UInt16) : Option ℕ :=
  let digit :=
    if isDecimalDigit u then some (digitValue u)
    else if 0x61 ≤ u && u ≤ 0x66 then some (u.toNat - 0x61 + 10)
    else if 0x41 ≤ u && u ≤ 0x46 then some (u.toNat - 0x41 + 10)
    else none
  digit.filter fun d => d < base

/-- `NonDecimalIntegerLiteral`, behind its prefix. -/
def readRadix (base : ℕ) (s : JsString) : Number :=
  match s.mapM (radixDigit base) with
  | some (d :: digits) => .ofDouble (nearest false ((d :: digits).foldl (fun n digit => base * n + digit) 0 : ℕ))
  | _ => .nan

/-- `Number(text)`. -/
def JsString.toNumber (text : JsString) : Number :=
  match JsString.trim text with
  | [] => .finite 0
  | [u] => readDecimal false [u]
  | u :: v :: s =>
    if u = 0x30 ∧ (v = 0x78 ∨ v = 0x58) then readRadix 16 s
    else if u = 0x30 ∧ (v = 0x6F ∨ v = 0x4F) then readRadix 8 s
    else if u = 0x30 ∧ (v = 0x62 ∨ v = 0x42) then readRadix 2 s
    else if u = 0x2B then readDecimal false (v :: s)
    else if u = 0x2D then readDecimal true (v :: s)
    else readDecimal false (u :: v :: s)

end NestDdd.Shared
