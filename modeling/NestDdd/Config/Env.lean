import NestDdd.Shared.Js

/-!
# Environment variables

The helpers of `src/infrastructure/config/env.util.ts`, which read a variable before
the schema does. A helper answers `undefined` for a variable that is unset or blank,
so that the schema's default applies.
-/

namespace NestDdd.Config

open NestDdd.Shared

/-- `envString`: the trimmed value, unless it is blank. -/
def envString (value : Option JsString) : Option JsString :=
  match value.map JsString.trim with
  | some (u :: s) => some (u :: s)
  | _ => none

/-- What `envBool` hands to the schema. -/
inductive RawBool where
  /-- `undefined`. -/
  | unset
  /-- A boolean. -/
  | bool (b : Bool)
  /-- Any other text, left as it is to fail validation. -/
  | invalid (value : JsString)
  deriving DecidableEq

/-- `envBool`. -/
def envBool (value : Option JsString) : RawBool :=
  match envString value with
  | none => .unset
  | some v =>
    if v.toLowerCase ∈ [JsString.ofString "true", "1", "yes", "on"] then .bool true
    else if v.toLowerCase ∈ [JsString.ofString "false", "0", "no", "off"] then .bool false
    else .invalid (value.getD [])

/-- `z.boolean().default(d)`; `none` is a value the schema refuses. -/
def RawBool.parse (d : Bool) : RawBool → Option Bool
  | .unset => some d
  | .bool b => some b
  | .invalid _ => none

/-- `envList`: the items between commas, trimmed; blank ones are dropped. -/
def envList (value : Option JsString) : Option (List JsString) :=
  (envString value).map fun v => ((v.splitOn 0x2C).map JsString.trim).filter fun item => !item.isEmpty

end NestDdd.Config
