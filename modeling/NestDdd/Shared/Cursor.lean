import NestDdd.Json.Objects
import NestDdd.Shared.Base64

/-!
# Cursor tokens

`src/shared/pagination/cursor.ts`: a payload is written as JSON, its UTF-8 as base64url, and `decodeCursor` goes the
same way back and asserts the type of what `JSON.parse` returns.

## What is proved

* `decodeCursor_encodeCursor` — **a payload is read back**, with its keys and values; a negative zero as zero.
* `isCursorPayload_iff` — what `JSON.parse` returns is a payload if and only if the text is of an object whose last
  member of each name is no object and no array.
* `cursor_iff` — **both**, over every payload and every token.
* `null_token` — a token whose text is `null`, which is decoded.
-/

namespace NestDdd.Shared

open NestDdd.Theory NestDdd.Json

variable {ν : Type}

/-! ### The code -/

/-- `string | number | boolean | null`. -/
inductive Scalar (ν : Type) where
  /-- A string. -/
  | string (s : JsString)
  /-- A number. -/
  | number (x : ν)
  /-- A boolean. -/
  | bool (b : Bool)
  /-- `null`. -/
  | null

/-- A scalar as a value. -/
def Scalar.value : Scalar ν → Value ν
  | .string s => .string s
  | .number x => .number x
  | .bool b => .bool b
  | .null => .null

/-- `CursorPayload`, with finite numbers. -/
abbrev CursorPayload := OrderedMap JsString (Scalar Binary64)

/-- The payload as a value. -/
def CursorPayload.value (payload : CursorPayload) : Value Binary64 :=
  .object (payload.entries.map fun e => (e.1, e.2.value))

/-- `encodeCursor`. -/
def encodeCursor (payload : CursorPayload) : JsString := toBase64url (encodeUtf8 (stringify payload.value))

/-- The text of a token. -/
def tokenText (token : JsString) : JsString := decodeUtf8 (fromBase64url token)

/-- `decodeCursor`; `none` if it throws. -/
def decodeCursor (token : JsString) : Option (Value Double) := jsonParse (tokenText token)

/-- What `CursorQuerySchema` accepts as `after` and `before`: `z.string().min(1)`. -/
def acceptsToken (token : JsString) : Bool := decide (1 ≤ token.length)

/-! ### What is expected -/

/-- A flat record. -/
def IsCursorPayload (v : Value ν) : Prop :=
  ∃ members, v = .object members ∧ (members.map Prod.fst).Nodup ∧ ∀ e ∈ members, isScalar e.2 = true

/-- What a scalar is read back as: the same, for `===`. -/
def readBack : Scalar Binary64 → Value Double
  | .string s => .string s
  | .number x => .number (.finite (unsignedZero x))
  | .bool b => .bool b
  | .null => .null

/-- A value with the keys of a payload, and its values. -/
def IsReadBack (payload : CursorPayload) (v : Value Double) : Prop :=
  ∃ members, v = .object members ∧ (members.map Prod.fst).Nodup ∧
    ∀ key, find key members = (payload.get? key).map readBack

/-- A text's value is an object whose last member of each name is a scalar. -/
def Flat (v : Value ν) : Prop :=
  ∃ members, v = .object members ∧ ∀ name w, find name members.reverse = some w → isScalar w = true

/-! ### A payload is read back -/

theorem readBack_eq (numeral : Binary64 → Numeral) (h : ∀ x, (numeral x).toDouble = .finite (unsignedZero x))
    (s : Scalar Binary64) : ((s.value.ordered.map numeral).map Numeral.toDouble).settled = readBack s := by
  cases s with
  | number x => exact congrArg Value.number (h x)
  | string | bool | null => rfl

/-- **A payload is read back.** -/
theorem decodeCursor_encodeCursor (payload : CursorPayload) :
    ∃ v, decodeCursor (encodeCursor payload) = some v ∧ IsReadBack payload v := by
  obtain ⟨numeral, hnumeral, hparse⟩ := parse_stringify
  have hkeys : ((enumerate payload.entries).map Prod.fst).Nodup := by
    rw [keys_enumerate]
    exact (ownKeys_perm _).nodup_iff.mpr payload.nodup
  have hvalue : ((payload.value.ordered.map numeral).map Numeral.toDouble).settled =
      .object ((enumerate payload.entries).map fun e => (e.1, readBack e.2)) := by
    rw [CursorPayload.value, map_ordered_object, enumerate_map, Value.map, mapMembers_eq, Value.settled,
      settledMembers_eq, List.nil_append]
    · simp only [List.map_map]
      congr 1
      apply List.map_congr_left
      intro e _
      exact congrArg (Prod.mk e.1) (readBack_eq numeral hnumeral e.2)
    · simp only [List.nil_append, List.map_map]
      exact hkeys
  refine ⟨_, ?_, ⟨(enumerate payload.entries).map fun e => (e.1, readBack e.2), rfl, ?_, ?_⟩⟩
  · rw [decodeCursor, tokenText, encodeCursor, fromBase64url_toBase64url,
      decodeUtf8_encodeUtf8 (wellFormed_stringify payload.value), jsonParse, hparse, Option.map_some, hvalue]
  · rw [List.map_map]
    exact hkeys
  · intro key
    rw [find_map, find_enumerate]
    rfl

/-! ### What a token is decoded as -/

/-- An object is a payload once its members are settled if and only if the last of each name is a scalar. -/
theorem isCursorPayload_settled (v : Value ν) : IsCursorPayload v.settled ↔ Flat v := by
  have hnodup : ∀ members : List (JsString × Value ν), ((settledMembers [] members).map Prod.fst).Nodup :=
    fun members => nodup_settledMembers List.nodup_nil
  constructor
  · rintro ⟨own, hv, -, hown⟩
    cases v with
    | object members =>
      obtain rfl := Value.object.inj hv
      refine ⟨members, rfl, ?_⟩
      intro name w hw
      have hfind := find_settledMembers name [] members
      rw [hw, Option.map_some, Option.some_or] at hfind
      rw [← isScalar_settled]
      exact hown _ ((find_eq_some_iff (hnodup members)).mp hfind)
    | null | bool | number | string | array => cases hv
  · rintro ⟨members, rfl, hlast⟩
    refine ⟨_, rfl, hnodup members, ?_⟩
    intro e he
    have hfind := find_settledMembers e.1 [] members
    rw [(find_eq_some_iff (hnodup members)).mpr he, find_nil, Option.or_none] at hfind
    obtain ⟨w, hw, heq⟩ := Option.map_eq_some_iff.mp hfind.symm
    rw [← heq, isScalar_settled]
    exact hlast e.1 w hw

theorem flat_map {μ : Type} (f : ν → μ) (v : Value ν) : Flat (v.map f) ↔ Flat v := by
  have hfind : ∀ (name : JsString) (members : List (JsString × Value ν)),
      find name (mapMembers f members).reverse = (find name members.reverse).map (Value.map f) := by
    intro name members
    rw [mapMembers_eq, ← List.map_reverse, find_map]
  constructor
  · rintro ⟨members', hv, hlast⟩
    cases v with
    | object members =>
      obtain rfl := Value.object.inj hv
      refine ⟨members, rfl, ?_⟩
      intro name w hw
      rw [← isScalar_map f]
      apply hlast name
      rw [hfind, hw, Option.map_some]
    | null | bool | number | string | array => cases hv
  · rintro ⟨members, rfl, hlast⟩
    refine ⟨_, rfl, ?_⟩
    intro name w hw
    rw [hfind] at hw
    obtain ⟨w', hw', rfl⟩ := Option.map_eq_some_iff.mp hw
    rw [isScalar_map]
    exact hlast name w' hw'

/-- **A text is parsed as a payload, if it is parsed**, if and only if what it is a text of is flat. -/
theorem isCursorPayload_iff (s : JsString) :
    (∀ v, jsonParse s = some v → IsCursorPayload v) ↔ ∀ v, IsTextOf s v → Flat v := by
  constructor
  · intro h v hv
    have hparse : jsonParse s = some (v.map Numeral.toDouble).settled := by
      rw [jsonParse, parse_eq_some_iff.mpr hv, Option.map_some]
    exact (flat_map _ v).mp ((isCursorPayload_settled _).mp (h _ hparse))
  · intro h v hv
    obtain ⟨raw, hraw, rfl⟩ := Option.map_eq_some_iff.mp hv
    exact (isCursorPayload_settled _).mpr ((flat_map _ raw).mpr (h raw (parse_eq_some_iff.mp hraw)))

/-- **Every payload is read back, and a token is decoded as a payload or not at all** if and only if its text is
of nothing but flat objects. -/
theorem cursor_iff (payload : CursorPayload) (token : JsString) :
    (∃ v, decodeCursor (encodeCursor payload) = some v ∧ IsReadBack payload v) ∧
      ((∀ v, decodeCursor token = some v → IsCursorPayload v) ↔ ∀ v, IsTextOf (tokenText token) v → Flat v) :=
  ⟨decodeCursor_encodeCursor payload, isCursorPayload_iff (tokenText token)⟩

/-- `bnVsbA` is accepted, and its text is `null`. -/
theorem null_token :
    acceptsToken (JsString.ofString "bnVsbA") = true ∧ decodeCursor (JsString.ofString "bnVsbA") = some .null ∧
      ¬IsCursorPayload (.null : Value Double) := by
  refine ⟨by decide, by rfl, ?_⟩
  rintro ⟨members, hv, -⟩
  cases hv

end NestDdd.Shared
