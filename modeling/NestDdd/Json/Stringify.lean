import Mathlib.Data.List.Sort
import NestDdd.Json.Lexer
import NestDdd.Shared.Utf8
import NestDdd.Theory.OrderedMap

/-!
# `JSON.stringify` and `JSON.parse`

An object's properties are listed with the array indices first, in their order, then the other keys in the order in
which they were made. `JSON.stringify` writes them so, without white space; `JSON.parse` reads any text of JSON, and
of the members with one name keeps the last.

## What is proved

* `stringText_quote` — a string is written with escapes that are read back as the string.
* `isTextOf_write` — **what is written is a text of the value**.
* `wellFormed_write` — it has no lone surrogate.
-/

namespace NestDdd.Json

open NestDdd.Shared NestDdd.Theory

variable {ν μ : Type}

/-! ### Strings -/

/-- A hexadecimal digit below 16, in lower case. -/
def hexDigit (d : ℕ) : UInt16 := UInt16.ofNat (if d < 10 then 0x30 + d else 0x57 + d)

/-- `UnicodeEscape(u)`. -/
def unicodeEscape (u : UInt16) : JsString :=
  [0x5C, 0x75, hexDigit (u.toNat / 4096), hexDigit (u.toNat / 256 % 16), hexDigit (u.toNat / 16 % 16),
    hexDigit (u.toNat % 16)]

/-- The characters that have an escape of their own, and what stands behind its backslash. -/
def shortEscapes : List (UInt16 × UInt16) :=
  [(0x8, 0x62), (0x9, 0x74), (0xA, 0x6E), (0xC, 0x66), (0xD, 0x72), (0x22, 0x22), (0x5C, 0x5C)]

/-- One character of a string. -/
def quoteChar : JsString → JsString
  | [u] =>
    match shortEscapes.lookup u with
    | some c => [0x5C, c]
    | none => if u < 0x20 || JsString.isHigh u || JsString.isLow u then unicodeEscape u else [u]
  | c => c

/-- `QuoteJSONString(s)`. -/
def quote (s : JsString) : JsString := 0x22 :: (s.chars.flatMap quoteChar ++ [0x22])

variable {s t : JsString} {u v : UInt16}

theorem hexValue_hexDigit {d : ℕ} (h : d < 16) : hexValue (hexDigit d) = some d := by
  interval_cases d <;> rfl

theorem charText_unicodeEscape (u : UInt16) : CharText u (unicodeEscape u) := by
  have hlt : u.toNat < 65536 := u.toNat_lt
  apply CharText.hex
  rw [hexUnit, hexValue_hexDigit (by omega), hexValue_hexDigit (by omega), hexValue_hexDigit (by omega),
    hexValue_hexDigit (by omega)]
  simp only [Option.some.injEq]
  rw [show ((u.toNat / 4096 * 16 + u.toNat / 256 % 16) * 16 + u.toNat / 16 % 16) * 16 + u.toNat % 16 = u.toNat by omega,
    UInt16.ofNat_toNat]

theorem charText_plain (hquote : shortEscapes.lookup u = none) (hcontrol : ¬u < 0x20) : CharText u [u] := by
  refine .plain ?_ ?_ hcontrol
  · rintro rfl
    cases hquote
  · rintro rfl
    cases hquote

theorem lookup_escapes {c : UInt16} (h : shortEscapes.lookup u = some c) : escapes.lookup c = some u := by
  have hmem : (u, c) ∈ shortEscapes := (lookup_eq_some_iff (by decide)).mp h
  simp only [shortEscapes, List.mem_cons, List.not_mem_nil, or_false, Prod.mk.injEq] at hmem
  rcases hmem with ⟨rfl, rfl⟩ | ⟨rfl, rfl⟩ | ⟨rfl, rfl⟩ | ⟨rfl, rfl⟩ | ⟨rfl, rfl⟩ | ⟨rfl, rfl⟩ | ⟨rfl, rfl⟩ <;> rfl

theorem charText_quoteChar (u : UInt16) : CharText u (quoteChar [u]) := by
  rw [quoteChar]
  split
  · next c hc => exact .escape (lookup_escapes hc)
  · next hnone =>
    split
    · exact charText_unicodeEscape u
    · next hplain =>
      simp only [Bool.or_eq_true, not_or, decide_eq_true_eq] at hplain
      exact charText_plain hnone hplain.1.1

/-- Surrogates are written as they are if they stand in pairs. -/
theorem charText_surrogate (h : JsString.isHigh u = true ∨ JsString.isLow u = true) : CharText u [u] := by
  have hle := (surrogate_iff.mp h).1
  refine .plain ?_ ?_ ?_
  · rintro rfl
    exact absurd hle (by decide)
  · rintro rfl
    exact absurd hle (by decide)
  · rw [UInt16.lt_iff_toNat_lt]
    change ¬u.toNat < 32
    omega

/-- **A string is written as one.** -/
theorem stringText_quote (s : JsString) : StringText s (quote s) := by
  have hpieces : ∃ pieces, List.Forall₂ CharText s pieces ∧ s.chars.flatMap quoteChar = pieces.flatten := by
    fun_induction JsString.chars s with
    | case1 => exact ⟨[], .nil, rfl⟩
    | case2 u => exact ⟨[quoteChar [u]], .cons (charText_quoteChar u) .nil, by simp⟩
    | case3 u v s hpair ih =>
      obtain ⟨pieces, hpieces, hflat⟩ := ih
      rw [Bool.and_eq_true] at hpair
      refine ⟨[u] :: [v] :: pieces, .cons (charText_surrogate (.inl hpair.1))
        (.cons (charText_surrogate (.inr hpair.2)) hpieces), ?_⟩
      rw [List.flatMap_cons, hflat]
      rfl
    | case4 u v s hpair ih =>
      obtain ⟨pieces, hpieces, hflat⟩ := ih
      refine ⟨quoteChar [u] :: pieces, .cons (charText_quoteChar u) hpieces, ?_⟩
      rw [List.flatMap_cons, hflat, List.flatten_cons]
  obtain ⟨pieces, hpieces, hflat⟩ := hpieces
  exact ⟨pieces, hpieces, by rw [quote, hflat]⟩

theorem hexDigit_lt {d : ℕ} (h : d < 16) : (hexDigit d).toNat < 0x80 := by
  interval_cases d <;> decide

theorem wellFormed_unicodeEscape (u : UInt16) : WellFormed (unicodeEscape u) := by
  have hlt : u.toNat < 65536 := u.toNat_lt
  apply wellFormed_of_ascii
  simp only [unicodeEscape, List.forall_mem_cons]
  exact ⟨by decide, by decide, hexDigit_lt (by omega), hexDigit_lt (by omega), hexDigit_lt (by omega),
    hexDigit_lt (by omega), fun _ hm => absurd hm List.not_mem_nil⟩

/-- A quoted string has no lone surrogate. -/
theorem wellFormed_quoteChars (s : JsString) : WellFormed (s.chars.flatMap quoteChar) := by
  have hchar : ∀ u, WellFormed (quoteChar [u]) := by
    intro u
    rw [quoteChar]
    split
    · next c hc =>
      have hmem : (u, c) ∈ shortEscapes := (lookup_eq_some_iff (by decide)).mp hc
      simp only [shortEscapes, List.mem_cons, List.not_mem_nil, or_false, Prod.mk.injEq] at hmem
      rcases hmem with ⟨-, rfl⟩ | ⟨-, rfl⟩ | ⟨-, rfl⟩ | ⟨-, rfl⟩ | ⟨-, rfl⟩ | ⟨-, rfl⟩ | ⟨-, rfl⟩ <;>
        exact .unit rfl rfl (.unit rfl rfl .nil)
    · split
      · exact wellFormed_unicodeEscape u
      · next hplain =>
        simp only [Bool.or_eq_true, not_or, Bool.not_eq_true] at hplain
        exact .unit hplain.1.2 hplain.2 .nil
  fun_induction JsString.chars s with
  | case1 => exact .nil
  | case2 u => exact (List.flatMap_singleton ..) ▸ hchar u
  | case3 u v s hpair ih =>
    rw [Bool.and_eq_true] at hpair
    exact .pair hpair.1 hpair.2 ih
  | case4 u v s _ ih => exact (hchar u).append ih

/-! ### Values -/

mutual

/-- `SerializeJSONProperty`, for properties in their order: `text` writes a number. -/
def Value.write (text : ν → JsString) : Value ν → JsString
  | .null => [0x6E, 0x75, 0x6C, 0x6C]
  | .bool b => if b then [0x74, 0x72, 0x75, 0x65] else [0x66, 0x61, 0x6C, 0x73, 0x65]
  | .number x => text x
  | .string s => quote s
  | .array l => 0x5B :: ([0x2C].intercalate (writeElements text l) ++ [0x5D])
  | .object l => 0x7B :: ([0x2C].intercalate (writeMembers text l) ++ [0x7D])

/-- The texts of elements. -/
def writeElements (text : ν → JsString) : List (Value ν) → List JsString
  | [] => []
  | v :: l => v.write text :: writeElements text l

/-- The texts of members. -/
def writeMembers (text : ν → JsString) : List (JsString × Value ν) → List JsString
  | [] => []
  | (k, v) :: l => (quote k ++ 0x3A :: v.write text) :: writeMembers text l

end

theorem writeElements_eq (text : ν → JsString) (l : List (Value ν)) :
    writeElements text l = l.map (Value.write text) := by
  induction l with
  | nil => rfl
  | cons v l ih => rw [writeElements, List.map_cons, ih]

theorem writeMembers_eq (text : ν → JsString) (l : List (JsString × Value ν)) :
    writeMembers text l = l.map fun e => quote e.1 ++ 0x3A :: e.2.write text := by
  induction l with
  | nil => rfl
  | cons e l ih => rw [writeMembers, List.map_cons, ih]

/-! ### What is written is a text of the value -/

variable {ks ks' : List (Token Numeral)} {k : Token Numeral}

theorem spells_token (h : TokenText k t) : Spells [k] t :=
  ⟨[], t, [], fun _ hu => absurd hu List.not_mem_nil, h, fun _ hu => absurd hu List.not_mem_nil, by simp⟩

theorem Spells.append (h : Spells ks s) (h' : Spells ks' t) : Spells (ks ++ ks') (s ++ t) := by
  induction ks generalizing s with
  | nil =>
    cases ks' with
    | nil =>
      intro u hu
      rcases List.mem_append.mp hu with hu | hu
      · exact h u hu
      · exact h' u hu
    | cons k ks' =>
      obtain ⟨w, a, r, hw, ha, hr, rfl⟩ := h'
      refine ⟨s ++ w, a, r, ?_, ha, hr, by rw [List.append_assoc]⟩
      intro u hu
      rcases List.mem_append.mp hu with hu | hu
      · exact h u hu
      · exact hw u hu
  | cons k ks ih =>
    obtain ⟨w, a, r, hw, ha, hr, rfl⟩ := h
    exact ⟨w, a, r ++ t, hw, ha, ih hr, by simp only [List.append_assoc]⟩

/-- Texts with commas between them. -/
theorem spells_intercalate {α : Type} {l : List α} {f : α → List (Token Numeral)} {g : α → JsString}
    (h : ∀ a ∈ l, Spells (f a) (g a)) :
    Spells ([Token.comma].intercalate (l.map f)) ([0x2C].intercalate (l.map g)) := by
  have hcomma : Spells [.comma] [0x2C] := spells_token (by simp [TokenText, fixedTokens])
  induction l with
  | nil => exact fun u hu => absurd hu List.not_mem_nil
  | cons a l ih =>
    have ha := h a List.mem_cons_self
    have hrest := ih fun b hb => h b (List.mem_cons_of_mem a hb)
    cases l with
    | nil => rwa [List.map_singleton, List.map_singleton, List.intercalate_singleton, List.intercalate_singleton]
    | cons b l =>
      rw [List.map_cons, List.map_cons, List.map_cons, List.map_cons, List.intercalate_cons_cons,
        List.intercalate_cons_cons]
      exact (ha.append hcomma).append hrest

/-- Texts between brackets. -/
theorem spells_brackets {a b : UInt16} {o c : Token Numeral} (ho : TokenText o [a]) (hc : TokenText c [b])
    (h : Spells ks s) : Spells (o :: (ks ++ [c])) (a :: (s ++ [b])) :=
  (spells_token ho).append (h.append (spells_token hc))

/-- **What is written is a text of the value.** -/
theorem isTextOf_write {f : ν → Numeral} {text : ν → JsString} (hf : ∀ x, NumeralText (f x) (text x)) (v : Value ν) :
    IsTextOf (v.write text) (v.map f) := by
  induction v using Value.induct with
  | null => exact spells_token (by simp [Value.write, TokenText, fixedTokens])
  | bool b => cases b <;> exact spells_token (by simp [Value.write, TokenText, fixedTokens])
  | number x => exact spells_token (hf x)
  | string s => exact spells_token (stringText_quote s)
  | array l ih =>
    rw [Value.write, writeElements_eq, IsTextOf, Value.map, mapElements_eq, tokens_array, List.map_map]
    apply spells_brackets (by simp [TokenText, fixedTokens]) (by simp [TokenText, fixedTokens])
    exact spells_intercalate ih
  | object l ih =>
    rw [Value.write, writeMembers_eq, IsTextOf, Value.map, mapMembers_eq, tokens_object, List.map_map]
    apply spells_brackets (by simp [TokenText, fixedTokens]) (by simp [TokenText, fixedTokens])
    apply spells_intercalate
    intro e he
    have hname : Spells [.string e.1] (quote e.1) := spells_token (stringText_quote e.1)
    have hcolon : Spells [.colon] [0x3A] := spells_token (by simp [TokenText, fixedTokens])
    exact hname.append (hcolon.append (ih e he))

/-! ### It has no lone surrogate -/

theorem wellFormed_quote (s : JsString) : WellFormed (quote s) :=
  .unit rfl rfl ((wellFormed_quoteChars s).append (.unit rfl rfl .nil))

theorem wellFormed_digits (h : ∀ u ∈ s, isDecimalDigit u = true) : WellFormed s := by
  apply wellFormed_of_ascii
  intro u hu
  have hdigit := h u hu
  rw [isDecimalDigit, Bool.and_eq_true, decide_eq_true_iff, decide_eq_true_iff, UInt16.le_iff_toNat_le,
    UInt16.le_iff_toNat_le] at hdigit
  exact lt_of_le_of_lt hdigit.2 (by decide)

theorem NumeralText.wellFormed {n : Numeral} (h : NumeralText n t) : WellFormed t := by
  obtain ⟨whole, digits, fraction, power, e, hw, hf, hp, rfl, -⟩ := h
  have hminus : WellFormed (minusText n.negative) := by
    cases n.negative with
    | true => exact .unit rfl rfl .nil
    | false => exact .nil
  have hfraction : WellFormed fraction := by
    cases hf with
    | none => exact .nil
    | some h => exact .unit rfl rfl (wellFormed_digits h.2)
  have hletter : ∀ {e : UInt16} {r : JsString}, (e = 0x65 ∨ e = 0x45) → WellFormed r → WellFormed (e :: r) := by
    rintro e r (rfl | rfl) hr <;> exact .unit rfl rfl hr
  have hpower : WellFormed power := by
    cases hp with
    | none => exact .nil
    | some he h => exact hletter he (wellFormed_digits h.2)
    | plus he h | minus he h => exact hletter he (.unit rfl rfl (wellFormed_digits h.2))
  exact hminus.append ((wellFormed_digits hw.isDigits.2).append (hfraction.append hpower))

theorem wellFormed_intercalate {l : List JsString} (h : ∀ s ∈ l, WellFormed s) : WellFormed ([0x2C].intercalate l) := by
  induction l with
  | nil => exact .nil
  | cons s l ih =>
    cases l with
    | nil => rw [List.intercalate_singleton]; exact h s List.mem_cons_self
    | cons t l =>
      rw [List.intercalate_cons_cons]
      exact ((h s List.mem_cons_self).append (.unit rfl rfl .nil)).append
        (ih fun t' ht => h t' (List.mem_cons_of_mem s ht))

/-- **What is written has no lone surrogate.** -/
theorem wellFormed_write {text : ν → JsString} (htext : ∀ x, WellFormed (text x)) (v : Value ν) :
    WellFormed (v.write text) := by
  induction v using Value.induct with
  | null => exact wellFormed_of_ascii (by simp [Value.write])
  | bool b => cases b <;> exact wellFormed_of_ascii (by simp [Value.write])
  | number x => exact htext x
  | string s => exact wellFormed_quote s
  | array l ih =>
    rw [Value.write, writeElements_eq]
    apply WellFormed.unit rfl rfl
    refine (wellFormed_intercalate ?_).append (.unit rfl rfl .nil)
    intro s hs
    obtain ⟨v, hv, rfl⟩ := List.mem_map.mp hs
    exact ih v hv
  | object l ih =>
    rw [Value.write, writeMembers_eq]
    apply WellFormed.unit rfl rfl
    refine (wellFormed_intercalate ?_).append (.unit rfl rfl .nil)
    intro s hs
    obtain ⟨e, he, rfl⟩ := List.mem_map.mp hs
    exact (wellFormed_quote e.1).append (.unit rfl rfl (ih e he))

end NestDdd.Json
