import Mathlib.Data.List.TakeWhile
import NestDdd.Json.Syntax
import NestDdd.Shared.Numeral

/-!
# The text of JSON

How tokens are written, with white space before and behind any of them, and a scanner that takes one token after the
other from the front of a text.

## What is proved

* `scanChars_sound`, `scanChars_complete` — strings, with their escapes.
* `scanToken_sound`, `scanToken_complete` — one token.
* `parse_eq_some_iff` — **a text is parsed as a value if and only if it is a text of it**.
-/

namespace NestDdd.Json

open NestDdd.Shared NestDdd.Theory

/-! ### Strings -/

/-- What a hexadecimal digit stands for. -/
def hexValue (u : UInt16) : Option ℕ :=
  if isDecimalDigit u then some (digitValue u)
  else if 0x61 ≤ u ∧ u ≤ 0x66 then some (u.toNat - 0x57)
  else if 0x41 ≤ u ∧ u ≤ 0x46 then some (u.toNat - 0x37)
  else none

/-- The code unit of four hexadecimal digits. -/
def hexUnit (a b c d : UInt16) : Option UInt16 :=
  match hexValue a, hexValue b, hexValue c, hexValue d with
  | some a, some b, some c, some d => some (UInt16.ofNat (((a * 16 + b) * 16 + c) * 16 + d))
  | _, _, _, _ => none

/-- The short escapes: what stands behind the backslash, and what is meant. -/
def escapes : List (UInt16 × UInt16) :=
  [(0x22, 0x22), (0x5C, 0x5C), (0x2F, 0x2F), (0x62, 0x8), (0x66, 0xC), (0x6E, 0xA), (0x72, 0xD), (0x74, 0x9)]

/-- How one code unit is written. -/
inductive CharText : UInt16 → JsString → Prop where
  | plain {u : UInt16} (hquote : u ≠ 0x22) (hback : u ≠ 0x5C) (hcontrol : ¬u < 0x20) : CharText u [u]
  | escape {c u : UInt16} (h : escapes.lookup c = some u) : CharText u [0x5C, c]
  | hex {a b c d u : UInt16} (h : hexUnit a b c d = some u) : CharText u [0x5C, 0x75, a, b, c, d]

/-- How a string is written. -/
def StringText (s t : JsString) : Prop :=
  ∃ pieces : List JsString, List.Forall₂ CharText s pieces ∧ t = 0x22 :: (pieces.flatten ++ [0x22])

/-- Four hexadecimal digits. -/
def scanHex : JsString → Option (UInt16 × JsString)
  | a :: b :: c :: d :: s => (hexUnit a b c d).map fun u => (u, s)
  | _ => none

/-- What stands behind a backslash. -/
def scanEscape : JsString → Option (UInt16 × JsString)
  | [] => none
  | c :: s => if c = 0x75 then scanHex s else (escapes.lookup c).map fun u => (u, s)

/-- One code unit of a string. -/
def scanChar : JsString → Option (UInt16 × JsString)
  | [] => none
  | u :: s => if u = 0x5C then scanEscape s else if u < 0x20 then none else some (u, s)

/-- At most `n` code units and the closing quote. -/
def scanChars : ℕ → JsString → Option (JsString × JsString)
  | 0, _ => none
  | n + 1, s =>
    if s.head? = some 0x22 then some ([], s.tail)
    else (scanChar s).bind fun p => (scanChars n p.2).map fun q => (p.1 :: q.1, q.2)

/-- A string, after its opening quote. -/
def scanString (s : JsString) : Option (JsString × JsString) := scanChars s.length s

variable {s t r : JsString} {u : UInt16}

theorem scanHex_sound (h : scanHex s = some (u, r)) :
    ∃ a b c d, hexUnit a b c d = some u ∧ s = a :: b :: c :: d :: r := by
  rcases s with _ | ⟨a, _ | ⟨b, _ | ⟨c, _ | ⟨d, s⟩⟩⟩⟩
  case cons.cons.cons.cons =>
    obtain ⟨v, hv, heq⟩ := Option.map_eq_some_iff.mp h
    cases heq
    exact ⟨a, b, c, d, hv, rfl⟩
  all_goals cases h

theorem scanChar_sound (hquote : s.head? ≠ some 0x22) (h : scanChar s = some (u, r)) :
    ∃ t, CharText u t ∧ s = t ++ r := by
  cases s with
  | nil => cases h
  | cons v s =>
    have hv : v ≠ 0x22 := fun hv => hquote (congrArg some hv)
    rw [scanChar] at h
    split at h
    · next hback =>
      subst hback
      cases s with
      | nil => cases h
      | cons c s =>
        rw [scanEscape] at h
        split at h
        · next hu =>
          subst hu
          obtain ⟨a, b, d, e, hhex, rfl⟩ := scanHex_sound h
          exact ⟨_, .hex hhex, rfl⟩
        · obtain ⟨w, hw, heq⟩ := Option.map_eq_some_iff.mp h
          cases heq
          exact ⟨_, .escape hw, rfl⟩
    · next hback =>
      split at h
      · cases h
      · next hcontrol =>
        cases h
        exact ⟨_, .plain hv hback hcontrol, rfl⟩

theorem scanChar_complete (h : CharText u t) (r : JsString) : scanChar (t ++ r) = some (u, r) := by
  cases h with
  | plain _ hback hcontrol => rw [List.singleton_append, scanChar, if_neg hback, if_neg hcontrol]
  | escape h =>
    next c =>
    have hu : c ≠ 0x75 := by
      rintro rfl
      cases h
    rw [List.cons_append, scanChar, if_pos rfl, List.singleton_append, scanEscape, if_neg hu, h, Option.map_some]
  | hex h =>
    change (hexUnit _ _ _ _).map (fun u => (u, r)) = _
    rw [h, Option.map_some]

theorem CharText.head_ne (h : CharText u t) (r : JsString) : (t ++ r).head? ≠ some 0x22 := by
  cases h with
  | plain hquote => exact fun hu => hquote (Option.some.inj hu)
  | escape | hex => exact fun hu => absurd (Option.some.inj hu) (by decide)

theorem scanChars_sound {n : ℕ} {v : JsString} (h : scanChars n s = some (v, r)) :
    ∃ pieces : List JsString, List.Forall₂ CharText v pieces ∧ s = pieces.flatten ++ 0x22 :: r := by
  induction n generalizing s v with
  | zero => cases h
  | succ n ih =>
    rw [scanChars] at h
    split at h
    · next hquote =>
      cases h
      exact ⟨[], .nil, (List.cons_head?_tail hquote).symm⟩
    · next hquote =>
      obtain ⟨⟨u, s'⟩, hchar, hrest⟩ := Option.bind_eq_some_iff.mp h
      obtain ⟨⟨v', r'⟩, hchars, heq⟩ := Option.map_eq_some_iff.mp hrest
      cases heq
      obtain ⟨t, ht, rfl⟩ := scanChar_sound hquote hchar
      obtain ⟨pieces, hpieces, rfl⟩ := ih hchars
      exact ⟨t :: pieces, .cons ht hpieces, by rw [List.flatten_cons, List.append_assoc]⟩

theorem scanChars_complete {n : ℕ} {pieces : List JsString} (h : List.Forall₂ CharText s pieces)
    (hn : pieces.length < n) (r : JsString) : scanChars n (pieces.flatten ++ 0x22 :: r) = some (s, r) := by
  induction h generalizing n with
  | nil =>
    obtain ⟨n, rfl⟩ := Nat.exists_eq_succ_of_ne_zero hn.ne'
    rfl
  | cons hu _ ih =>
    obtain ⟨n, rfl⟩ := Nat.exists_eq_succ_of_ne_zero (Nat.ne_zero_of_lt hn)
    have hrest := ih (Nat.lt_of_succ_lt_succ hn)
    rw [List.flatten_cons, List.append_assoc, scanChars, if_neg (hu.head_ne _), scanChar_complete hu, Option.bind_some,
      hrest, Option.map_some]

theorem CharText.length_pos (h : CharText u t) : 0 < t.length := by
  cases h <;> exact Nat.succ_pos _

theorem length_le_flatten {pieces : List JsString} (h : List.Forall₂ CharText s pieces) :
    pieces.length ≤ pieces.flatten.length := by
  induction h with
  | nil => exact Nat.le_refl _
  | cons hu _ ih =>
    have hpos := hu.length_pos
    rw [List.flatten_cons, List.length_append, List.length_cons]
    omega

theorem scanString_complete {pieces : List JsString} (h : List.Forall₂ CharText s pieces) (r : JsString) :
    scanString (pieces.flatten ++ 0x22 :: r) = some (s, r) := by
  apply scanChars_complete h
  have hle := length_le_flatten h
  rw [List.length_append, List.length_cons]
  omega

/-! ### Tokens -/

/-- The tokens that are always written alike. -/
def fixedTokens {ν : Type} : List (JsString × Token ν) :=
  [([0x5B], .openArray), ([0x5D], .closeArray), ([0x7B], .openObject), ([0x7D], .closeObject), ([0x2C], .comma),
    ([0x3A], .colon), ([0x6E, 0x75, 0x6C, 0x6C], .null), ([0x74, 0x72, 0x75, 0x65], .bool true),
    ([0x66, 0x61, 0x6C, 0x73, 0x65], .bool false)]

/-- How a token is written. -/
def TokenText : Token Numeral → JsString → Prop
  | .number n, t => NumeralText n t
  | .string s, t => StringText s t
  | k, t => (t, k) ∈ fixedTokens

/-- A token that is always written alike, in front. -/
def scanFixed {ν : Type} (s : JsString) : Option (Token ν × JsString) :=
  fixedTokens.findSome? fun p => if p.1.isPrefixOf s then some (p.2, s.drop p.1.length) else none

/-- A string or a number in front. -/
def scanOther (s : JsString) : Option (Token Numeral × JsString) :=
  if s.head? = some 0x22 then (scanString s.tail).map fun p => (.string p.1, p.2)
  else (scanNumeral s).map fun p => (.number p.1, p.2)

/-- The token in front, and the rest. -/
def scanToken (s : JsString) : Option (Token Numeral × JsString) := (scanFixed s).or (scanOther s)

theorem scanFixed_complete {ν : Type} {k : Token ν} (h : (t, k) ∈ fixedTokens) (r : JsString) :
    scanFixed (t ++ r) = some (k, r) := by
  simp only [fixedTokens, List.mem_cons, List.not_mem_nil, or_false, Prod.mk.injEq] at h
  rcases h with ⟨rfl, rfl⟩ | ⟨rfl, rfl⟩ | ⟨rfl, rfl⟩ | ⟨rfl, rfl⟩ | ⟨rfl, rfl⟩ | ⟨rfl, rfl⟩ | ⟨rfl, rfl⟩ | ⟨rfl, rfl⟩ |
    ⟨rfl, rfl⟩ <;> rfl

theorem scanFixed_sound {ν : Type} {k : Token ν} (h : scanFixed s = some (k, r)) :
    ∃ t, (t, k) ∈ fixedTokens ∧ s = t ++ r := by
  obtain ⟨p, hp, hfound⟩ := List.exists_of_findSome?_eq_some h
  split at hfound
  · next hprefix =>
    cases hfound
    obtain ⟨rest, rfl⟩ := List.isPrefixOf_iff_prefix.mp hprefix
    exact ⟨p.1, hp, by rw [List.drop_left]⟩
  · cases hfound

/-- No fixed token begins as a string does, or a number, or as a number goes on, or with white space. -/
theorem fixedTokens_head {ν : Type} {p : JsString × Token ν} (h : p ∈ fixedTokens) :
    ∃ u s, p.1 = u :: s ∧ isDecimalDigit u = false ∧ u ∉ [0x22, 0x2D, 0x2E, 0x65, 0x45, 0x20, 0x9, 0xA, 0xD] := by
  simp only [fixedTokens, List.mem_cons, List.not_mem_nil, or_false] at h
  rcases h with rfl | rfl | rfl | rfl | rfl | rfl | rfl | rfl | rfl <;> exact ⟨_, _, rfl, rfl, by decide⟩

theorem scanFixed_eq_none {ν : Type} (h : isDecimalDigit u = true ∨ u ∈ [0x22, 0x2D]) :
    scanFixed (ν := ν) (u :: s) = none := by
  apply List.findSome?_eq_none_iff.mpr
  intro p hp
  obtain ⟨v, s', hv, hdigit, hnot⟩ := fixedTokens_head hp
  rw [hv, if_neg]
  intro hprefix
  obtain ⟨rest, heq⟩ := List.isPrefixOf_iff_prefix.mp hprefix
  obtain rfl : v = u := (List.cons_eq_cons.mp heq).1
  rcases h with h | h
  · exact absurd h (by rw [hdigit]; exact Bool.false_ne_true)
  · apply hnot
    rcases List.mem_cons.mp h with rfl | h
    · exact List.mem_cons_self
    · rw [List.mem_singleton.mp h]
      exact List.mem_cons_of_mem _ List.mem_cons_self

theorem NumeralText.head {n : Numeral} (h : NumeralText n t) :
    ∃ u s, t = u :: s ∧ (isDecimalDigit u = true ∨ u = 0x2D) := by
  obtain ⟨whole, digits, fraction, power, e, hw, -, -, rfl, -⟩ := h
  obtain ⟨u, s, rfl, hu⟩ := hw.isDigits.cons_head
  cases n.negative with
  | true => exact ⟨_, _, rfl, .inr rfl⟩
  | false => exact ⟨_, _, rfl, .inl hu⟩

/-- **What is scanned is a token.** -/
theorem scanToken_sound {k : Token Numeral} (h : scanToken s = some (k, r)) : ∃ t, TokenText k t ∧ s = t ++ r := by
  rcases Option.or_eq_some_iff.mp h with hfixed | ⟨-, hother⟩
  · obtain ⟨t, ht, hs⟩ := scanFixed_sound hfixed
    refine ⟨t, ?_, hs⟩
    cases k with
    | number | string => simp [fixedTokens] at ht
    | _ => exact ht
  · rw [scanOther] at hother
    split at hother
    · next hquote =>
      obtain ⟨p, hscan, hp⟩ := Option.map_eq_some_iff.mp hother
      cases hp
      obtain ⟨pieces, hpieces, htail⟩ := scanChars_sound hscan
      refine ⟨_, ⟨pieces, hpieces, rfl⟩, ?_⟩
      rw [← List.cons_head?_tail hquote, htail, List.cons_append, List.append_assoc]
      rfl
    · obtain ⟨p, hscan, hp⟩ := Option.map_eq_some_iff.mp hother
      cases hp
      exact scanNumeral_sound hscan

/-- **A token is scanned**, if no number goes on. -/
theorem scanToken_complete {k : Token Numeral} (h : TokenText k t) (hr : k.isNumber = true → Stops r) :
    scanToken (t ++ r) = some (k, r) := by
  have hfixed : (t, k) ∈ fixedTokens → scanToken (t ++ r) = some (k, r) := by
    intro hmem
    rw [scanToken, scanFixed_complete hmem, Option.some_or]
  cases k with
  | number n =>
    obtain ⟨u, s, rfl, hu⟩ := NumeralText.head h
    have hnone : scanFixed (u :: (s ++ r)) = (none : Option (Token Numeral × JsString)) := by
      apply scanFixed_eq_none
      rcases hu with hu | rfl
      · exact .inl hu
      · exact .inr (by decide)
    have hquote : ¬(u :: (s ++ r)).head? = some 0x22 := by
      intro heq
      obtain rfl := Option.some.inj heq
      rcases hu with hu | hu <;> exact absurd hu (by decide)
    have hscan := scanNumeral_complete h (hr rfl)
    rw [List.cons_append] at hscan ⊢
    rw [scanToken, hnone, Option.none_or, scanOther, if_neg hquote, hscan]
    rfl
  | string v =>
    obtain ⟨pieces, hpieces, rfl⟩ := h
    have hscan := scanString_complete hpieces r
    have hnone : scanFixed (0x22 :: (pieces.flatten ++ [0x22] ++ r)) = (none : Option (Token Numeral × JsString)) :=
      scanFixed_eq_none (.inr (by decide))
    rw [List.cons_append, scanToken, hnone, Option.none_or, scanOther, if_pos List.head?_cons, List.tail_cons,
      List.append_assoc, List.singleton_append, hscan]
    rfl
  | _ => exact hfixed h

/-! ### Texts -/

/-- White space. -/
def isBlank (u : UInt16) : Bool := u == 0x20 || u == 0x9 || u == 0xA || u == 0xD

/-- How a row of tokens is written: with white space before and behind each. -/
def Spells : List (Token Numeral) → JsString → Prop
  | [], s => ∀ u ∈ s, isBlank u = true
  | k :: ks, s => ∃ w t r, (∀ u ∈ w, isBlank u = true) ∧ TokenText k t ∧ Spells ks r ∧ s = w ++ (t ++ r)

/-- Whether `s` is a text of the value `v`. -/
def IsTextOf (s : JsString) (v : Value Numeral) : Prop := Spells v.tokens s

/-- At most `n` tokens. -/
def lexFrom : ℕ → JsString → Option (List (Token Numeral))
  | 0, _ => none
  | n + 1, s =>
    if s.dropWhile isBlank = [] then some []
    else (scanToken (s.dropWhile isBlank)).bind fun p => (lexFrom n p.2).map fun ks => p.1 :: ks

/-- The tokens of a text. -/
def lex (s : JsString) : Option (List (Token Numeral)) := lexFrom (s.length + 1) s

/-- The value a text is parsed as. -/
def parse (s : JsString) : Option (Value Numeral) := (lex s).bind parseTokens

theorem lexFrom_sound {n : ℕ} {ks : List (Token Numeral)} (h : lexFrom n s = some ks) : Spells ks s := by
  induction n generalizing s ks with
  | zero => cases h
  | succ n ih =>
    have hblank : ∀ u ∈ s.takeWhile isBlank, isBlank u = true := fun u hu => List.all_eq_true.mp List.all_takeWhile u hu
    rw [lexFrom] at h
    split at h
    · next hend =>
      cases h
      have hs := List.takeWhile_append_dropWhile (p := isBlank) (l := s)
      rw [hend, List.append_nil] at hs
      rwa [hs] at hblank
    · obtain ⟨⟨k, r⟩, hscan, hrest⟩ := Option.bind_eq_some_iff.mp h
      obtain ⟨ks', hlex, rfl⟩ := Option.map_eq_some_iff.mp hrest
      obtain ⟨t, ht, hs⟩ := scanToken_sound hscan
      exact ⟨_, t, r, hblank, ht, ih hlex, by rw [← hs, List.takeWhile_append_dropWhile]⟩

/-- No token begins with white space. -/
theorem TokenText.head {k : Token Numeral} (h : TokenText k t) : ∃ u s, t = u :: s ∧ isBlank u = false := by
  have hfixed : (t, k) ∈ fixedTokens → ∃ u s, t = u :: s ∧ isBlank u = false := by
    intro hmem
    obtain ⟨u, s, hu, -, hnot⟩ := fixedTokens_head hmem
    refine ⟨u, s, hu, ?_⟩
    simp only [List.mem_cons, List.not_mem_nil, or_false, not_or] at hnot
    simp [isBlank, hnot]
  cases k with
  | number n =>
    obtain ⟨u, s, rfl, hu⟩ := NumeralText.head h
    refine ⟨u, s, rfl, Bool.eq_false_iff.mpr ?_⟩
    intro hblank
    simp only [isBlank, Bool.or_eq_true, beq_iff_eq] at hblank
    rcases hblank with ((rfl | rfl) | rfl) | rfl <;> rcases hu with hu | hu <;> exact absurd hu (by decide)
  | string v =>
    obtain ⟨pieces, -, rfl⟩ := h
    exact ⟨_, _, rfl, rfl⟩
  | _ => exact hfixed h

theorem stops_cons (hdigit : isDecimalDigit u = false) (hnot : u ∉ [0x2E, 0x65, 0x45]) : Stops (u :: s) := by
  intro v hv
  obtain rfl := Option.some.inj hv
  simp only [List.mem_cons, List.not_mem_nil, or_false, not_or] at hnot
  exact ⟨hdigit, hnot⟩

/-- A number cannot go on in a token that is no number. -/
theorem TokenText.stops {k : Token Numeral} (h : TokenText k t) (hk : k.isNumber = false) (r : JsString) :
    Stops (t ++ r) := by
  have hfixed : (t, k) ∈ fixedTokens → Stops (t ++ r) := by
    intro hmem
    obtain ⟨u, s, rfl, hdigit, hnot⟩ := fixedTokens_head hmem
    apply stops_cons hdigit
    simp only [List.mem_cons, List.not_mem_nil, or_false, not_or] at hnot ⊢
    exact ⟨hnot.2.2.1, hnot.2.2.2.1, hnot.2.2.2.2.1⟩
  cases k with
  | number n => cases hk
  | string v =>
    obtain ⟨pieces, -, rfl⟩ := h
    exact stops_cons rfl (by decide)
  | _ => exact hfixed h

theorem isBlank_stops (h : isBlank u = true) : Stops (u :: s) := by
  simp only [isBlank, Bool.or_eq_true, beq_iff_eq] at h
  rcases h with ((rfl | rfl) | rfl) | rfl <;> exact stops_cons rfl (by decide)

/-- No number goes on in what is written behind it. -/
theorem Spells.stops {ks : List (Token Numeral)} (h : Spells ks r)
    (hks : ∀ k, ks.head? = some k → k.isNumber = false) : Stops r := by
  cases ks with
  | nil =>
    cases r with
    | nil => exact fun u hu => by cases hu
    | cons u r => exact isBlank_stops (h u List.mem_cons_self)
  | cons k ks =>
    obtain ⟨w, t, r', hw, ht, -, rfl⟩ := h
    cases w with
    | nil => exact ht.stops (hks k rfl) r'
    | cons u w => exact isBlank_stops (hw u List.mem_cons_self)

theorem dropWhile_isBlank {w : JsString} (hw : ∀ u ∈ w, isBlank u = true)
    (hs : ∃ u s', s = u :: s' ∧ isBlank u = false) :
    (w ++ s).dropWhile isBlank = s := by
  obtain ⟨u, s', rfl, hu⟩ := hs
  rw [List.dropWhile_append_of_pos hw, List.dropWhile_cons_of_neg]
  rw [hu]
  exact Bool.false_ne_true

theorem lexFrom_complete {n : ℕ} {ks : List (Token Numeral)} (h : Spells ks s) (happart : Apart ks)
    (hn : s.length < n) : lexFrom n s = some ks := by
  induction ks generalizing n s with
  | nil =>
    obtain ⟨n, rfl⟩ := Nat.exists_eq_succ_of_ne_zero (Nat.ne_zero_of_lt hn)
    rw [lexFrom, if_pos]
    exact List.dropWhile_eq_nil_iff.mpr h
  | cons k ks ih =>
    obtain ⟨n, rfl⟩ := Nat.exists_eq_succ_of_ne_zero (Nat.ne_zero_of_lt hn)
    obtain ⟨w, t, r, hw, ht, hr, rfl⟩ := h
    obtain ⟨u, t', htu, hu⟩ := ht.head
    have htail : Apart ks := by
      cases ks with
      | nil => trivial
      | cons k' ks => exact happart.2
    have hstops : k.isNumber = true → Stops r := by
      intro hk
      apply hr.stops
      intro k' hk'
      cases ks with
      | nil => cases hk'
      | cons k'' ks =>
        obtain rfl := Option.some.inj hk'
        exact happart.1 hk
    have hlex : lexFrom n r = some ks := by
      apply ih hr htail
      rw [List.length_append, List.length_append, htu, List.length_cons] at hn
      omega
    have hdrop : (w ++ (t ++ r)).dropWhile isBlank = t ++ r :=
      dropWhile_isBlank hw ⟨u, t' ++ r, by rw [htu, List.cons_append], hu⟩
    have hne : t ++ r ≠ [] := by
      rw [htu]
      exact List.cons_ne_nil _ _
    rw [lexFrom, hdrop, if_neg hne, scanToken_complete ht hstops, Option.bind_some, hlex, Option.map_some]

/-- **A text is parsed as a value if and only if it is a text of it.** -/
theorem parse_eq_some_iff {v : Value Numeral} : parse s = some v ↔ IsTextOf s v := by
  constructor
  · intro h
    obtain ⟨ks, hlex, hparse⟩ := Option.bind_eq_some_iff.mp h
    rw [IsTextOf, ← parseTokens_eq_some_iff.mp hparse]
    exact lexFrom_sound hlex
  · intro h
    rw [parse, lex, lexFrom_complete h (apart_tokens v) (Nat.lt_succ_self _), Option.bind_some]
    exact parseTokens_eq_some_iff.mpr rfl

end NestDdd.Json
