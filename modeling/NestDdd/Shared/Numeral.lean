import Mathlib.Data.Nat.Digits.Lemmas
import NestDdd.Shared.Js
import NestDdd.Theory.Binary64

/-!
# Numbers as text

Decimal digits, the numerals of JSON, and `Number::toString` of the language, which writes a finite number with the
least number of digits that are read back as the number.

## What is proved

* `scanNumeral_sound`, `scanNumeral_complete` — **the scanner takes the numerals of the grammar**, and all of one
  that is not followed by a character that could go on with it.
* `readInteger_integerToString` — an integer is read back.
* `numeral_numberToString` — **what `Number::toString` writes is a numeral of the number**; the sign of a zero is
  lost.
-/

namespace NestDdd.Shared

open NestDdd.Theory

/-! ### Digits -/

/-- `0` to `9`. -/
def isDecimalDigit (u : UInt16) : Bool := 0x30 ≤ u && u ≤ 0x39

/-- The digit `d < 10`. -/
def digitUnit (d : ℕ) : UInt16 := UInt16.ofNat (0x30 + d)

/-- What a digit stands for. -/
def digitValue (u : UInt16) : ℕ := u.toNat - 0x30

/-- What a row of digits stands for. -/
def digitsValue (s : JsString) : ℕ := s.foldl (fun n u => 10 * n + digitValue u) 0

/-- A natural number without needless zeros. -/
def natToString (n : ℕ) : JsString := if n = 0 then [0x30] else (Nat.digits 10 n).reverse.map digitUnit

/-- Digits, at least one. -/
def IsDigits (s : JsString) : Prop := s ≠ [] ∧ ∀ u ∈ s, isDecimalDigit u = true

/-- Digits without needless zeros in front. -/
def IsWhole (s : JsString) : Prop := s = [0x30] ∨ (IsDigits s ∧ s.head? ≠ some 0x30)

variable {s t r : JsString} {n : ℕ} {u : UInt16}

theorem toNat_digitUnit (h : n < 10) : (digitUnit n).toNat = 0x30 + n := by
  rw [digitUnit, UInt16.toNat_ofNat', Nat.mod_eq_of_lt (by omega)]

theorem digitValue_digitUnit (h : n < 10) : digitValue (digitUnit n) = n := by
  rw [digitValue, toNat_digitUnit h]
  omega

theorem isDecimalDigit_digitUnit (h : n < 10) : isDecimalDigit (digitUnit n) = true := by
  rw [isDecimalDigit, Bool.and_eq_true, decide_eq_true_iff, decide_eq_true_iff, UInt16.le_iff_toNat_le,
    UInt16.le_iff_toNat_le, toNat_digitUnit h]
  change 48 ≤ 48 + n ∧ 48 + n ≤ 57
  omega

@[simp] theorem digitsValue_nil : digitsValue [] = 0 := rfl

theorem digitsValue_concat (s : JsString) (u : UInt16) :
    digitsValue (s ++ [u]) = 10 * digitsValue s + digitValue u := by
  rw [digitsValue, List.foldl_concat, digitsValue]

theorem digitsValue_append (s t : JsString) :
    digitsValue (s ++ t) = digitsValue s * 10 ^ t.length + digitsValue t := by
  induction t using List.reverseRecOn with
  | nil => simp
  | append_singleton t u ih =>
    rw [← List.append_assoc, digitsValue_concat, ih, digitsValue_concat, List.length_append, List.length_singleton,
      pow_succ]
    ring

@[simp] theorem digitsValue_replicate_zero (n : ℕ) : digitsValue (List.replicate n 0x30) = 0 := by
  induction n with
  | zero => rfl
  | succ n ih =>
    rw [List.replicate_succ', digitsValue_concat, ih]
    rfl

theorem digitsValue_map_digitUnit {ds : List ℕ} (h : ∀ d ∈ ds, d < 10) :
    digitsValue (ds.reverse.map digitUnit) = Nat.ofDigits 10 ds := by
  induction ds with
  | nil => rfl
  | cons d ds ih =>
    rw [List.reverse_cons, List.map_append, List.map_singleton, digitsValue_concat,
      ih fun e he => h e (List.mem_cons_of_mem _ he), digitValue_digitUnit (h d List.mem_cons_self), Nat.ofDigits_cons]
    omega

theorem digitsValue_natToString (n : ℕ) : digitsValue (natToString n) = n := by
  rw [natToString]
  split
  · next hn => rw [hn]; rfl
  · rw [digitsValue_map_digitUnit fun d hd => Nat.digits_lt_base (by omega) hd, Nat.ofDigits_digits]

theorem isDigits_natToString (n : ℕ) : IsDigits (natToString n) := by
  rw [natToString]
  split
  · exact ⟨List.cons_ne_nil _ _, fun u hu => by rw [List.mem_singleton.mp hu]; rfl⟩
  · next hn =>
    refine ⟨?_, ?_⟩
    · simpa using Nat.digits_ne_nil_iff_ne_zero.mpr hn
    · intro u hu
      obtain ⟨d, hd, rfl⟩ := List.mem_map.mp hu
      exact isDecimalDigit_digitUnit (Nat.digits_lt_base (by omega) (List.mem_reverse.mp hd))

/-- There is no needless zero in front. -/
theorem isWhole_natToString (n : ℕ) : IsWhole (natToString n) := by
  by_cases hn : n = 0
  · left
    rw [natToString, if_pos hn]
  · right
    refine ⟨isDigits_natToString n, ?_⟩
    have hne := Nat.digits_ne_nil_iff_ne_zero (b := 10).mpr hn
    have hlast := Nat.getLast_digit_ne_zero 10 hn
    have hlt := Nat.digits_lt_base (by omega) (List.getLast_mem hne)
    rw [natToString, if_neg hn, List.head?_map, List.head?_reverse, List.getLast?_eq_some_getLast hne, Option.map_some,
      ne_eq, Option.some.injEq]
    intro hzero
    have hval := toNat_digitUnit hlt
    rw [hzero] at hval
    change 48 = 48 + _ at hval
    omega

theorem IsWhole.isDigits (h : IsWhole s) : IsDigits s := by
  rcases h with rfl | h
  · exact isDigits_natToString 0
  · exact h.1

theorem digitsValue_cons (u : UInt16) (s : JsString) :
    digitsValue (u :: s) = digitValue u * 10 ^ s.length + digitsValue s := by
  rw [← List.singleton_append, digitsValue_append]
  congr 2
  exact Nat.zero_add _

theorem isDecimalDigit_iff {u : UInt16} : isDecimalDigit u = true ↔ 48 ≤ u.toNat ∧ u.toNat ≤ 57 := by
  rw [isDecimalDigit, Bool.and_eq_true, decide_eq_true_iff, decide_eq_true_iff, UInt16.le_iff_toNat_le,
    UInt16.le_iff_toNat_le]
  rfl

theorem digitsValue_lt {s : JsString} (h : ∀ u ∈ s, isDecimalDigit u = true) : digitsValue s < 10 ^ s.length := by
  induction s with
  | nil => exact Nat.one_pos
  | cons u s ih =>
    have hu := isDecimalDigit_iff.mp (h u List.mem_cons_self)
    have hs := ih fun v hv => h v (List.mem_cons_of_mem u hv)
    have hdigit : digitValue u ≤ 9 := by
      rw [digitValue]
      omega
    have hmul := Nat.mul_le_mul_right (10 ^ s.length) hdigit
    rw [digitsValue_cons, List.length_cons, pow_succ]
    omega

/-! ### The grammar -/

/-- A numeral's value. -/
structure Numeral where
  /-- Whether there is a minus sign. -/
  negative : Bool
  /-- What follows it. -/
  decimal : Decimal

/-- The number a numeral is read as. -/
def Numeral.toDouble (n : Numeral) : Double := nearest n.negative n.decimal.value

/-- The digits behind the point, if there is one. -/
inductive FractionText : JsString → JsString → Prop where
  | none : FractionText [] []
  | some {digits : JsString} (h : IsDigits digits) : FractionText digits (0x2E :: digits)

/-- The power of ten, if there is one. -/
inductive ExponentText : ℤ → JsString → Prop where
  | none : ExponentText 0 []
  | some {e : UInt16} {digits : JsString} (he : e = 0x65 ∨ e = 0x45) (h : IsDigits digits) :
    ExponentText (digitsValue digits) (e :: digits)
  | plus {e : UInt16} {digits : JsString} (he : e = 0x65 ∨ e = 0x45) (h : IsDigits digits) :
    ExponentText (digitsValue digits) (e :: 0x2B :: digits)
  | minus {e : UInt16} {digits : JsString} (he : e = 0x65 ∨ e = 0x45) (h : IsDigits digits) :
    ExponentText (-digitsValue digits) (e :: 0x2D :: digits)

/-- The minus sign, if there is one. -/
def minusText (negative : Bool) : JsString := if negative then [0x2D] else []

/-- The numerals. -/
def NumeralText (n : Numeral) (t : JsString) : Prop :=
  ∃ (whole digits fraction power : JsString) (e : ℤ), IsWhole whole ∧ FractionText digits fraction ∧
    ExponentText e power ∧ t = minusText n.negative ++ (whole ++ (fraction ++ power)) ∧
      n.decimal = ⟨digitsValue (whole ++ digits), e - digits.length⟩

/-! ### The scanner -/

/-- The minus sign. -/
def scanMinus : JsString → Bool × JsString
  | [] => (false, [])
  | u :: s => if u = 0x2D then (true, s) else (false, u :: s)

/-- A row of digits. -/
def scanDigits (s : JsString) : Option (JsString × JsString) :=
  if s.takeWhile isDecimalDigit = [] then none else some (s.takeWhile isDecimalDigit, s.dropWhile isDecimalDigit)

/-- The digits before the point. A zero in front is all. -/
def scanWhole : JsString → Option (JsString × JsString)
  | [] => none
  | u :: s => if u = 0x30 then some ([0x30], s) else scanDigits (u :: s)

/-- The digits behind the point. -/
def scanFraction : JsString → JsString × JsString
  | [] => ([], [])
  | u :: s => if u = 0x2E then (scanDigits s).getD ([], u :: s) else ([], u :: s)

/-- The digits of the exponent, after its sign. -/
def scanSigned : JsString → Option (ℤ × JsString)
  | [] => none
  | u :: s =>
    if u = 0x2B then (scanDigits s).map fun p => (digitsValue p.1, p.2)
    else if u = 0x2D then (scanDigits s).map fun p => (-digitsValue p.1, p.2)
    else (scanDigits (u :: s)).map fun p => (digitsValue p.1, p.2)

/-- The exponent. -/
def scanExponent : JsString → ℤ × JsString
  | [] => (0, [])
  | u :: s => if u = 0x65 ∨ u = 0x45 then (scanSigned s).getD (0, u :: s) else (0, u :: s)

/-- The longest numeral in front, and the rest. -/
def scanNumeral (s : JsString) : Option (Numeral × JsString) :=
  (scanWhole (scanMinus s).2).map fun p =>
    let fraction := scanFraction p.2
    let power := scanExponent fraction.2
    (⟨(scanMinus s).1, ⟨digitsValue (p.1 ++ fraction.1), power.1 - fraction.1.length⟩⟩, power.2)

/-! ### What is scanned is in the grammar -/

theorem scanDigits_sound {digits : JsString} (h : scanDigits s = some (digits, r)) :
    IsDigits digits ∧ s = digits ++ r := by
  rw [scanDigits] at h
  split at h
  · cases h
  · next hne =>
    cases h
    exact ⟨⟨hne, fun u hu => List.all_eq_true.mp List.all_takeWhile u hu⟩, List.takeWhile_append_dropWhile.symm⟩

theorem scanMinus_sound (s : JsString) : s = minusText (scanMinus s).1 ++ (scanMinus s).2 := by
  cases s with
  | nil => rfl
  | cons u s =>
    rw [scanMinus]
    split
    · next hu => rw [hu]; rfl
    · rfl

theorem scanWhole_sound {whole : JsString} (h : scanWhole s = some (whole, r)) : IsWhole whole ∧ s = whole ++ r := by
  cases s with
  | nil => cases h
  | cons u s =>
    rw [scanWhole] at h
    split at h
    · next hu =>
      cases h
      exact ⟨.inl rfl, by rw [hu]; rfl⟩
    · next hu =>
      obtain ⟨hdigits, hs⟩ := scanDigits_sound h
      refine ⟨.inr ⟨hdigits, ?_⟩, hs⟩
      cases whole with
      | nil => exact absurd rfl hdigits.1
      | cons v whole =>
        obtain ⟨rfl, -⟩ := List.cons_eq_cons.mp hs
        intro hv
        exact hu (Option.some.inj hv)

theorem scanFraction_sound (s : JsString) :
    ∃ t, FractionText (scanFraction s).1 t ∧ s = t ++ (scanFraction s).2 := by
  cases s with
  | nil => exact ⟨[], .none, rfl⟩
  | cons u s =>
    rw [scanFraction]
    split
    · next hu =>
      cases hscan : scanDigits s with
      | none => exact ⟨[], .none, rfl⟩
      | some p =>
        obtain ⟨hdigits, hs⟩ := scanDigits_sound hscan
        exact ⟨0x2E :: p.1, .some hdigits, by rw [hu, hs]; rfl⟩
    · exact ⟨[], .none, rfl⟩

theorem scanSigned_sound {e : UInt16} {n : ℤ} (he : e = 0x65 ∨ e = 0x45) (h : scanSigned s = some (n, r)) :
    ∃ t, ExponentText n t ∧ e :: s = t ++ r := by
  cases s with
  | nil => cases h
  | cons u s =>
    rw [scanSigned] at h
    split at h
    · next hu =>
      obtain ⟨p, hscan, hp⟩ := Option.map_eq_some_iff.mp h
      obtain ⟨rfl, rfl⟩ := Prod.mk.inj hp
      obtain ⟨hdigits, hs⟩ := scanDigits_sound hscan
      exact ⟨_, .plus he hdigits, by rw [hu, hs]; rfl⟩
    · split at h
      · next hu =>
        obtain ⟨p, hscan, hp⟩ := Option.map_eq_some_iff.mp h
        obtain ⟨rfl, rfl⟩ := Prod.mk.inj hp
        obtain ⟨hdigits, hs⟩ := scanDigits_sound hscan
        exact ⟨_, .minus he hdigits, by rw [hu, hs]; rfl⟩
      · obtain ⟨p, hscan, hp⟩ := Option.map_eq_some_iff.mp h
        obtain ⟨rfl, rfl⟩ := Prod.mk.inj hp
        obtain ⟨hdigits, hs⟩ := scanDigits_sound hscan
        exact ⟨_, .some he hdigits, by rw [hs]; rfl⟩

theorem scanExponent_sound (s : JsString) :
    ∃ t, ExponentText (scanExponent s).1 t ∧ s = t ++ (scanExponent s).2 := by
  cases s with
  | nil => exact ⟨[], .none, rfl⟩
  | cons u s =>
    rw [scanExponent]
    split
    · next hu =>
      cases hscan : scanSigned s with
      | none => exact ⟨[], .none, rfl⟩
      | some p => exact scanSigned_sound hu hscan
    · exact ⟨[], .none, rfl⟩

/-- **What is scanned is a numeral.** -/
theorem scanNumeral_sound {m : Numeral} (h : scanNumeral s = some (m, r)) :
    ∃ t, NumeralText m t ∧ s = t ++ r := by
  obtain ⟨⟨whole, rest⟩, hwhole, hm⟩ := Option.map_eq_some_iff.mp h
  obtain ⟨rfl, rfl⟩ := Prod.mk.inj hm
  obtain ⟨hw, hrest⟩ := scanWhole_sound hwhole
  obtain ⟨fraction, hf, hfraction⟩ := scanFraction_sound rest
  obtain ⟨power, hp, hpower⟩ := scanExponent_sound (scanFraction rest).2
  refine ⟨_, ⟨whole, _, fraction, power, _, hw, hf, hp, rfl, rfl⟩, ?_⟩
  have hminus := scanMinus_sound s
  rw [hrest, hfraction, hpower] at hminus
  simpa only [List.append_assoc] using hminus

/-! ### What is in the grammar is scanned -/

/-- No digit is next. -/
def NoDigit (s : JsString) : Prop := ∀ u, s.head? = some u → isDecimalDigit u = false

/-- Nothing is next that a numeral may go on with. -/
def Stops (s : JsString) : Prop :=
  ∀ u, s.head? = some u → isDecimalDigit u = false ∧ u ≠ 0x2E ∧ u ≠ 0x65 ∧ u ≠ 0x45

theorem Stops.noDigit (h : Stops s) : NoDigit s := fun u hu => (h u hu).1

theorem noDigit_cons (h : isDecimalDigit u = false) : NoDigit (u :: s) := by
  intro v hv
  rwa [← Option.some.inj hv]

theorem scanDigits_complete (h : IsDigits t) (hr : NoDigit r) : scanDigits (t ++ r) = some (t, r) := by
  have hrest : r.takeWhile isDecimalDigit = [] ∧ r.dropWhile isDecimalDigit = r := by
    cases r with
    | nil => exact ⟨rfl, rfl⟩
    | cons u r =>
      have hu : ¬isDecimalDigit u = true := by
        rw [hr u rfl]
        exact Bool.false_ne_true
      exact ⟨List.takeWhile_cons_of_neg hu, List.dropWhile_cons_of_neg hu⟩
  rw [scanDigits, List.takeWhile_append_of_pos h.2, List.dropWhile_append_of_pos h.2, hrest.1, hrest.2, List.append_nil,
    if_neg h.1]

theorem IsDigits.cons_head (h : IsDigits s) : ∃ u t, s = u :: t ∧ isDecimalDigit u = true := by
  cases s with
  | nil => exact absurd rfl h.1
  | cons u t => exact ⟨u, t, rfl, h.2 u List.mem_cons_self⟩

theorem scanMinus_complete (negative : Bool) (h : IsDigits s) :
    scanMinus (minusText negative ++ (s ++ r)) = (negative, s ++ r) := by
  obtain ⟨u, t, rfl, hu⟩ := h.cons_head
  cases negative with
  | true => rfl
  | false =>
    have hne : u ≠ 0x2D := by
      rintro rfl
      exact absurd hu (by decide)
    exact if_neg hne

theorem scanWhole_complete (h : IsWhole t) (hr : NoDigit r) : scanWhole (t ++ r) = some (t, r) := by
  rcases h with rfl | ⟨hdigits, hhead⟩
  · rfl
  · obtain ⟨u, t', rfl, -⟩ := hdigits.cons_head
    have hne : u ≠ 0x30 := fun hu => hhead (congrArg some hu)
    rw [List.cons_append, scanWhole, if_neg hne, ← List.cons_append, scanDigits_complete hdigits hr]

theorem scanFraction_complete {digits : JsString} (h : FractionText digits t) (hr : NoDigit r)
    (hpoint : r.head? ≠ some 0x2E) : scanFraction (t ++ r) = (digits, r) := by
  cases h with
  | none =>
    cases r with
    | nil => rfl
    | cons u r =>
      have hne : u ≠ 0x2E := fun hu => hpoint (congrArg some hu)
      exact if_neg hne
  | some hdigits => rw [List.cons_append, scanFraction, if_pos rfl, scanDigits_complete hdigits hr, Option.getD_some]

theorem scanExponent_complete {e : ℤ} (h : ExponentText e t) (hr : Stops r) : scanExponent (t ++ r) = (e, r) := by
  cases h with
  | none =>
    cases r with
    | nil => rfl
    | cons u r =>
      obtain ⟨-, -, hlower, hupper⟩ := hr u rfl
      exact if_neg (not_or.mpr ⟨hlower, hupper⟩)
  | some he hdigits =>
    have hscan := scanDigits_complete hdigits hr.noDigit
    obtain ⟨u, t', rfl, hu⟩ := hdigits.cons_head
    have hplus : u ≠ 0x2B := by
      rintro rfl
      exact absurd hu (by decide)
    have hminus : u ≠ 0x2D := by
      rintro rfl
      exact absurd hu (by decide)
    rw [List.cons_append, scanExponent, if_pos he, List.cons_append, scanSigned, if_neg hplus, if_neg hminus,
      ← List.cons_append, hscan]
    rfl
  | plus he hdigits =>
    rw [List.cons_append, scanExponent, if_pos he, List.cons_append, scanSigned, if_pos rfl,
      scanDigits_complete hdigits hr.noDigit]
    rfl
  | minus he hdigits =>
    rw [List.cons_append, scanExponent, if_pos he, List.cons_append, scanSigned, if_neg (by decide), if_pos rfl,
      scanDigits_complete hdigits hr.noDigit]
    rfl

theorem ExponentText.noDigit {e : ℤ} (h : ExponentText e t) (hr : Stops r) : NoDigit (t ++ r) := by
  cases h with
  | none => exact hr.noDigit
  | some he | plus he | minus he =>
    apply noDigit_cons
    rcases he with rfl | rfl <;> rfl

theorem ExponentText.head_ne {e : ℤ} (h : ExponentText e t) (hr : Stops r) : (t ++ r).head? ≠ Option.some 0x2E := by
  cases h with
  | none => exact fun hu => (hr 0x2E hu).2.1 rfl
  | some he | plus he | minus he =>
    intro hu
    have hpoint := Option.some.inj hu
    rcases he with rfl | rfl <;> exact absurd hpoint (by decide)

theorem FractionText.noDigit {digits : JsString} (h : FractionText digits t) (hr : NoDigit r) : NoDigit (t ++ r) := by
  cases h with
  | none => exact hr
  | some => exact noDigit_cons rfl

/-- **All of a numeral is scanned**, if nothing follows that it may go on with. -/
theorem scanNumeral_complete {m : Numeral} (h : NumeralText m t) (hr : Stops r) :
    scanNumeral (t ++ r) = some (m, r) := by
  obtain ⟨whole, digits, fraction, power, e, hw, hf, hp, rfl, hm⟩ := h
  have htail : (whole ++ (fraction ++ power)) ++ r = whole ++ (fraction ++ (power ++ r)) := by
    simp only [List.append_assoc]
  have hnodigit := hf.noDigit (hp.noDigit hr)
  rw [List.append_assoc, htail, scanNumeral, scanMinus_complete m.negative hw.isDigits, scanWhole_complete hw hnodigit,
    Option.map_some]
  simp only [scanFraction_complete hf (hp.noDigit hr) (hp.head_ne hr), scanExponent_complete hp hr]
  rw [← hm]

/-! ### `Number::toString` -/

/-- Digits, with the point behind the first `n` of them. -/
def digitsToString (digits : JsString) (n : ℤ) : JsString :=
  if digits.length ≤ n ∧ n ≤ 21 then digits ++ List.replicate (n - digits.length).toNat 0x30
  else if 0 < n ∧ n ≤ 21 then digits.take n.toNat ++ 0x2E :: digits.drop n.toNat
  else if -6 < n ∧ n ≤ 0 then 0x30 :: 0x2E :: (List.replicate (-n).toNat 0x30 ++ digits)
  else
    (if digits.length = 1 then digits else digits.take 1 ++ 0x2E :: digits.drop 1) ++
      0x65 :: (if n - 1 < 0 then 0x2D else 0x2B) :: natToString (n - 1).natAbs

/-- `String(x)` of a finite number. -/
def numberToString (x : Binary64) : JsString :=
  if x.significand = 0 then [0x30]
  else
    let digits := natToString x.shortest.coefficient
    minusText x.negative ++ digitsToString digits (digits.length + x.shortest.exponent)

variable {digits whole fraction power : JsString} {e : ℤ}

theorem IsDigits.append (hs : IsDigits s) (ht : ∀ u ∈ t, isDecimalDigit u = true) : IsDigits (s ++ t) := by
  refine ⟨List.append_ne_nil_of_left_ne_nil hs.1 t, ?_⟩
  intro u hu
  rcases List.mem_append.mp hu with hu | hu
  · exact hs.2 u hu
  · exact ht u hu

theorem isDecimalDigit_of_mem_replicate (h : u ∈ List.replicate n 0x30) : isDecimalDigit u = true := by
  rw [List.eq_of_mem_replicate h]
  rfl

/-- Digits go on being a whole part when more digits are written behind them. -/
theorem isWhole_append (hs : IsDigits s) (hhead : s.head? ≠ some 0x30) (ht : ∀ u ∈ t, isDecimalDigit u = true) :
    IsWhole (s ++ t) := by
  right
  refine ⟨hs.append ht, ?_⟩
  rwa [List.head?_append_of_ne_nil s hs.1]

theorem isWhole_take (hs : IsDigits s) (hhead : s.head? ≠ some 0x30) (hn : 0 < n) : IsWhole (s.take n) := by
  obtain ⟨u, t, rfl, -⟩ := hs.cons_head
  obtain ⟨n, rfl⟩ := Nat.exists_eq_succ_of_ne_zero hn.ne'
  right
  rw [List.take_succ_cons]
  refine ⟨⟨List.cons_ne_nil _ _, ?_⟩, hhead⟩
  intro v hv
  rw [← List.take_succ_cons] at hv
  exact hs.2 v (List.mem_of_mem_take hv)

theorem isDigits_drop (hs : IsDigits s) (hn : n < s.length) : IsDigits (s.drop n) := by
  refine ⟨?_, fun u hu => hs.2 u (List.mem_of_mem_drop hu)⟩
  rw [ne_eq, List.drop_eq_nil_iff]
  omega

theorem numeralText_of (negative : Bool) (hw : IsWhole whole) (hf : FractionText digits fraction)
    (hp : ExponentText e power) :
    NumeralText ⟨negative, ⟨digitsValue (whole ++ digits), e - digits.length⟩⟩
      (minusText negative ++ (whole ++ (fraction ++ power))) :=
  ⟨whole, digits, fraction, power, e, hw, hf, hp, rfl, rfl⟩

/-- A whole number below `10 ^ 21`. -/
theorem numeral_whole (negative : Bool) (hs : IsDigits s) (hhead : s.head? ≠ some 0x30) (n : ℕ) :
    ∃ d : Decimal, NumeralText ⟨negative, d⟩ (minusText negative ++ (s ++ List.replicate n 0x30)) ∧
      d.value = digitsValue s * 10 ^ (n : ℤ) := by
  have hw := isWhole_append hs hhead fun u hu => isDecimalDigit_of_mem_replicate (n := n) hu
  have hnumeral := numeralText_of negative hw .none .none
  rw [List.append_nil, List.append_nil, List.append_nil] at hnumeral
  refine ⟨_, hnumeral, ?_⟩
  rw [Decimal.value, digitsValue_append, digitsValue_replicate_zero, List.length_replicate]
  push_cast
  simp

/-- A number with a point among its digits. -/
theorem numeral_point (negative : Bool) (hs : IsDigits s) (hhead : s.head? ≠ some 0x30) (hn : 0 < n)
    (hlt : n < s.length) :
    ∃ d : Decimal, NumeralText ⟨negative, d⟩ (minusText negative ++ (s.take n ++ 0x2E :: s.drop n)) ∧
      d.value = digitsValue s * 10 ^ ((n : ℤ) - s.length) := by
  have hnumeral := numeralText_of negative (isWhole_take hs hhead hn) (.some (isDigits_drop hs hlt)) .none
  rw [List.append_nil, List.take_append_drop] at hnumeral
  refine ⟨_, hnumeral, ?_⟩
  rw [Decimal.value, List.length_drop, Nat.cast_sub hlt.le]
  congr 2
  ring

/-- A small number, with zeros behind the point. -/
theorem numeral_small (negative : Bool) (hs : IsDigits s) (n : ℕ) :
    ∃ d : Decimal, NumeralText ⟨negative, d⟩ (minusText negative ++ 0x30 :: 0x2E :: (List.replicate n 0x30 ++ s)) ∧
      d.value = digitsValue s * 10 ^ (-(n : ℤ) - s.length) := by
  have hdigits : IsDigits (List.replicate n 0x30 ++ s) := by
    refine ⟨List.append_ne_nil_of_right_ne_nil _ hs.1, ?_⟩
    intro u hu
    rcases List.mem_append.mp hu with hu | hu
    · exact isDecimalDigit_of_mem_replicate hu
    · exact hs.2 u hu
  have hnumeral := numeralText_of negative (.inl rfl) (.some hdigits) .none
  rw [List.append_nil] at hnumeral
  refine ⟨_, hnumeral, ?_⟩
  rw [Decimal.value, digitsValue_append, digitsValue_append, digitsValue_replicate_zero, List.length_append,
    List.length_replicate]
  push_cast
  congr 2
  · change ((0 : ℕ) : ℚ) * _ + (0 * _ + _) = _
    ring
  · ring

theorem exponentText_signed (m : ℤ) :
    ExponentText m (0x65 :: (if m < 0 then 0x2D else 0x2B) :: natToString m.natAbs) := by
  have hdigits := isDigits_natToString m.natAbs
  split
  · next hneg =>
    have htext := ExponentText.minus (.inl rfl) hdigits
    rwa [digitsValue_natToString, show -((m.natAbs : ℕ) : ℤ) = m by omega] at htext
  · next hpos =>
    have htext := ExponentText.plus (.inl rfl) hdigits
    rwa [digitsValue_natToString, show ((m.natAbs : ℕ) : ℤ) = m by omega] at htext

/-- A number with an exponent. -/
theorem numeral_scientific (negative : Bool) (hs : IsDigits s) (hhead : s.head? ≠ some 0x30) (m : ℤ) :
    ∃ d : Decimal, NumeralText ⟨negative, d⟩ (minusText negative ++
      ((if s.length = 1 then s else s.take 1 ++ 0x2E :: s.drop 1) ++
        0x65 :: (if m < 0 then 0x2D else 0x2B) :: natToString m.natAbs)) ∧
      d.value = digitsValue s * 10 ^ (m + 1 - s.length) := by
  have hpower := exponentText_signed m
  have hpos : 0 < s.length := List.length_pos_iff.mpr hs.1
  split
  · next hone =>
    have hnumeral := numeralText_of negative (.inr ⟨hs, hhead⟩) .none hpower
    rw [List.append_nil] at hnumeral
    refine ⟨_, hnumeral, ?_⟩
    rw [Decimal.value, hone]
    congr 2
    simp
  · next hone =>
    have hnumeral := numeralText_of negative (isWhole_take hs hhead Nat.one_pos)
      (.some (isDigits_drop hs (n := 1) (by omega))) hpower
    rw [List.take_append_drop] at hnumeral
    refine ⟨_, by rwa [List.append_assoc], ?_⟩
    rw [Decimal.value, List.length_drop, Nat.cast_sub (show 1 ≤ s.length by omega)]
    congr 2
    push_cast
    ring

/-- **The digits are written as a numeral**, wherever the point is. -/
theorem numeral_digitsToString (negative : Bool) (hs : IsDigits s) (hhead : s.head? ≠ some 0x30) (n : ℤ) :
    ∃ d : Decimal, NumeralText ⟨negative, d⟩ (minusText negative ++ digitsToString s n) ∧
      d.value = digitsValue s * 10 ^ (n - s.length) := by
  rw [digitsToString]
  split
  · next hwhole =>
    have h := numeral_whole negative hs hhead (n - s.length).toNat
    rwa [Int.toNat_of_nonneg (by omega)] at h
  · next hwhole =>
    split
    · next hpoint =>
      have h := numeral_point negative hs hhead (n := n.toNat) (by omega) (by omega)
      rwa [Int.toNat_of_nonneg (by omega)] at h
    · split
      · next hsmall =>
        have h := numeral_small negative hs (-n).toNat
        rwa [Int.toNat_of_nonneg (by omega), neg_neg] at h
      · have h := numeral_scientific negative hs hhead (n - 1)
        rwa [sub_add_cancel] at h

/-- A zero without its sign. -/
def unsignedZero (x : Binary64) : Binary64 := if x.significand = 0 then .zero false else x

/-- **What is written is a numeral of the number**, less the sign of a zero. -/
theorem numeral_numberToString (x : Binary64) :
    ∃ m : Numeral, NumeralText m (numberToString x) ∧ m.toDouble = .finite (unsignedZero x) := by
  rw [numberToString, unsignedZero]
  split
  · refine ⟨_, numeralText_of false (.inl rfl) .none .none, ?_⟩
    rw [Numeral.toDouble]
    apply nearest_of_not_pos
    change ¬(0 : ℚ) < ((0 : ℕ) : ℚ) * _
    norm_num
  · next hx =>
    have hpos := x.shortest_pos hx
    have hwhole := isWhole_natToString x.shortest.coefficient
    have hhead : (natToString x.shortest.coefficient).head? ≠ some 0x30 := by
      rcases hwhole with hzero | ⟨-, hhead⟩
      · have hvalue := digitsValue_natToString x.shortest.coefficient
        rw [hzero] at hvalue
        exact absurd hvalue hpos.ne
      · exact hhead
    obtain ⟨d, htext, hvalue⟩ := numeral_digitsToString x.negative hwhole.isDigits hhead
      ((natToString x.shortest.coefficient).length + x.shortest.exponent)
    refine ⟨⟨x.negative, d⟩, htext, ?_⟩
    rw [Numeral.toDouble, hvalue, digitsValue_natToString, add_sub_cancel_left]
    exact x.nearest_shortest hx x.negative

/-! ### Integers -/

/-- `String(z)` of an integer below `10 ^ 21`. -/
def integerToString (z : ℤ) : JsString := minusText (decide (z < 0)) ++ natToString z.natAbs

/-- The integer of a text. -/
def readInteger (s : JsString) : Option ℤ :=
  (scanDigits (scanMinus s).2).bind fun p =>
    if p.2 = [] then some (if (scanMinus s).1 then -digitsValue p.1 else digitsValue p.1) else none

/-- **An integer is read back.** -/
theorem readInteger_integerToString (z : ℤ) : readInteger (integerToString z) = some z := by
  have hdigits := isDigits_natToString z.natAbs
  have hminus := scanMinus_complete (r := []) (decide (z < 0)) hdigits
  have hscan := scanDigits_complete (r := []) hdigits nofun
  rw [List.append_nil] at hminus hscan
  rw [readInteger, integerToString, hminus]
  simp only [hscan, Option.bind_some, if_true, digitsValue_natToString, decide_eq_true_eq, Option.some.injEq]
  split <;> omega

end NestDdd.Shared
