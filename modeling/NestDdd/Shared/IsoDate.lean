import NestDdd.Shared.Numeral
import NestDdd.Theory.Calendar

/-!
# Dates as text

A date as `YYYY-MM-DD`, and the order of strings, on such texts.

## What is proved

* `lessThan_iff` — rows of digits of one length are ordered as their numbers.
* `beginning_le_of_not_lessThan` — **dates are ordered as their texts**.
-/

namespace NestDdd.Shared

open NestDdd.Theory

variable {d : Date}

/-! ### Dates and numbers -/

/-- The second at which a date begins, from the first of January of 1970 on. -/
def beginning (d : Date) : ℤ := ((d.count : ℤ) - 719528) * 86400

/-- The number of a row of digits. -/
def readDigits (s : JsString) : Option ℕ := if s.all isDecimalDigit then some (digitsValue s) else none

/-- The date of a year, a month and a day, if there is one. -/
def dateOf (year month day : ℕ) : Option Date :=
  if h : (1 ≤ month ∧ month ≤ 12) ∧ (1 ≤ day ∧ day ≤ monthDays year month) then some ⟨year, month, day, h.1, h.2⟩
  else none

theorem dateOf_self (d : Date) : dateOf d.year d.month d.day = some d := dif_pos ⟨d.month_mem, d.day_mem⟩

/-! ### Dates as `YYYY-MM-DD` -/

/-- The date of a text `YYYY-MM-DD`. -/
def readIsoDate (s : JsString) : Option Date :=
  if s.length = 10 ∧ (s.drop 4).take 1 = [0x2D] ∧ (s.drop 7).take 1 = [0x2D] then
    match readDigits (s.take 4), readDigits ((s.drop 5).take 2), readDigits (s.drop 8) with
    | some year, some month, some day => dateOf year month day
    | _, _, _ => none
  else none

/-- `a < b`, for strings. -/
def lessThan : JsString → JsString → Bool
  | _, [] => false
  | [], _ :: _ => true
  | u :: s, v :: t => u < v || (u == v && lessThan s t)

theorem eq_of_not_lessThan {s t : JsString} (h : lessThan s t = false) (h' : lessThan t s = false) : s = t := by
  induction s generalizing t with
  | nil =>
    cases t with
    | nil => rfl
    | cons v t => cases h
  | cons u s ih =>
    cases t with
    | nil => cases h'
    | cons v t =>
      rw [lessThan, Bool.or_eq_false_iff, decide_eq_false_iff_not, UInt16.lt_iff_toNat_lt] at h h'
      have huv : u = v := UInt16.toNat_inj.mp (by omega)
      rw [huv, beq_self_eq_true, Bool.true_and] at h h'
      rw [huv, ih h.2 h'.2]

theorem lessThan_append {a b : JsString} (h : a.length = b.length) (s t : JsString) :
    lessThan (a ++ s) (b ++ t) = (lessThan a b || (a == b && lessThan s t)) := by
  induction a generalizing b with
  | nil =>
    rw [List.length_eq_zero_iff.mp h.symm]
    rfl
  | cons u a ih =>
    cases b with
    | nil => cases h
    | cons v b =>
      rw [List.cons_append, List.cons_append, lessThan, lessThan, ih (Nat.succ.inj h), List.cons_beq_cons]
      cases u == v <;> simp [Bool.or_assoc]

theorem mul_add_lt_iff {p a b m n : ℕ} (hm : m < p) (hn : n < p) :
    a * p + m < b * p + n ↔ a < b ∨ (a = b ∧ m < n) := by
  rcases Nat.lt_trichotomy a b with hlt | rfl | hgt
  · have hmul := Nat.mul_le_mul_right p (show a + 1 ≤ b from hlt)
    rw [Nat.add_mul, Nat.one_mul] at hmul
    omega
  · omega
  · have hmul := Nat.mul_le_mul_right p (show b + 1 ≤ a from hgt)
    rw [Nat.add_mul, Nat.one_mul] at hmul
    omega

/-- **Rows of digits of one length are ordered as their numbers.** -/
theorem lessThan_iff {s t : JsString} (hs : ∀ u ∈ s, isDecimalDigit u = true) (ht : ∀ u ∈ t, isDecimalDigit u = true)
    (hlen : s.length = t.length) : lessThan s t = true ↔ digitsValue s < digitsValue t := by
  induction s generalizing t with
  | nil =>
    rw [List.length_eq_zero_iff.mp hlen.symm]
    exact iff_of_false Bool.false_ne_true (Nat.lt_irrefl _)
  | cons u s ih =>
    cases t with
    | nil => cases hlen
    | cons v t =>
      obtain ⟨hu, hs⟩ := List.forall_mem_cons.mp hs
      obtain ⟨hv, ht⟩ := List.forall_mem_cons.mp ht
      have hlen : s.length = t.length := Nat.succ.inj hlen
      have hslt := digitsValue_lt hs
      rw [hlen] at hslt
      rw [isDecimalDigit_iff] at hu hv
      have hlt : u.toNat < v.toNat ↔ digitValue u < digitValue v := by
        rw [digitValue, digitValue]
        omega
      have heq : u.toNat = v.toNat ↔ digitValue u = digitValue v := by
        rw [digitValue, digitValue]
        omega
      rw [digitsValue_cons, digitsValue_cons, hlen, mul_add_lt_iff hslt (digitsValue_lt ht), ← ih hs ht hlen, lessThan,
        Bool.or_eq_true, Bool.and_eq_true, decide_eq_true_iff, beq_iff_eq, UInt16.lt_iff_toNat_lt, hlt,
        ← UInt16.toNat_inj, heq]

theorem readDigits_eq_some {s : JsString} {n : ℕ} (h : readDigits s = some n) :
    (∀ u ∈ s, isDecimalDigit u = true) ∧ digitsValue s = n := by
  rw [readDigits] at h
  split at h
  · next hall =>
    cases h
    exact ⟨List.all_eq_true.mp hall, rfl⟩
  · cases h

/-- A text that is read is three rows of digits with hyphens between them. -/
theorem readIsoDate_eq_some {s : JsString} (h : readIsoDate s = some d) :
    ∃ year month day : JsString, s = year ++ ([0x2D] ++ (month ++ ([0x2D] ++ day))) ∧
      year.length = 4 ∧ month.length = 2 ∧ day.length = 2 ∧
      readDigits year = some d.year ∧ readDigits month = some d.month ∧ readDigits day = some d.day := by
  rw [readIsoDate] at h
  split at h
  · next hshape =>
    obtain ⟨hlen, hfirst, hsecond⟩ := hshape
    split at h
    · next year month day hyear hmonth hday =>
      rw [dateOf] at h
      split at h
      · cases h
        refine ⟨s.take 4, (s.drop 5).take 2, s.drop 8, ?_, ?_, ?_, ?_, hyear, hmonth, hday⟩
        · have hsplit : ∀ i n, (s.drop i).take n ++ s.drop (i + n) = s.drop i := by
            intro i n
            rw [← List.drop_drop, List.take_append_drop]
          calc s = s.take 4 ++ s.drop 4 := (List.take_append_drop 4 s).symm
            _ = s.take 4 ++ ((s.drop 4).take 1 ++ ((s.drop 5).take 2 ++ ((s.drop 7).take 1 ++ s.drop 8))) := by
              rw [hsplit 7 1, hsplit 5 2, hsplit 4 1]
            _ = _ := by rw [hfirst, hsecond]
        · rw [List.length_take]
          omega
        · rw [List.length_take, List.length_drop]
          omega
        · rw [List.length_drop]
          omega
      · cases h
    · cases h
  · cases h

/-- Rows of digits of one length compare as their numbers, with what follows them if they are the same. -/
theorem compare_digits {a b s t : JsString} {n m : ℕ} (ha : readDigits a = some n) (hb : readDigits b = some m)
    (hlen : a.length = b.length) (h : lessThan (a ++ s) (b ++ t) = false) :
    m < n ∨ (m = n ∧ lessThan s t = false) := by
  obtain ⟨hda, rfl⟩ := readDigits_eq_some ha
  obtain ⟨hdb, rfl⟩ := readDigits_eq_some hb
  rw [lessThan_append hlen, Bool.or_eq_false_iff] at h
  rcases Nat.lt_trichotomy (digitsValue b) (digitsValue a) with hlt | heq | hgt
  · exact .inl hlt
  · right
    have hba : lessThan b a = false := by
      rw [← Bool.not_eq_true, lessThan_iff hdb hda hlen.symm]
      omega
    have hab : a = b := eq_of_not_lessThan h.1 hba
    rw [hab, beq_self_eq_true, Bool.true_and] at h
    exact ⟨heq, h.2⟩
  · exact absurd ((lessThan_iff hda hdb hlen).mpr hgt) (by rw [h.1]; exact Bool.false_ne_true)

/-- **A date whose text is not less than another's is no earlier.** -/
theorem noLater_of_not_lessThan {s t : JsString} {e : Date} (hs : readIsoDate s = some d) (ht : readIsoDate t = some e)
    (h : lessThan t s = false) : d.NoLater e := by
  obtain ⟨y, m, n, rfl, hy, hm, hn, hyear, hmonth, hday⟩ := readIsoDate_eq_some hs
  obtain ⟨y', m', n', rfl, hy', hm', hn', hyear', hmonth', hday'⟩ := readIsoDate_eq_some ht
  rcases compare_digits hyear' hyear (hy'.trans hy.symm) h with hlt | ⟨heq, h⟩
  · exact .inl hlt
  · have hhyphen : ∀ a b : JsString, lessThan ([0x2D] ++ a) ([0x2D] ++ b) = lessThan a b := by
      intro a b
      rw [lessThan_append rfl]
      rfl
    rw [hhyphen] at h
    right
    refine ⟨heq, ?_⟩
    rcases compare_digits hmonth' hmonth (hm'.trans hm.symm) h with hlt | ⟨heq, h⟩
    · exact .inl hlt
    · rw [hhyphen, ← List.append_nil n', ← List.append_nil n] at h
      right
      refine ⟨heq, ?_⟩
      rcases compare_digits hday' hday (hn'.trans hn.symm) h with hlt | ⟨heq, -⟩
      · exact hlt.le
      · exact heq.le

/-- A year has four digits. -/
theorem year_lt {s : JsString} (h : readIsoDate s = some d) : d.year < 10000 := by
  obtain ⟨y, m, n, -, hlen, -, -, hyear, -, -⟩ := readIsoDate_eq_some h
  obtain ⟨hdigits, hvalue⟩ := readDigits_eq_some hyear
  have hlt := digitsValue_lt hdigits
  rwa [hvalue, hlen] at hlt

/-- **Dates are ordered as their texts.** -/
theorem beginning_le_of_not_lessThan {s t : JsString} {e : Date} (hs : readIsoDate s = some d)
    (ht : readIsoDate t = some e) (h : lessThan t s = false) : beginning d ≤ beginning e := by
  have hcount := count_le_of_noLater (noLater_of_not_lessThan hs ht h)
  rw [beginning, beginning]
  omega

end NestDdd.Shared
