import Mathlib.Algebra.Order.Field.Power
import Mathlib.Algebra.Order.Floor.Semiring
import Mathlib.Data.Int.Log
import Mathlib.Data.Rat.Floor
import Mathlib.Tactic.FieldSimp
import Mathlib.Tactic.Ring

/-!
# Binary floating point with 64 bits

A finite number is a sign, a significand below `2 ^ 53` and an exponent, in the one form in which it is stored: only
the least exponent goes with a significand below `2 ^ 52`. A rational number is rounded to the nearest of these, to
the even one of two, and to an infinity when it is too large. The shortest decimal that rounds to a number is found
by trying more and more digits, with the decimals on either side of the number: beside a power of two the numbers
below are nearer than those above, so that the nearer decimal may be rounded away where the other one is not.

## What is proved

* `nearest_magnitude` — **a number is rounded to itself**.
* `nearest_between` — what is between two numbers that are rounded alike is rounded as they are.
* `nearest_shortest` — **the shortest decimal of a number is rounded to it**.
* `shortest_spec` — **no other has fewer digits**, and none with as few is nearer.
-/

namespace NestDdd.Theory

/-! ### Rounding to a natural number -/

/-- The nearest natural number, the even one of two. -/
def roundEven (q : ℚ) : ℕ :=
  if q - ⌊q⌋₊ < 1 / 2 ∨ (q - ⌊q⌋₊ = 1 / 2 ∧ ⌊q⌋₊ % 2 = 0) then ⌊q⌋₊ else ⌊q⌋₊ + 1

variable {q : ℚ} {n : ℕ}

@[simp] theorem roundEven_natCast (n : ℕ) : roundEven n = n := by
  rw [roundEven, Nat.floor_natCast, sub_self, if_pos]
  left
  norm_num

theorem le_roundEven (h : (n : ℚ) ≤ q) : n ≤ roundEven q := by
  have hfloor : n ≤ ⌊q⌋₊ := Nat.le_floor h
  rw [roundEven]
  split <;> omega

/-! ### Numbers -/

/-- Whether a significand and an exponent are stored as they are. -/
def Stored (significand : ℕ) (exponent : ℤ) : Prop :=
  significand < 2 ^ 53 ∧ -1074 ≤ exponent ∧ exponent ≤ 971 ∧ (significand < 2 ^ 52 → exponent = -1074)

instance (m : ℕ) (e : ℤ) : Decidable (Stored m e) := inferInstanceAs (Decidable (_ ∧ _ ∧ _ ∧ (_ → _)))

/-- A finite number. -/
structure Binary64 where
  /-- Whether the sign is set. -/
  negative : Bool
  /-- The significand. -/
  significand : ℕ
  /-- The exponent of two it is multiplied with. -/
  exponent : ℤ
  /-- The form in which it is stored. -/
  stored : Stored significand exponent
  deriving DecidableEq

namespace Binary64

/-- The zero of a sign. -/
def zero (negative : Bool) : Binary64 := ⟨negative, 0, -1074, by decide⟩

/-- The number with the sign `negative`. -/
def withSign (negative : Bool) (x : Binary64) : Binary64 := { x with negative := negative }

/-- The distance from zero. -/
def magnitude (x : Binary64) : ℚ := x.significand * 2 ^ x.exponent

end Binary64

/-- A number of IEEE 754. -/
inductive Double where
  /-- No number. -/
  | nan
  /-- The infinity of a sign. -/
  | infinity (negative : Bool)
  /-- A finite number. -/
  | finite (x : Binary64)
  deriving DecidableEq

/-! ### Rounding to a number -/

/-- The exponent of the numbers around `q`. -/
def exponentOf (q : ℚ) : ℤ := max (-1074) (Int.log 2 q - 52)

theorem le_div_exponentOf (h : 0 < q) (hexp : exponentOf q ≠ -1074) : 2 ^ 52 ≤ q / 2 ^ exponentOf q := by
  rw [le_div_iff₀ (by positivity), ← zpow_natCast, ← zpow_add₀ (by norm_num)]
  refine le_trans ?_ (Int.zpow_log_le_self one_lt_two h)
  apply zpow_le_zpow_right₀ one_le_two
  rw [exponentOf] at hexp ⊢
  omega

theorem le_roundEven_exponentOf (h : 0 < q) (hexp : exponentOf q ≠ -1074) :
    2 ^ 52 ≤ roundEven (q / 2 ^ exponentOf q) := by
  apply le_roundEven
  push_cast
  exact le_div_exponentOf h hexp

theorem stored_roundEven (h : 0 < q) (hlt : roundEven (q / 2 ^ exponentOf q) < 2 ^ 53) (hmax : exponentOf q ≤ 971) :
    Stored (roundEven (q / 2 ^ exponentOf q)) (exponentOf q) := by
  refine ⟨hlt, le_max_left _ _, hmax, ?_⟩
  intro hsmall
  by_contra hexp
  exact absurd (le_roundEven_exponentOf h hexp) (by omega)

theorem stored_next (q : ℚ) (hmax : exponentOf q + 1 ≤ 971) : Stored (2 ^ 52) (exponentOf q + 1) := by
  have hmin : -1074 ≤ exponentOf q := le_max_left _ _
  exact ⟨by norm_num, by omega, hmax, fun h => absurd h (lt_irrefl _)⟩

/-- The number nearest to `q` in the sign `negative`: the even one of two, and an infinity beyond the largest. -/
def nearest (negative : Bool) (q : ℚ) : Double :=
  if h : 0 < q then
    if hlt : roundEven (q / 2 ^ exponentOf q) < 2 ^ 53 then
      if hmax : exponentOf q ≤ 971 then .finite ⟨negative, _, _, stored_roundEven h hlt hmax⟩
      else .infinity negative
    -- the significand is rounded up to `2 ^ 53`, the first with the next exponent
    else if hmax : exponentOf q + 1 ≤ 971 then .finite ⟨negative, _, _, stored_next q hmax⟩
    else .infinity negative
  else .finite (.zero negative)

theorem nearest_of_not_pos (negative : Bool) (h : ¬0 < q) : nearest negative q = .finite (.zero negative) :=
  dif_neg h

/-- The sign has no part in the rounding. -/
theorem nearest_withSign {negative negative' : Bool} {x : Binary64} (h : nearest negative q = .finite x) :
    nearest negative' q = .finite (x.withSign negative') := by
  rw [nearest] at h ⊢
  split at h
  · next hpos =>
    rw [dif_pos hpos]
    split at h
    · next hlt =>
      rw [dif_pos hlt]
      split at h
      · next hmax =>
        cases h
        rw [dif_pos hmax]
        rfl
      · cases h
    · next hlt =>
      rw [dif_neg hlt]
      split at h
      · next hmax =>
        cases h
        rw [dif_pos hmax]
        rfl
      · cases h
  · next hpos =>
    cases h
    rw [dif_neg hpos]
    rfl

namespace Binary64

variable {x : Binary64}

theorem magnitude_pos (h : x.significand ≠ 0) : 0 < x.magnitude := by
  have hpos : (0 : ℚ) < x.significand := by exact_mod_cast Nat.pos_of_ne_zero h
  exact mul_pos hpos (by positivity)

theorem magnitude_div (x : Binary64) : x.magnitude / 2 ^ x.exponent = x.significand := by
  rw [magnitude]
  field_simp

/-- The exponent found for a number is its own. -/
theorem exponentOf_magnitude (h : x.significand ≠ 0) : exponentOf x.magnitude = x.exponent := by
  obtain ⟨hlt, hmin, -, hsmall⟩ := x.stored
  have hpos := magnitude_pos h
  have hupper : Int.log 2 x.magnitude < x.exponent + 53 := by
    rw [← Int.lt_zpow_iff_log_lt one_lt_two hpos, magnitude, add_comm, zpow_add₀ (by norm_num)]
    have hcast : (x.significand : ℚ) < 2 ^ 53 := by exact_mod_cast hlt
    exact mul_lt_mul_of_pos_right (by exact_mod_cast hcast) (by positivity)
  by_cases hsub : x.significand < 2 ^ 52
  · have hexp := hsmall hsub
    have hupper' : Int.log 2 x.magnitude < x.exponent + 52 := by
      rw [← Int.lt_zpow_iff_log_lt one_lt_two hpos, magnitude, add_comm, zpow_add₀ (by norm_num)]
      have hcast : (x.significand : ℚ) < 2 ^ 52 := by exact_mod_cast hsub
      exact mul_lt_mul_of_pos_right (by exact_mod_cast hcast) (by positivity)
    rw [exponentOf]
    omega
  · have hlower : x.exponent + 52 ≤ Int.log 2 x.magnitude := by
      rw [← Int.zpow_le_iff_le_log one_lt_two hpos, magnitude, add_comm, zpow_add₀ (by norm_num)]
      have hcast : (2 : ℚ) ^ 52 ≤ x.significand := by exact_mod_cast not_lt.mp hsub
      exact mul_le_mul_of_nonneg_right (by exact_mod_cast hcast) (by positivity)
    rw [exponentOf]
    omega

/-- **A number is rounded to itself.** -/
theorem nearest_magnitude (h : x.significand ≠ 0) (negative : Bool) :
    nearest negative x.magnitude = .finite (x.withSign negative) := by
  have hround : roundEven (x.magnitude / 2 ^ exponentOf x.magnitude) = x.significand := by
    rw [exponentOf_magnitude h, magnitude_div, roundEven_natCast]
  have hlt : roundEven (x.magnitude / 2 ^ exponentOf x.magnitude) < 2 ^ 53 := by
    rw [hround]
    exact x.stored.1
  have hmax : exponentOf x.magnitude ≤ 971 := by
    rw [exponentOf_magnitude h]
    exact x.stored.2.2.1
  rw [nearest, dif_pos (magnitude_pos h), dif_pos hlt, dif_pos hmax, withSign, Double.finite.injEq, Binary64.mk.injEq]
  exact ⟨rfl, hround, exponentOf_magnitude h⟩

end Binary64

/-! ### Rounding keeps the order -/

theorem floor_le_roundEven (q : ℚ) : ⌊q⌋₊ ≤ roundEven q := by
  rw [roundEven]
  split <;> omega

theorem roundEven_le_floor (q : ℚ) : roundEven q ≤ ⌊q⌋₊ + 1 := by
  rw [roundEven]
  split <;> omega

theorem roundEven_mono {q r : ℚ} (h : q ≤ r) : roundEven q ≤ roundEven r := by
  rcases (Nat.floor_mono h).lt_or_eq with hlt | heq
  · exact (roundEven_le_floor q).trans (le_trans hlt (floor_le_roundEven r))
  · rw [roundEven, roundEven, heq]
    split
    · split <;> omega
    · next hup =>
      rw [if_neg fun hdown => hup ?_]
      rcases hdown with hlt | ⟨hhalf, heven⟩
      · left
        linarith
      · rcases (sub_le_sub_right h (⌊r⌋₊ : ℚ)).lt_or_eq with hlt | hsame
        · left
          linarith
        · exact .inr ⟨hsame.trans hhalf, heven⟩

/-- What `q` is rounded to, where nothing is too large. -/
def rounded (q : ℚ) : ℚ := roundEven (q / 2 ^ exponentOf q) * 2 ^ exponentOf q

theorem exponentOf_mono {q r : ℚ} (hq : 0 < q) (h : q ≤ r) : exponentOf q ≤ exponentOf r :=
  max_le_max le_rfl (sub_le_sub_right (Int.log_mono_right hq h) 52)

theorem two_pow_mul (n : ℕ) (e : ℤ) : (2 : ℚ) ^ n * 2 ^ e = 2 ^ (n + e) := by
  rw [← zpow_natCast, ← zpow_add₀ (by norm_num)]

theorem roundEven_exponentOf_le (q : ℚ) : roundEven (q / 2 ^ exponentOf q) ≤ 2 ^ 53 := by
  have hlt : q / 2 ^ exponentOf q ≤ (2 ^ 53 : ℕ) := by
    rw [div_le_iff₀ (by positivity), Nat.cast_pow, Nat.cast_two, two_pow_mul]
    refine (Int.lt_zpow_succ_log_self one_lt_two q).le.trans (zpow_le_zpow_right₀ one_le_two ?_)
    rw [exponentOf]
    omega
  exact (roundEven_mono hlt).trans (roundEven_natCast _).le

theorem rounded_mono {q r : ℚ} (hq : 0 < q) (h : q ≤ r) : rounded q ≤ rounded r := by
  rw [rounded, rounded]
  rcases (exponentOf_mono hq h).lt_or_eq with hlt | heq
  · have hr : 0 < r := hq.trans_le h
    have hmin : -1074 ≤ exponentOf q := le_max_left _ _
    have hle : ((roundEven (q / 2 ^ exponentOf q) : ℕ) : ℚ) ≤ 2 ^ 53 := by exact_mod_cast roundEven_exponentOf_le q
    have hge : (2 : ℚ) ^ 52 ≤ (roundEven (r / 2 ^ exponentOf r) : ℕ) := by
      exact_mod_cast le_roundEven_exponentOf hr (by omega)
    calc (roundEven (q / 2 ^ exponentOf q) : ℚ) * 2 ^ exponentOf q
        ≤ 2 ^ 53 * 2 ^ exponentOf q := mul_le_mul_of_nonneg_right hle (by positivity)
      _ ≤ 2 ^ 52 * 2 ^ exponentOf r := by
        rw [two_pow_mul, two_pow_mul]
        exact zpow_le_zpow_right₀ one_le_two (by omega)
      _ ≤ roundEven (r / 2 ^ exponentOf r) * 2 ^ exponentOf r := mul_le_mul_of_nonneg_right hge (by positivity)
  · rw [heq]
    refine mul_le_mul_of_nonneg_right ?_ (by positivity)
    exact_mod_cast roundEven_mono (div_le_div_of_nonneg_right h (by positivity))

/-- A number is rounded to a finite one of the same value, or is too large. -/
theorem nearest_cases (hq : 0 < q) (negative : Bool) :
    (∃ x : Binary64, nearest negative q = .finite x ∧ x.negative = negative ∧ x.magnitude = rounded q) ∨
      (nearest negative q = .infinity negative ∧ 2 ^ (1024 : ℤ) ≤ rounded q) := by
  rw [nearest, dif_pos hq, rounded]
  split
  · next hlt =>
    split
    · exact .inl ⟨_, rfl, rfl, rfl⟩
    · next hmax =>
      have hge : (2 : ℚ) ^ 52 ≤ (roundEven (q / 2 ^ exponentOf q) : ℕ) := by
        exact_mod_cast le_roundEven_exponentOf hq (by omega)
      refine .inr ⟨rfl, le_trans ?_ (mul_le_mul_of_nonneg_right hge (by positivity))⟩
      rw [two_pow_mul]
      exact zpow_le_zpow_right₀ one_le_two (by omega)
  · next hlt =>
    have hcarry : roundEven (q / 2 ^ exponentOf q) = 2 ^ 53 := by
      have hle := roundEven_exponentOf_le q
      omega
    rw [hcarry, Nat.cast_pow, Nat.cast_two, two_pow_mul]
    split
    · refine .inl ⟨_, rfl, rfl, ?_⟩
      show ((2 ^ 52 : ℕ) : ℚ) * 2 ^ (exponentOf q + 1) = 2 ^ ((53 : ℕ) + exponentOf q)
      rw [Nat.cast_pow, Nat.cast_two, two_pow_mul]
      congr 1
      omega
    · exact .inr ⟨rfl, zpow_le_zpow_right₀ one_le_two (by omega)⟩

namespace Binary64

variable {x : Binary64}

theorem magnitude_lt (x : Binary64) : x.magnitude < 2 ^ (1024 : ℤ) := by
  obtain ⟨hlt, -, hmax, -⟩ := x.stored
  have hcast : (x.significand : ℚ) < 2 ^ 53 := by exact_mod_cast hlt
  refine (mul_lt_mul_of_pos_right hcast (by positivity)).trans_le ?_
  rw [two_pow_mul]
  exact zpow_le_zpow_right₀ one_le_two (by omega)

/-- A number is rounded to `x` exactly if it is rounded to its magnitude. -/
theorem nearest_eq_iff (hx : x.significand ≠ 0) :
    nearest false q = .finite (x.withSign false) ↔ 0 < q ∧ rounded q = x.magnitude := by
  by_cases hq : 0 < q
  · rcases nearest_cases hq false with ⟨y, hy, hneg, hmag⟩ | ⟨hy, hlarge⟩
    · rw [hy, Double.finite.injEq, ← hmag]
      constructor
      · rintro rfl
        exact ⟨hq, rfl⟩
      rintro ⟨-, h⟩
      have hy0 : y.significand ≠ 0 := fun h0 => by
        have hpos := magnitude_pos hx
        rw [← h, magnitude, h0, Nat.cast_zero, zero_mul] at hpos
        exact lt_irrefl _ hpos
      have hself := nearest_magnitude hy0 false
      rw [h, nearest_magnitude hx, Double.finite.injEq] at hself
      rw [hself, ← hneg]
      rfl
    · rw [hy]
      refine iff_of_false nofun fun h => ?_
      rw [h.2] at hlarge
      exact absurd x.magnitude_lt hlarge.not_gt
  · refine iff_of_false (fun h => ?_) fun h => hq h.1
    rw [nearest_of_not_pos false hq, Double.finite.injEq] at h
    exact hx (congrArg Binary64.significand h).symm

/-- **What is between two numbers that are rounded to `x` is rounded to it.** -/
theorem nearest_between (hx : x.significand ≠ 0) {a b : ℚ} (ha : nearest false a = .finite (x.withSign false))
    (hb : nearest false b = .finite (x.withSign false)) (haq : a ≤ q) (hqb : q ≤ b) :
    nearest false q = .finite (x.withSign false) := by
  obtain ⟨hpos, ha⟩ := (nearest_eq_iff hx).mp ha
  obtain ⟨-, hb⟩ := (nearest_eq_iff hx).mp hb
  have hq : 0 < q := hpos.trans_le haq
  exact (nearest_eq_iff hx).mpr
    ⟨hq, le_antisymm ((rounded_mono hq hqb).trans hb.le) (ha.ge.trans (rounded_mono hpos haq))⟩

end Binary64

/-! ### Decimals -/

/-- A natural number times a power of ten. -/
structure Decimal where
  /-- The natural number. -/
  coefficient : ℕ
  /-- The exponent of ten. -/
  exponent : ℤ
  deriving DecidableEq

/-- The value of a decimal. -/
def Decimal.value (d : Decimal) : ℚ := d.coefficient * 10 ^ d.exponent

/-- The exponent of ten of the last of the first `k + 1` digits. -/
def lastPlace (q : ℚ) (k : ℕ) : ℤ := Int.log 10 q - k

/-- The number of units of that place. -/
def units (q : ℚ) (k : ℕ) : ℚ := q / 10 ^ lastPlace q k

/-- The decimal of `n` such units. -/
def decimalAt (q : ℚ) (k n : ℕ) : Decimal :=
  -- Rounding up may carry through all digits.
  if n = 10 ^ (k + 1) then ⟨10 ^ k, lastPlace q k + 1⟩ else ⟨n, lastPlace q k⟩

/-- The natural number on the other side of `q`. -/
def roundOther (q : ℚ) : ℕ := if roundEven q = ⌊q⌋₊ then ⌊q⌋₊ + 1 else ⌊q⌋₊

/-- The two decimals with `k + 1` digits beside `q`, the nearer one first. -/
def decimalsOf (q : ℚ) (k : ℕ) : List Decimal :=
  [decimalAt q k (roundEven (units q k)), decimalAt q k (roundOther (units q k))]

/-- The two numbers beside `q` are the one below and the one above. -/
theorem roundEven_or_roundOther (q : ℚ) (n : ℕ) : n = roundEven q ∨ n = roundOther q ↔ n = ⌊q⌋₊ ∨ n = ⌊q⌋₊ + 1 := by
  have hge := floor_le_roundEven q
  have hle := roundEven_le_floor q
  rw [roundOther]
  split <;> omega

theorem value_decimalAt (q : ℚ) (k n : ℕ) : (decimalAt q k n).value = n * 10 ^ lastPlace q k := by
  rw [decimalAt]
  split
  · next hcarry =>
    rw [hcarry, Decimal.value, zpow_add_one₀ (by norm_num)]
    push_cast
    ring
  · rfl

theorem units_mul (q : ℚ) (k : ℕ) : units q k * 10 ^ lastPlace q k = q := by
  rw [units]
  field_simp

namespace Binary64

variable {x : Binary64}

/-- At the place of `10 ^ (-1074)` or beyond, every number is a natural number of units. -/
theorem magnitude_div_ten (x : Binary64) {p : ℤ} (h : p ≤ -1074) : ∃ n : ℕ, x.magnitude / 10 ^ p = n := by
  obtain ⟨-, hmin, -, -⟩ := x.stored
  obtain ⟨i, hi⟩ := Int.eq_ofNat_of_zero_le (show 0 ≤ -p by omega)
  obtain ⟨j, hj⟩ := Int.eq_ofNat_of_zero_le (show 0 ≤ x.exponent + -p by omega)
  refine ⟨x.significand * 2 ^ j * 5 ^ i, ?_⟩
  have hten : (10 : ℚ) ^ (-p) = 2 ^ (-p) * 5 ^ (-p) := by
    rw [← mul_zpow]
    norm_num
  rw [magnitude, div_eq_mul_inv, ← zpow_neg, hten, mul_assoc, ← mul_assoc (2 ^ x.exponent), ← zpow_add₀ (by norm_num),
    hj, hi, zpow_natCast, zpow_natCast]
  push_cast
  ring

/-- The decimal is rounded to the number. -/
def Reads (x : Binary64) (d : Decimal) : Prop := nearest false d.value = .finite (x.withSign false)

instance (x : Binary64) (d : Decimal) : Decidable (x.Reads d) := inferInstanceAs (Decidable (_ = _))

/-- What is rounded to the number of the decimals with `k + 1` digits beside it. -/
def readBack (x : Binary64) (k : ℕ) : Option Decimal := (decimalsOf x.magnitude k).find? fun d => x.Reads d

theorem exists_readBack (h : x.significand ≠ 0) : ∃ k, (x.readBack k).isSome = true := by
  refine ⟨(Int.log 10 x.magnitude + 1074).toNat, ?_⟩
  obtain ⟨n, hn⟩ := x.magnitude_div_ten
    (show lastPlace x.magnitude (Int.log 10 x.magnitude + 1074).toNat ≤ -1074 by rw [lastPlace]; omega)
  rw [readBack, List.find?_isSome]
  refine ⟨_, List.mem_cons_self, decide_eq_true ?_⟩
  rw [Reads, value_decimalAt, units, hn, roundEven_natCast, ← hn, ← units, units_mul]
  exact nearest_magnitude h false

theorem reads_of_readBack {k : ℕ} {d : Decimal} (h : x.readBack k = some d) : x.Reads d := by
  have hreads := List.find?_some (show (decimalsOf x.magnitude k).find? (fun d => x.Reads d) = some d from h)
  exact of_decide_eq_true hreads

/-- The shortest decimal that is rounded to the number, and of these the nearest. -/
def shortest (x : Binary64) : Decimal :=
  if h : x.significand ≠ 0 then (x.readBack (Nat.find (exists_readBack h))).getD ⟨0, 0⟩ else ⟨0, 0⟩

/-- The number of its digits, less one. -/
theorem exists_shortest (h : x.significand ≠ 0) :
    ∃ k, x.readBack k = some x.shortest ∧ ∀ m < k, x.readBack m = none := by
  refine ⟨Nat.find (exists_readBack h), ?_, fun m hm => ?_⟩
  · obtain ⟨d, hd⟩ := Option.isSome_iff_exists.mp (Nat.find_spec (exists_readBack h))
    rw [shortest, dif_pos h, hd]
    rfl
  · exact Option.not_isSome_iff_eq_none.mp (Nat.find_min _ hm)

/-- **The shortest decimal of a number is rounded to it.** -/
theorem nearest_shortest (h : x.significand ≠ 0) (negative : Bool) :
    nearest negative x.shortest.value = .finite (x.withSign negative) := by
  obtain ⟨k, hk, -⟩ := exists_shortest h
  exact (nearest_withSign (reads_of_readBack hk)).trans rfl

/-! ### The shortest -/

theorem pow_le_units (hq : 0 < q) (k : ℕ) : (10 : ℚ) ^ k ≤ units q k := by
  rw [units, le_div_iff₀ (by positivity), ← zpow_natCast, ← zpow_add₀ (by norm_num), lastPlace, add_sub_cancel]
  exact Int.zpow_log_le_self (by norm_num) hq

/-- **A decimal with no more digits** is not strictly between the two beside `q`. -/
theorem value_le_or (hq : 0 < q) {k : ℕ} {d : Decimal} (hd : d.coefficient < 10 ^ (k + 1)) :
    d.value ≤ ⌊units q k⌋₊ * 10 ^ lastPlace q k ∨ (⌊units q k⌋₊ + 1) * 10 ^ lastPlace q k ≤ d.value := by
  have hpos : (0 : ℚ) < 10 ^ lastPlace q k := by positivity
  rcases le_or_gt (lastPlace q k) d.exponent with hexp | hexp
  · -- it is a whole number of units
    obtain ⟨i, hi⟩ := Int.eq_ofNat_of_zero_le (sub_nonneg.mpr hexp)
    have hvalue : d.value = ((d.coefficient * 10 ^ i : ℕ) : ℚ) * 10 ^ lastPlace q k := by
      rw [Decimal.value, Nat.cast_mul, Nat.cast_pow, mul_assoc, ← zpow_natCast, Nat.cast_ofNat,
        ← zpow_add₀ (by norm_num), ← hi]
      congr 2
      omega
    rw [hvalue]
    rcases le_or_gt (d.coefficient * 10 ^ i) ⌊units q k⌋₊ with hle | hgt
    · left
      exact mul_le_mul_of_nonneg_right (by exact_mod_cast hle) hpos.le
    · right
      exact mul_le_mul_of_nonneg_right (by exact_mod_cast hgt) hpos.le
  · -- it is less than `10 ^ k` units
    left
    have hten : 10 ^ k ≤ ⌊units q k⌋₊ := Nat.le_floor (by exact_mod_cast pow_le_units hq k)
    have hd' : (d.coefficient : ℚ) ≤ 10 ^ (k + 1) := by exact_mod_cast hd.le
    calc d.value ≤ 10 ^ (k + 1) * 10 ^ (lastPlace q k - 1) :=
          mul_le_mul hd' (zpow_le_zpow_right₀ (by norm_num) (by omega)) (by positivity) (by positivity)
      _ = 10 ^ k * 10 ^ lastPlace q k := by
        rw [zpow_sub_one₀ (by norm_num), pow_succ]
        ring
      _ ≤ _ := mul_le_mul_of_nonneg_right (by exact_mod_cast hten) hpos.le

theorem floor_units (hq : 0 < q) (k : ℕ) :
    (⌊units q k⌋₊ : ℚ) * 10 ^ lastPlace q k ≤ q ∧ q < (⌊units q k⌋₊ + 1) * 10 ^ lastPlace q k := by
  have hpos : (0 : ℚ) < 10 ^ lastPlace q k := by positivity
  have hunits : 0 ≤ units q k := (by positivity : (0 : ℚ) ≤ 10 ^ k).trans (pow_le_units hq k)
  have hle := mul_le_mul_of_nonneg_right (Nat.floor_le hunits) hpos.le
  have hlt := mul_lt_mul_of_pos_right (Nat.lt_floor_add_one (units q k)) hpos
  rw [units_mul] at hle hlt
  exact ⟨hle, hlt⟩

/-- A decimal that is rounded to the number has one beside the number that is, on the same side. -/
theorem Reads.beside (hx : x.significand ≠ 0) {d : Decimal} (h : x.Reads d) {k : ℕ} (hd : d.coefficient < 10 ^ (k + 1)) :
    ∃ n, (n = ⌊units x.magnitude k⌋₊ ∨ n = ⌊units x.magnitude k⌋₊ + 1) ∧ x.Reads (decimalAt x.magnitude k n) ∧
      |n * 10 ^ lastPlace x.magnitude k - x.magnitude| ≤ |d.value - x.magnitude| := by
  have hpos := magnitude_pos hx
  have hself := nearest_magnitude hx false
  obtain ⟨hbelow, habove⟩ := floor_units hpos k
  rcases value_le_or hpos hd with hle | hge
  · refine ⟨_, .inl rfl, ?_, ?_⟩
    · rw [Reads, value_decimalAt]
      exact nearest_between hx h hself hle hbelow
    · rw [abs_of_nonpos (by linarith), abs_of_nonpos (by linarith)]
      linarith
  · refine ⟨_, .inr rfl, ?_, ?_⟩ <;> push_cast
    · rw [Reads, value_decimalAt, Nat.cast_succ]
      exact nearest_between hx hself h habove.le hge
    · rw [abs_of_nonneg (by linarith), abs_of_nonneg (by linarith)]
      linarith

/-- The first of the two is the nearer one. -/
theorem abs_roundEven_sub_le (hq : 0 ≤ q) (hn : n = ⌊q⌋₊ ∨ n = ⌊q⌋₊ + 1) : |roundEven q - q| ≤ |n - q| := by
  have hbelow := Nat.floor_le hq
  have habove := Nat.lt_floor_add_one q
  rw [roundEven]
  split
  · next hdown =>
    rw [abs_of_nonpos (by linarith)]
    rcases hn with rfl | rfl
    · rw [abs_of_nonpos (by linarith)]
    · push_cast
      rw [abs_of_nonneg (by linarith)]
      rcases hdown with hdown | ⟨hdown, -⟩ <;> linarith
  · next hup =>
    have hhalf : 1 / 2 ≤ q - ⌊q⌋₊ := not_lt.mp fun hlt => hup (.inl hlt)
    push_cast
    rw [abs_of_nonneg (by linarith)]
    rcases hn with rfl | rfl
    · rw [abs_of_nonpos (by linarith)]
      linarith
    · push_cast
      rw [abs_of_nonneg (by linarith)]

theorem abs_mul_sub (q : ℚ) (k n : ℕ) :
    |n * 10 ^ lastPlace q k - q| = |n - units q k| * 10 ^ lastPlace q k := by
  have hpos : (0 : ℚ) < 10 ^ lastPlace q k := by positivity
  rw [← abs_of_pos hpos, ← abs_mul, abs_of_pos hpos, sub_mul, units_mul]

theorem floor_units_lt (q : ℚ) (k : ℕ) : ⌊units q k⌋₊ < 10 ^ (k + 1) := by
  rw [Nat.floor_lt' (by positivity), units, div_lt_iff₀ (by positivity), Nat.cast_pow, Nat.cast_ofNat,
    ← zpow_natCast, ← zpow_add₀ (by norm_num), lastPlace]
  have hexp : ((k + 1 : ℕ) : ℤ) + (Int.log 10 q - k) = Int.log 10 q + 1 := by
    push_cast
    ring
  rw [hexp]
  exact Int.lt_zpow_succ_log_self (by norm_num) q

theorem coefficient_lt {k : ℕ} {d : Decimal} (hd : d ∈ decimalsOf q k) : d.coefficient < 10 ^ (k + 1) := by
  have hle {n : ℕ} (hn : n = ⌊units q k⌋₊ ∨ n = ⌊units q k⌋₊ + 1) : (decimalAt q k n).coefficient < 10 ^ (k + 1) := by
    have hfloor := floor_units_lt q k
    rw [decimalAt]
    split
    · exact Nat.pow_lt_pow_right (by norm_num) (by omega)
    · show n < 10 ^ (k + 1)
      omega
  simp only [decimalsOf, List.mem_cons, List.not_mem_nil, or_false] at hd
  rcases hd with rfl | rfl
  · exact hle ((roundEven_or_roundOther _ _).mp (.inl rfl))
  · exact hle ((roundEven_or_roundOther _ _).mp (.inr rfl))

/-- **No decimal that is rounded to a number has fewer digits** than its shortest, and none with as few is nearer. -/
theorem shortest_spec (hx : x.significand ≠ 0) {d : Decimal} (h : x.Reads d) :
    (∀ k, d.coefficient < 10 ^ (k + 1) → x.shortest.coefficient < 10 ^ (k + 1)) ∧
      ((∀ k, x.shortest.coefficient < 10 ^ (k + 1) → d.coefficient < 10 ^ (k + 1)) →
        |x.shortest.value - x.magnitude| ≤ |d.value - x.magnitude|) := by
  have hpos := magnitude_pos hx
  obtain ⟨m, hm, hnone⟩ := exists_shortest hx
  have hlt : x.shortest.coefficient < 10 ^ (m + 1) := coefficient_lt (List.mem_of_find?_eq_some hm)
  constructor
  · intro k hk
    obtain ⟨n, hn, hreads, -⟩ := h.beside hx hk
    have hle : m ≤ k := by
      by_contra hgt
      have hmem : decimalAt x.magnitude k n ∈ decimalsOf x.magnitude k := by
        rcases (roundEven_or_roundOther _ _).mpr hn with rfl | rfl <;> simp [decimalsOf]
      exact List.find?_eq_none.mp (hnone k (not_le.mp hgt)) _ hmem (decide_eq_true hreads)
    exact hlt.trans_le (Nat.pow_le_pow_right (by norm_num) (by omega))
  · intro hfew
    obtain ⟨n, hn, hreads, hnear⟩ := h.beside hx (hfew m hlt)
    refine le_trans ?_ hnear
    rw [readBack, decimalsOf, List.find?_cons] at hm
    split at hm
    · next hfirst =>
      rw [← Option.some.inj hm, value_decimalAt, abs_mul_sub, abs_mul_sub]
      have hunits : 0 ≤ units x.magnitude m := (by positivity : (0 : ℚ) ≤ 10 ^ m).trans (pow_le_units hpos m)
      exact mul_le_mul_of_nonneg_right (abs_roundEven_sub_le hunits hn) (by positivity)
    · next hfirst =>
      -- the nearer one is not rounded to the number, so the other one is the only one that is
      have hother : n = roundOther (units x.magnitude m) := by
        refine ((roundEven_or_roundOther _ _).mpr hn).resolve_left ?_
        rintro rfl
        exact of_decide_eq_false hfirst hreads
      have hshortest := List.mem_of_find?_eq_some hm
      rw [List.mem_singleton] at hshortest
      rw [hshortest, value_decimalAt, hother]

theorem shortest_pos (h : x.significand ≠ 0) : 0 < x.shortest.coefficient := by
  apply Nat.pos_of_ne_zero
  intro hzero
  have hnot : ¬0 < x.shortest.value := by
    rw [Decimal.value, hzero]
    norm_num
  have hnear := nearest_shortest h false
  rw [nearest_of_not_pos false hnot, Double.finite.injEq] at hnear
  exact h (congrArg Binary64.significand hnear).symm

end Binary64

end NestDdd.Theory
