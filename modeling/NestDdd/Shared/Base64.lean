import Mathlib.Data.List.TakeWhile
import Mathlib.Tactic.IntervalCases
import NestDdd.Shared.Utf8

/-!
# Base64 for URLs

`toString('base64url')` and `Buffer.from(s, 'base64url')`. Three bytes are written as four characters, and there is no
padding. What is read may be in either alphabet; a character outside both is passed over. Node reads no further than
the first `=`, and of a character it sees the low byte only.

## What is proved

* `fromBase64url_toBase64url` — **bytes are read back**.
-/

namespace NestDdd.Shared

/-! ### The alphabet -/

/-- The character of six bits. -/
def base64Unit (n : ℕ) : UInt16 :=
  if n < 26 then unit (0x41 + n)
  else if n < 52 then unit (0x61 + (n - 26))
  else if n < 62 then unit (0x30 + (n - 52))
  else if n = 62 then 0x2D
  else 0x5F

/-- The six bits of a character, of this alphabet or of the common one. -/
def base64Value (u : UInt16) : Option ℕ :=
  if 0x41 ≤ u ∧ u ≤ 0x5A then some (u.toNat - 0x41)
  else if 0x61 ≤ u ∧ u ≤ 0x7A then some (u.toNat - 0x61 + 26)
  else if 0x30 ≤ u ∧ u ≤ 0x39 then some (u.toNat - 0x30 + 52)
  else if u = 0x2D ∨ u = 0x2B then some 62
  else if u = 0x5F ∨ u = 0x2F then some 63
  else none

/-! ### Bytes and groups of six bits -/

/-- Bytes as groups of six bits, the last filled up with zeros. -/
def toSextets : List UInt8 → List ℕ
  | [] => []
  | [a] => [a.toNat / 4, a.toNat % 4 * 16]
  | [a, b] => [a.toNat / 4, a.toNat % 4 * 16 + b.toNat / 16, b.toNat % 16 * 4]
  | a :: b :: c :: bs =>
    a.toNat / 4 :: (a.toNat % 4 * 16 + b.toNat / 16) :: (b.toNat % 16 * 4 + c.toNat / 64) :: c.toNat % 64 ::
      toSextets bs

/-- Groups of six bits as bytes; bits that make no byte are dropped. -/
def ofSextets : List ℕ → List UInt8
  | p :: q :: r :: s :: l =>
    byte (p * 4 + q / 16) :: byte (q % 16 * 16 + r / 4) :: byte (r % 4 * 64 + s) :: ofSextets l
  | [p, q, r] => [byte (p * 4 + q / 16), byte (q % 16 * 16 + r / 4)]
  | [p, q] => [byte (p * 4 + q / 16)]
  | _ => []

/-- `toString('base64url')`. -/
def toBase64url (bs : List UInt8) : JsString := (toSextets bs).map base64Unit

/-- The low byte of a character. -/
def lowByte (u : UInt16) : UInt16 := u &&& 0xFF

/-- `Buffer.from(s, 'base64url')`. -/
def fromBase64url (s : JsString) : List UInt8 :=
  ofSextets ((s.takeWhile fun u => u != 0x3D).filterMap fun u => base64Value (lowByte u))

/-! ### The round trip -/

theorem byte_toNat (b : UInt8) : byte b.toNat = b := UInt8.ofNat_toNat

theorem toSextets_lt (bs : List UInt8) : ∀ n ∈ toSextets bs, n < 64 := by
  fun_induction toSextets bs with
  | case1 => exact fun n hn => absurd hn List.not_mem_nil
  | case2 a =>
    have ha : a.toNat < 256 := a.toNat_lt
    simp only [List.forall_mem_cons, List.not_mem_nil, false_imp_iff, implies_true, and_true]
    omega
  | case3 a b =>
    have ha : a.toNat < 256 := a.toNat_lt
    have hb : b.toNat < 256 := b.toNat_lt
    simp only [List.forall_mem_cons, List.not_mem_nil, false_imp_iff, implies_true, and_true]
    omega
  | case4 a b c bs ih =>
    have ha : a.toNat < 256 := a.toNat_lt
    have hb : b.toNat < 256 := b.toNat_lt
    have hc : c.toNat < 256 := c.toNat_lt
    simp only [List.forall_mem_cons]
    refine ⟨by omega, by omega, by omega, by omega, ih⟩

theorem ofSextets_toSextets (bs : List UInt8) : ofSextets (toSextets bs) = bs := by
  fun_induction toSextets bs with
  | case1 => rfl
  | case2 a =>
    have ha : a.toNat < 256 := a.toNat_lt
    rw [ofSextets, show a.toNat / 4 * 4 + a.toNat % 4 * 16 / 16 = a.toNat by omega, byte_toNat]
  | case3 a b =>
    have ha : a.toNat < 256 := a.toNat_lt
    have hb : b.toNat < 256 := b.toNat_lt
    rw [ofSextets, show a.toNat / 4 * 4 + (a.toNat % 4 * 16 + b.toNat / 16) / 16 = a.toNat by omega,
      show (a.toNat % 4 * 16 + b.toNat / 16) % 16 * 16 + b.toNat % 16 * 4 / 4 = b.toNat by omega, byte_toNat,
      byte_toNat]
  | case4 a b c bs ih =>
    have ha : a.toNat < 256 := a.toNat_lt
    have hb : b.toNat < 256 := b.toNat_lt
    have hc : c.toNat < 256 := c.toNat_lt
    rw [ofSextets, ih, show a.toNat / 4 * 4 + (a.toNat % 4 * 16 + b.toNat / 16) / 16 = a.toNat by omega,
      show (a.toNat % 4 * 16 + b.toNat / 16) % 16 * 16 + (b.toNat % 16 * 4 + c.toNat / 64) / 4 = b.toNat by omega,
      show (b.toNat % 16 * 4 + c.toNat / 64) % 4 * 64 + c.toNat % 64 = c.toNat by omega, byte_toNat, byte_toNat,
      byte_toNat]

/-- What is written is never a `=`, and its low byte is all of it. -/
theorem base64Unit_spec {n : ℕ} (h : n < 64) :
    base64Unit n ≠ 0x3D ∧ base64Value (lowByte (base64Unit n)) = some n := by
  interval_cases n <;> exact ⟨by decide, rfl⟩

theorem takeWhile_base64Unit {l : List ℕ} (h : ∀ n ∈ l, n < 64) :
    ((l.map base64Unit).takeWhile fun u => u != 0x3D) = l.map base64Unit := by
  refine List.takeWhile_eq_self_iff.2 fun u hu => ?_
  obtain ⟨n, hn, rfl⟩ := List.mem_map.1 hu
  exact bne_iff_ne.2 (base64Unit_spec (h n hn)).1

theorem filterMap_base64Unit {l : List ℕ} (h : ∀ n ∈ l, n < 64) :
    ((l.map base64Unit).filterMap fun u => base64Value (lowByte u)) = l := by
  induction l with
  | nil => rfl
  | cons n l ih =>
    have hn : base64Value (lowByte (base64Unit n)) = some n := (base64Unit_spec (h n List.mem_cons_self)).2
    rw [List.map_cons, List.filterMap_cons, hn, ih fun m hm => h m (List.mem_cons_of_mem n hm)]

/-- **Bytes are read back.** -/
theorem fromBase64url_toBase64url (bs : List UInt8) : fromBase64url (toBase64url bs) = bs := by
  have h : ∀ n ∈ toSextets bs, n < 64 := toSextets_lt bs
  rw [fromBase64url, toBase64url, takeWhile_base64Unit h, filterMap_base64Unit h, ofSextets_toSextets]

end NestDdd.Shared
