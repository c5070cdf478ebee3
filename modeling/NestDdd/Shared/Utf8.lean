import NestDdd.Shared.Js

/-!
# UTF-8

`Buffer.from(s, 'utf8')` and `toString('utf8')`. A lone surrogate is written as U+FFFD; so is, when it is read, each
longest beginning of a sequence that is broken off, and each byte that begins none.

## What is proved

* `decodeUtf8_encodeUtf8` — **a string without lone surrogates is read back**.
-/

namespace NestDdd.Shared

/-! ### The two directions -/

/-- The byte of a number below 256. -/
def byte (n : ℕ) : UInt8 := UInt8.ofNat n

/-- The code unit of a number below 65536. -/
def unit (n : ℕ) : UInt16 := UInt16.ofNat n

/-- The bytes of a character. -/
def encodeChar : JsString → List UInt8
  | [u] =>
    if u.toNat < 0x80 then [byte u.toNat]
    else if u.toNat < 0x800 then [byte (0xC0 + u.toNat / 64), byte (0x80 + u.toNat % 64)]
    else if JsString.isHigh u || JsString.isLow u then [0xEF, 0xBF, 0xBD]
    else [byte (0xE0 + u.toNat / 4096), byte (0x80 + u.toNat / 64 % 64), byte (0x80 + u.toNat % 64)]
  | [u, v] =>
    let n := 0x10000 + (u.toNat - 0xD800) * 0x400 + (v.toNat - 0xDC00)
    [byte (0xF0 + n / 262144), byte (0x80 + n / 4096 % 64), byte (0x80 + n / 64 % 64), byte (0x80 + n % 64)]
  | _ => []

/-- `Buffer.from(s, 'utf8')`. -/
def encodeUtf8 (s : JsString) : List UInt8 := s.chars.flatMap encodeChar

/-- A sequence that has begun. -/
structure Sequence where
  /-- How many bytes are to come. -/
  left : ℕ
  /-- The bits so far. -/
  bits : ℕ
  /-- The least byte that may be next. -/
  lower : ℕ
  /-- The greatest. -/
  upper : ℕ

/-- The code units of a code point. -/
def codePoint (n : ℕ) : JsString :=
  if n < 0x10000 then [unit n] else [unit (0xD800 + (n - 0x10000) / 0x400), unit (0xDC00 + (n - 0x10000) % 0x400)]

/-- The first byte of a sequence: what is read, and what has begun. -/
def decodeFirst (b : ℕ) : JsString × Option Sequence :=
  if b < 0x80 then ([unit b], none)
  else if 0xC2 ≤ b ∧ b ≤ 0xDF then ([], some ⟨1, b - 0xC0, 0x80, 0xBF⟩)
  else if 0xE0 ≤ b ∧ b ≤ 0xEF then
    ([], some ⟨2, b - 0xE0, if b = 0xE0 then 0xA0 else 0x80, if b = 0xED then 0x9F else 0xBF⟩)
  else if 0xF0 ≤ b ∧ b ≤ 0xF4 then
    ([], some ⟨3, b - 0xF0, if b = 0xF0 then 0x90 else 0x80, if b = 0xF4 then 0x8F else 0xBF⟩)
  else ([0xFFFD], none)

/-- A further byte. One that does not fit breaks the sequence off and is taken as a first. -/
def decodeNext (q : Sequence) (b : ℕ) : JsString × Option Sequence :=
  if q.lower ≤ b ∧ b ≤ q.upper then
    if q.left = 1 then (codePoint (q.bits * 64 + b % 64), none)
    else ([], some ⟨q.left - 1, q.bits * 64 + b % 64, 0x80, 0xBF⟩)
  else (0xFFFD :: (decodeFirst b).1, (decodeFirst b).2)

/-- What is read of the bytes that come after a sequence has begun, or before one begins. -/
def decodeFrom : Option Sequence → List UInt8 → JsString
  | none, [] => []
  | some _, [] => [0xFFFD]
  | none, b :: bs => (decodeFirst b.toNat).1 ++ decodeFrom (decodeFirst b.toNat).2 bs
  | some q, b :: bs => (decodeNext q b.toNat).1 ++ decodeFrom (decodeNext q b.toNat).2 bs

/-- `toString('utf8')`. -/
def decodeUtf8 (bs : List UInt8) : JsString := decodeFrom none bs

/-! ### Strings without lone surrogates -/

/-- Surrogates stand in pairs. -/
inductive WellFormed : JsString → Prop where
  | nil : WellFormed []
  | unit {u : UInt16} {s : JsString} (hhigh : JsString.isHigh u = false) (hlow : JsString.isLow u = false)
    (hs : WellFormed s) : WellFormed (u :: s)
  | pair {u v : UInt16} {s : JsString} (hu : JsString.isHigh u = true) (hv : JsString.isLow v = true)
    (hs : WellFormed s) : WellFormed (u :: v :: s)

variable {s t : JsString} {u v : UInt16} {n : ℕ}

theorem WellFormed.append (hs : WellFormed s) (ht : WellFormed t) : WellFormed (s ++ t) := by
  induction hs with
  | nil => exact ht
  | unit hhigh hlow _ ih => exact .unit hhigh hlow ih
  | pair hu hv _ ih => exact .pair hu hv ih

theorem surrogate_iff : (JsString.isHigh u = true ∨ JsString.isLow u = true) ↔ 0xD800 ≤ u.toNat ∧ u.toNat ≤ 0xDFFF := by
  simp only [JsString.isHigh, JsString.isLow, Bool.and_eq_true, decide_eq_true_eq, UInt16.le_iff_toNat_le]
  change (55296 ≤ u.toNat ∧ u.toNat ≤ 56319) ∨ (56320 ≤ u.toNat ∧ u.toNat ≤ 57343) ↔ _
  omega

/-- ASCII has no surrogates. -/
theorem wellFormed_of_ascii (h : ∀ u ∈ s, u.toNat < 0x80) : WellFormed s := by
  induction s with
  | nil => exact .nil
  | cons u s ih =>
    have hu := h u List.mem_cons_self
    have hnot : ¬(JsString.isHigh u = true ∨ JsString.isLow u = true) := by
      rw [surrogate_iff]
      omega
    rw [not_or, Bool.not_eq_true, Bool.not_eq_true] at hnot
    exact .unit hnot.1 hnot.2 (ih fun v hv => h v (List.mem_cons_of_mem u hv))

/-! ### The round trip -/

theorem chars_unit (hhigh : JsString.isHigh u = false) (s : JsString) :
    JsString.chars (u :: s) = [u] :: JsString.chars s := by
  cases s with
  | nil => rfl
  | cons v s =>
    rw [JsString.chars, if_neg]
    rw [hhigh, Bool.false_and]
    exact Bool.false_ne_true

theorem chars_pair (hu : JsString.isHigh u = true) (hv : JsString.isLow v = true) (s : JsString) :
    JsString.chars (u :: v :: s) = [u, v] :: JsString.chars s := by
  rw [JsString.chars, if_pos]
  rw [hu, hv, Bool.and_self]

theorem toNat_byte (h : n < 256) : (byte n).toNat = n := by
  rw [byte, UInt8.toNat_ofNat', Nat.mod_eq_of_lt h]

theorem unit_toNat (u : UInt16) : unit u.toNat = u := UInt16.ofNat_toNat

variable (bs : List UInt8)

/-- A further byte that fits, and is not the last. -/
theorem decodeFrom_some {q : Sequence} (hn : n < 256) (hfits : q.lower ≤ n ∧ n ≤ q.upper) (hleft : q.left ≠ 1) :
    decodeFrom (some q) (byte n :: bs) = decodeFrom (some ⟨q.left - 1, q.bits * 64 + n % 64, 0x80, 0xBF⟩) bs := by
  rw [decodeFrom, toNat_byte hn, decodeNext, if_pos hfits, if_neg hleft]
  rfl

/-- The last byte of a sequence. -/
theorem decodeFrom_last {q : Sequence} (hn : n < 256) (hfits : q.lower ≤ n ∧ n ≤ q.upper) (hleft : q.left = 1) :
    decodeFrom (some q) (byte n :: bs) = codePoint (q.bits * 64 + n % 64) ++ decodeFrom none bs := by
  rw [decodeFrom, toNat_byte hn, decodeNext, if_pos hfits, if_pos hleft]

/-- A character that is no surrogate is read back. -/
theorem decodeFrom_unit (hhigh : JsString.isHigh u = false) (hlow : JsString.isLow u = false) :
    decodeFrom none (encodeChar [u] ++ bs) = u :: decodeFrom none bs := by
  have hlt : u.toNat < 65536 := u.toNat_lt
  have hnot : ¬(0xD800 ≤ u.toNat ∧ u.toNat ≤ 0xDFFF) := by
    rw [← surrogate_iff, hhigh, hlow]
    decide
  have hself : codePoint u.toNat = [u] := by rw [codePoint, if_pos hlt, unit_toNat]
  rw [encodeChar]
  split
  · next hone =>
    rw [List.singleton_append, decodeFrom, toNat_byte (by omega), decodeFirst, if_pos hone, unit_toNat]
    rfl
  · next hone =>
    split
    · next htwo =>
      rw [List.cons_append, decodeFrom, toNat_byte (by omega), decodeFirst, if_neg (by omega), if_pos (by omega),
        List.singleton_append, List.nil_append,
        decodeFrom_last bs (by omega) (show 0x80 ≤ _ ∧ _ ≤ 0xBF by omega) rfl]
      have hvalue : (0xC0 + u.toNat / 64 - 0xC0) * 64 + (0x80 + u.toNat % 64) % 64 = u.toNat := by omega
      simp only [hvalue, hself]
      rfl
    · next htwo =>
      rw [hhigh, hlow, if_neg (by decide), List.cons_append, decodeFrom, toNat_byte (by omega), decodeFirst,
        if_neg (by omega), if_neg (by omega), if_pos (by omega), List.nil_append, List.cons_append,
        List.singleton_append]
      -- The second byte is no overlong form and begins no surrogate.
      have hfits : (if 0xE0 + u.toNat / 4096 = 0xE0 then 0xA0 else 0x80) ≤ 0x80 + u.toNat / 64 % 64 ∧
          0x80 + u.toNat / 64 % 64 ≤ (if 0xE0 + u.toNat / 4096 = 0xED then 0x9F else 0xBF) := by
        split_ifs <;> omega
      rw [decodeFrom_some _ (by omega) hfits (show 2 ≠ 1 by decide),
        decodeFrom_last bs (by omega) (show 0x80 ≤ _ ∧ _ ≤ 0xBF by omega) rfl]
      have hvalue : ((0xE0 + u.toNat / 4096 - 0xE0) * 64 + (0x80 + u.toNat / 64 % 64) % 64) * 64 +
          (0x80 + u.toNat % 64) % 64 = u.toNat := by omega
      simp only [hvalue, hself]
      rfl

theorem toNat_high (h : JsString.isHigh u = true) : 0xD800 ≤ u.toNat ∧ u.toNat ≤ 0xDBFF := by
  simp only [JsString.isHigh, Bool.and_eq_true, decide_eq_true_eq, UInt16.le_iff_toNat_le] at h
  exact h

theorem toNat_low (h : JsString.isLow u = true) : 0xDC00 ≤ u.toNat ∧ u.toNat ≤ 0xDFFF := by
  simp only [JsString.isLow, Bool.and_eq_true, decide_eq_true_eq, UInt16.le_iff_toNat_le] at h
  exact h

/-- A code point above U+FFFF is read back as its pair. -/
theorem codePoint_pair (hu : JsString.isHigh u = true) (hv : JsString.isLow v = true) :
    codePoint (0x10000 + (u.toNat - 0xD800) * 0x400 + (v.toNat - 0xDC00)) = [u, v] := by
  obtain ⟨hu₁, hu₂⟩ := toNat_high hu
  obtain ⟨hv₁, hv₂⟩ := toNat_low hv
  have hhigh : 0xD800 + (0x10000 + (u.toNat - 0xD800) * 0x400 + (v.toNat - 0xDC00) - 0x10000) / 0x400 = u.toNat := by
    omega
  have hlow : 0xDC00 + (0x10000 + (u.toNat - 0xD800) * 0x400 + (v.toNat - 0xDC00) - 0x10000) % 0x400 = v.toNat := by
    omega
  rw [codePoint, if_neg (by omega), hhigh, hlow, unit_toNat, unit_toNat]

/-- A surrogate pair is read back. -/
theorem decodeFrom_pair (hu : JsString.isHigh u = true) (hv : JsString.isLow v = true) :
    decodeFrom none (encodeChar [u, v] ++ bs) = u :: v :: decodeFrom none bs := by
  have hpair := codePoint_pair hu hv
  obtain ⟨hu₁, hu₂⟩ := toNat_high hu
  obtain ⟨hv₁, hv₂⟩ := toNat_low hv
  rw [encodeChar]
  generalize hn : 0x10000 + (u.toNat - 0xD800) * 0x400 + (v.toNat - 0xDC00) = n at hpair ⊢
  have hmin : 0x10000 ≤ n := by omega
  have hmax : n ≤ 0x10FFFF := by omega
  simp only [List.cons_append, List.nil_append]
  rw [decodeFrom, toNat_byte (by omega), decodeFirst, if_neg (by omega), if_neg (by omega), if_neg (by omega),
    if_pos (by omega), List.nil_append]
  have hfits : (if 0xF0 + n / 262144 = 0xF0 then 0x90 else 0x80) ≤ 0x80 + n / 4096 % 64 ∧
      0x80 + n / 4096 % 64 ≤ (if 0xF0 + n / 262144 = 0xF4 then 0x8F else 0xBF) := by
    split_ifs <;> omega
  rw [decodeFrom_some _ (by omega) hfits (show 3 ≠ 1 by decide),
    decodeFrom_some _ (by omega) (show 0x80 ≤ _ ∧ _ ≤ 0xBF by omega) (show 2 ≠ 1 by decide),
    decodeFrom_last bs (by omega) (show 0x80 ≤ _ ∧ _ ≤ 0xBF by omega) rfl]
  have hvalue : (((0xF0 + n / 262144 - 0xF0) * 64 + (0x80 + n / 4096 % 64) % 64) * 64 +
      (0x80 + n / 64 % 64) % 64) * 64 + (0x80 + n % 64) % 64 = n := by omega
  simp only [hvalue, hpair]
  rfl

/-- **A string without lone surrogates is read back.** -/
theorem decodeUtf8_encodeUtf8 (h : WellFormed s) : decodeUtf8 (encodeUtf8 s) = s := by
  rw [decodeUtf8]
  induction h with
  | nil => rfl
  | unit hhigh hlow _ ih =>
    rw [encodeUtf8, chars_unit hhigh, List.flatMap_cons, decodeFrom_unit _ hhigh hlow, ← encodeUtf8, ih]
  | pair hu hv _ ih =>
    rw [encodeUtf8, chars_pair hu hv, List.flatMap_cons, decodeFrom_pair _ hu hv, ← encodeUtf8, ih]

end NestDdd.Shared
