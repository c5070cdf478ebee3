import NestDdd.Shared.Js

/-!
# Correlation ids

`src/shared/correlation.ts`: which id a caller may supply, and the ids the service makes
up itself.
-/

namespace NestDdd.Shared

/-- A character of `SAFE_CORRELATION_ID`. -/
def isSafeChar (u : UInt16) : Bool :=
  (0x41 ≤ u && u ≤ 0x5A) || (0x61 ≤ u && u ≤ 0x7A) || (0x30 ≤ u && u ≤ 0x39) ||
    u == 0x2E || u == 0x5F || u == 0x3A || u == 0x2D

/-- `SAFE_CORRELATION_ID.test(s)`. -/
def SAFE_CORRELATION_ID (s : JsString) : Bool :=
  decide (1 ≤ s.length) && decide (s.length ≤ 128) && s.all isSafeChar

/-- `isSafeCorrelationId`. -/
def isSafeCorrelationId : Option JsString → Bool
  | none => false
  | some s => s != [] && SAFE_CORRELATION_ID s

/-- A hexadecimal digit in lower case. -/
def isHexChar (u : UInt16) : Bool := (0x30 ≤ u && u ≤ 0x39) || (0x61 ≤ u && u ≤ 0x66)

/-- The shape of a UUID. -/
def isUuid (s : JsString) : Bool :=
  s.length == 36 &&
    s.zipIdx.all fun p => if p.2 ∈ [8, 13, 18, 23] then p.1 == 0x2D else isHexChar p.1

/-- What `randomUUID()` returns. -/
structure Uuid where
  /-- The text. -/
  value : JsString
  /-- It has the shape of a UUID. -/
  shape : isUuid value = true

/-- A UUID has a hyphen. -/
theorem Uuid.hyphen_mem (id : Uuid) : 0x2D ∈ id.value := by
  have hshape := id.shape
  simp only [isUuid, Bool.and_eq_true, beq_iff_eq, List.all_eq_true] at hshape
  obtain ⟨hlen, hall⟩ := hshape
  have hlt : 8 < id.value.length := by omega
  have hmem : (id.value[8], 8) ∈ id.value.zipIdx := by
    simp [List.mem_zipIdx_iff_getElem?, hlt]
  have hhyphen := hall _ hmem
  simp only [List.mem_cons, true_or, if_true, beq_iff_eq] at hhyphen
  rw [← hhyphen]
  exact List.getElem_mem hlt

/-- Every id that may be supplied is in the pattern. -/
theorem isSafeCorrelationId_some (s : JsString) : isSafeCorrelationId (some s) = SAFE_CORRELATION_ID s := by
  cases s <;> simp [isSafeCorrelationId, SAFE_CORRELATION_ID]

theorem isSafeChar_of_isHexChar {u : UInt16} (h : isHexChar u = true) : isSafeChar u = true := by
  simp only [isHexChar, isSafeChar, Bool.or_eq_true, Bool.and_eq_true, decide_eq_true_eq, beq_iff_eq] at h ⊢
  rcases h with h | ⟨h₁, h₂⟩
  · exact .inl (.inl (.inl (.inl (.inr h))))
  · exact .inl (.inl (.inl (.inl (.inl (.inr ⟨h₁, UInt16.le_trans h₂ (by decide)⟩)))))

/-- **The ids the service makes up** are in the pattern. -/
theorem Uuid.safe (id : Uuid) : SAFE_CORRELATION_ID id.value = true := by
  have hshape := id.shape
  simp only [isUuid, Bool.and_eq_true, beq_iff_eq, List.all_eq_true] at hshape
  obtain ⟨hlen, hall⟩ := hshape
  have hchars : ∀ u ∈ id.value, isSafeChar u = true := by
    intro u hu
    obtain ⟨i, hi, rfl⟩ := List.getElem_of_mem hu
    have hat := hall (id.value[i], i) (by simp [List.mem_zipIdx_iff_getElem?, hi])
    split at hat
    · have hhyphen : id.value[i] = 0x2D := beq_iff_eq.mp hat
      rw [hhyphen]
      decide
    · exact isSafeChar_of_isHexChar hat
  simp only [SAFE_CORRELATION_ID, Bool.and_eq_true, decide_eq_true_eq, List.all_eq_true]
  exact ⟨⟨by omega, by omega⟩, hchars⟩

end NestDdd.Shared
