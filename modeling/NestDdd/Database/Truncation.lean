import NestDdd.Database.OracleClient
import NestDdd.Theory.Fitting

/-!
# The cut of the context user

`truncateBytes` (`src/infrastructure/database/clients/oracle.client.ts`) keeps a string that fits, and otherwise takes
characters in a loop until the next one would not fit. A character is a surrogate pair or one code unit.

## What is proved

* `truncateLoop_eq` — the loop takes the longest prefix of the characters that fits (`fitting`).
* `truncateBytes_longest` — **so does the function**, with its way out for a string that fits: what it returns is a
  prefix of whole characters, and no longer one fits.
-/

namespace NestDdd.Shared.JsString

/-! ### Characters -/

/-- The characters make up the string. -/
@[simp] theorem flatten_chars (s : JsString) : s.chars.flatten = s := by
  induction s using chars.induct with
  | case1 => rfl
  | case2 u => rfl
  | case3 u v s h ih => rw [chars, if_pos h, List.flatten_cons, ih]; rfl
  | case4 u v s h ih => rw [chars, if_neg h, List.flatten_cons, ih]; rfl

/-- A string's first character begins with its first code unit. -/
theorem head_chars {u : UInt16} {s c : JsString} {l : List JsString} (h : chars (u :: s) = c :: l) :
    ∃ w, c = u :: w := by
  cases s with
  | nil => exact ⟨[], (List.cons.inj h).1.symm⟩
  | cons v s =>
    rw [chars] at h
    split at h
    · exact ⟨[v], (List.cons.inj h).1.symm⟩
    · exact ⟨[], (List.cons.inj h).1.symm⟩

theorem chars_eq_nil_iff {s : JsString} : s.chars = [] ↔ s = [] := by
  constructor
  · intro h
    rw [← flatten_chars s, h, List.flatten_nil]
  · rintro rfl
    rfl

/-- Some of the first characters, put together again, are read as the same characters. -/
theorem chars_flatten_of_prefix {s : JsString} {l : List JsString} (h : l <+: s.chars) :
    chars l.flatten = l := by
  induction s using chars.induct generalizing l with
  | case1 =>
    obtain rfl := List.prefix_nil.mp h
    rfl
  | case2 u =>
    rcases List.prefix_cons_iff.mp h with rfl | ⟨l, rfl, hl⟩
    · rfl
    · obtain rfl := List.prefix_nil.mp hl
      rfl
  | case3 u v s hp ih =>
    rw [chars, if_pos hp] at h
    rcases List.prefix_cons_iff.mp h with rfl | ⟨l, rfl, hl⟩
    · rfl
    · rw [List.flatten_cons, List.cons_append, List.singleton_append, chars, if_pos hp, ih hl]
  | case4 u v s hp ih =>
    rw [chars, if_neg hp] at h
    rcases List.prefix_cons_iff.mp h with rfl | ⟨l, rfl, hl⟩
    · rfl
    · cases l with
      | nil => rfl
      | cons c l =>
        -- what follows `u` begins with `v`, so `u` does not pair up
        obtain ⟨rest, hrest⟩ := hl
        obtain ⟨w, rfl⟩ := head_chars hrest.symm
        have hchars := ih ⟨rest, hrest⟩
        rw [List.flatten_cons, List.cons_append] at hchars
        rw [List.flatten_cons, List.flatten_cons, List.singleton_append, List.cons_append, chars, if_neg hp, hchars]

/-- The bytes of some of the first characters. -/
theorem byteLength_flatten {s : JsString} {l : List JsString} (h : l <+: s.chars) :
    byteLength l.flatten = (l.map charBytes).foldr (· + ·) 0 := by
  rw [byteLength, chars_flatten_of_prefix h]

end NestDdd.Shared.JsString

namespace NestDdd.Database

open NestDdd.Shared NestDdd.Theory

variable {value p : JsString} {maxBytes : ℕ}

/-! ### The loop -/

theorem byteLength_flatten_eq_sum {l : List JsString} (h : l <+: value.chars) :
    JsString.byteLength l.flatten = (l.map JsString.charBytes).sum :=
  JsString.byteLength_flatten h

/-- **The loop** goes on with the longest prefix of what is left that fits. -/
theorem truncateLoop_eq {pre rest : List JsString} (hs : value.chars = pre ++ rest)
    (h : JsString.byteLength pre.flatten ≤ maxBytes) :
    truncateLoop maxBytes pre.flatten rest =
      (pre ++ fitting JsString.charBytes (maxBytes - JsString.byteLength pre.flatten) rest).flatten := by
  induction rest generalizing pre with
  | nil => rw [truncateLoop, fitting, List.append_nil]
  | cons c rest ih =>
    have hflat : (pre ++ [c]).flatten = pre.flatten ++ c := by simp
    have hpre : pre <+: value.chars := ⟨c :: rest, hs.symm⟩
    have hnext : pre ++ [c] <+: value.chars := ⟨rest, by rw [hs, List.append_assoc]; rfl⟩
    have hbytes : JsString.byteLength (pre.flatten ++ c) = JsString.byteLength pre.flatten + JsString.charBytes c := by
      rw [← hflat, byteLength_flatten_eq_sum hnext, byteLength_flatten_eq_sum hpre, List.map_append, List.sum_append,
        List.map_singleton, List.sum_singleton]
    rw [truncateLoop, fitting]
    by_cases hc : JsString.charBytes c ≤ maxBytes - JsString.byteLength pre.flatten
    · have hfits : ¬ JsString.byteLength (pre.flatten ++ c) > maxBytes := by omega
      have hrest : JsString.byteLength (pre ++ [c]).flatten ≤ maxBytes := by
        rw [hflat]
        omega
      have hsplit : value.chars = (pre ++ [c]) ++ rest := by rw [hs, List.append_assoc]; rfl
      rw [if_neg hfits, if_pos hc, ← hflat, ih hsplit hrest, hflat, hbytes, Nat.sub_add_eq, List.append_assoc]
      rfl
    · have hover : JsString.byteLength (pre.flatten ++ c) > maxBytes := by omega
      rw [if_pos hover, if_neg hc, List.append_nil]

theorem truncateLoop_nil (value : JsString) (maxBytes : ℕ) :
    truncateLoop maxBytes [] value.chars = (fitting JsString.charBytes maxBytes value.chars).flatten := by
  have hloop := @truncateLoop_eq value maxBytes [] value.chars rfl (Nat.zero_le maxBytes)
  exact hloop

/-- **The way out agrees with the loop.** -/
theorem truncateBytes_eq_truncateLoop (value : JsString) (maxBytes : ℕ) :
    truncateBytes value maxBytes = truncateLoop maxBytes [] value.chars := by
  rw [truncateBytes]
  split
  · next hfits =>
    have hall : fitting JsString.charBytes maxBytes value.chars = value.chars := fitting_eq_self_iff.mpr hfits
    rw [truncateLoop_nil, hall, JsString.flatten_chars]
  · rfl

theorem chars_truncateBytes (value : JsString) (maxBytes : ℕ) :
    (truncateBytes value maxBytes).chars = fitting JsString.charBytes maxBytes value.chars := by
  rw [truncateBytes_eq_truncateLoop, truncateLoop_nil]
  exact JsString.chars_flatten_of_prefix (fitting_isPrefix _ _ _)

/-- **The cut fits.** -/
theorem truncateBytes_le (value : JsString) (maxBytes : ℕ) : (truncateBytes value maxBytes).byteLength ≤ maxBytes := by
  rw [JsString.byteLength, chars_truncateBytes]
  exact sum_fitting_le _ _ _

/-! ### The cut -/

/-- **The longest prefix** of whole characters that fits. -/
structure LongestFit (value : JsString) (maxBytes : ℕ) (result : JsString) : Prop where
  /-- It is a prefix. -/
  isPrefix : result <+: value
  /-- Its characters are the first ones. -/
  whole : result.chars <+: value.chars
  /-- It fits. -/
  fits : result.byteLength ≤ maxBytes
  /-- It begins with any other one that fits. -/
  longest : ∀ p : JsString, p.chars <+: value.chars → p.byteLength ≤ maxBytes → p <+: result

/-- A string whose characters are the first ones of another is a prefix of it. -/
theorem prefix_of_chars (h : p.chars <+: value.chars) : p <+: value := by
  obtain ⟨rest, hrest⟩ := h
  refine ⟨rest.flatten, ?_⟩
  rw [← JsString.flatten_chars value, ← hrest, List.flatten_append, JsString.flatten_chars]

theorem longestFit_truncateBytes (value : JsString) (maxBytes : ℕ) :
    LongestFit value maxBytes (truncateBytes value maxBytes) := by
  have hchars := chars_truncateBytes value maxBytes
  have hwhole : (truncateBytes value maxBytes).chars <+: value.chars := by
    rw [hchars]
    exact fitting_isPrefix _ _ _
  refine ⟨prefix_of_chars hwhole, hwhole, truncateBytes_le value maxBytes, ?_⟩
  intro p hp hfits
  apply prefix_of_chars
  rw [hchars]
  exact prefix_fitting hp hfits

theorem truncateBytes_eq_self_iff : truncateBytes value maxBytes = value ↔ value.byteLength ≤ maxBytes := by
  constructor
  · intro h
    have hfits := truncateBytes_le value maxBytes
    rwa [h] at hfits
  · intro h
    exact if_pos h

/-- **The cut keeps the longest prefix of whole characters that fits**: all of the value if that fits, by the way out
as by the loop, the same again if it is cut again, and no less for a larger bound. -/
theorem truncateBytes_longest (value : JsString) (maxBytes : ℕ) :
    LongestFit value maxBytes (truncateBytes value maxBytes) ∧
      (truncateBytes value maxBytes = value ↔ value.byteLength ≤ maxBytes) ∧
      truncateLoop maxBytes [] value.chars = truncateBytes value maxBytes ∧
      truncateBytes (truncateBytes value maxBytes) maxBytes = truncateBytes value maxBytes ∧
      ∀ more, maxBytes ≤ more → truncateBytes value maxBytes <+: truncateBytes value more := by
  refine ⟨longestFit_truncateBytes value maxBytes, truncateBytes_eq_self_iff,
    (truncateBytes_eq_truncateLoop value maxBytes).symm, ?_, ?_⟩
  · exact truncateBytes_eq_self_iff.mpr (truncateBytes_le value maxBytes)
  · intro more hmore
    apply prefix_of_chars
    rw [chars_truncateBytes, chars_truncateBytes]
    exact fitting_mono hmore

end NestDdd.Database
