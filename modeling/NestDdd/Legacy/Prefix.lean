import NestDdd.Shared.Js
import NestDdd.Theory.Path

/-!
# The forward allow-list

`matchesLegacyPrefix` (`src/infrastructure/legacy/matches-prefix.util.ts`), which decides what
`LegacyForwarder.middleware` forwards, and what becomes of a forwarded path that has dot segments:
the legacy service gets the URL as it came and works them off itself, after the decision.

## The model

A path is the pathname of the request as it was received: Node's parser and Express let one begin
with a slash, and `*`, which an `OPTIONS` request may have instead of one. The query that comes
after it in `originalUrl` is no part of the path, for neither service.

## What is proved

* `matchesLegacyPrefix_iff` — a path is under a prefix if its segments begin with the prefix's, a
  slash at the end of either aside.
* `leads_under_iff` — where a forwarded path leads is under a configured prefix exactly if the path has
  no dot segments, or these leave a configured prefix as it is, or the path is led back under one.
* `leads_to_admin` — one that is not.
-/

namespace NestDdd.Legacy

open NestDdd.Shared NestDdd.Theory

/-- `'/'`. -/
abbrev slash : UInt16 := 0x2F

/-- `'.'`. -/
abbrev fullStop : UInt16 := 0x2E

/-! ### `matchesLegacyPrefix` -/

/-- `normalize`. -/
def normalize (path : JsString) : JsString :=
  if 1 < path.length ∧ path.getLast? = some slash then path.dropLast else path

/-- `matchesLegacyPrefix`. -/
def matchesLegacyPrefix (path : JsString) (prefixes : List JsString) : Bool :=
  let target := normalize path
  prefixes.any fun p =>
    let normalizedPrefix := normalize p
    target == normalizedPrefix || (normalizedPrefix ++ [slash]).isPrefixOf target

/-- **A path is under a prefix** if its segments begin with the prefix's. -/
theorem matchesLegacyPrefix_iff {path : JsString} {prefixes : List JsString} :
    matchesLegacyPrefix path prefixes = true ↔
      ∃ p ∈ prefixes, (normalize p).splitOn slash <+: (normalize path).splitOn slash := by
  simp only [matchesLegacyPrefix, List.any_eq_true, Bool.or_eq_true, beq_iff_eq, List.isPrefixOf_iff_prefix]
  constructor
  · rintro ⟨p, hp, h⟩
    exact ⟨p, hp, Path.under_iff.mp h⟩
  · rintro ⟨p, hp, h⟩
    exact ⟨p, hp, Path.under_iff.mpr h⟩

/-- `LegacyForwarder.middleware`: the path that is sent on, or `next()`. -/
def middleware (forwardPrefixes : List JsString) (path : JsString) : Option JsString :=
  if matchesLegacyPrefix path forwardPrefixes then some path else none

/-! ### Where a path leads -/

/-- What a request may have for a path. -/
def IsPathname (path : JsString) : Prop := path = "*" ∨ [slash] <+: path

/-- A path without its dot segments, as a server reads it. -/
def removeDotSegments (path : JsString) : JsString := Path.removeDots slash fullStop path

/-- The segments of a path after its first slash. -/
def segments (path : JsString) : List JsString := (path.splitOn slash).tail

theorem splitOn_of_slash {path : JsString} (h : [slash] <+: path) : path.splitOn slash = [] :: segments path := by
  obtain ⟨rest, rfl⟩ := h
  rw [segments, List.singleton_append, List.splitOn_cons_eq_if_modifyHead, if_pos (by simp), List.tail_cons]

theorem eq_slashed_segments {path : JsString} (h : [slash] <+: path) : path = Path.slashed slash (segments path) := by
  simpa using Path.eq_slashed (splitOn_of_slash h)

theorem not_mem_of_mem_segments {path s : JsString} (h : s ∈ segments path) : slash ∉ s :=
  Path.not_mem_of_mem_splitOn (List.mem_of_mem_tail h)

theorem removeDotSegments_eq {path : JsString} (h : [slash] <+: path) :
    removeDotSegments path =
      Path.slashed slash (Path.kept fullStop (segments path) ++ Path.after fullStop (segments path)) := by
  conv_lhs => rw [eq_slashed_segments h]
  rw [removeDotSegments, Path.removeDots_slashed (by decide) fun s hs => not_mem_of_mem_segments hs,
    Path.resolve_eq]

/-- What `normalize` leaves of the segments `w` at the end of a path, after the segments `a`. -/
def trimmed (a w : List JsString) : List JsString :=
  if w.getLast? = some [] ∧ 1 < a.length + w.length then w.dropLast else w

theorem splitOn_normalize_slashed {a w : List JsString} (hw : w ≠ []) (h : ∀ s ∈ a ++ w, slash ∉ s) :
    (normalize (Path.slashed slash (a ++ w))).splitOn slash = [] :: (a ++ trimmed a w) := by
  obtain ⟨w, s, rfl⟩ : ∃ w₁ s, w = w₁ ++ [s] := ⟨_, _, (List.dropLast_append_getLast hw).symm⟩
  have hsplit (l : List JsString) (hl : ∀ s ∈ l, slash ∉ s) : (Path.slashed slash l).splitOn slash = [] :: l := by
    have hs : ∀ s ∈ [] :: l, slash ∉ s := List.forall_mem_cons.mpr ⟨List.not_mem_nil, hl⟩
    simpa using Path.splitOn_slashed hs
  have hpath : Path.slashed slash (a ++ (w ++ [s])) = Path.slashed slash (a ++ w) ++ slash :: s := by simp
  rcases List.eq_nil_or_concat s with rfl | ⟨s, c, rfl⟩
  · -- the path ends with a slash
    have hlong : 1 < (Path.slashed slash (a ++ (w ++ [[]]))).length ↔ 1 < a.length + (w ++ [[]]).length := by
      have hpos : 0 < (Path.slashed slash (a ++ w)).length ↔ 0 < (a ++ w).length := by
        cases a ++ w <;> simp
      rw [hpath]
      simp only [List.length_append, List.length_cons, List.length_nil] at hpos ⊢
      omega
    have hlast : (Path.slashed slash (a ++ (w ++ [[]]))).getLast? = some slash := by rw [hpath, List.getLast?_concat]
    rw [normalize, trimmed, hlast, List.getLast?_concat]
    by_cases hl : 1 < a.length + (w ++ [[]]).length
    · rw [if_pos ⟨hlong.mpr hl, rfl⟩, if_pos ⟨rfl, hl⟩, hpath, List.dropLast_concat, List.dropLast_concat]
      exact hsplit _ fun s hs => h s (by simp at hs ⊢; tauto)
    · rw [if_neg (fun hc => hl (hlong.mp hc.1)), if_neg (fun hc => hl hc.2)]
      exact hsplit _ h
  · have hc : slash ≠ c := by
      rintro rfl
      exact h (s ++ [slash]) (by simp) (by simp)
    rw [normalize, if_neg, trimmed, if_neg]
    · exact hsplit _ h
    · simp
    · have hend : Path.slashed slash (a ++ (w ++ [s.concat c])) =
          Path.slashed slash (a ++ w) ++ slash :: s ++ [c] := by
        rw [hpath]
        simp
      rw [hend, List.getLast?_concat, Option.some.injEq]
      intro hlast
      exact hc hlast.2.symm

/-- **Where a path leads**, in segments. -/
theorem splitOn_removeDotSegments {path : JsString} (h : [slash] <+: path)
    (hdots : ∃ s ∈ segments path, Path.IsDots fullStop s) :
    (normalize (removeDotSegments path)).splitOn slash =
      [] :: (Path.kept fullStop (segments path) ++
        trimmed (Path.kept fullStop (segments path)) (Path.after fullStop (segments path))) := by
  rw [removeDotSegments_eq h]
  refine splitOn_normalize_slashed (Path.after_ne_nil hdots) fun s hs => ?_
  rw [← Path.resolve_eq] at hs
  rcases Path.mem_resolve hs with hs | rfl
  · exact not_mem_of_mem_segments hs
  · exact List.not_mem_nil

/-- A path without dot segments leads where it says. -/
theorem removeDotSegments_of_plain {path : JsString} (hpath : IsPathname path)
    (h : ∀ s ∈ segments path, ¬ Path.IsDots fullStop s) : removeDotSegments path = path := by
  rcases hpath with rfl | hslash
  · decide
  · rw [removeDotSegments_eq hslash, ← Path.resolve_eq, Path.resolve_of_plain h, ← eq_slashed_segments hslash]

/-! ### Escapes -/

/-- The dot segments of a path go up no further than to `p`, which the path is under before them. -/
def Stays (path p : JsString) : Prop :=
  (normalize p).splitOn slash <+: [] :: Path.before fullStop (segments path) ∧
    ((normalize p).splitOn slash).length ≤
      (Path.before fullStop (segments path)).length - Path.ups fullStop (segments path) + 1

/-- A path goes up past the end of `p`, or was never under it, and spells the rest of it then. -/
def ComesBack (path p : JsString) : Prop :=
  ∃ again ≠ [], (normalize p).splitOn slash = [] :: (Path.kept fullStop (segments path) ++ again) ∧
    again <+: trimmed (Path.kept fullStop (segments path)) (Path.after fullStop (segments path))

/-- What lists begin with that are in two parts. -/
theorem prefix_append_iff {l a b : List JsString} : l <+: a ++ b ↔ l <+: a ∨ ∃ c ≠ [], l = a ++ c ∧ c <+: b := by
  constructor
  · rintro ⟨rest, h⟩
    rcases List.append_eq_append_iff.mp h with ⟨c, hc, -⟩ | ⟨c, hc, hb⟩
    · exact .inl ⟨c, hc.symm⟩
    · rcases eq_or_ne c [] with rfl | hne
      · exact .inl (by simp [hc])
      · exact .inr ⟨c, hne, hc, rest, hb.symm⟩
  · rintro (h | ⟨c, -, rfl, h⟩)
    · exact h.trans (List.prefix_append _ _)
    · exact (List.prefix_append_right_inj a).mpr h

theorem stays_iff {path p : JsString} :
    Stays path p ↔ (normalize p).splitOn slash <+: [] :: Path.kept fullStop (segments path) := by
  rw [Stays, Path.kept, ← List.take_succ_cons, List.prefix_take_iff]

/-- **Where a forwarded path leads** is under a configured prefix if and only if the path has no
dot segments, or they go up no further than to a configured prefix, or the path comes back under one. -/
theorem leads_under_iff {forwardPrefixes : List JsString} {path sent : JsString} (hpath : IsPathname path)
    (hsent : middleware forwardPrefixes path = some sent) :
    matchesLegacyPrefix (removeDotSegments sent) forwardPrefixes = true ↔
      (∀ s ∈ segments path, ¬ Path.IsDots fullStop s) ∨
        ∃ p ∈ forwardPrefixes, Stays path p ∨ ComesBack path p := by
  obtain ⟨hmatch, rfl⟩ : matchesLegacyPrefix path forwardPrefixes = true ∧ path = sent := by
    simpa [middleware] using hsent
  by_cases hplain : ∀ s ∈ segments path, ¬ Path.IsDots fullStop s
  · rw [removeDotSegments_of_plain hpath hplain]
    exact iff_of_true hmatch (.inl hplain)
  · have hdots : ∃ s ∈ segments path, Path.IsDots fullStop s := by simpa using hplain
    have hslash : [slash] <+: path := by
      rcases hpath with rfl | h
      · exact absurd (by decide) hplain
      · exact h
    rw [or_iff_right hplain, matchesLegacyPrefix_iff, splitOn_removeDotSegments hslash hdots]
    simp only [← List.cons_append, prefix_append_iff, stays_iff, ComesBack]

theorem leads_under_sibling :
    matchesLegacyPrefix (removeDotSegments "/v1/orders/17/../18") ["/v1/orders"] = true := by
  have hstays : Stays "/v1/orders/17/../18" "/v1/orders" := by
    unfold Stays
    decide
  exact (leads_under_iff (.inr (by decide)) rfl).mpr (.inr ⟨_, List.mem_singleton_self _, .inl hstays⟩)

/-- A path under the only configured prefix, which the legacy service reads as `/v1/admin`. -/
theorem leads_to_admin :
    let prefixes : List JsString := ["/v1/orders"]
    (∀ p ∈ prefixes, ∀ s ∈ p.splitOn slash, ¬ Path.IsDots fullStop s) ∧
      IsPathname "/v1/orders/../admin" ∧
      middleware prefixes "/v1/orders/../admin" = some "/v1/orders/../admin" ∧
      removeDotSegments "/v1/orders/../admin" = "/v1/admin" ∧
      matchesLegacyPrefix (removeDotSegments "/v1/orders/../admin") prefixes = false := by
  refine ⟨by decide, .inr (by decide), by decide, by decide, by decide⟩

end NestDdd.Legacy
