import NestDdd.Legacy.Prefix

/-!
# The allow-list in segments

What `matchesLegacyPrefix` (`src/infrastructure/legacy/matches-prefix.util.ts`) is for: a prefix
matches itself and its sub-paths, with the boundary on a segment. The root has no segments, and
everything is under it; but `normalize` keeps its slash, and the comparison adds another one.

## What is proved

* `bySegments_iff` — **the prefixes are matched by segments** exactly if none of them is the root, or
  the path is under another one, or begins with two slashes.
* `root_forwards_nothing` — with the root alone, `/v1/orders` is not forwarded.
-/

namespace NestDdd.Legacy

open NestDdd.Shared NestDdd.Theory

/-- A path that is the root, a slash at its end aside. -/
def IsRoot (path : JsString) : Prop := normalize path = [slash]

instance (path : JsString) : Decidable (IsRoot path) := decEq (normalize path) [slash]

/-- The segments of an absolute path, a slash at its end aside. -/
def pathSegments (path : JsString) : List JsString := if IsRoot path then [] else segments (normalize path)

/-- **What the prefixes are for**, of one path. -/
structure BySegments (path : JsString) (prefixes : List JsString) : Prop where
  /-- The path matches if its segments begin with a prefix's. -/
  matches_iff : matchesLegacyPrefix path prefixes = true ↔ ∃ p ∈ prefixes, pathSegments p <+: pathSegments path
  /-- So does any path that goes on from it. -/
  onward : matchesLegacyPrefix path prefixes = true → ∀ longer : JsString, [slash] <+: longer →
    pathSegments path <+: pathSegments longer → matchesLegacyPrefix longer prefixes = true
  /-- A slash at the end of the path makes no difference. -/
  path_slash : path.getLast? ≠ some slash →
    matchesLegacyPrefix (path ++ [slash]) prefixes = matchesLegacyPrefix path prefixes
  /-- Nor does one at the end of a prefix. -/
  configured_slash : ∀ a p b, prefixes = a ++ p :: b → p.getLast? ≠ some slash →
    matchesLegacyPrefix path (a ++ (p ++ [slash]) :: b) = matchesLegacyPrefix path prefixes

/-! ### `normalize` -/

theorem normalize_append_slash {path : JsString} (hpath : [slash] <+: path) (h : path.getLast? ≠ some slash) :
    normalize (path ++ [slash]) = normalize path := by
  have hpos : 0 < path.length := hpath.length_le
  rw [normalize, if_pos ⟨by simpa using hpos, by simp⟩, List.dropLast_concat, normalize, if_neg fun hc => h hc.2]

theorem length_normalize_le (path : JsString) : (normalize path).length ≤ path.length := by
  unfold normalize
  split
  · simp
  · exact le_rfl

/-- An absolute path stays one. -/
theorem slash_normalize {path : JsString} (h : [slash] <+: path) : [slash] <+: normalize path := by
  unfold normalize
  split
  · next hc =>
    obtain ⟨rest, rfl⟩ := h
    have hne : rest ≠ [] := by
      rintro rfl
      simp at hc
    rw [List.singleton_append, List.dropLast_cons_of_ne_nil hne]
    exact ⟨rest.dropLast, rfl⟩
  · exact h

theorem splitOn_normalize {path : JsString} (h : [slash] <+: path) :
    (normalize path).splitOn slash = [] :: segments (normalize path) :=
  splitOn_of_slash (slash_normalize h)

/-- Only the root is one empty segment. -/
theorem isRoot_iff {path : JsString} (h : [slash] <+: path) : IsRoot path ↔ segments (normalize path) = [[]] := by
  constructor
  · intro hr
    rw [show normalize path = [slash] from hr]
    decide
  · intro hs
    rw [IsRoot, eq_slashed_segments (slash_normalize h), hs]
    rfl

theorem segments_ne_nil {path : JsString} (h : [slash] <+: path) : segments (normalize path) ≠ [] := by
  intro hs
  have heq := eq_slashed_segments (slash_normalize h)
  rw [hs, Path.slashed_nil] at heq
  have hlen := (slash_normalize h).length_le
  rw [heq] at hlen
  exact absurd hlen (by decide)

theorem segments_eq_singleton {s : List JsString} {w : JsString} (hne : s ≠ []) (h : s <+: [w]) : s = [w] := by
  rcases List.prefix_cons_iff.mp h with rfl | ⟨t, rfl, ht⟩
  · exact absurd rfl hne
  · rw [List.prefix_nil.mp ht]

/-- A path begins with two slashes if it is not the root and its first segment is empty. -/
theorem two_slashes_iff {path : JsString} (h : [slash] <+: path) :
    [slash, slash] <+: normalize path ↔ ¬ IsRoot path ∧ [[]] <+: segments (normalize path) := by
  rw [isRoot_iff h]
  have heq := eq_slashed_segments (slash_normalize h)
  obtain ⟨s, rest, hs⟩ := List.exists_cons_of_ne_nil (segments_ne_nil h)
  have hno : slash ∉ s := not_mem_of_mem_segments (by rw [hs]; exact List.mem_cons_self)
  rw [hs] at heq ⊢
  rw [heq, Path.slashed_cons, List.cons_append, List.cons_prefix_cons]
  cases s with
  | nil => cases rest <;> simp
  | cons c s =>
    have hc : slash ≠ c := fun hc => hno (hc ▸ List.mem_cons_self)
    simp [hc]

/-! ### What matches -/

variable {path p : JsString} {prefixes : List JsString}

theorem matches_iff_segments (hpath : [slash] <+: path) (hprefixes : ∀ p ∈ prefixes, [slash] <+: p) :
    matchesLegacyPrefix path prefixes = true ↔
      ∃ p ∈ prefixes, segments (normalize p) <+: segments (normalize path) := by
  rw [matchesLegacyPrefix_iff, splitOn_normalize hpath]
  refine exists_congr fun p => and_congr_right fun hp => ?_
  rw [splitOn_normalize (hprefixes p hp), List.cons_prefix_cons]
  simp

/-- For a prefix that is not the root, the root's empty segment makes no difference. -/
theorem pathSegments_prefix_iff (hpath : [slash] <+: path) (hp : [slash] <+: p) (hroot : ¬ IsRoot p) :
    pathSegments p <+: pathSegments path ↔ segments (normalize p) <+: segments (normalize path) := by
  rw [pathSegments, if_neg hroot, pathSegments]
  by_cases hr : IsRoot path
  · rw [if_pos hr, (isRoot_iff hpath).mp hr]
    refine iff_of_false (fun h => segments_ne_nil hp (List.prefix_nil.mp h)) fun h => hroot ?_
    exact (isRoot_iff hp).mpr (segments_eq_singleton (segments_ne_nil hp) h)
  · rw [if_neg hr]

/-- Under the root is, for `matchesLegacyPrefix`, the root and what begins with two slashes. -/
theorem root_prefix_iff (hpath : [slash] <+: path) (hp : [slash] <+: p) (hroot : IsRoot p) :
    segments (normalize p) <+: segments (normalize path) ↔ IsRoot path ∨ [slash, slash] <+: normalize path := by
  rw [(isRoot_iff hp).mp hroot, two_slashes_iff hpath]
  constructor
  · intro h
    by_cases hr : IsRoot path
    · exact .inl hr
    · exact .inr ⟨hr, h⟩
  · rintro (hr | ⟨-, h⟩)
    · exact (isRoot_iff hpath).mp hr ▸ List.prefix_rfl
    · exact h

theorem segments_slash_cons {s : JsString} (h : slash ∉ s) : segments (slash :: s) = [s] := by
  have hsplit : ([] ++ Path.slashed slash [s]).splitOn slash = [[], s] :=
    Path.splitOn_slashed (by simpa using h)
  simp only [Path.slashed_cons, Path.slashed_nil, List.nil_append, List.append_nil] at hsplit
  rw [segments, hsplit, List.tail_cons]

theorem normalize_slash_cons {s : JsString} (hne : s ≠ []) (h : slash ∉ s) : normalize (slash :: s) = slash :: s := by
  rw [normalize, if_neg]
  rintro ⟨-, hlast⟩
  rw [List.getLast?_cons_of_ne_nil hne] at hlast
  exact h (List.mem_of_getLast? hlast)

/-- There is always a path of one segment that matches nothing. -/
theorem exists_unmatched (hprefixes : ∀ p ∈ prefixes, [slash] <+: p) :
    ∃ s : JsString, matchesLegacyPrefix (slash :: s) prefixes = false := by
  -- a segment longer than the prefixes are
  obtain ⟨n, hn⟩ : ∃ n, ∀ p ∈ prefixes, p.length ≤ n := by
    clear hprefixes
    induction prefixes with
    | nil => exact ⟨0, by simp⟩
    | cons p rest ih =>
      obtain ⟨n, hn⟩ := ih
      refine ⟨max p.length n, List.forall_mem_cons.mpr ⟨le_max_left _ _, fun q hq => ?_⟩⟩
      exact (hn q hq).trans (le_max_right _ _)
  have hslash : slash ∉ List.replicate (n + 1) fullStop := fun hm =>
    absurd (List.eq_of_mem_replicate hm) (by decide)
  have hne : List.replicate (n + 1) fullStop ≠ [] := List.cons_ne_nil _ _
  have habsolute : [slash] <+: slash :: List.replicate (n + 1) fullStop := ⟨_, rfl⟩
  refine ⟨List.replicate (n + 1) fullStop, Bool.eq_false_iff.mpr fun hmatch => ?_⟩
  obtain ⟨p, hp, hpre⟩ := (matches_iff_segments habsolute hprefixes).mp hmatch
  rw [normalize_slash_cons hne hslash, segments_slash_cons hslash] at hpre
  have heq := eq_slashed_segments (slash_normalize (hprefixes p hp))
  rw [segments_eq_singleton (segments_ne_nil (hprefixes p hp)) hpre] at heq
  have hlen := (length_normalize_le p).trans (hn p hp)
  rw [heq] at hlen
  simp only [Path.slashed_cons, Path.slashed_nil, List.append_nil, List.length_cons, List.length_replicate] at hlen
  omega

/-! ### The condition -/

/-- The path is under a prefix that is not the root. -/
def UnderAnother (path : JsString) (prefixes : List JsString) : Prop :=
  ∃ p ∈ prefixes, ¬ IsRoot p ∧ pathSegments p <+: pathSegments path

/-- A path that goes on from one under such a prefix is under it too. -/
theorem UnderAnother.onward {longer : JsString} (h : UnderAnother path prefixes)
    (hpre : pathSegments path <+: pathSegments longer) : UnderAnother longer prefixes := by
  obtain ⟨p, hp, hroot, hunder⟩ := h
  exact ⟨p, hp, hroot, hunder.trans hpre⟩

/-- What the prefixes are for: a path is under another prefix, or the root is one. -/
theorem exists_prefix_iff :
    (∃ p ∈ prefixes, pathSegments p <+: pathSegments path) ↔ UnderAnother path prefixes ∨ ∃ p ∈ prefixes, IsRoot p := by
  constructor
  · rintro ⟨p, hp, hpre⟩
    by_cases hroot : IsRoot p
    · exact .inr ⟨p, hp, hroot⟩
    · exact .inl ⟨p, hp, hroot, hpre⟩
  · rintro (⟨p, hp, -, hpre⟩ | ⟨p, hp, hroot⟩)
    · exact ⟨p, hp, hpre⟩
    · refine ⟨p, hp, ?_⟩
      rw [pathSegments, if_pos hroot]
      exact List.nil_prefix

/-- A path matches if it is under a prefix that is not the root, or the root is one and it seems to be
under it. -/
theorem matches_iff_under (hpath : [slash] <+: path) (hprefixes : ∀ p ∈ prefixes, [slash] <+: p) :
    matchesLegacyPrefix path prefixes = true ↔
      UnderAnother path prefixes ∨
        (∃ p ∈ prefixes, IsRoot p) ∧ (IsRoot path ∨ [slash, slash] <+: normalize path) := by
  rw [matches_iff_segments hpath hprefixes]
  constructor
  · rintro ⟨p, hp, hpre⟩
    by_cases hroot : IsRoot p
    · exact .inr ⟨⟨p, hp, hroot⟩, (root_prefix_iff hpath (hprefixes p hp) hroot).mp hpre⟩
    · exact .inl ⟨p, hp, hroot, (pathSegments_prefix_iff hpath (hprefixes p hp) hroot).mpr hpre⟩
  · rintro (⟨p, hp, hroot, hpre⟩ | ⟨⟨p, hp, hroot⟩, h⟩)
    · exact ⟨p, hp, (pathSegments_prefix_iff hpath (hprefixes p hp) hroot).mp hpre⟩
    · exact ⟨p, hp, (root_prefix_iff hpath (hprefixes p hp) hroot).mpr h⟩

/-- What goes on from a path that begins with two slashes does so too. -/
theorem two_slashes_onward {longer : JsString} (hpath : [slash] <+: path) (hlonger : [slash] <+: longer)
    (h : [slash, slash] <+: normalize path) (hpre : pathSegments path <+: pathSegments longer) :
    [slash, slash] <+: normalize longer := by
  obtain ⟨hroot, hempty⟩ := (two_slashes_iff hpath).mp h
  rw [pathSegments, if_neg hroot] at hpre
  refine (two_slashes_iff hlonger).mpr ?_
  by_cases hr : IsRoot longer
  · rw [pathSegments, if_pos hr] at hpre
    exact absurd (List.prefix_nil.mp hpre) (segments_ne_nil hpath)
  · rw [pathSegments, if_neg hr] at hpre
    exact ⟨hr, hempty.trans hpre⟩

/-- **The prefixes are matched by segments** if and only if none of them is the root, or the path is
under another one, or begins with two slashes. -/
theorem bySegments_iff (path : JsString) (prefixes : List JsString) (hpath : [slash] <+: path)
    (hprefixes : ∀ p ∈ prefixes, [slash] <+: p) :
    BySegments path prefixes ↔
      (∀ p ∈ prefixes, ¬ IsRoot p) ∨ [slash, slash] <+: normalize path ∨ UnderAnother path prefixes := by
  constructor
  · intro h
    by_cases hroots : ∀ p ∈ prefixes, ¬ IsRoot p
    · exact .inl hroots
    · obtain ⟨p, hp, hroot⟩ : ∃ p ∈ prefixes, IsRoot p := by simpa using hroots
      have hmatch := h.matches_iff.mpr (exists_prefix_iff.mpr (.inr ⟨p, hp, hroot⟩))
      rcases (matches_iff_under hpath hprefixes).mp hmatch with hunder | ⟨-, hr | htwo⟩
      · exact .inr (.inr hunder)
      · -- everything goes on from the root
        obtain ⟨s, hs⟩ := exists_unmatched hprefixes
        have honward := h.onward hmatch (slash :: s) ⟨s, rfl⟩ (by rw [pathSegments, if_pos hr]; exact List.nil_prefix)
        rw [hs] at honward
        exact absurd honward Bool.false_ne_true
      · exact .inr (.inl htwo)
  · intro h
    refine ⟨?_, fun hmatch longer hlonger hpre => ?_, fun hlast => ?_, fun a p b heq hlast => ?_⟩
    · rw [exists_prefix_iff, matches_iff_under hpath hprefixes]
      refine ⟨Or.imp_right And.left, ?_⟩
      rintro (hunder | ⟨p, hp, hroot⟩)
      · exact .inl hunder
      · rcases h with hno | htwo | hunder
        · exact absurd hroot (hno p hp)
        · exact .inr ⟨⟨p, hp, hroot⟩, .inr htwo⟩
        · exact .inl hunder
    · rw [matches_iff_under hlonger hprefixes]
      rcases (matches_iff_under hpath hprefixes).mp hmatch with hunder | ⟨⟨p, hp, hroot⟩, -⟩
      · exact .inl (hunder.onward hpre)
      · rcases h with hno | htwo | hunder
        · exact absurd hroot (hno p hp)
        · exact .inr ⟨⟨p, hp, hroot⟩, .inr (two_slashes_onward hpath hlonger htwo hpre)⟩
        · exact .inl (hunder.onward hpre)
    · unfold matchesLegacyPrefix
      rw [normalize_append_slash hpath hlast]
    · have hp : [slash] <+: p := hprefixes p (by rw [heq]; simp)
      rw [heq]
      simp only [matchesLegacyPrefix, List.any_append, List.any_cons, normalize_append_slash hp hlast]

theorem bySegments_orders : BySegments "/v1/orders/17" ["/v1/orders"] :=
  (bySegments_iff "/v1/orders/17" ["/v1/orders"] (by decide) (by decide)).mpr (.inl (by decide))

/-- With the root as the only prefix, a path under it is not forwarded. -/
theorem root_forwards_nothing :
    let prefixes : List JsString := ["/"]
    (∃ p ∈ prefixes, pathSegments p <+: pathSegments "/v1/orders") ∧
      matchesLegacyPrefix "/v1/orders" prefixes = false := by
  refine ⟨⟨_, List.mem_singleton_self _, by decide⟩, by decide⟩

end NestDdd.Legacy
