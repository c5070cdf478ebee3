import NestDdd.Shared.Js
import NestDdd.Theory.Path

/-!
# Node's `path.join`

`join` and `normalize` of `node:path`, on a POSIX system: the parts with slashes between them, and then the
segments worked off from the left, empty ones and dots passed over, the last one dropped for each two dots as
long as there is one to drop.

## What is proved

* `foldl_pushSegment` — where segments lead: so far up, and then down (`Path.climb`).
* `join_eq` — what is joined is the path of where the segments lead, and `rendered_injective` reads it back.
* `leadsTo_eq_iff` — a path leads from a directory to a name in it if and only if it writes what it has gone up
  past.
-/

namespace NestDdd.Shared.PosixPath

open NestDdd.Theory

/-- `'/'`. -/
abbrev slash : UInt16 := 0x2F

/-- `'.'`. -/
abbrev fullStop : UInt16 := 0x2E

/-- What `normalize` makes of a segment, after those before it. -/
def pushSegment (allowAboveRoot : Bool) (stack : List JsString) (s : JsString) : List JsString :=
  if s = [] ∨ s = [fullStop] then stack
  else if s = [fullStop, fullStop] then
    match stack.getLast? with
    | none => if allowAboveRoot then stack ++ [s] else stack
    | some last =>
      if last ≠ [fullStop, fullStop] then stack.dropLast else if allowAboveRoot then stack ++ [s] else stack
  else stack ++ [s]

/-- The path begins with a slash. -/
def isAbsolute (path : JsString) : Bool := path.head? = some slash

/-- The path ends with a slash. -/
def hasTrailingSeparator (path : JsString) : Bool := path.getLast? = some slash

/-- `path.normalize(path)`. -/
def normalize (path : JsString) : JsString :=
  if path = [] then "."
  else
    let segments := (path.splitOn slash).foldl (pushSegment !(isAbsolute path)) []
    if segments = [] then if isAbsolute path then "/" else if hasTrailingSeparator path then "./" else "."
    else
      (if isAbsolute path then JsString.ofString "/" else []) ++ [slash].intercalate segments ++
        if hasTrailingSeparator path then JsString.ofString "/" else []

/-- `path.join(directory, fileName)`. -/
def join (directory fileName : JsString) : JsString :=
  let parts := [directory, fileName].filter (· ≠ [])
  if parts = [] then "." else normalize ([slash].intercalate parts)

/-! ### Where segments lead -/

/-- The segments of a path that are not empty. -/
def segmentsOf (path : JsString) : List JsString := (path.splitOn slash).filter (· ≠ [])

/-- How far a path goes up, and what it writes then. -/
def climbed (path : JsString) : ℕ × List JsString := Path.climb fullStop (segmentsOf path)

variable {allow : Bool} {path directory fileName name s : JsString} {stack names segments : List JsString}

/-- The segments that lead up: they are kept where there is no root. -/
def ascent (allow : Bool) (ups : ℕ) : List JsString := if allow then List.replicate ups [fullStop, fullStop] else []

theorem ascent_succ (ups : ℕ) :
    ascent allow (ups + 1) = if allow then ascent allow ups ++ [[fullStop, fullStop]] else ascent allow ups := by
  cases allow with
  | false => rfl
  | true => exact List.replicate_succ'

theorem getLast?_ascent (ups : ℕ) : ∀ last ∈ (ascent allow ups).getLast?, last = [fullStop, fullStop] := by
  intro last hlast
  have hmem := List.mem_of_getLast? hlast
  rw [ascent] at hmem
  split at hmem
  · exact List.eq_of_mem_replicate hmem
  · exact absurd hmem List.not_mem_nil

/-- A segment that is passed over. -/
theorem pushSegment_of_empty (h : s = [] ∨ s = [fullStop]) : pushSegment allow stack s = stack := if_pos h

/-- A segment that leads down. -/
theorem pushSegment_of_plain (h : s ≠ []) (hdots : ¬ Path.IsDots fullStop s) :
    pushSegment allow stack s = stack ++ [s] := by
  obtain ⟨hone, htwo⟩ := not_or.mp hdots
  rw [pushSegment, if_neg (not_or.mpr ⟨h, hone⟩), if_neg htwo]

/-- Two dots after what leads up only. -/
theorem pushSegment_ascent (ups : ℕ) :
    pushSegment allow (ascent allow ups) [fullStop, fullStop] = ascent allow (ups + 1) := by
  have htwo : ¬ ([fullStop, fullStop] = [] ∨ [fullStop, fullStop] = [fullStop]) := by decide
  rw [pushSegment, if_neg htwo, if_pos rfl, ascent_succ]
  cases hlast : (ascent allow ups).getLast? with
  | none => rfl
  | some last =>
    have hdots := getLast?_ascent ups last hlast
    exact if_neg (not_not_intro hdots)

/-- Two dots after a name. -/
theorem pushSegment_name (hne : names ≠ []) (hnames : [fullStop, fullStop] ∉ names) (ups : ℕ) :
    pushSegment allow (ascent allow ups ++ names) [fullStop, fullStop] = ascent allow ups ++ names.dropLast := by
  have htwo : ¬ ([fullStop, fullStop] = [] ∨ [fullStop, fullStop] = [fullStop]) := by decide
  have hlast : (ascent allow ups ++ names).getLast? = some (names.getLast hne) := by
    rw [List.getLast?_append_of_ne_nil _ hne, List.getLast?_eq_some_getLast hne]
  have hname : names.getLast hne ≠ [fullStop, fullStop] := by
    intro heq
    exact hnames (heq ▸ List.getLast_mem hne)
  rw [pushSegment, if_neg htwo, if_pos rfl, hlast]
  simp only [ne_eq, hname, not_false_eq_true, if_true]
  exact List.dropLast_append_of_ne_nil hne

/-- Two dots lead to no name after what there is. -/
theorem pushSegment_dots_ne (htwo : name ≠ [fullStop, fullStop]) :
    pushSegment allow stack [fullStop, fullStop] ≠ stack ++ [name] := by
  have hdots : ¬ ([fullStop, fullStop] = [] ∨ [fullStop, fullStop] = [fullStop]) := by decide
  have hpushed : stack ++ [[fullStop, fullStop]] ≠ stack ++ [name] := by
    intro heq
    exact htwo (List.cons.inj (List.append_cancel_left heq)).1.symm
  have hsame : stack ≠ stack ++ [name] := by simp
  have hdropped : stack.dropLast ≠ stack ++ [name] := by
    intro heq
    have hlength := congrArg List.length heq
    rw [List.length_dropLast, List.length_append, List.length_singleton] at hlength
    omega
  rw [pushSegment, if_neg hdots, if_pos rfl]
  split
  · split
    · exact hpushed
    · exact hsame
  · split
    · exact hdropped
    · split
      · exact hpushed
      · exact hsame

/-- **A segment** leads where it climbs. -/
theorem pushSegment_climbStep (hs : s ≠ []) (hnames : [fullStop, fullStop] ∉ names) (ups : ℕ) :
    pushSegment allow (ascent allow ups ++ names) s =
      ascent allow (Path.climbStep fullStop (ups, names) s).1 ++ (Path.climbStep fullStop (ups, names) s).2 := by
  rw [Path.climbStep]
  by_cases hone : s = [fullStop]
  · rw [if_pos hone]
    exact pushSegment_of_empty (.inr hone)
  · rw [if_neg hone]
    by_cases htwo : s = [fullStop, fullStop]
    · rw [if_pos htwo, htwo]
      by_cases hnil : names = []
      · rw [if_pos hnil, hnil, List.append_nil, List.append_nil]
        exact pushSegment_ascent ups
      · rw [if_neg hnil]
        exact pushSegment_name hnil hnames ups
    · rw [if_neg htwo, pushSegment_of_plain hs (not_or.mpr ⟨hone, htwo⟩), List.append_assoc]

/-- **Where segments lead**: so far up, and then down. -/
theorem foldl_pushSegment :
    segments.foldl (pushSegment allow) [] =
      ascent allow (Path.climb fullStop (segments.filter (· ≠ []))).1 ++
        (Path.climb fullStop (segments.filter (· ≠ []))).2 := by
  induction segments using List.reverseRecOn with
  | nil => cases allow <;> rfl
  | append_singleton segments s ih =>
    rw [List.foldl_append, List.foldl_cons, List.foldl_nil, ih, List.filter_append]
    by_cases hs : s = []
    · have hfilter : [s].filter (· ≠ []) = [] := by simp [hs]
      rw [hfilter, List.append_nil]
      exact pushSegment_of_empty (.inl hs)
    · have hfilter : [s].filter (· ≠ []) = [s] := by simp [hs]
      have hnames : [fullStop, fullStop] ∉ (Path.climb fullStop (segments.filter (· ≠ []))).2 := by
        intro hm
        exact (Path.mem_climb hm).2 (.inr rfl)
      have hclimb : Path.climb fullStop (segments.filter (· ≠ []) ++ [s]) =
          Path.climbStep fullStop (Path.climb fullStop (segments.filter (· ≠ []))) s := by
        rw [Path.climb, List.foldl_append]
        rfl
      rw [hfilter, hclimb]
      exact pushSegment_climbStep hs hnames _

/-! ### Paths as texts -/

/-- The path of segments. -/
def rendered (absolute : Bool) (segments : List JsString) : JsString :=
  if segments = [] then if absolute then "/" else "."
  else (if absolute then JsString.ofString "/" else []) ++ [slash].intercalate segments

/-- The segments that a directory leads to. -/
def directories (directory : JsString) : List JsString :=
  (directory.splitOn slash).foldl (pushSegment !(isAbsolute directory)) []

/-- Where a file name leads from there. -/
def leadsTo (directory fileName : JsString) : List JsString :=
  (fileName.splitOn slash).foldl (pushSegment !(isAbsolute directory)) (directories directory)

/-- A segment of a path as it is left. -/
def IsLeft (s : JsString) : Prop := s ≠ [] ∧ s ≠ [fullStop] ∧ slash ∉ s

theorem pushSegment_isLeft (hstack : ∀ t ∈ stack, IsLeft t) (hs : slash ∉ s) :
    ∀ t ∈ pushSegment allow stack s, IsLeft t := by
  have hpushed (hne : ¬ (s = [] ∨ s = [fullStop])) : ∀ t ∈ stack ++ [s], IsLeft t := by
    intro t ht
    rcases List.mem_append.mp ht with ht | ht
    · exact hstack t ht
    · rw [List.mem_singleton.mp ht]
      exact ⟨fun h => hne (.inl h), fun h => hne (.inr h), hs⟩
  intro t ht
  rw [pushSegment] at ht
  split at ht
  · exact hstack t ht
  · next hne =>
    split at ht
    · split at ht
      · split at ht
        · exact hpushed hne t ht
        · exact hstack t ht
      · split at ht
        · exact hstack t (List.dropLast_subset _ ht)
        · split at ht
          · exact hpushed hne t ht
          · exact hstack t ht
    · exact hpushed hne t ht

theorem foldl_isLeft (hstack : ∀ t ∈ stack, IsLeft t) (hsegments : ∀ t ∈ segments, slash ∉ t) :
    ∀ t ∈ segments.foldl (pushSegment allow) stack, IsLeft t := by
  induction segments generalizing stack with
  | nil => exact hstack
  | cons s segments ih =>
    obtain ⟨hs, hsegments⟩ := List.forall_mem_cons.mp hsegments
    exact ih (pushSegment_isLeft hstack hs) hsegments

theorem directories_isLeft (directory : JsString) : ∀ t ∈ directories directory, IsLeft t := by
  apply foldl_isLeft
  · intro t ht
    exact absurd ht List.not_mem_nil
  · intro t ht
    exact Path.not_mem_of_mem_splitOn ht

theorem leadsTo_isLeft (directory fileName : JsString) : ∀ t ∈ leadsTo directory fileName, IsLeft t := by
  apply foldl_isLeft (directories_isLeft directory)
  intro t ht
  exact Path.not_mem_of_mem_splitOn ht

/-- **Segments are read off their path.** -/
theorem rendered_injective {absolute : Bool} {l l' : List JsString} (hl : ∀ t ∈ l, IsLeft t)
    (hl' : ∀ t ∈ l', IsLeft t) (h : rendered absolute l = rendered absolute l') : l = l' := by
  have hsplit {k : List JsString} (hk : ∀ t ∈ k, IsLeft t) (hne : k ≠ []) :
      ([slash].intercalate k).splitOn slash = k :=
    List.splitOn_intercalate slash (fun t ht => (hk t ht).2.2) hne
  have hfirst {k : List JsString} (hk : ∀ t ∈ k, IsLeft t) (hne : k ≠ []) :
      rendered absolute [] ≠ rendered absolute k := by
    intro heq
    rw [rendered, if_pos rfl, rendered, if_neg hne] at heq
    have hread := hsplit hk hne
    cases absolute with
    | true =>
      have hnil : [slash].intercalate k = [] := (List.cons.inj heq).2.symm
      rw [hnil] at hread
      have hmem : [] ∈ k := hread ▸ List.mem_cons_self
      exact (hk [] hmem).1 rfl
    | false =>
      have hdot : [slash].intercalate k = [fullStop] := heq.symm
      rw [hdot] at hread
      have hmem : [fullStop] ∈ k := hread ▸ List.mem_cons_self
      exact (hk _ hmem).2.1 rfl
  by_cases hnil : l = []
  · by_cases hnil' : l' = []
    · rw [hnil, hnil']
    · rw [hnil] at h
      exact absurd h (hfirst hl' hnil')
  · by_cases hnil' : l' = []
    · rw [hnil'] at h
      exact absurd h.symm (hfirst hl hnil)
    · rw [rendered, if_neg hnil, rendered, if_neg hnil'] at h
      rw [← hsplit hl hnil, List.append_cancel_left h, hsplit hl' hnil']

theorem head?_joined (hd : directory ≠ []) : isAbsolute (directory ++ slash :: fileName) = isAbsolute directory := by
  rw [isAbsolute, isAbsolute, List.head?_append_of_ne_nil _ hd]

theorem getLast?_joined (hf : fileName ≠ []) :
    hasTrailingSeparator (directory ++ slash :: fileName) = hasTrailingSeparator fileName := by
  rw [hasTrailingSeparator, hasTrailingSeparator, ← List.singleton_append, ← List.append_assoc,
    List.getLast?_append_of_ne_nil _ hf]

/-- **What is joined**, if the file name does not end with a slash. -/
theorem join_eq (hd : directory ≠ []) (hf : fileName ≠ []) (hlast : hasTrailingSeparator fileName = false) :
    join directory fileName = rendered (isAbsolute directory) (leadsTo directory fileName) := by
  have hparts : [directory, fileName].filter (· ≠ []) = [directory, fileName] := by simp [hd, hf]
  have htext : [slash].intercalate [directory, fileName] = directory ++ slash :: fileName := by simp
  have hsegments : ((directory ++ slash :: fileName).splitOn slash).foldl (pushSegment !(isAbsolute directory)) [] =
      leadsTo directory fileName := by
    rw [List.splitOn_append_cons_self, List.foldl_append]
    rfl
  have htrailing : hasTrailingSeparator (directory ++ slash :: fileName) = false := (getLast?_joined hf).trans hlast
  have hne : directory ++ slash :: fileName ≠ [] := by simp
  simp only [join, hparts, htext, normalize, if_neg hne, head?_joined hd, hsegments, htrailing, rendered]
  simp

/-- A file name that ends with a slash makes a path that does. -/
theorem join_trailing (hd : directory ≠ []) (hf : fileName ≠ []) (hlast : hasTrailingSeparator fileName = true) :
    (join directory fileName).getLast? = some slash := by
  have hparts : [directory, fileName].filter (· ≠ []) = [directory, fileName] := by simp [hd, hf]
  have htext : [slash].intercalate [directory, fileName] = directory ++ slash :: fileName := by simp
  have htrailing : hasTrailingSeparator (directory ++ slash :: fileName) = true := (getLast?_joined hf).trans hlast
  have hne : directory ++ slash :: fileName ≠ [] := by simp
  have hroot : (JsString.ofString "/").getLast? = some slash := rfl
  simp only [join, hparts, htext, normalize, if_neg hne, htrailing]
  split
  · contradiction
  · split
    · split <;> rfl
    · rw [if_pos trivial, List.getLast?_append_of_ne_nil _ (by decide)]
      exact hroot

/-- A path of segments ends as its last segment does. -/
theorem getLast?_rendered {absolute : Bool} (hs : s ≠ []) :
    (rendered absolute (stack ++ [s])).getLast? = s.getLast? := by
  have hne : stack ++ [s] ≠ [] := by simp
  have htext : ∃ before, [slash].intercalate (stack ++ [s]) = before ++ s := by
    cases stack with
    | nil => exact ⟨[], by simp⟩
    | cons t stack =>
      refine ⟨t ++ Path.slashed slash stack ++ [slash], ?_⟩
      rw [List.cons_append, Path.intercalate_cons]
      simp
  obtain ⟨before, hbefore⟩ := htext
  rw [rendered, if_neg hne, hbefore, ← List.append_assoc, List.getLast?_append_of_ne_nil _ hs]

/-- And so not with a slash. -/
theorem hasTrailingSeparator_rendered {absolute : Bool} (hne : segments ≠ []) (hleft : ∀ t ∈ segments, IsLeft t) :
    hasTrailingSeparator (rendered absolute segments) = false := by
  obtain ⟨init, last, rfl⟩ : ∃ init last, segments = init ++ [last] :=
    ⟨_, _, (List.dropLast_append_getLast hne).symm⟩
  have hlast : IsLeft last := hleft last (by simp)
  rw [hasTrailingSeparator, getLast?_rendered hlast.1, decide_eq_false_iff_not]
  intro heq
  exact hlast.2.2 (List.mem_of_getLast? heq)

/-- One more segment. -/
theorem rendered_concat (absolute : Bool) (hne : stack ≠ []) :
    rendered absolute (stack ++ [s]) = rendered absolute stack ++ slash :: s := by
  obtain ⟨t, rest, rfl⟩ := List.exists_cons_of_ne_nil hne
  have htext : [slash].intercalate (t :: rest ++ [s]) = [slash].intercalate (t :: rest) ++ slash :: s := by
    rw [List.cons_append, Path.intercalate_cons, Path.intercalate_cons, Path.slashed_append]
    simp
  rw [rendered, if_neg (by simp), htext, rendered, if_neg hne, List.append_assoc]

theorem rendered_singleton (absolute : Bool) (s : JsString) :
    rendered absolute [s] = (if absolute then JsString.ofString "/" else []) ++ s := by
  simp [rendered]

/-- A path of segments is no dot. -/
theorem rendered_ne_dot {absolute : Bool} (hne : segments ≠ []) (hleft : ∀ t ∈ segments, IsLeft t) :
    rendered absolute segments ≠ JsString.ofString "." := by
  intro heq
  cases absolute with
  | true =>
    rw [rendered, if_neg hne] at heq
    have hfirst : slash = fullStop := (List.cons.inj heq).1
    exact absurd hfirst (by decide)
  | false =>
    have hempty : rendered false [] = JsString.ofString "." := rfl
    rw [← hempty] at heq
    exact hne (rendered_injective hleft (by simp) heq)

/-- A directory as it is normalized: its segments, and a slash if it ends with one. -/
theorem normalize_eq (hd : directory ≠ []) :
    normalize directory =
      if directories directory = [] then
        if isAbsolute directory then JsString.ofString "/"
        else if hasTrailingSeparator directory then JsString.ofString "./" else JsString.ofString "."
      else
        rendered (isAbsolute directory) (directories directory) ++
          if hasTrailingSeparator directory then JsString.ofString "/" else [] := by
  rw [normalize, if_neg hd, ← directories]
  by_cases hnil : directories directory = []
  · rw [if_pos hnil, if_pos hnil]
  · rw [if_neg hnil, if_neg hnil, rendered, if_neg hnil]

/-! ### Going back to a name -/

theorem directories_eq (directory : JsString) :
    directories directory = ascent (!(isAbsolute directory)) (climbed directory).1 ++ (climbed directory).2 :=
  foldl_pushSegment

/-- Where a file name leads from a directory, by how far each of them goes up. -/
theorem leadsTo_eq (directory fileName : JsString) :
    leadsTo directory fileName =
      ascent (!(isAbsolute directory))
          ((climbed directory).1 + ((climbed fileName).1 - (climbed directory).2.length)) ++
        ((climbed directory).2.take ((climbed directory).2.length - (climbed fileName).1) ++ (climbed fileName).2) := by
  have hclimb : Path.climb fullStop (segmentsOf directory ++ segmentsOf fileName) =
      (segmentsOf fileName).foldl (Path.climbStep fullStop) (climbed directory) := by
    rw [Path.climb, List.foldl_append]
    rfl
  have hfilter : (directory.splitOn slash ++ fileName.splitOn slash).filter (· ≠ []) =
      segmentsOf directory ++ segmentsOf fileName := by
    rw [List.filter_append]
    rfl
  rw [leadsTo, directories, ← List.foldl_append, foldl_pushSegment, hfilter, hclimb, Path.foldl_climbStep]
  rfl

/-- What leads up, and then down, is read off the segments. -/
theorem ascent_injective {ups ups' : ℕ} {names' : List JsString} (h : [fullStop, fullStop] ∉ names)
    (h' : [fullStop, fullStop] ∉ names') (heq : ascent allow ups ++ names = ascent allow ups' ++ names') :
    (allow = true → ups = ups') ∧ names = names' := by
  cases allow with
  | false => exact ⟨nofun, heq⟩
  | true =>
    have hups : ups = ups' := by
      have hcount := congrArg (List.count [fullStop, fullStop]) heq
      simpa [ascent, List.count_eq_zero_of_not_mem h, List.count_eq_zero_of_not_mem h'] using hcount
    rw [hups] at heq
    exact ⟨fun _ => hups, List.append_cancel_left heq⟩

/-- Two dots are no written segment. -/
theorem dots_not_mem_climbed (path : JsString) : [fullStop, fullStop] ∉ (climbed path).2 := by
  intro hm
  exact (Path.mem_climb hm).2 (.inr rfl)

/-- **A file name leads to a name** in the directory if and only if it writes what it has gone up past. -/
theorem leadsTo_eq_iff (htwo : name ≠ [fullStop, fullStop]) :
    leadsTo directory fileName = directories directory ++ [name] ↔
      (climbed fileName).2 =
          (climbed directory).2.drop ((climbed directory).2.length - (climbed fileName).1) ++ [name] ∧
        (directory.head? = some slash ∨ (climbed fileName).1 ≤ (climbed directory).2.length) := by
  -- the segments of the directory that the file name leaves, and those it goes up past
  let n := (climbed directory).2.length - (climbed fileName).1
  have hsplit : (climbed directory).2 ++ [name] =
      (climbed directory).2.take n ++ ((climbed directory).2.drop n ++ [name]) := by
    rw [← List.append_assoc, List.take_append_drop]
  rw [leadsTo_eq, directories_eq, List.append_assoc]
  constructor
  · intro heq
    have hfrom : [fullStop, fullStop] ∉ (climbed directory).2.take n ++ (climbed fileName).2 := by
      intro hm
      rcases List.mem_append.mp hm with hm | hm
      · exact dots_not_mem_climbed directory (List.mem_of_mem_take hm)
      · exact dots_not_mem_climbed fileName hm
    have hto : [fullStop, fullStop] ∉ (climbed directory).2 ++ [name] := by
      intro hm
      rcases List.mem_append.mp hm with hm | hm
      · exact dots_not_mem_climbed directory hm
      · exact htwo (List.mem_singleton.mp hm).symm
    obtain ⟨hups, hnames⟩ := ascent_injective hfrom hto heq
    rw [hsplit] at hnames
    refine ⟨List.append_cancel_left hnames, ?_⟩
    by_cases habsolute : directory.head? = some slash
    · exact .inl habsolute
    · have hallow : (!(isAbsolute directory)) = true := by simp [isAbsolute, habsolute]
      have hzero := hups hallow
      exact .inr (by omega)
  · rintro ⟨hwritten, habove⟩
    have hups : ascent (!(isAbsolute directory))
        ((climbed directory).1 + ((climbed fileName).1 - (climbed directory).2.length)) =
        ascent (!(isAbsolute directory)) (climbed directory).1 := by
      rcases habove with habsolute | hle
      · simp [ascent, isAbsolute, habsolute]
      · rw [Nat.sub_eq_zero_of_le hle, Nat.add_zero]
    rw [hups, hwritten, ← hsplit]

end NestDdd.Shared.PosixPath
