import Mathlib.Data.List.Basic
import Mathlib.Data.List.Induction
import Mathlib.Data.List.TakeWhile
import NestDdd.Theory.Matching

/-!
# Paths and their dot segments

A path is a list of symbols with separators, and the lists between them are its segments.
A segment of one dot stands for nothing, a segment of two for going up: `removeDots` works them
off a path symbol by symbol, with an input that gets shorter and an output whose last segment is
dropped for each two dots. `resolve` says the same of the segments, with a stack.

## What is proved

* `under_iff` — a path is another one, or goes on with a separator after it, if and only if its
  segments begin with the other one's.
* `removeDots_slashed` — **the algorithm resolves**: it makes of a path the path of its resolved
  segments.
* `resolve_eq` — resolved segments are what is left of those before the first dot segment when the
  rest has climbed up (`climb`), and what the rest has put after them.
-/

namespace NestDdd.Theory.Path

variable {α : Type} {sep dot : α}

/-! ### Segments -/

/-- The segments of a list, each after a separator. -/
def slashed (sep : α) (segments : List (List α)) : List α := segments.flatMap (sep :: ·)

@[simp] theorem slashed_nil : slashed sep [] = [] := rfl

@[simp] theorem slashed_cons (s : List α) (rest : List (List α)) :
    slashed sep (s :: rest) = sep :: s ++ slashed sep rest := rfl

@[simp] theorem slashed_append (l₁ l₂ : List (List α)) :
    slashed sep (l₁ ++ l₂) = slashed sep l₁ ++ slashed sep l₂ := List.flatMap_append

theorem intercalate_cons (s : List α) (rest : List (List α)) :
    [sep].intercalate (s :: rest) = s ++ slashed sep rest := by
  induction rest generalizing s with
  | nil => simp
  | cons s' rest ih => rw [List.intercalate_cons_cons, ih, slashed_cons, List.append_assoc]; rfl

variable [DecidableEq α]

/-- A path is its first segment, and the others after separators. -/
theorem eq_slashed {p s : List α} {rest : List (List α)} (h : p.splitOn sep = s :: rest) :
    p = s ++ slashed sep rest := by
  have hjoin : [sep].intercalate (p.splitOn sep) = p := List.intercalate_splitOn sep
  rw [← hjoin, h, intercalate_cons]

/-- Segments without separators are read as they were written. -/
theorem splitOn_slashed {s : List α} {rest : List (List α)} (h : ∀ l ∈ s :: rest, sep ∉ l) :
    (s ++ slashed sep rest).splitOn sep = s :: rest := by
  rw [← intercalate_cons, List.splitOn_intercalate sep h (List.cons_ne_nil _ _)]

/-- A list without separators is one segment. -/
theorem splitOn_of_not_mem {l : List α} (h : sep ∉ l) : l.splitOn sep = [l] := by
  have hone : ∀ s ∈ [l], sep ∉ s := by simpa using h
  simpa using splitOn_slashed hone

/-- Segments have no separators. -/
theorem not_mem_of_mem_splitOn {p s : List α} (h : s ∈ p.splitOn sep) : sep ∉ s := by
  induction p generalizing s with
  | nil => simp_all
  | cons a p ih =>
    rw [List.splitOn_cons_eq_if_modifyHead] at h
    split at h
    · rcases List.mem_cons.mp h with rfl | h
      · exact List.not_mem_nil
      · exact ih h
    · next hne =>
      obtain ⟨s', rest, hs⟩ := List.exists_cons_of_ne_nil (List.splitOn_ne_nil sep p)
      rw [hs, List.modifyHead_cons] at h
      rcases List.mem_cons.mp h with rfl | h
      · have hfirst := ih (s := s') (by simp [hs])
        rw [List.mem_cons, not_or]
        exact ⟨fun heq => hne (by simp [heq]), hfirst⟩
      · exact ih (by simp [hs, h])

/-- `t` is `p`, or goes on with a separator after it. -/
def Under (sep : α) (t p : List α) : Prop := t = p ∨ p ++ [sep] <+: t

/-- **Being under a path** is to begin with its segments. -/
theorem under_iff {t p : List α} : Under sep t p ↔ p.splitOn sep <+: t.splitOn sep := by
  constructor
  · rintro (rfl | ⟨rest, rfl⟩)
    · exact List.prefix_refl _
    · rw [List.append_assoc, List.singleton_append, List.splitOn_append_cons_self]
      exact List.prefix_append _ _
  · rintro ⟨more, h⟩
    obtain ⟨s, rest, hp⟩ := List.exists_cons_of_ne_nil (List.splitOn_ne_nil sep p)
    rw [hp, List.cons_append] at h
    have ht : t = p ++ slashed sep more := by
      rw [eq_slashed h.symm, eq_slashed hp, slashed_append, List.append_assoc]
    cases more with
    | nil => exact .inl (by simpa using ht)
    | cons s' more => exact .inr ⟨s' ++ slashed sep more, by rw [ht]; simp⟩

/-! ### Dot segments -/

/-- A segment of one dot or of two. -/
def IsDots (dot : α) (s : List α) : Prop := s = [dot] ∨ s = [dot, dot]

instance (s : List α) : Decidable (IsDots dot s) := by
  unfold IsDots
  infer_instance

/-- The symbols up to the next separator, a separator at the beginning included. -/
def firstSegment (sep : α) : List α → List α
  | [] => []
  | a :: l => a :: l.takeWhile (· ≠ sep)

/-- An output without its last segment and the separator before it. -/
def dropSegment (sep : α) (output : List α) : List α :=
  ((output.reverse.dropWhile (· ≠ sep)).drop 1).reverse

/-- **The removal of dot segments**: the output so far and the input left, which every round makes
shorter. -/
def removeDotsFrom (sep dot : α) : ℕ → List α → List α → List α
  | 0, output, _ => output
  | n + 1, output, input =>
    if input = [] then output
    else if [dot, dot, sep] <+: input then removeDotsFrom sep dot n output (input.drop 3)
    else if [dot, sep] <+: input then removeDotsFrom sep dot n output (input.drop 2)
    else if [sep, dot, sep] <+: input then removeDotsFrom sep dot n output (input.drop 2)
    else if input = [sep, dot] then removeDotsFrom sep dot n output [sep]
    else if [sep, dot, dot, sep] <+: input then
      removeDotsFrom sep dot n (dropSegment sep output) (input.drop 3)
    else if input = [sep, dot, dot] then removeDotsFrom sep dot n (dropSegment sep output) [sep]
    else if IsDots dot input then removeDotsFrom sep dot n output []
    else
      removeDotsFrom sep dot n (output ++ firstSegment sep input)
        (input.drop (firstSegment sep input).length)

/-- A path without its dot segments. -/
def removeDots (sep dot : α) (path : List α) : List α := removeDotsFrom sep dot path.length [] path

/-! ### The same of segments -/

/-- What a segment does to those before it. -/
def push (dot : α) (stack : List (List α)) (s : List α) : List (List α) :=
  if s = [dot] then stack else if s = [dot, dot] then stack.dropLast else stack ++ [s]

/-- A dot segment at the end stands for itself and an empty segment. -/
def closed (dot : α) (segments : List (List α)) : List (List α) :=
  match segments.getLast? with
  | some s => if IsDots dot s then segments ++ [[]] else segments
  | none => segments

/-- What segments stand for, after those of `stack`. -/
def resolve (dot : α) (stack segments : List (List α)) : List (List α) :=
  (closed dot segments).foldl (push dot) stack

@[simp] theorem resolve_nil (stack : List (List α)) : resolve dot stack [] = stack := rfl

/-- A dot segment at the end is one before an empty segment. -/
theorem resolve_dots {s : List α} (hs : IsDots dot s) (stack : List (List α)) :
    resolve dot stack [s] = resolve dot (push dot stack s) [[]] := by
  have hempty : ¬ IsDots dot ([] : List α) := by simp [IsDots]
  simp [resolve, closed, hs, hempty]

/-- Any other segment is worked off by itself. -/
theorem resolve_cons {s : List α} {rest : List (List α)} (h : ¬ IsDots dot s ∨ rest ≠ []) (stack : List (List α)) :
    resolve dot stack (s :: rest) = resolve dot (push dot stack s) rest := by
  have hclosed : closed dot (s :: rest) = s :: closed dot rest := by
    cases rest with
    | nil => simp [closed, h.resolve_right (not_not.mpr rfl)]
    | cons s' rest =>
      simp only [closed, List.getLast?_cons_cons]
      split
      · split <;> rfl
      · rfl
  rw [resolve, hclosed, List.foldl_cons, resolve]

/-! ### The algorithm resolves -/

theorem takeWhile_slashed {s : List α} (hs : sep ∉ s) (rest : List (List α)) :
    (s ++ slashed sep rest).takeWhile (· ≠ sep) = s := by
  have hs' : ∀ a ∈ s, decide (a ≠ sep) = true := by
    intro a ha
    rw [decide_eq_true_eq]
    rintro rfl
    exact hs ha
  rw [List.takeWhile_append_of_pos hs']
  cases rest <;> simp

theorem firstSegment_slashed {s : List α} (hs : sep ∉ s) (rest : List (List α)) :
    firstSegment sep (slashed sep (s :: rest)) = sep :: s := by
  rw [slashed_cons, List.cons_append, firstSegment, takeWhile_slashed hs]

/-- The segment an input begins with, if another one follows. -/
theorem prefix_slashed_iff {d s : List α} (hd : sep ∉ d) (hs : sep ∉ s) {rest : List (List α)} :
    sep :: d ++ [sep] <+: slashed sep (s :: rest) ↔ s = d ∧ rest ≠ [] := by
  constructor
  · rintro ⟨more, h⟩
    have hfirst := congrArg (firstSegment sep) h
    have hdropped : sep :: d ++ [sep] ++ more = slashed sep (d :: more.splitOn sep) := by
      obtain ⟨s', rest', hm⟩ := List.exists_cons_of_ne_nil (List.splitOn_ne_nil sep more)
      rw [hm, slashed_cons, slashed_cons, eq_slashed hm]
      simp
    rw [hdropped, firstSegment_slashed hd, firstSegment_slashed hs] at hfirst
    obtain rfl := (List.cons.inj hfirst).2
    refine ⟨rfl, ?_⟩
    rintro rfl
    simpa using congrArg List.length h
  · rintro ⟨rfl, hrest⟩
    obtain ⟨s', rest, rfl⟩ := List.exists_cons_of_ne_nil hrest
    exact ⟨s' ++ slashed sep rest, by simp⟩

/-- The segment that is all of an input. -/
theorem slashed_eq_iff {d s : List α} (hd : sep ∉ d) (hs : sep ∉ s) {rest : List (List α)} :
    slashed sep (s :: rest) = sep :: d ↔ s = d ∧ rest = [] := by
  constructor
  · intro h
    have hfirst := congrArg (firstSegment sep) h
    rw [firstSegment_slashed hs, show sep :: d = slashed sep [d] by simp, firstSegment_slashed hd] at hfirst
    obtain rfl := (List.cons.inj hfirst).2
    refine ⟨rfl, ?_⟩
    cases rest with
    | nil => rfl
    | cons s' rest => simp at h
  · rintro ⟨rfl, rfl⟩
    simp

/-- A segment is passed over, unless it is the one that is looked for and another one follows. -/
theorem fromFirst_slashed_cons {d s : List α} {rest : List (List α)} (hd : sep ∉ d) (hs : sep ∉ s)
    (h : s ≠ d ∨ rest = []) :
    Matching.fromFirst (sep :: d ++ [sep]) (slashed sep (s :: rest)) =
      Matching.fromFirst (sep :: d ++ [sep]) (slashed sep rest) := by
  have hnot : ¬ sep :: d ++ [sep] <+: slashed sep (s :: rest) := by
    rw [prefix_slashed_iff hd hs]
    tauto
  exact (Matching.fromFirst_cons hnot).trans (Matching.fromFirst_append hs)

/-- **The first segment of a name** is where the name between separators occurs first. -/
theorem fromFirst_slashed {d : List α} {a b : List (List α)} (hd : sep ∉ d) (ha : ∀ s ∈ a, sep ∉ s) (hda : d ∉ a)
    (hb : b ≠ []) :
    Matching.fromFirst (sep :: d ++ [sep]) (slashed sep (a ++ d :: b)) = some (slashed sep (d :: b)) := by
  induction a with
  | nil => exact Matching.fromFirst_of_prefix ((prefix_slashed_iff hd hd).mpr ⟨rfl, hb⟩)
  | cons s a ih =>
    rw [List.mem_cons, not_or] at hda
    obtain ⟨hs, ha⟩ := List.forall_mem_cons.mp ha
    exact (fromFirst_slashed_cons hd hs (.inl (Ne.symm hda.1))).trans (ih ha hda.2)

/-- A name that no segment but the last one may have does not occur between separators. -/
theorem fromFirst_slashed_eq_none {d t : List α} {a : List (List α)} (hd : sep ∉ d) (ha : ∀ s ∈ a, sep ∉ s)
    (ht : sep ∉ t) (hda : d ∉ a) : Matching.fromFirst (sep :: d ++ [sep]) (slashed sep (a ++ [t])) = none := by
  induction a with
  | nil =>
    rw [List.nil_append, fromFirst_slashed_cons hd ht (.inr rfl)]
    exact Matching.fromFirst_eq_none_iff.mpr (by simp)
  | cons s a ih =>
    rw [List.mem_cons, not_or] at hda
    obtain ⟨hs, ha⟩ := List.forall_mem_cons.mp ha
    exact (fromFirst_slashed_cons hd hs (.inl (Ne.symm hda.1))).trans (ih ha hda.2)

/-- Going up drops a segment. -/
theorem dropSegment_slashed {stack : List (List α)} (h : ∀ s ∈ stack, sep ∉ s) :
    dropSegment sep (slashed sep stack) = slashed sep stack.dropLast := by
  induction stack using List.reverseRecOn with
  | nil => rfl
  | append_singleton stack s =>
    have hs : ∀ a ∈ s.reverse, decide (a ≠ sep) = true := by
      intro a ha
      rw [decide_eq_true_eq]
      rintro rfl
      exact h s (by simp) (List.mem_reverse.mp ha)
    rw [List.dropLast_concat, slashed_append, dropSegment, List.reverse_append]
    rw [show (slashed sep [s]).reverse = s.reverse ++ [sep] by simp, List.append_assoc,
      List.dropWhile_append_of_pos hs]
    simp

/-- A segment pushed is one that was there, or itself. -/
theorem mem_push {stack : List (List α)} {s s' : List α} (h : s ∈ push dot stack s') : s ∈ stack ∨ s = s' := by
  rw [push] at h
  split at h
  · exact .inl h
  · split at h
    · exact .inl (List.dropLast_subset stack h)
    · exact (List.mem_append.mp h).imp_right List.mem_singleton.mp

/-- What is left of the segments after a round of the algorithm: a dot segment at the end leaves an empty
one. -/
def left (dot : α) (s : List α) (rest : List (List α)) : List (List α) :=
  if IsDots dot s ∧ rest = [] then [[]] else rest

/-- **A round of the algorithm** works off the first segment. -/
theorem removeDotsFrom_succ (hsep : sep ≠ dot) {stack rest : List (List α)} {s : List α}
    (hstack : ∀ s ∈ stack, sep ∉ s) (hs : sep ∉ s) (n : ℕ) :
    removeDotsFrom sep dot (n + 1) (slashed sep stack) (slashed sep (s :: rest)) =
      removeDotsFrom sep dot n (slashed sep (push dot stack s)) (slashed sep (left dot s rest)) := by
  have hone : sep ∉ [dot] := by simpa using hsep
  have htwo : sep ∉ [dot, dot] := by simpa using hsep
  have hhead (d : List α) : ¬ dot :: d <+: slashed sep (s :: rest) := by
    rw [slashed_cons, List.cons_append, List.cons_prefix_cons]
    intro h
    exact hsep h.1.symm
  have hdots : ¬ IsDots dot (slashed sep (s :: rest)) := by
    rintro (h | h)
    · exact hhead [] ⟨[], by simpa using h.symm⟩
    · exact hhead [dot] ⟨[], by simpa using h.symm⟩
  -- the rules, each in terms of the first segment and of whether another one follows
  have hone_more : [sep, dot, sep] <+: slashed sep (s :: rest) ↔ s = [dot] ∧ rest ≠ [] :=
    prefix_slashed_iff hone hs
  have hone_end : slashed sep (s :: rest) = [sep, dot] ↔ s = [dot] ∧ rest = [] := slashed_eq_iff hone hs
  have htwo_more : [sep, dot, dot, sep] <+: slashed sep (s :: rest) ↔ s = [dot, dot] ∧ rest ≠ [] :=
    prefix_slashed_iff htwo hs
  have htwo_end : slashed sep (s :: rest) = [sep, dot, dot] ↔ s = [dot, dot] ∧ rest = [] := slashed_eq_iff htwo hs
  have hne : [dot] ≠ [dot, dot] := by simp
  rw [removeDotsFrom, if_neg (by simp), if_neg (hhead _), if_neg (hhead _), left]
  by_cases h₁ : s = [dot]
  · subst h₁
    rw [push, if_pos rfl]
    by_cases hr : rest = []
    · rw [if_neg (fun h => (hone_more.mp h).2 hr), if_pos (hone_end.mpr ⟨rfl, hr⟩), if_pos ⟨.inl rfl, hr⟩]
      simp
    · rw [if_pos (hone_more.mpr ⟨rfl, hr⟩), if_neg (fun h => hr h.2)]
      rfl
  · by_cases h₂ : s = [dot, dot]
    · subst h₂
      rw [if_neg (fun h => hne (hone_more.mp h).1.symm), if_neg (fun h => hne (hone_end.mp h).1.symm),
        dropSegment_slashed hstack, push, if_neg hne.symm, if_pos rfl]
      by_cases hr : rest = []
      · rw [if_neg (fun h => (htwo_more.mp h).2 hr), if_pos (htwo_end.mpr ⟨rfl, hr⟩), if_pos ⟨.inr rfl, hr⟩]
        simp
      · rw [if_pos (htwo_more.mpr ⟨rfl, hr⟩), if_neg (fun h => hr h.2)]
        rfl
    · have hplain : ¬ (IsDots dot s ∧ rest = []) := fun h => not_or.mpr ⟨h₁, h₂⟩ h.1
      rw [if_neg (fun h => h₁ (hone_more.mp h).1), if_neg (fun h => h₁ (hone_end.mp h).1),
        if_neg (fun h => h₂ (htwo_more.mp h).1), if_neg (fun h => h₂ (htwo_end.mp h).1), if_neg hdots,
        firstSegment_slashed hs, if_neg hplain, push, if_neg h₁, if_neg h₂]
      have hout : slashed sep stack ++ sep :: s = slashed sep (stack ++ [s]) := by simp
      have hin : (slashed sep (s :: rest)).drop (sep :: s).length = slashed sep rest := by
        rw [slashed_cons, List.drop_left]
      rw [hout, hin]

/-- And so does resolving them. -/
theorem resolve_left (stack : List (List α)) (s : List α) (rest : List (List α)) :
    resolve dot stack (s :: rest) = resolve dot (push dot stack s) (left dot s rest) := by
  rw [left]
  split
  · next h =>
    obtain ⟨hs, rfl⟩ := h
    exact resolve_dots hs stack
  · next h =>
    have hor : ¬ IsDots dot s ∨ rest ≠ [] := by tauto
    exact resolve_cons hor stack

/-- A round makes the input shorter. -/
theorem length_left (s : List α) (rest : List (List α)) :
    (slashed sep (left dot s rest)).length < (slashed sep (s :: rest)).length := by
  rw [left, slashed_cons, List.length_append, List.length_cons]
  split
  · next h =>
    have hpos : 0 < s.length := by
      rcases h.1 with rfl | rfl
      · exact Nat.zero_lt_one
      · exact Nat.zero_lt_two
    have hone : (slashed sep [([] : List α)]).length = 1 := rfl
    omega
  · omega

/-- **The algorithm resolves.** -/
theorem removeDotsFrom_slashed (hsep : sep ≠ dot) {stack segments : List (List α)} (hs : ∀ s ∈ stack, sep ∉ s)
    (h : ∀ s ∈ segments, sep ∉ s) {n : ℕ} (hn : (slashed sep segments).length ≤ n) :
    removeDotsFrom sep dot n (slashed sep stack) (slashed sep segments) =
      slashed sep (resolve dot stack segments) := by
  induction n generalizing stack segments with
  | zero =>
    cases segments with
    | nil => rfl
    | cons s rest => simp at hn
  | succ n ih =>
    cases segments with
    | nil => simp [removeDotsFrom]
    | cons s rest =>
      obtain ⟨hfirst, hrest⟩ := List.forall_mem_cons.mp h
      rw [removeDotsFrom_succ hsep hs hfirst, resolve_left]
      refine ih (fun s' hs' => ?_) (fun s' hs' => ?_) ?_
      · rcases mem_push hs' with hs' | rfl
        · exact hs s' hs'
        · exact hfirst
      · rw [left] at hs'
        split at hs'
        · rw [List.mem_singleton.mp hs']
          exact List.not_mem_nil
        · exact hrest s' hs'
      · have hshort := @length_left _ sep dot _ s rest
        omega

/-- **The path of the resolved segments** is what the algorithm makes of a path. -/
theorem removeDots_slashed (hsep : sep ≠ dot) {segments : List (List α)} (h : ∀ s ∈ segments, sep ∉ s) :
    removeDots sep dot (slashed sep segments) = slashed sep (resolve dot [] segments) :=
  @removeDotsFrom_slashed _ _ _ _ hsep [] segments nofun h _ (le_refl _)

/-! ### Going up -/

/-- What a segment does to the number of segments gone up past the beginning, and to those written
since. -/
def climbStep (dot : α) (c : ℕ × List (List α)) (s : List α) : ℕ × List (List α) :=
  if s = [dot] then c
  else if s = [dot, dot] then if c.2 = [] then (c.1 + 1, []) else (c.1, c.2.dropLast)
  else (c.1, c.2 ++ [s])

/-- How far segments go up past their beginning, and what they have written when they are over. -/
def climb (dot : α) (segments : List (List α)) : ℕ × List (List α) := segments.foldl (climbStep dot) (0, [])

/-- The segments that were there are left as far as nothing has gone up past them. -/
theorem foldl_push (base segments : List (List α)) :
    segments.foldl (push dot) base =
      base.take (base.length - (climb dot segments).1) ++ (climb dot segments).2 := by
  induction segments using List.reverseRecOn with
  | nil => simp [climb]
  | append_singleton segments s ih =>
    have hclimb : climb dot (segments ++ [s]) = climbStep dot (climb dot segments) s := by
      rw [climb, List.foldl_append]
      rfl
    rw [List.foldl_append, ih, hclimb, List.foldl_cons, List.foldl_nil, push, climbStep]
    split
    · rfl
    · split
      · split
        · next hw =>
          rw [hw, List.append_nil, List.append_nil, List.dropLast_eq_take, List.take_take, List.length_take]
          congr 1
          omega
        · next hw => rw [List.dropLast_append_of_ne_nil hw]
      · rw [List.append_assoc]

/-- What is written is among the segments, and is no dot segment. -/
theorem mem_climb {segments : List (List α)} {s : List α} (h : s ∈ (climb dot segments).2) :
    s ∈ segments ∧ ¬ IsDots dot s := by
  induction segments using List.reverseRecOn with
  | nil => exact absurd h List.not_mem_nil
  | append_singleton segments s' ih =>
    have hclimb : climb dot (segments ++ [s']) = climbStep dot (climb dot segments) s' := by
      rw [climb, List.foldl_append]
      rfl
    have hbefore (hs : s ∈ (climb dot segments).2) : s ∈ segments ++ [s'] ∧ ¬ IsDots dot s :=
      ⟨List.mem_append_left _ (ih hs).1, (ih hs).2⟩
    rw [hclimb, climbStep] at h
    split at h
    · exact hbefore h
    · next hone =>
      split at h
      · split at h
        · exact absurd h List.not_mem_nil
        · exact hbefore (List.dropLast_subset _ h)
      · next htwo =>
        rcases List.mem_append.mp h with h | h
        · exact hbefore h
        · rw [List.mem_singleton.mp h]
          exact ⟨by simp, not_or.mpr ⟨hone, htwo⟩⟩

/-- **Going on from where one is**: segments go up past what was written, and what they write comes after. -/
theorem foldl_climbStep (c : ℕ × List (List α)) (segments : List (List α)) :
    segments.foldl (climbStep dot) c =
      (c.1 + ((climb dot segments).1 - c.2.length),
        c.2.take (c.2.length - (climb dot segments).1) ++ (climb dot segments).2) := by
  induction segments using List.reverseRecOn with
  | nil => simp [climb]
  | append_singleton segments s ih =>
    have hclimb : climb dot (segments ++ [s]) = climbStep dot (climb dot segments) s := by
      rw [climb, List.foldl_append]
      rfl
    rw [List.foldl_append, ih, hclimb, List.foldl_cons, List.foldl_nil, climbStep, climbStep]
    split
    · rfl
    · split
      · by_cases hw : (climb dot segments).2 = []
        · simp only [hw, List.append_nil, if_true]
          split
          · next htake =>
            -- nothing is left to go up past
            have hlength := congrArg List.length htake
            rw [List.length_take, List.length_nil] at hlength
            have hzero : c.2.length - ((climb dot segments).1 + 1) = 0 := by omega
            rw [hzero, List.take_zero]
            have hup : c.1 + ((climb dot segments).1 - c.2.length) + 1 =
                c.1 + ((climb dot segments).1 + 1 - c.2.length) := by omega
            rw [hup]
          · next htake =>
            have hpos : (climb dot segments).1 < c.2.length := by
              by_contra hle
              exact htake (by rw [Nat.sub_eq_zero_of_le (Nat.le_of_not_lt hle), List.take_zero])
            have hup : (climb dot segments).1 - c.2.length = (climb dot segments).1 + 1 - c.2.length := by omega
            rw [hup, List.dropLast_eq_take, List.take_take, List.length_take]
            congr 2
            omega
        · rw [if_neg hw, if_neg (List.append_ne_nil_of_right_ne_nil _ hw), List.dropLast_append_of_ne_nil hw]
      · rw [List.append_assoc]

/-- The segments before the first dot segment. -/
def before (dot : α) (segments : List (List α)) : List (List α) := segments.takeWhile (¬ IsDots dot ·)

/-- The segments from the first dot segment on. -/
def dotted (dot : α) (segments : List (List α)) : List (List α) := segments.dropWhile (¬ IsDots dot ·)

theorem before_append_dotted (segments : List (List α)) : before dot segments ++ dotted dot segments = segments :=
  List.takeWhile_append_dropWhile

theorem mem_foldl_push {stack segments : List (List α)} {s : List α} (h : s ∈ segments.foldl (push dot) stack) :
    s ∈ stack ∨ s ∈ segments := by
  induction segments generalizing stack with
  | nil => exact .inl h
  | cons s' segments ih =>
    rcases ih h with h | h
    · rcases mem_push h with h | rfl
      · exact .inl h
      · exact .inr List.mem_cons_self
    · exact .inr (List.mem_cons_of_mem _ h)

/-- Nothing but an empty segment is added. -/
theorem mem_resolve {segments : List (List α)} {s : List α} (h : s ∈ resolve dot [] segments) :
    s ∈ segments ∨ s = [] := by
  have hc := (mem_foldl_push h).resolve_left List.not_mem_nil
  rw [closed] at hc
  split at hc
  · split at hc
    · simpa using hc
    · exact .inl hc
  · exact .inl hc

/-- Segments that are no dot segments are kept. -/
theorem resolve_append {plain : List (List α)} (h : ∀ s ∈ plain, ¬ IsDots dot s) (stack rest : List (List α)) :
    resolve dot stack (plain ++ rest) = resolve dot (stack ++ plain) rest := by
  induction plain generalizing stack with
  | nil => simp
  | cons s plain ih =>
    have hs := h s List.mem_cons_self
    rw [List.cons_append, resolve_cons (.inl hs), push, if_neg (fun he => hs (.inl he)),
      if_neg (fun he => hs (.inr he)), ih (fun s hs => h s (List.mem_cons_of_mem _ hs)), List.append_assoc,
      List.singleton_append]

/-- How far the dot segments go up past those before the first of them. -/
def ups (dot : α) (segments : List (List α)) : ℕ := (climb dot (closed dot (dotted dot segments))).1

/-- What is written after the last going up. -/
def after (dot : α) (segments : List (List α)) : List (List α) :=
  (climb dot (closed dot (dotted dot segments))).2

/-- The segments before the first dot segment that nothing has gone up past. -/
def kept (dot : α) (segments : List (List α)) : List (List α) :=
  (before dot segments).take ((before dot segments).length - ups dot segments)

/-- **What segments resolve to**: those that nothing has gone up past, and what is written then. -/
theorem resolve_eq (segments : List (List α)) :
    resolve dot [] segments = kept dot segments ++ after dot segments := by
  have hplain : ∀ s ∈ before dot segments, ¬ IsDots dot s := fun s hs => by
    simpa using List.mem_takeWhile_imp hs
  conv_lhs => rw [← @before_append_dotted _ dot _ segments]
  rw [resolve_append hplain, List.nil_append, resolve, foldl_push]
  rfl

/-- Without dot segments there is nothing to resolve. -/
theorem resolve_of_plain {segments : List (List α)} (h : ∀ s ∈ segments, ¬ IsDots dot s) :
    resolve dot [] segments = segments := by
  have hres := resolve_append h [] []
  simpa using hres

/-- Something is always written after a dot segment. -/
theorem after_ne_nil {segments : List (List α)} (h : ∃ s ∈ segments, IsDots dot s) : after dot segments ≠ [] := by
  have hdotted : dotted dot segments ≠ [] := by
    obtain ⟨s, hs, hd⟩ := h
    intro hnil
    have hkept : ¬ IsDots dot s := by simpa using List.dropWhile_eq_nil_iff.mp hnil s hs
    exact hkept hd
  obtain ⟨init, s, hs, hplain⟩ : ∃ init s, closed dot (dotted dot segments) = init ++ [s] ∧ ¬ IsDots dot s := by
    rw [closed, List.getLast?_eq_some_getLast hdotted]
    by_cases hlast : IsDots dot ((dotted dot segments).getLast hdotted)
    · exact ⟨dotted dot segments, [], if_pos hlast, by simp [IsDots]⟩
    · exact ⟨_, _, (if_neg hlast).trans (List.dropLast_append_getLast hdotted).symm, hlast⟩
  rw [after, hs, climb, List.foldl_append, List.foldl_cons, List.foldl_nil, climbStep,
    if_neg (fun he => hplain (.inl he)), if_neg (fun he => hplain (.inr he))]
  simp

end NestDdd.Theory.Path
