import NestDdd.Common.ErrorOrigin
import NestDdd.Theory.Path

/-!
# Where the project is installed

What `resolveErrorOrigin` (`src/common/utils/error-origin.util.ts`) makes of a frame of the project's own code,
for any root directory.

## The model

A path is its names, under the root, after POSIX slashes or after a drive letter and backslashes. A stack
has lines that are no frames or frames of dependencies, then the frame as V8 writes it, then other lines.
A frame is expected to be reported as `src|dist|test/<file>:<line>`, with the name of the function if it has one.

## What is proved

* `reported_iff` — **every frame of a file is reported as expected** if and only if the path has slashes, no
  name of an own directory stands before the file's own directory, none of an earlier marker anywhere before
  the file, and the text of the path has no `node_modules`, no line terminator and no parenthesis after white
  space.
* `root_in_src` — a root under a directory `src`, whose own part gets into the origin.
-/

namespace NestDdd.Common

open NestDdd.Shared NestDdd.Theory

/-! ### Paths -/

/-- `'/'`. -/
abbrev slash : UInt16 := 0x2F

/-- `'\'`. -/
abbrev backslash : UInt16 := 0x5C

/-- The name of a file or of a directory. -/
abbrev FileName : Type := { s : JsString // s ≠ [] ∧ slash ∉ s }

/-- A letter. -/
abbrev DriveLetter : Type := { u : UInt16 // 0x41 ≤ u ∧ u ≤ 0x5A ∨ 0x61 ≤ u ∧ u ≤ 0x7A }

/-- How paths are written. -/
inductive PathStyle where
  /-- After a slash. -/
  | posix
  /-- After a drive letter, with backslashes. -/
  | windows (drive : DriveLetter)

/-- The directories of own code. -/
inductive OwnDirectory where
  /-- `src`. -/
  | src
  /-- `dist`. -/
  | dist
  /-- `test`. -/
  | test
  deriving DecidableEq

namespace OwnDirectory

/-- Its name. -/
def name : OwnDirectory → JsString
  | src => "src"
  | dist => "dist"
  | test => "test"

/-- Those whose markers come before. -/
def earlier : OwnDirectory → List OwnDirectory
  | src => []
  | dist => [src]
  | test => [src, dist]

end OwnDirectory

/-- A file of an installed project. -/
structure Installed where
  /-- How its path is written. -/
  style : PathStyle
  /-- The root directory, from the top. -/
  root : List FileName
  /-- The directory under the root. -/
  own : OwnDirectory
  /-- The directories under that. -/
  directories : List FileName
  /-- The file's name. -/
  file : FileName

namespace Installed

/-- The names above the file. -/
def above (x : Installed) : List JsString := x.root.map (·.val) ++ x.own.name :: x.directories.map (·.val)

/-- The path. -/
def path (x : Installed) : JsString :=
  match x.style with
  | .posix => Path.slashed slash (x.above ++ [x.file.val])
  | .windows drive => drive.val :: colon :: Path.slashed backslash (x.above ++ [x.file.val])

/-- The path from the own directory on, with slashes. -/
def relative (x : Installed) : JsString :=
  x.own.name ++ Path.slashed slash (x.directories.map (·.val) ++ [x.file.val])

/-- `path:line:col`. -/
def location (x : Installed) (line column : JsString) : JsString :=
  x.path ++ colon :: (line ++ colon :: column)

/-- The frame as V8 writes it. -/
def frame (x : Installed) (fn : Option JsString) (line column : JsString) : JsString :=
  match fn with
  | none => JsString.ofString "    at " ++ x.location line column
  | some fn => JsString.ofString "    at " ++ (fn ++ JsString.ofString " (" ++ x.location line column ++ [closing])

/-- What is expected of it. -/
def expected (x : Installed) (fn : Option JsString) (line : JsString) : JsString :=
  match fn with
  | none => x.relative ++ colon :: line
  | some fn => x.relative ++ colon :: line ++ JsString.ofString " (" ++ fn ++ [closing]

end Installed

/-- A text that neither begins nor ends with white space. -/
structure Trimmed (s : JsString) : Prop where
  /-- Its beginning. -/
  head : ∀ u ∈ s.head?, JsString.isSpace u = false
  /-- Its end. -/
  last : ∀ u ∈ s.getLast?, JsString.isSpace u = false

/-- The name of a function. -/
structure IsFunctionName (fn : JsString) : Prop where
  /-- It is not empty. -/
  ne_nil : fn ≠ []
  /-- It has no white space around it. -/
  trimmed : Trimmed fn
  /-- It is on one line. -/
  oneLine : ∀ u ∈ fn, isTerminator u = false

/-- The digits of a number. -/
def IsNumber (digits : JsString) : Prop := digits ≠ [] ∧ ∀ u ∈ digits, isDigit u = true

/-- A line that is no frame, or the frame of a dependency. -/
def Passed (line : JsString) : Prop :=
  newline ∉ line ∧ ∀ parsed, parseFrame line = some parsed →
    JsString.ofString "node:" <+: parsed.location ∨ JsString.ofString "node_modules" <:+: parsed.location

/-- A stack with a frame of the file. -/
def Installed.stack (x : Installed) (fn : Option JsString) (line column : JsString) (before after : List JsString) :
    JsString :=
  [newline].intercalate (before ++ x.frame fn line column :: after)

/-- **Every frame of the file is reported as expected.** -/
def Reported (x : Installed) : Prop :=
  ∀ (fn : Option JsString) (line column : JsString) (before after : List JsString),
    (∀ f ∈ fn, IsFunctionName f) → IsNumber line → IsNumber column →
    (∀ l ∈ before, Passed l) → (∀ l ∈ after, newline ∉ l) →
    ∀ (heap : Heap ℕ) (error : ℕ), heap.Readable (heap.chainOf (.object error)) →
      (heap error).stack = some (.string (x.stack fn line column before after)) →
      ∃ causeOrigin, heap.resolveErrorOrigin (.object error) = .ok ⟨some (x.expected fn line), causeOrigin⟩

/-! ### One frame -/

section Frames

variable {fn line column : JsString}

theorem resolveErrorOrigin_of_ownFrame {heap : Heap ℕ} {error : ℕ}
    (h : heap.Readable (heap.chainOf (.object error))) {f : JsString} (hf : heap.ownFrameOf error = some f) :
    ∃ causeOrigin, heap.resolveErrorOrigin (.object error) = .ok ⟨some f, causeOrigin⟩ := by
  rw [Heap.resolveErrorOrigin_eq, ← Heap.chainOf, Heap.scan_iff.mpr h, Heap.chainOf, MAX_CAUSE_DEPTH, Heap.links,
    if_neg List.not_mem_nil, Heap.specified, Heap.frames_cons, hf]
  exact ⟨_, rfl⟩

/-- An error without a cause. -/
def alone (stack : JsString) : Heap ℕ := fun _ => ⟨true, some (.string stack), none⟩

theorem not_unreadable_alone (stack : JsString) (o : ℕ) : ¬ (alone stack).Unreadable o := by
  rintro ⟨-, v, hv, -, hstring⟩
  exact hstring stack (Option.some.inj hv).symm

theorem ownFrameOf_eq {heap : Heap ℕ} {error : ℕ} {stack : JsString} (h : (heap error).stack = some (.string stack)) :
    heap.ownFrameOf error = frameOfText stack := by
  rw [Heap.ownFrameOf, Heap.stackOf, h]
  split <;> simp_all

theorem resolveErrorOrigin_alone (stack : JsString) (error : ℕ) :
    (alone stack).resolveErrorOrigin (.object error) = .ok ⟨frameOfText stack, none⟩ := by
  have hreadable (chain : List ℕ) : (alone stack).Readable chain :=
    Heap.readable_of_forall fun o _ => not_unreadable_alone stack o
  have hframe : (alone stack).ownFrameOf error = frameOfText stack := ownFrameOf_eq rfl
  have hlinks : (alone stack).links MAX_CAUSE_DEPTH [] (.object error) = [error] := rfl
  rw [Heap.resolveErrorOrigin_eq, Heap.scan_iff.mpr (hreadable _), hlinks, Heap.specified, Heap.frames_cons, hframe]
  cases frameOfText stack <;> rfl

/-- What is passed over is no own frame. -/
theorem Passed.ownFrame_eq_none {l : JsString} (h : Passed l) : ownFrame l = none := by
  by_contra hne
  obtain ⟨f, hf⟩ := Option.ne_none_iff_exists'.mp hne
  obtain ⟨parsed, relative, hparsed, hown, -⟩ := ownFrame_eq_some_iff.mp hf
  rw [isOwnFrame] at hown
  rcases h.2 parsed hparsed with hnode | hmodules
  · rw [if_pos hnode] at hown
    exact Bool.false_ne_true hown
  · rw [if_pos (Matching.includes_iff.mpr hmodules), ite_self] at hown
    exact Bool.false_ne_true hown

/-- **The first own frame** of a stack is the file's, if it is one. -/
theorem frameOfText_stack {x : Installed} {name : Option JsString} {before after : List JsString} {f : JsString}
    (hline : newline ∉ x.frame name line column) (hbefore : ∀ l ∈ before, Passed l) (hafter : ∀ l ∈ after, newline ∉ l)
    (hf : ownFrame (x.frame name line column) = some f) :
    frameOfText (x.stack name line column before after) = some f := by
  have hlines : ∀ l ∈ before ++ x.frame name line column :: after, newline ∉ l := by
    intro l hl
    rcases List.mem_append.mp hl with hl | hl
    · exact (hbefore l hl).1
    · rcases List.mem_cons.mp hl with rfl | hl
      · exact hline
      · exact hafter l hl
  have hnone : before.findSome? ownFrame = none :=
    List.findSome?_eq_none_iff.mpr fun l hl => (hbefore l hl).ownFrame_eq_none
  rw [frameOfText, Installed.stack, List.splitOn_intercalate newline hlines (by simp), List.findSome?_append, hnone,
    Option.none_or, List.findSome?_cons_of_isSome (by rw [hf]; rfl), hf]

theorem frameOfText_alone {l : JsString} (h : newline ∉ l) : frameOfText l = ownFrame l := by
  rw [frameOfText, Path.splitOn_of_not_mem h, List.findSome?_cons]
  cases ownFrame l <;> rfl

end Frames

/-! ### Texts -/

section Texts

variable {s t a b : JsString} {u : UInt16}

theorem dropWhile_isSpace (h : ∀ u ∈ s.head?, JsString.isSpace u = false) : s.dropWhile JsString.isSpace = s := by
  cases s with
  | nil => rfl
  | cons u s => exact List.dropWhile_cons_of_neg (by rw [h u rfl]; exact Bool.false_ne_true)

/-- Trimming takes away the white space in front. -/
theorem trim_append (ha : ∀ u ∈ a, JsString.isSpace u = true) (hs : Trimmed s) : JsString.trim (a ++ s) = s := by
  have hlast : s.reverse.dropWhile JsString.isSpace = s.reverse :=
    dropWhile_isSpace fun u hu => hs.last u (List.head?_reverse ▸ hu)
  rw [JsString.trim, List.dropWhile_append_of_pos ha, dropWhile_isSpace hs.head, hlast, List.reverse_reverse]

theorem Trimmed.trim_eq (hs : Trimmed s) : s.trim = s := by
  have htrim := @trim_append s [] (by simp) hs
  exact htrim

/-- A text is trimmed if its two ends are. -/
theorem trimmed_of_ends {c d : UInt16} (hhead : s.head? = some c) (hlast : s.getLast? = some d)
    (hc : JsString.isSpace c = false) (hd : JsString.isSpace d = false) : Trimmed s := by
  refine ⟨fun u hu => ?_, fun u hu => ?_⟩
  · obtain rfl : c = u := Option.some.inj (hhead.symm.trans hu)
    exact hc
  · obtain rfl : d = u := Option.some.inj (hlast.symm.trans hu)
    exact hd

/-- **Trimming a text** that begins with no white space takes it away behind. -/
theorem trim_cons (hu : JsString.isSpace u = false) {c : UInt16} (hc : JsString.isSpace c = false) :
    JsString.trim (u :: (s ++ c :: t)) = u :: (s ++ ((t.reverse ++ [c]).dropWhile JsString.isSpace).reverse) := by
  have hhead : (u :: (s ++ c :: t)).dropWhile JsString.isSpace = u :: (s ++ c :: t) :=
    List.dropWhile_cons_of_neg (by rw [hu]; exact Bool.false_ne_true)
  have hreverse : (u :: (s ++ c :: t)).reverse = (t.reverse ++ [c]) ++ (s.reverse ++ [u]) := by simp
  have hdrop : ((t.reverse ++ [c]) ++ (s.reverse ++ [u])).dropWhile JsString.isSpace =
      (t.reverse ++ [c]).dropWhile JsString.isSpace ++ (s.reverse ++ [u]) := by
    rw [List.dropWhile_append, if_neg]
    have hne : (t.reverse ++ [c]).dropWhile JsString.isSpace ≠ [] := by
      intro hnil
      have hspace := List.dropWhile_eq_nil_iff.mp hnil c (by simp)
      rw [hc] at hspace
      exact Bool.false_ne_true hspace
    simpa using hne
  rw [JsString.trim, hhead, hreverse, hdrop]
  simp

/-- What `withFunction` finds in its text. -/
theorem parenthesized_eq_some_iff :
    parenthesized s = some t ↔
      ∃ w, s = w :: opening :: (t ++ [closing]) ∧ JsString.isSpace w = true ∧ ∀ u ∈ t, isTerminator u = false := by
  constructor
  · intro h
    rw [parenthesized.eq_def] at h
    split at h
    · next w u rest =>
      split at h
      · next hc =>
        obtain ⟨hw, rfl, hlast, hall⟩ := hc
        obtain rfl := Option.some.inj h
        obtain ⟨init, rfl⟩ := List.getLast?_eq_some_iff.mp hlast
        rw [List.dropLast_concat] at hall ⊢
        refine ⟨w, rfl, hw, fun u hu => ?_⟩
        simpa using List.all_eq_true.mp hall u hu
      · cases h
    · cases h
  · rintro ⟨w, rfl, hw, ht⟩
    rw [parenthesized, if_pos]
    · rw [List.dropLast_concat]
    · refine ⟨hw, rfl, List.getLast?_concat, ?_⟩
      rw [List.dropLast_concat, List.all_eq_true]
      intro u hu
      rw [ht u hu]
      rfl

/-- It finds nothing in a text that does not end with a parenthesis. -/
theorem withFunction_eq_none (h : s.getLast? ≠ some closing) : withFunction s = none := by
  refine Matching.greedy_eq_none_iff.mpr fun a b hab _ => ?_
  by_contra hne
  obtain ⟨t, ht⟩ := Option.ne_none_iff_exists'.mp hne
  obtain ⟨w, rfl, -, -⟩ := parenthesized_eq_some_iff.mp ht
  refine h ?_
  rw [hab, show a ++ w :: opening :: (t ++ [closing]) = (a ++ w :: opening :: t) ++ [closing] by simp]
  exact List.getLast?_concat

/-- What `stripColumn` finds behind a path. -/
theorem lineAndColumn_eq_some (h : lineAndColumn s = some t) :
    IsNumber t ∧ ∃ column, s = colon :: (t ++ colon :: column) ∧ IsNumber column := by
  rw [lineAndColumn.eq_def] at h
  split at h
  · cases h
  · next u rest =>
    split at h
    · next hc =>
      split at h
      · cases h
      · next v column hdrop =>
        split at h
        · next hv =>
          obtain rfl := Option.some.inj h
          obtain ⟨rfl, hne, hall⟩ := hv
          obtain ⟨rfl, htake⟩ := hc
          refine ⟨⟨htake, fun u hu => List.mem_takeWhile_imp hu⟩, column, ?_, hne, List.all_eq_true.mp hall⟩
          rw [← hdrop, List.takeWhile_append_dropWhile]
        · cases h
    · cases h

theorem isDigit_colon : isDigit colon = false := rfl

theorem lineAndColumn_of_numbers {line column : JsString} (hl : IsNumber line) (hc : IsNumber column) :
    lineAndColumn (colon :: (line ++ colon :: column)) = some line := by
  have htake : (line ++ colon :: column).takeWhile isDigit = line := by
    rw [List.takeWhile_append_of_pos hl.2, List.takeWhile_cons_of_neg (by rw [isDigit_colon]; exact Bool.false_ne_true),
      List.append_nil]
  have hdrop : (line ++ colon :: column).dropWhile isDigit = colon :: column := by
    rw [List.dropWhile_append_of_pos hl.2, List.dropWhile_cons_of_neg (by rw [isDigit_colon]; exact Bool.false_ne_true)]
  rw [lineAndColumn, htake, hdrop, if_pos ⟨rfl, hl.1⟩]
  exact if_pos ⟨rfl, hc.1, List.all_eq_true.mpr hc.2⟩

theorem colon_not_mem {digits : JsString} (h : IsNumber digits) : colon ∉ digits := by
  intro hm
  have hdigit := h.2 colon hm
  rw [isDigit_colon] at hdigit
  exact Bool.false_ne_true hdigit

/-- **The column is stripped** from a path on one line. -/
theorem stripColumn_eq {line column : JsString} (hs : ∀ u ∈ s, isTerminator u = false) (hl : IsNumber line)
    (hc : IsNumber column) : stripColumn (s ++ colon :: (line ++ colon :: column)) = s ++ colon :: line := by
  have hgreedy : Matching.greedy (!isTerminator ·) lineAndColumn (s ++ colon :: (line ++ colon :: column)) =
      some (s, line) := by
    refine Matching.greedy_eq_some (fun u hu => by rw [hs u hu]; rfl) (lineAndColumn_of_numbers hl hc)
      fun a b ha hab => ?_
    by_contra hne
    -- what is behind a longer group has one colon at most
    obtain ⟨t, ht⟩ := Option.ne_none_iff_exists'.mp hne
    obtain ⟨-, column', rfl, -⟩ := lineAndColumn_eq_some ht
    obtain ⟨u, a, rfl⟩ := List.exists_cons_of_ne_nil ha
    have hrest : line ++ colon :: column = a ++ colon :: (t ++ colon :: column') := (List.cons.inj hab).2
    have hcount := congrArg (List.count colon) hrest
    have hline : line.count colon = 0 := List.count_eq_zero.mpr (colon_not_mem hl)
    have hcolumn : column.count colon = 0 := List.count_eq_zero.mpr (colon_not_mem hc)
    simp only [List.count_append, List.count_cons_self, hline, hcolumn] at hcount
    omega
  rw [stripColumn, hgreedy]

/-- A text that does not end with a digit is left as it is. -/
theorem stripColumn_of_closing (h : s.getLast? = some closing) : stripColumn s = s := by
  have hgreedy : Matching.greedy (!isTerminator ·) lineAndColumn s = none := by
    refine Matching.greedy_eq_none_iff.mpr fun a b hab _ => ?_
    by_contra hne
    obtain ⟨t, ht⟩ := Option.ne_none_iff_exists'.mp hne
    obtain ⟨-, column, rfl, hcolumn⟩ := lineAndColumn_eq_some ht
    obtain ⟨init, d, rfl⟩ : ∃ init d, column = init ++ [d] :=
      ⟨_, _, (List.dropLast_append_getLast hcolumn.1).symm⟩
    have hlast : s.getLast? = some d := by
      rw [hab, show a ++ colon :: (t ++ colon :: (init ++ [d])) = (a ++ colon :: (t ++ colon :: init)) ++ [d] by simp]
      exact List.getLast?_concat
    obtain rfl : d = closing := Option.some.inj (hlast.symm.trans h)
    have hdigit := hcolumn.2 closing (by simp)
    exact absurd hdigit (by decide)
  rw [stripColumn, hgreedy]

end Texts

/-! ### Reading a frame -/

section Reading

variable {body f loc group inner : JsString}

theorem trim_line (hbody : Trimmed body) (hne : body ≠ []) :
    JsString.trim (JsString.ofString "    at " ++ body) = JsString.ofString "at " ++ body := by
  have hspaces : JsString.ofString "    at " = JsString.ofString "    " ++ JsString.ofString "at " := rfl
  rw [hspaces, List.append_assoc]
  refine trim_append (List.all_eq_true.mp rfl) ⟨fun u hu => ?_, fun u hu => ?_⟩
  · obtain rfl : 0x61 = u := Option.some.inj hu
    rfl
  · rw [List.getLast?_append_of_ne_nil _ hne] at hu
    exact hbody.last u hu

theorem trim_rest (hbody : Trimmed body) : JsString.trim ((JsString.ofString "at " ++ body).drop 3) = body :=
  hbody.trim_eq

theorem parseFrame_of_none (hbody : Trimmed body) (hne : body ≠ []) (h : withFunction body = none) :
    parseFrame (JsString.ofString "    at " ++ body) = some ⟨none, body⟩ := by
  simp only [parseFrame, trim_line hbody hne, List.prefix_append, not_true_eq_false, if_false, trim_rest hbody, h]

theorem parseFrame_of_some (hbody : Trimmed body) (hne : body ≠ []) (h : withFunction body = some (group, inner))
    (hgroup : group.trim ≠ []) :
    parseFrame (JsString.ofString "    at " ++ body) = some ⟨some group.trim, inner.trim⟩ := by
  simp only [parseFrame, trim_line hbody hne, List.prefix_append, not_true_eq_false, if_false, trim_rest hbody, h,
    hgroup]

/-- A parenthesis after white space. -/
def SpacedParenthesis (s : JsString) : Prop := ∃ w, JsString.isSpace w = true ∧ [w, opening] <:+: s

/-- **A name and a location** are told apart, if the location has no parenthesis after white space. -/
theorem withFunction_named (hf : ∀ u ∈ f, isTerminator u = false) (hloc : ∀ u ∈ loc, isTerminator u = false)
    (hparen : ¬ SpacedParenthesis loc) :
    withFunction (f ++ JsString.ofString " (" ++ loc ++ [closing]) = some (f, loc) := by
  have hbody : f ++ JsString.ofString " (" ++ loc ++ [closing] = f ++ 0x20 :: opening :: (loc ++ [closing]) := by
    rw [show JsString.ofString " (" = [0x20, opening] from rfl]
    simp
  rw [hbody]
  refine Matching.greedy_eq_some (fun u hu => by rw [hf u hu]; rfl)
    (parenthesized_eq_some_iff.mpr ⟨0x20, rfl, rfl, hloc⟩) fun a b ha hab => ?_
  by_contra hne
  -- a longer group ends at such a parenthesis
  obtain ⟨t, ht⟩ := Option.ne_none_iff_exists'.mp hne
  obtain ⟨w, rfl, hw, -⟩ := parenthesized_eq_some_iff.mp ht
  obtain ⟨u, a, rfl⟩ := List.exists_cons_of_ne_nil ha
  have hrest : opening :: (loc ++ [closing]) = a ++ w :: opening :: (t ++ [closing]) := (List.cons.inj hab).2
  cases a with
  | nil =>
    obtain ⟨rfl, -⟩ := List.cons.inj hrest
    exact absurd hw (by decide)
  | cons v a =>
    have hloc : loc ++ [closing] = (a ++ w :: opening :: t) ++ [closing] := by
      simpa using (List.cons.inj hrest).2
    refine hparen ⟨w, hw, a, t, ?_⟩
    rw [(List.append_inj' hloc rfl).1]
    simp

/-- What a frame's location has is in its line. -/
theorem mem_of_parseFrame {l : JsString} {parsed : ParsedFrame} (h : parseFrame l = some parsed) {u : UInt16}
    (hu : u ∈ parsed.location) : u ∈ l := by
  have htrim {s : JsString} (hs : u ∈ s.trim) : u ∈ s := by
    rw [JsString.trim, List.mem_reverse] at hs
    exact (List.dropWhile_sublist _).subset (List.mem_reverse.mp ((List.dropWhile_sublist _).subset hs))
  have hrest {s : JsString} (hs : u ∈ s) (hin : s = JsString.trim (l.trim.drop 3)) : u ∈ l :=
    htrim (List.mem_of_mem_drop (htrim (hin ▸ hs)))
  rw [parseFrame] at h
  split at h
  · cases h
  · simp only at h
    split at h
    · next group inner hmatch =>
      have hinner (hm : u ∈ inner.trim) : u ∈ l := by
        obtain ⟨rest, hsplit, -, hparen⟩ := Matching.of_greedy_eq_some hmatch
        obtain ⟨w, rfl, -, -⟩ := parenthesized_eq_some_iff.mp hparen
        refine hrest (s := group ++ w :: opening :: (inner ++ [closing])) ?_ hsplit.symm
        have hm := htrim hm
        simp [hm]
      split at h
      · obtain rfl := Option.some.inj h
        exact hinner hu
      · obtain rfl := Option.some.inj h
        exact hinner hu
    · obtain rfl := Option.some.inj h
      exact hrest hu rfl

end Reading

/-! ### Own directories -/

/-- Its marker. -/
def OwnDirectory.marker (d : OwnDirectory) : JsString := slash :: d.name ++ [slash]

theorem OwnDirectory.slash_not_mem (d : OwnDirectory) : slash ∉ d.name := by
  cases d <;> decide

theorem OwnDirectory.name_injective {d e : OwnDirectory} (h : d.name = e.name) : d = e := by
  revert h
  cases d <;> cases e <;> decide

/-- What `relativeToProject` makes of a marker. -/
def fromMarker (location marker : JsString) : Option JsString := (Matching.fromFirst marker location).map List.tail

theorem relativeToProject_eq (location : JsString) :
    relativeToProject location = OWN_PATH_MARKERS.findSome? (fromMarker location) := by
  have hmarker (marker : JsString) :
      (Matching.indexOf marker location).map (fun index => location.drop (index + 1)) = fromMarker location marker := by
    rw [fromMarker, Matching.fromFirst, Option.map_map]
    congr 1
    funext index
    rw [Function.comp, List.tail_drop]
  simp only [relativeToProject, hmarker]

/-- The markers before a directory's own, and the others. -/
theorem own_path_markers_eq (d : OwnDirectory) :
    ∃ later, OWN_PATH_MARKERS = d.earlier.map OwnDirectory.marker ++ d.marker :: later := by
  cases d with
  | src => exact ⟨[OwnDirectory.dist.marker, OwnDirectory.test.marker], rfl⟩
  | dist => exact ⟨[OwnDirectory.test.marker], rfl⟩
  | test => exact ⟨[], rfl⟩

theorem OwnDirectory.not_mem_earlier (d : OwnDirectory) : d ∉ d.earlier := by
  cases d <;> simp [OwnDirectory.earlier]

namespace Installed

variable {x : Installed} {line column : JsString}

theorem slash_not_mem_above {s : JsString} (hs : s ∈ x.above) : slash ∉ s := by
  rw [above, List.mem_append, List.mem_cons] at hs
  rcases hs with hs | rfl | hs
  · obtain ⟨n, -, rfl⟩ := List.mem_map.mp hs
    exact n.2.2
  · exact x.own.slash_not_mem
  · obtain ⟨n, -, rfl⟩ := List.mem_map.mp hs
    exact n.2.2

/-- No name of the path has a slash. -/
theorem slash_not_mem_names {s : JsString} (hs : s ∈ x.above ++ [x.file.val]) : slash ∉ s := by
  rcases List.mem_append.mp hs with hs | hs
  · exact slash_not_mem_above hs
  · rw [List.mem_singleton.mp hs]
    exact x.file.2.2

theorem own_mem_above (x : Installed) : x.own.name ∈ x.above := by simp [above]

theorem location_posix (hstyle : x.style = .posix) :
    x.location line column =
      Path.slashed slash (x.above ++ [x.file.val ++ colon :: (line ++ colon :: column)]) := by
  simp [location, path, hstyle]

theorem slash_not_mem_last (hl : IsNumber line) (hc : IsNumber column) :
    slash ∉ x.file.val ++ colon :: (line ++ colon :: column) := by
  have hdigits {digits : JsString} (h : IsNumber digits) : slash ∉ digits := fun hm => by
    have hdigit := h.2 slash hm
    exact absurd hdigit (by decide)
  simp [x.file.2.2, hdigits hl, hdigits hc, show slash ≠ colon by decide]

/-- **What a marker leaves of a location**: what comes after the first name above the file that is its own. -/
theorem fromMarker_location (hstyle : x.style = .posix) (hl : IsNumber line) (hc : IsNumber column) (d : OwnDirectory) :
    (d.name ∉ x.above ∧ fromMarker (x.location line column) d.marker = none) ∨
      ∃ a b, x.above = a ++ d.name :: b ∧ d.name ∉ a ∧
        fromMarker (x.location line column) d.marker =
          some (d.name ++ Path.slashed slash (b ++ [x.file.val]) ++ colon :: (line ++ colon :: column)) := by
  rw [fromMarker, location_posix hstyle, OwnDirectory.marker]
  by_cases hd : d.name ∈ x.above
  · obtain ⟨a, b, hab, ha⟩ := List.eq_append_cons_of_mem hd
    refine .inr ⟨a, b, hab, ha, ?_⟩
    have hslash : ∀ s ∈ a, slash ∉ s := fun s hs => slash_not_mem_above (x := x) (by rw [hab]; simp [hs])
    have hsegments : x.above ++ [x.file.val ++ colon :: (line ++ colon :: column)] =
        a ++ d.name :: (b ++ [x.file.val ++ colon :: (line ++ colon :: column)]) := by
      rw [hab, List.append_assoc, List.cons_append]
    rw [hsegments, Path.fromFirst_slashed d.slash_not_mem hslash ha (by simp)]
    simp
  · refine .inl ⟨hd, ?_⟩
    rw [Path.fromFirst_slashed_eq_none d.slash_not_mem (fun s hs => slash_not_mem_above hs)
      (slash_not_mem_last hl hc) hd]
    rfl

/-- What is left of the location is as expected only if it is what is under the root. -/
theorem slashed_eq_relative_iff {d : OwnDirectory} {a b : List JsString} (hab : x.above = a ++ d.name :: b) :
    d.name ++ Path.slashed slash (b ++ [x.file.val]) = x.relative ↔ d = x.own ∧ a = x.root.map (·.val) := by
  have hb : ∀ s ∈ d.name :: (b ++ [x.file.val]), slash ∉ s := by
    intro s hs
    apply slash_not_mem_names (x := x)
    rw [hab, List.append_assoc]
    exact List.mem_append_right a hs
  have hx : ∀ s ∈ x.own.name :: (x.directories.map (·.val) ++ [x.file.val]), slash ∉ s := by
    intro s hs
    apply slash_not_mem_names (x := x)
    rw [above, List.append_assoc]
    exact List.mem_append_right _ hs
  constructor
  · intro h
    have hsplit := congrArg (List.splitOn slash) h
    rw [relative, Path.splitOn_slashed hb, Path.splitOn_slashed hx] at hsplit
    obtain ⟨hname, hrest⟩ := List.cons.inj hsplit
    obtain rfl := OwnDirectory.name_injective hname
    have hdirs : b = x.directories.map (·.val) := List.append_cancel_right hrest
    rw [above, hdirs] at hab
    exact ⟨rfl, (List.append_cancel_right hab).symm⟩
  · rintro ⟨rfl, rfl⟩
    have hdirs : x.directories.map (·.val) = b := (List.cons.inj (List.append_cancel_left hab)).2
    rw [relative, hdirs]

/-- The first occurrence of a name is one. -/
theorem eq_of_append_cons {d : JsString} {a a' b b' : List JsString} (h : a ++ d :: b = a' ++ d :: b') (ha : d ∉ a)
    (ha' : d ∉ a') : a = a' := by
  rcases List.append_eq_append_iff.mp h with ⟨c, rfl, hc⟩ | ⟨c, rfl, hc⟩
  · cases c with
    | nil => simp
    | cons e c =>
      obtain ⟨rfl, -⟩ := List.cons.inj hc
      exact absurd (by simp) ha'
  · cases c with
    | nil => simp
    | cons e c =>
      obtain ⟨rfl, -⟩ := List.cons.inj hc
      exact absurd (by simp) ha

/-- What a marker leaves, without the column. -/
theorem stripColumn_fromMarker (hstyle : x.style = .posix) (hpath : ∀ u ∈ x.path, isTerminator u = false)
    (hl : IsNumber line) (hc : IsNumber column) {d : OwnDirectory} {a b : List JsString}
    (hab : x.above = a ++ d.name :: b) :
    stripColumn (d.name ++ Path.slashed slash (b ++ [x.file.val]) ++ colon :: (line ++ colon :: column)) =
      d.name ++ Path.slashed slash (b ++ [x.file.val]) ++ colon :: line := by
  refine stripColumn_eq (fun u hu => hpath u ?_) hl hc
  have hsplit : x.path =
      Path.slashed slash a ++ slash :: (d.name ++ Path.slashed slash (b ++ [x.file.val])) := by
    simp [path, hstyle, hab]
  rw [hsplit]
  exact List.mem_append_right _ (List.mem_cons_of_mem _ hu)

/-- **The location is cut where it should be** if and only if no marker comes before its own. -/
theorem relativeToProject_iff (hstyle : x.style = .posix) (hpath : ∀ u ∈ x.path, isTerminator u = false)
    (hl : IsNumber line) (hc : IsNumber column) :
    (∃ relative, relativeToProject (x.location line column) = some relative ∧ relative ≠ [] ∧
        stripColumn relative = x.relative ++ colon :: line) ↔
      (∀ d ∈ x.own.earlier, d.name ∉ x.above) ∧ x.own.name ∉ x.root.map (·.val) := by
  obtain ⟨later, hmarkers⟩ := own_path_markers_eq x.own
  have hread := fromMarker_location hstyle hl hc
  rw [relativeToProject_eq, hmarkers, List.findSome?_append, List.findSome?_map]
  constructor
  · rintro ⟨relative, hrelative, -, hstrip⟩
    cases hearlier : x.own.earlier.findSome? (fromMarker (x.location line column) ∘ OwnDirectory.marker) with
    | some r =>
      rw [hearlier, Option.some_or] at hrelative
      obtain rfl := Option.some.inj hrelative
      obtain ⟨d, hd, hmarker⟩ := List.exists_of_findSome?_eq_some hearlier
      rcases hread d with ⟨-, hnone⟩ | ⟨a, b, hab, -, hsome⟩
      · rw [Function.comp, hnone] at hmarker
        cases hmarker
      · rw [Function.comp, hsome] at hmarker
        obtain rfl := Option.some.inj hmarker
        rw [stripColumn_fromMarker hstyle hpath hl hc hab] at hstrip
        obtain ⟨rfl, -⟩ := (slashed_eq_relative_iff hab).mp (List.append_cancel_right hstrip)
        exact absurd hd x.own.not_mem_earlier
    | none =>
      rw [hearlier, Option.none_or] at hrelative
      refine ⟨fun d hd => ?_, ?_⟩
      · have hnone : fromMarker (x.location line column) d.marker = none :=
          List.findSome?_eq_none_iff.mp hearlier d hd
        rcases hread d with ⟨habsent, -⟩ | ⟨a, b, -, -, hsome⟩
        · exact habsent
        · rw [hsome] at hnone
          cases hnone
      · rcases hread x.own with ⟨habsent, -⟩ | ⟨a, b, hab, ha, hsome⟩
        · exact absurd x.own_mem_above habsent
        · rw [List.findSome?_cons_of_isSome (by rw [hsome]; rfl), hsome] at hrelative
          obtain rfl := Option.some.inj hrelative
          rw [stripColumn_fromMarker hstyle hpath hl hc hab] at hstrip
          obtain ⟨-, rfl⟩ := (slashed_eq_relative_iff hab).mp (List.append_cancel_right hstrip)
          exact ha
  · rintro ⟨habsent, hroot⟩
    have hearlier : x.own.earlier.findSome? (fromMarker (x.location line column) ∘ OwnDirectory.marker) = none := by
      refine List.findSome?_eq_none_iff.mpr fun d hd => ?_
      rcases hread d with ⟨-, hnone⟩ | ⟨a, b, hab, -, -⟩
      · exact hnone
      · exact absurd (by rw [hab]; simp) (habsent d hd)
    rcases hread x.own with ⟨hnot, -⟩ | ⟨a, b, hab, ha, hsome⟩
    · exact absurd x.own_mem_above hnot
    · have hroots : a = x.root.map (·.val) := eq_of_append_cons (hab.symm.trans rfl) ha hroot
      have hfirst : (fromMarker (x.location line column) x.own.marker).isSome = true := by
        rw [hsome]
        rfl
      rw [hearlier, Option.none_or, List.findSome?_cons_of_isSome hfirst, hsome]
      refine ⟨_, rfl, ?_, ?_⟩
      · simp
      · rw [stripColumn_fromMarker hstyle hpath hl hc hab, (slashed_eq_relative_iff hab).mpr ⟨rfl, hroots⟩]

/-- A piece without a digit and without a colon is in a location where it is in the path. -/
theorem infix_location_iff {m : JsString} {u : UInt16} (hu : u ∈ m) (hdigit : isDigit u = false) (hcolon : colon ∉ m)
    (hl : IsNumber line) (hc : IsNumber column) : m <:+: x.location line column ↔ m <:+: x.path := by
  have hdigits {digits : JsString} (h : IsNumber digits) : ¬ m <:+: digits := fun hm => by
    rw [h.2 u (hm.subset hu)] at hdigit
    exact Bool.false_ne_true hdigit.symm
  rw [location, Matching.infix_append_cons_iff hcolon, Matching.infix_append_cons_iff hcolon,
    or_iff_left (not_or.mpr ⟨hdigits hl, hdigits hc⟩)]

theorem isOwnFrame_location (hstyle : x.style = .posix) (hl : IsNumber line) (hc : IsNumber column) :
    isOwnFrame (x.location line column) = true ↔ ¬ JsString.ofString "node_modules" <:+: x.path := by
  have hnode : ¬ JsString.ofString "node:" <+: x.location line column := by
    rw [location_posix hstyle]
    obtain ⟨s, rest, hs⟩ := List.exists_cons_of_ne_nil (l := x.above) (List.ne_nil_of_mem x.own_mem_above)
    rw [hs, List.cons_append, Path.slashed_cons]
    intro h
    have hfirst := (List.cons_prefix_cons.mp h).1
    exact absurd hfirst (by decide)
  have hmodules : JsString.ofString "node_modules" <:+: x.location line column ↔
      JsString.ofString "node_modules" <:+: x.path :=
    infix_location_iff (u := 0x6E) (by decide) rfl (by decide) hl hc
  have hmarker : OWN_PATH_MARKERS.any (fun marker => Matching.includes marker (x.location line column)) = true := by
    obtain ⟨later, hmarkers⟩ := own_path_markers_eq x.own
    rw [List.any_eq_true]
    refine ⟨x.own.marker, by rw [hmarkers]; simp, Matching.includes_iff.mpr ?_⟩
    by_contra hnot
    rcases fromMarker_location hstyle hl hc x.own with ⟨habsent, -⟩ | ⟨a, b, -, -, hsome⟩
    · exact habsent x.own_mem_above
    · rw [fromMarker, Matching.fromFirst_eq_none_iff.mpr hnot] at hsome
      cases hsome
  rw [isOwnFrame, if_neg hnode, ← hmodules, ← Matching.includes_iff, hmarker]
  split <;> simp_all

/-! ### The frame of the file -/

/-- **What has to be the case** for the frames of a file to be reported as expected. -/
structure Findable (x : Installed) : Prop where
  /-- The path has slashes. -/
  posix : x.style = .posix
  /-- The own directory's name does not stand above it. -/
  root : x.own.name ∉ x.root.map (·.val)
  /-- No directory above the file is called as an earlier marker. -/
  earlier : ∀ d ∈ x.own.earlier, d.name ∉ x.above
  /-- The path has no `node_modules`. -/
  modules : ¬ JsString.ofString "node_modules" <:+: x.path
  /-- It is on one line. -/
  oneLine : ∀ u ∈ x.path, isTerminator u = false
  /-- It has no parenthesis after white space. -/
  noParenthesis : ¬ SpacedParenthesis x.path

theorem isSpace_of_isDigit {u : UInt16} (h : isDigit u = true) : JsString.isSpace u = false := by
  simp only [isDigit, Bool.and_eq_true, decide_eq_true_eq, UInt16.le_iff_toNat_le] at h
  simp only [JsString.isSpace, Bool.or_eq_false_iff, Bool.and_eq_false_iff, decide_eq_false_iff_not,
    UInt16.le_iff_toNat_le, beq_eq_false_iff_ne, ne_eq, ← UInt16.toNat_inj]
  simp at h ⊢
  omega

theorem isTerminator_of_isDigit {u : UInt16} (h : isDigit u = true) : isTerminator u = false := by
  simp only [isDigit, Bool.and_eq_true, decide_eq_true_eq, UInt16.le_iff_toNat_le] at h
  simp only [isTerminator, Bool.or_eq_false_iff, beq_eq_false_iff_ne, ne_eq, ← UInt16.toNat_inj]
  simp at h ⊢
  omega

theorem location_getLast? (hc : IsNumber column) : (x.location line column).getLast? = column.getLast? := by
  rw [location, show x.path ++ colon :: (line ++ colon :: column) = (x.path ++ colon :: line ++ [colon]) ++ column by
    simp, List.getLast?_append_of_ne_nil _ hc.1]

theorem getLast?_digit {digits : JsString} (h : IsNumber digits) : ∃ d, digits.getLast? = some d ∧ isDigit d = true :=
  ⟨_, List.getLast?_eq_some_getLast h.1, h.2 _ (List.getLast_mem h.1)⟩

theorem location_head? (hstyle : x.style = .posix) : (x.location line column).head? = some slash := by
  rw [location_posix hstyle]
  obtain ⟨s, rest, hs⟩ := List.exists_cons_of_ne_nil (l := x.above) (List.ne_nil_of_mem x.own_mem_above)
  rw [hs]
  rfl

theorem trimmed_location (hstyle : x.style = .posix) (hc : IsNumber column) : Trimmed (x.location line column) := by
  obtain ⟨d, hlast, hd⟩ := getLast?_digit hc
  exact trimmed_of_ends (location_head? hstyle) ((location_getLast? hc).trans hlast) rfl (isSpace_of_isDigit hd)

theorem location_ne_nil (x : Installed) (line column : JsString) : x.location line column ≠ [] := by
  simp [location]

/-- A frame without a name is its location. -/
theorem parseFrame_unnamed (hstyle : x.style = .posix) (hc : IsNumber column) :
    parseFrame (x.frame none line column) = some ⟨none, x.location line column⟩ := by
  have hnone : withFunction (x.location line column) = none := by
    refine withFunction_eq_none ?_
    obtain ⟨d, hlast, hd⟩ := getLast?_digit hc
    rw [location_getLast? hc, hlast]
    rintro h
    obtain rfl := Option.some.inj h
    exact absurd hd (by decide)
  exact parseFrame_of_none (trimmed_location hstyle hc) (location_ne_nil x line column) hnone

theorem location_oneLine (hpath : ∀ u ∈ x.path, isTerminator u = false) (hl : IsNumber line) (hc : IsNumber column) :
    ∀ u ∈ x.location line column, isTerminator u = false := by
  intro u hu
  rw [location, List.mem_append, List.mem_cons, List.mem_append, List.mem_cons] at hu
  rcases hu with hu | rfl | hu | rfl | hu
  · exact hpath u hu
  · rfl
  · exact isTerminator_of_isDigit (hl.2 u hu)
  · rfl
  · exact isTerminator_of_isDigit (hc.2 u hu)

theorem location_spacedParenthesis (hl : IsNumber line) (hc : IsNumber column) :
    SpacedParenthesis (x.location line column) ↔ SpacedParenthesis x.path := by
  refine exists_congr fun w => and_congr_right fun hw => ?_
  refine infix_location_iff (u := opening) (by simp) rfl ?_ hl hc
  simp only [List.mem_cons, List.not_mem_nil, or_false, not_or]
  refine ⟨?_, by decide⟩
  rintro rfl
  exact absurd hw (by decide)

/-- A frame with a name is the name and the location. -/
theorem parseFrame_named (hx : Findable x) {f : JsString} (hf : IsFunctionName f) (hl : IsNumber line)
    (hc : IsNumber column) : parseFrame (x.frame (some f) line column) = some ⟨some f, x.location line column⟩ := by
  have hmatch := withFunction_named hf.oneLine (location_oneLine hx.oneLine hl hc)
    (fun h => hx.noParenthesis ((location_spacedParenthesis hl hc).mp h))
  have hne : f ++ JsString.ofString " (" ++ x.location line column ++ [closing] ≠ [] := by simp
  have htrimmed : Trimmed (f ++ JsString.ofString " (" ++ x.location line column ++ [closing]) := by
    refine ⟨fun u hu => ?_, fun u hu => ?_⟩
    · rw [List.append_assoc, List.append_assoc, List.head?_append_of_ne_nil _ hf.ne_nil] at hu
      exact hf.trimmed.head u hu
    · rw [List.getLast?_concat] at hu
      obtain rfl := Option.some.inj hu
      rfl
  have hname : f.trim = f := hf.trimmed.trim_eq
  have hparse := parseFrame_of_some htrimmed hne hmatch (by rw [hname]; exact hf.ne_nil)
  rwa [hname, (trimmed_location hx.posix hc).trim_eq] at hparse

theorem expected_eq (x : Installed) (fn : Option JsString) (line : JsString) :
    x.expected fn line = withName (x.relative ++ colon :: line) fn := by
  cases fn <;> rfl

/-- **The frame of a file that can be found** is its own frame. -/
theorem Findable.ownFrame_frame (hx : Findable x) {fn : Option JsString} (hfn : ∀ f ∈ fn, IsFunctionName f)
    (hl : IsNumber line) (hc : IsNumber column) :
    ownFrame (x.frame fn line column) = some (x.expected fn line) := by
  have hparse : parseFrame (x.frame fn line column) = some ⟨fn, x.location line column⟩ := by
    cases fn with
    | none => exact parseFrame_unnamed hx.posix hc
    | some f => exact parseFrame_named hx (hfn f rfl) hl hc
  obtain ⟨relative, hrelative, hne, hstrip⟩ :=
    (relativeToProject_iff hx.posix hx.oneLine hl hc).mpr ⟨hx.earlier, hx.root⟩
  refine ownFrame_eq_some_iff.mpr ⟨_, relative, hparse, (isOwnFrame_location hx.posix hl hc).mpr hx.modules,
    hrelative, hne, ?_⟩
  rw [hstrip, expected_eq]

theorem newline_not_mem_of_oneLine {s : JsString} (h : ∀ u ∈ s, isTerminator u = false) : newline ∉ s := fun hm =>
  absurd (h newline hm) (by decide)

theorem newline_not_mem_at : newline ∉ JsString.ofString "    at " := by decide

theorem newline_not_mem_paren : newline ∉ JsString.ofString " (" := by decide

/-- **A frame is one line** if its path and its name are. -/
theorem newline_not_mem_frame (hpath : newline ∉ x.path) {fn : Option JsString} (hfn : ∀ f ∈ fn, newline ∉ f)
    (hl : IsNumber line) (hc : IsNumber column) : newline ∉ x.frame fn line column := by
  have hnumber {s : JsString} (hs : IsNumber s) : newline ∉ s := fun hm => absurd (hs.2 newline hm) (by decide)
  have hcolon : newline ≠ colon := by decide
  have hlocation : newline ∉ x.location line column := by
    simp [location, hpath, hcolon, hnumber hl, hnumber hc]
  cases fn with
  | none =>
    rw [frame, List.mem_append, not_or]
    exact ⟨newline_not_mem_at, hlocation⟩
  | some f =>
    have hclosing : newline ∉ [closing] := by decide
    simp only [frame, List.mem_append, not_or]
    exact ⟨newline_not_mem_at, ⟨⟨hfn f rfl, newline_not_mem_paren⟩, hlocation⟩, hclosing⟩

theorem Findable.newline_not_mem (hx : Findable x) {fn : Option JsString} (hfn : ∀ f ∈ fn, IsFunctionName f)
    (hl : IsNumber line) (hc : IsNumber column) : newline ∉ x.frame fn line column :=
  newline_not_mem_frame (newline_not_mem_of_oneLine hx.oneLine)
    (fun f hf => newline_not_mem_of_oneLine (hfn f hf).oneLine) hl hc

/-! ### What a file needs to be found -/

/-- A frame as the only line of a stack. -/
theorem frameOfText_frame (h : Reported x) (fn : Option JsString) (line column : JsString)
    (hfn : ∀ f ∈ fn, IsFunctionName f) (hl : IsNumber line) (hc : IsNumber column) :
    frameOfText (x.frame fn line column) = some (x.expected fn line) := by
  obtain ⟨causeOrigin, hresolve⟩ := h fn line column [] [] hfn hl hc (by simp) (by simp)
    (alone (x.stack fn line column [] [])) 0
    (Heap.readable_of_forall fun o _ => not_unreadable_alone _ o) rfl
  rw [resolveErrorOrigin_alone] at hresolve
  have horigin := congrArg ErrorOrigin.origin (Except.ok.inj hresolve)
  have hstack : x.stack fn line column [] [] = x.frame fn line column := by simp [stack]
  rw [hstack] at horigin
  exact horigin

theorem isFunctionName_single {u : UInt16} (hspace : JsString.isSpace u = false) (hline : isTerminator u = false) :
    IsFunctionName [u] where
  ne_nil := List.cons_ne_nil u []
  trimmed := trimmed_of_ends rfl rfl hspace hspace
  oneLine v hv := by
    rw [List.mem_singleton.mp hv]
    exact hline

theorem isNumber_single {u : UInt16} (h : isDigit u = true) : IsNumber [u] := by
  refine ⟨List.cons_ne_nil u [], fun v hv => ?_⟩
  rw [List.mem_singleton.mp hv]
  exact h

theorem frameOfText_append_newline {a b : JsString} (ha : newline ∉ a) :
    frameOfText (a ++ newline :: b) = (ownFrame a).or (frameOfText b) := by
  rw [frameOfText, List.splitOn_append_cons_self, Path.splitOn_of_not_mem ha, List.findSome?_append,
    List.findSome?_cons, frameOfText]
  cases ownFrame a <;> rfl

/-- **A path on two lines** is not found: what the first line gives does not know the line number, and what
the others give does not know the name. -/
theorem newline_not_mem_path (h : Reported x) : newline ∉ x.path := by
  intro hm
  obtain ⟨a, b, hab, ha⟩ := List.eq_append_cons_of_mem hm
  have hread (f l : UInt16) (hspace : JsString.isSpace f = false) (hline : isTerminator f = false)
      (hl : isDigit l = true) :
      (ownFrame (JsString.ofString "    at " ++ ([f] ++ JsString.ofString " (" ++ a))).or
        (frameOfText (b ++ colon :: ([l] ++ colon :: [l]) ++ [closing])) = some (x.expected (some [f]) [l]) := by
    have hframe := frameOfText_frame h (some [f]) [l] [l]
      (fun g hg => Option.some.inj hg ▸ isFunctionName_single hspace hline) (isNumber_single hl) (isNumber_single hl)
    have hsplit : x.frame (some [f]) [l] [l] =
        (JsString.ofString "    at " ++ ([f] ++ JsString.ofString " (" ++ a)) ++
          newline :: (b ++ colon :: ([l] ++ colon :: [l]) ++ [closing]) := by
      simp [frame, location, hab]
    have hfirst : newline ∉ JsString.ofString "    at " ++ ([f] ++ JsString.ofString " (" ++ a) := by
      have hname : newline ≠ f := by
        rintro rfl
        exact absurd hline (by decide)
      simp [newline_not_mem_at, newline_not_mem_paren, hname, ha]
    rwa [hsplit, frameOfText_append_newline hfirst] at hframe
  have h11 := hread 0x66 0x31 rfl rfl rfl
  have h12 := hread 0x66 0x32 rfl rfl rfl
  have h21 := hread 0x67 0x31 rfl rfl rfl
  have h22 := hread 0x67 0x32 rfl rfl rfl
  have hlines {f : JsString} : x.expected (some f) [0x31] ≠ x.expected (some f) [0x32] := by
    simp [expected]
  have hnames {l : JsString} : x.expected (some [0x66]) l ≠ x.expected (some [0x67]) l := by
    simp [expected]
  cases hf : ownFrame (JsString.ofString "    at " ++ ([0x66] ++ JsString.ofString " (" ++ a)) with
  | some z =>
    rw [hf, Option.some_or] at h11 h12
    exact hlines (Option.some.inj (h11.symm.trans h12))
  | none =>
    rw [hf, Option.none_or] at h11
    cases hg : ownFrame (JsString.ofString "    at " ++ ([0x67] ++ JsString.ofString " (" ++ a)) with
    | some z =>
      rw [hg, Option.some_or] at h21 h22
      exact hlines (Option.some.inj (h21.symm.trans h22))
    | none =>
      rw [hg, Option.none_or, h11] at h21
      exact hnames (Option.some.inj h21)

/-- What is the same but for one symbol has the symbol at the same place. -/
theorem eq_of_append_cons_eq {a b z e : JsString} {u v : UInt16} (hu : a ++ u :: z = b ++ u :: e)
    (hv : a ++ v :: z = b ++ v :: e) (hlength : e.length < z.length) : u = v := by
  have hsplit {w : UInt16} (hw : a ++ w :: z = b ++ w :: e) : a ++ [w] <+: b := by
    rcases List.append_eq_append_iff.mp hw with ⟨c, rfl, hc⟩ | ⟨c, rfl, hc⟩
    · cases c with
      | nil =>
        have hze : z = e := (List.cons.inj hc).2
        rw [hze] at hlength
        omega
      | cons d c =>
        obtain ⟨rfl, -⟩ := List.cons.inj hc
        exact ⟨c, by simp⟩
    · have hcount := congrArg List.length hc
      simp only [List.length_append, List.length_cons] at hcount
      omega
  obtain ⟨c, hc⟩ := hsplit hu
  obtain ⟨d, hd⟩ := hsplit hv
  rw [← hd, List.append_assoc, List.append_assoc] at hc
  exact (List.cons.inj (List.append_cancel_left hc)).1

/-- A frame with a name of one symbol and the line and column 1. -/
theorem ownFrame_named (h : Reported x) {f : UInt16} (hspace : JsString.isSpace f = false)
    (hline : isTerminator f = false) :
    ownFrame (JsString.ofString "    at " ++ f :: ([0x20] ++ opening :: (x.location [0x31] [0x31] ++ [closing]))) =
      some (x.expected (some [f]) [0x31]) := by
  have hframe := frameOfText_frame h (some [f]) [0x31] [0x31]
    (fun g hg => Option.some.inj hg ▸ isFunctionName_single hspace hline) (isNumber_single rfl) (isNumber_single rfl)
  have hsplit : x.frame (some [f]) [0x31] [0x31] =
      JsString.ofString "    at " ++ f :: ([0x20] ++ opening :: (x.location [0x31] [0x31] ++ [closing])) := by
    rw [frame, show JsString.ofString " (" = [0x20, opening] from rfl]
    simp
  have hname : ∀ g ∈ some [f], newline ∉ g := fun g hg =>
    newline_not_mem_of_oneLine (Option.some.inj hg ▸ isFunctionName_single hspace hline).oneLine
  have hnewline := newline_not_mem_frame (newline_not_mem_path h) hname (isNumber_single (u := 0x31) rfl)
    (isNumber_single (u := 0x31) rfl)
  rwa [frameOfText_alone hnewline, hsplit] at hframe

theorem trimmed_named {f : UInt16} (hspace : JsString.isSpace f = false) (s : JsString) :
    Trimmed (f :: ([0x20] ++ opening :: (s ++ [closing]))) := by
  have hlast : (f :: ([0x20] ++ opening :: (s ++ [closing]))).getLast? = some closing := by
    rw [show f :: ([0x20] ++ opening :: (s ++ [closing])) = (f :: ([0x20] ++ opening :: s)) ++ [closing] by simp]
    exact List.getLast?_concat
  exact trimmed_of_ends rfl hlast hspace rfl

/-- **No match inside the path**: the name would get longer, and take part of the path with it. -/
theorem greedy_location_eq_none (h : Reported x) :
    Matching.greedy (!isTerminator ·) parenthesized (x.location [0x31] [0x31] ++ [closing]) = none := by
  by_contra hne
  obtain ⟨⟨group, inner⟩, hmatch⟩ := Option.ne_none_iff_exists'.mp hne
  let rest := ((group.reverse ++ [opening]).dropWhile JsString.isSpace).reverse
  have hread (f : UInt16) (hspace : JsString.isSpace f = false) (hline : isTerminator f = false) :
      ∃ relative, relativeToProject inner.trim = some relative ∧
        stripColumn relative ++ JsString.ofString " (" ++ f :: (([0x20] ++ rest) ++ [closing]) =
          x.relative ++ colon :: [0x31] ++ JsString.ofString " (" ++ f :: [closing] := by
    have hbody : withFunction (f :: ([0x20] ++ opening :: (x.location [0x31] [0x31] ++ [closing]))) =
        some (f :: ([0x20] ++ opening :: group), inner) := by
      refine Matching.greedy_append (s := [f, 0x20, opening]) ?_ hmatch
      intro u hu
      simp only [List.mem_cons, List.not_mem_nil, or_false] at hu
      rcases hu with rfl | rfl | rfl
      · rw [hline]
        rfl
      · rfl
      · rfl
    have hgroup : JsString.trim (f :: ([0x20] ++ opening :: group)) = f :: ([0x20] ++ rest) :=
      trim_cons hspace rfl
    have hparse := parseFrame_of_some (trimmed_named hspace _) (List.cons_ne_nil _ _) hbody
      (by rw [hgroup]; exact List.cons_ne_nil _ _)
    rw [hgroup] at hparse
    obtain ⟨parsed, relative, hparsed, -, hrelative, -, hname⟩ :=
      ownFrame_eq_some_iff.mp (ownFrame_named h hspace hline)
    obtain rfl := Option.some.inj (hparse.symm.trans hparsed)
    refine ⟨relative, hrelative, ?_⟩
    rw [withName, expected] at hname
    simpa using hname
  obtain ⟨relative, hrelative, hf⟩ := hread 0x66 rfl rfl
  obtain ⟨relative', hrelative', hg⟩ := hread 0x67 rfl rfl
  obtain rfl := Option.some.inj (hrelative.symm.trans hrelative')
  have hsame := eq_of_append_cons_eq hf hg (by simp)
  exact absurd hsame (by decide)

/-- With a line terminator in the location, and no match inside it, there is no match. -/
theorem withFunction_single_eq_none {loc : JsString} {u : UInt16} (hu : u ∈ loc) (hterminator : isTerminator u = true)
    (hfree : Matching.greedy (!isTerminator ·) parenthesized (loc ++ [closing]) = none) :
    withFunction (0x66 :: ([0x20] ++ opening :: (loc ++ [closing]))) = none := by
  refine Matching.greedy_eq_none_iff.mpr fun a b hab ha => ?_
  by_contra hne
  obtain ⟨t, ht⟩ := Option.ne_none_iff_exists'.mp hne
  obtain ⟨w, hb, hw, ht⟩ := parenthesized_eq_some_iff.mp ht
  rw [hb] at hab
  -- where the white space before the parenthesis is
  match a, hab with
  | [], hab =>
    obtain ⟨rfl, -⟩ := List.cons.inj hab
    exact absurd hw (by decide)
  | [_], hab =>
    obtain ⟨-, hab⟩ := List.cons.inj hab
    obtain ⟨-, hab⟩ := List.cons.inj hab
    have hinner : loc ++ [closing] = t ++ [closing] := (List.cons.inj hab).2
    rw [List.append_cancel_right hinner] at hu
    rw [ht u hu] at hterminator
    exact Bool.false_ne_true hterminator
  | [_, _], hab =>
    obtain ⟨-, hab⟩ := List.cons.inj hab
    obtain ⟨-, hab⟩ := List.cons.inj hab
    obtain ⟨rfl, -⟩ := List.cons.inj hab
    exact absurd hw (by decide)
  | c :: d :: e :: a, hab =>
    obtain ⟨-, hab⟩ := List.cons.inj hab
    obtain ⟨-, hab⟩ := List.cons.inj hab
    obtain ⟨-, hab⟩ := List.cons.inj hab
    have hnone := Matching.greedy_eq_none_iff.mp hfree a (w :: opening :: (t ++ [closing])) hab
      fun v hv => ha v (by simp [hv])
    rw [← hb] at hnone
    exact hne hnone

/-- What is made relative is at the end of the location. -/
theorem relativeToProject_suffix {location relative : JsString} (h : relativeToProject location = some relative) :
    relative <:+ location := by
  obtain ⟨marker, -, hmarker⟩ := List.exists_of_findSome?_eq_some h
  obtain ⟨index, -, rfl⟩ := Option.map_eq_some_iff.mp hmarker
  exact List.drop_suffix _ _

/-- **The path is on one line**: without a match, the line would be reported with its closing parenthesis. -/
theorem oneLine_path (h : Reported x) : ∀ u ∈ x.path, isTerminator u = false := by
  intro u hu
  by_contra hterminator
  rw [Bool.not_eq_false] at hterminator
  have hlocation : u ∈ x.location [0x31] [0x31] := List.mem_append_left _ hu
  have hnone := withFunction_single_eq_none hlocation hterminator (greedy_location_eq_none h)
  have hparse := parseFrame_of_none (trimmed_named rfl _) (List.cons_ne_nil _ _) hnone
  obtain ⟨parsed, relative, hparsed, -, hrelative, hne, hname⟩ :=
    ownFrame_eq_some_iff.mp (ownFrame_named h (f := 0x66) rfl rfl)
  obtain rfl := Option.some.inj (hparse.symm.trans hparsed)
  obtain ⟨before, hbefore⟩ := relativeToProject_suffix hrelative
  have hends : 0x66 :: ([0x20] ++ opening :: (x.location [0x31] [0x31] ++ [closing])) =
      (0x66 :: ([0x20] ++ opening :: (x.path ++ colon :: [0x31] ++ [colon]))) ++ [0x31, closing] := by
    simp [location]
  have hclosing : relative.getLast? = some closing := by
    rw [← List.getLast?_append_of_ne_nil before hne, hbefore, hends,
      List.getLast?_append_of_ne_nil _ (List.cons_ne_nil _ _)]
    rfl
  have hreported : relative = (x.relative ++ colon :: [0x31] ++ JsString.ofString " (") ++ [0x66, closing] := by
    rw [withName, stripColumn_of_closing hclosing] at hname
    rw [hname, expected]
    simp
  rw [hreported, hends, ← List.append_assoc] at hbefore
  have hlast := (List.append_inj' hbefore rfl).2
  exact absurd hlast (by decide)

/-- A parenthesis after white space would be a match inside the path. -/
theorem noParenthesis_path (h : Reported x) : ¬ SpacedParenthesis x.path := by
  intro hparen
  obtain ⟨w, hw, a, b, hab⟩ := (location_spacedParenthesis (isNumber_single (u := 0x31) rfl)
    (isNumber_single (u := 0x31) rfl)).mpr hparen
  have hline := location_oneLine (oneLine_path h) (isNumber_single (u := 0x31) rfl) (isNumber_single (u := 0x31) rfl)
  rw [← hab] at hline
  have hfree := Matching.greedy_eq_none_iff.mp (greedy_location_eq_none h) a (w :: opening :: (b ++ [closing]))
    (by rw [← hab]; simp) fun u hu => by rw [hline u (by simp [hu])]; rfl
  rw [parenthesized_eq_some_iff.mpr ⟨w, rfl, hw, fun u hu => hline u (by simp [hu])⟩] at hfree
  cases hfree

/-- **A line without a slash** is no own frame. -/
theorem ownFrame_eq_none_of_slash {l : JsString} (h : slash ∉ l) : ownFrame l = none := by
  by_contra hne
  obtain ⟨f, hf⟩ := Option.ne_none_iff_exists'.mp hne
  obtain ⟨parsed, relative, hparsed, -, hrelative, -⟩ := ownFrame_eq_some_iff.mp hf
  have hlocation : slash ∉ parsed.location := fun hm => h (mem_of_parseFrame hparsed hm)
  obtain ⟨marker, hmarker, hindex⟩ := List.exists_of_findSome?_eq_some hrelative
  obtain ⟨index, hsome, -⟩ := Option.map_eq_some_iff.mp hindex
  have hoccurs : marker <:+: parsed.location := by
    by_contra hnot
    rw [Matching.indexOf_eq_none_iff.mpr hnot] at hsome
    cases hsome
  refine hlocation (hoccurs.subset ?_)
  revert marker
  simp only [OWN_PATH_MARKERS, List.mem_cons, List.not_mem_nil, or_false]
  rintro marker (rfl | rfl | rfl) - - - <;> decide

/-- **A path with backslashes** has no slash. -/
theorem posix_path (h : Reported x) : x.style = .posix := by
  cases hstyle : x.style with
  | posix => rfl
  | windows drive =>
    have hdrive : slash ≠ drive.val := by
      intro heq
      have hletter := drive.2
      rw [← heq] at hletter
      exact absurd hletter (by decide)
    have hslashed (l : List JsString) (hl : ∀ s ∈ l, slash ∉ s) : slash ∉ Path.slashed backslash l := by
      rw [Path.slashed, List.mem_flatMap]
      rintro ⟨s, hs, hm⟩
      rcases List.mem_cons.mp hm with heq | hm
      · exact absurd heq (by decide)
      · exact hl s hs hm
    have hpath : slash ∉ x.path := by
      have hnames := hslashed (x.above ++ [x.file.val]) fun s hs => slash_not_mem_names hs
      rw [path, hstyle, List.mem_cons, List.mem_cons, not_or, not_or]
      exact ⟨hdrive, by decide, hnames⟩
    have hone : IsNumber [0x31] := isNumber_single rfl
    have hframe := frameOfText_frame h none [0x31] [0x31] (by simp) hone hone
    have hat : slash ∉ JsString.ofString "    at " := by decide
    have hnewline := @newline_not_mem_frame x _ _ (newline_not_mem_path h) none (by simp) hone hone
    have hnone : slash ∉ x.frame none [0x31] [0x31] := by
      simp only [frame, location, List.mem_append, List.mem_cons, List.not_mem_nil, hat, hpath, or_false, false_or]
      decide
    rw [frameOfText_alone hnewline, ownFrame_eq_none_of_slash hnone] at hframe
    cases hframe

end Installed

/-! ### The origin and the root -/

open Installed

/-- **An origin does not depend on the root** if and only if the file can be found: exactly then every frame
of it is reported as expected. -/
theorem reported_iff (x : Installed) : Reported x ↔ Findable x := by
  constructor
  · intro h
    have hposix := posix_path h
    have hline := oneLine_path h
    have hone : IsNumber [0x31] := isNumber_single rfl
    have hframe := frameOfText_frame h none [0x31] [0x31] (by simp) hone hone
    have hnewline := @newline_not_mem_frame x _ _ (newline_not_mem_of_oneLine hline) none (by simp) hone hone
    rw [frameOfText_alone hnewline] at hframe
    obtain ⟨parsed, relative, hparsed, hown, hrelative, hne, hname⟩ := ownFrame_eq_some_iff.mp hframe
    obtain rfl := Option.some.inj ((parseFrame_unnamed hposix hone).symm.trans hparsed)
    obtain ⟨hearlier, hroot⟩ := (relativeToProject_iff hposix hline hone hone).mp ⟨relative, hrelative, hne, hname⟩
    exact ⟨hposix, hroot, hearlier, (isOwnFrame_location hposix hone hone).mp hown, hline, noParenthesis_path h⟩
  · intro hx fn line column before after hfn hl hc hbefore hafter heap error hreadable hstack
    refine resolveErrorOrigin_of_ownFrame hreadable ?_
    rw [ownFrameOf_eq hstack]
    exact frameOfText_stack (hx.newline_not_mem hfn hl hc) hbefore hafter (hx.ownFrame_frame hfn hl hc)

/-- `/home/me/src/shop/src/app.ts`. -/
def shop : Installed where
  style := .posix
  root := [⟨"home", by decide⟩, ⟨"me", by decide⟩, ⟨"src", by decide⟩, ⟨"shop", by decide⟩]
  own := .src
  directories := []
  file := ⟨"app.ts", by decide⟩

/-- **A root under a directory `src`**: a part of the root is in the origin. -/
theorem root_in_src :
    shop.expected (some "main") "7" = JsString.ofString "src/app.ts:7 (main)" ∧
      (alone (shop.frame (some "main") "7" "3")).resolveErrorOrigin (.object 0) =
        .ok ⟨some (JsString.ofString "src/shop/src/app.ts:7 (main)"), none⟩ ∧
      ¬ Reported shop := by
  have hframe : frameOfText (shop.frame (some "main") "7" "3") =
      some (JsString.ofString "src/shop/src/app.ts:7 (main)") := by
    decide +kernel
  refine ⟨by decide, ?_, fun h => ?_⟩
  · rw [resolveErrorOrigin_alone, hframe]
  · have hhead : (JsString.ofString "main").head? = some 0x6D := rfl
    have hlast : (JsString.ofString "main").getLast? = some 0x6E := rfl
    have hline : (JsString.ofString "main").all (!isTerminator ·) = true := rfl
    have hname : IsFunctionName "main" :=
      ⟨by decide, trimmed_of_ends hhead hlast rfl rfl, fun u hu => by simpa using List.all_eq_true.mp hline u hu⟩
    have hread := frameOfText_frame h (some "main") "7" "3"
      (fun f hf => Option.some.inj hf ▸ hname) (isNumber_single (u := 0x37) rfl)
      (isNumber_single (u := 0x33) rfl)
    rw [hframe] at hread
    exact absurd (Option.some.inj hread) (by decide)

end NestDdd.Common
