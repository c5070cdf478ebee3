import NestDdd.Shared.Js
import NestDdd.Theory.History
import NestDdd.Theory.Matching

/-!
# Where an error comes from

`resolveErrorOrigin` (`src/common/utils/error-origin.util.ts`): the first frame of the service's own code in
the stack of a thrown value or of one of its causes, and the next one that differs. And `formatStackTrace`
(`format-stack-trace.util.ts`), which reads the same stack.

## The model

An object is known by its identity `ι`; `Heap` has what the functions read of it. What is no object, or is a
function, has neither a stack nor a cause. A stack is a string as V8 writes it, but it is a property like any
other, and `stack.split` throws for a value that counts as true and is no string. The two loops share
their cursor: what was seen, the current value, and how many steps are left of `MAX_CAUSE_DEPTH`.

## What is proved

* `CauseChain` — the objects along the causes of a value, up to the first that is none, to one that was there
  already, or to ten; every value has one of them (`causeChain_links`, `CauseChain.unique`).
* `resolves_iff` — **the loops report what the chain says** if and only if every error of the chain whose
  stack is neither a string nor false comes after two frames that differ.
* `resolves_ok_iff` — then, and only then, do they report anything.
* `stack_array_throws` — an error with an array for its stack: the resolution itself throws.
-/

namespace NestDdd.Common

open NestDdd.Shared NestDdd.Theory

/-! ### Frames -/

/-- `OWN_PATH_MARKERS`. -/
def OWN_PATH_MARKERS : List JsString := ["/src/", "/dist/", "/test/"]

/-- `MAX_CAUSE_DEPTH`. -/
def MAX_CAUSE_DEPTH : ℕ := 10

/-- What `.` does not match. -/
def isTerminator (u : UInt16) : Bool := u == 0xA || u == 0xD || u == 0x2028 || u == 0x2029

/-- `\d`. -/
def isDigit (u : UInt16) : Bool := 0x30 ≤ u && u ≤ 0x39

/-- `'('`. -/
abbrev opening : UInt16 := 0x28

/-- `')'`. -/
abbrev closing : UInt16 := 0x29

/-- `':'`. -/
abbrev colon : UInt16 := 0x3A

/-- `'\n'`. -/
abbrev newline : UInt16 := 0xA

/-- `ParsedFrame`. -/
structure ParsedFrame where
  /-- `fn`. -/
  fn : Option JsString
  /-- `location`. -/
  location : JsString

/-- `\s\((.*)\)$`. -/
def parenthesized : JsString → Option JsString
  | w :: u :: rest =>
    if JsString.isSpace w ∧ u = opening ∧ rest.getLast? = some closing ∧ rest.dropLast.all (!isTerminator ·) then
      some rest.dropLast
    else none
  | _ => none

/-- `rest.match(/^(.*)\s\((.*)\)$/)`. -/
def withFunction (rest : JsString) : Option (JsString × JsString) :=
  Matching.greedy (!isTerminator ·) parenthesized rest

/-- `parseFrame`. -/
def parseFrame (rawLine : JsString) : Option ParsedFrame :=
  let line := rawLine.trim
  if ¬ JsString.ofString "at " <+: line then none
  else
    let rest := JsString.trim (line.drop 3)
    match withFunction rest with
    | some (group, inner) =>
      if group.trim = [] then some ⟨none, inner.trim⟩ else some ⟨some group.trim, inner.trim⟩
    | none => some ⟨none, rest⟩

/-- `isOwnFrame`. -/
def isOwnFrame (location : JsString) : Bool :=
  if JsString.ofString "node:" <+: location then false
  else if Matching.includes (JsString.ofString "node_modules") location then false
  else OWN_PATH_MARKERS.any fun marker => Matching.includes marker location

/-- `relativeToProject`. -/
def relativeToProject (location : JsString) : Option JsString :=
  OWN_PATH_MARKERS.findSome? fun marker =>
    (Matching.indexOf marker location).map fun index => location.drop (index + 1)

/-- `:(\d+):(\d+)$`: the line. -/
def lineAndColumn : JsString → Option JsString
  | [] => none
  | u :: rest =>
    if u = colon ∧ rest.takeWhile isDigit ≠ [] then
      match rest.dropWhile isDigit with
      | [] => none
      | v :: column => if v = colon ∧ column ≠ [] ∧ column.all isDigit then some (rest.takeWhile isDigit) else none
    else none

/-- `stripColumn`. -/
def stripColumn (location : JsString) : JsString :=
  match Matching.greedy (!isTerminator ·) lineAndColumn location with
  | some (path, line) => path ++ colon :: line
  | none => location

/-- `${location} (${parsed.fn})`, or the location by itself. -/
def withName (location : JsString) : Option JsString → JsString
  | some fn => location ++ JsString.ofString " (" ++ fn ++ [closing]
  | none => location

/-- What `frameFromStack` makes of a line. -/
def ownFrame (rawLine : JsString) : Option JsString :=
  match parseFrame rawLine with
  | none => none
  | some parsed =>
    if !isOwnFrame parsed.location then none
    else
      match relativeToProject parsed.location with
      | none | some [] => none
      | some relative => some (withName (stripColumn relative) parsed.fn)

/-- The first own frame of a text. -/
def frameOfText (stack : JsString) : Option JsString := (stack.splitOn newline).findSome? ownFrame

/-- What `stack.split` throws. -/
def splitTypeError : JsValue :=
  .object .error [("name", .string "TypeError"), ("message", .string "stack.split is not a function")]

/-- `frameFromStack`; a value that is no string has no `split`. -/
def frameFromStack (stack : JsValue) : Except JsValue (Option JsString) :=
  if !stack.truthy then .ok none
  else
    match stack with
    | .string s => .ok (frameOfText s)
    | _ => .error splitTypeError

theorem frameFromStack_of_falsy {stack : JsValue} (h : stack.truthy = false) : frameFromStack stack = .ok none := by
  unfold frameFromStack
  exact if_pos (by rw [h]; rfl)

theorem frameFromStack_string (s : JsString) : frameFromStack (.string s) = .ok (frameOfText s) := by
  cases s with
  | nil => rfl
  | cons u s => rfl

theorem frameFromStack_of_truthy {stack : JsValue} (h : stack.truthy = true) (hs : ∀ s, stack ≠ .string s) :
    frameFromStack stack = .error splitTypeError := by
  unfold frameFromStack
  rw [if_neg (by rw [h]; exact Bool.false_ne_true)]
  cases stack with
  | string s => exact absurd rfl (hs s)
  | _ => rfl

/-- `formatStackTrace`. -/
def formatStackTrace (stack : JsValue) : Except JsValue JsValue :=
  if !stack.truthy then .ok .undefined
  else
    match stack with
    | .string s =>
      let lines := ((s.splitOn newline).map JsString.trim).filter (!·.isEmpty)
      let filtered := lines.filter fun line =>
        Matching.includes (JsString.ofString "/src/") line &&
          !Matching.includes (JsString.ofString "node_modules") line &&
          !Matching.includes (JsString.ofString "(internal") line &&
          !Matching.includes (JsString.ofString "processTicksAndRejections") line
      let topFrames := filtered.take 3
      .ok (.string ([newline].intercalate (if topFrames.isEmpty then lines.take 3 else topFrames)))
    | _ => .error splitTypeError

/-- The stack can be formatted if its first frame can be looked for. -/
theorem exists_formatStackTrace {stack : JsValue} {frame : Option JsString} (h : frameFromStack stack = .ok frame) :
    ∃ v, formatStackTrace stack = .ok v := by
  unfold formatStackTrace
  by_cases ht : stack.truthy = true
  · rw [if_neg (by simp [ht])]
    cases stack with
    | string s => exact ⟨_, rfl⟩
    | _ =>
      rw [frameFromStack_of_truthy ht nofun] at h
      cases h
  · exact ⟨_, if_pos (by simpa using ht)⟩

/-- What has to be the case for a line to be an own frame. -/
theorem ownFrame_eq_some_iff {line frame : JsString} :
    ownFrame line = some frame ↔ ∃ parsed relative, parseFrame line = some parsed ∧
      isOwnFrame parsed.location = true ∧ relativeToProject parsed.location = some relative ∧ relative ≠ [] ∧
      withName (stripColumn relative) parsed.fn = frame := by
  rw [ownFrame]
  cases parseFrame line with
  | none => simp
  | some parsed =>
    simp only [Option.some.injEq, exists_and_left, exists_eq_left']
    by_cases hown : isOwnFrame parsed.location = true
    · rw [if_neg (by simp [hown])]
      cases relativeToProject parsed.location with
      | none => simp
      | some relative =>
        cases relative with
        | nil => simp
        | cons u relative => simp [hown]
    · rw [if_pos (by simpa using hown)]
      simp [hown]

/-- A frame is not empty. -/
theorem ownFrame_ne_nil {line frame : JsString} (h : ownFrame line = some frame) : frame ≠ [] := by
  obtain ⟨parsed, relative, -, -, -, hne, rfl⟩ := ownFrame_eq_some_iff.mp h
  have hlocation : stripColumn relative ≠ [] := by
    rw [stripColumn]
    split
    · simp
    · exact hne
  unfold withName
  split
  · simp
  · exact hlocation

theorem frameOfText_ne_nil {stack frame : JsString} (h : frameOfText stack = some frame) : frame ≠ [] := by
  obtain ⟨line, -, hline⟩ := List.exists_of_findSome?_eq_some h
  exact ownFrame_ne_nil hline

/-! ### Objects -/

/-- A value, as far as it is followed. -/
inductive Thrown (ι : Type) where
  /-- An object. -/
  | object (o : ι)
  /-- `typeof value !== 'object'`, or `null`. -/
  | other

/-- What is read of an object. -/
structure ThrownObject (ι : Type) where
  /-- `error instanceof Error`. -/
  isError : Bool
  /-- `stack`, if it is in the object. -/
  stack : Option JsValue
  /-- `cause`, if it is in the object. -/
  cause : Option (Thrown ι)

/-- The objects. -/
abbrev Heap (ι : Type) : Type := ι → ThrownObject ι

/-- `ErrorOrigin`. -/
structure ErrorOrigin where
  /-- `origin`. -/
  origin : Option JsString
  /-- `causeOrigin`. -/
  causeOrigin : Option JsString
  deriving DecidableEq

namespace Heap

variable {ι : Type} (heap : Heap ι)

/-- `stackOf`. -/
def stackOf (o : ι) : JsValue :=
  if (heap o).isError then (heap o).stack.getD .undefined
  else
    match (heap o).stack with
    | some (.string stack) => .string stack
    | _ => .undefined

/-- `causeOf`. -/
def causeOf (o : ι) : Thrown ι := (heap o).cause.getD .other

/-- `frameFromStack(stackOf(current))`. -/
def frameOf (o : ι) : Except JsValue (Option JsString) := frameFromStack (heap.stackOf o)

/-- `if (frame)`. -/
def truthyFrame : Option JsString → Option JsString
  | some [] => none
  | frame => frame

variable [DecidableEq ι]

/-- The cursor of the loops: `seen`, `current`, and what is left of `MAX_CAUSE_DEPTH`. -/
abbrev Cursor (ι : Type) : Type := List ι × Thrown ι × ℕ

/-- The first loop: where it stops, and `origin`. -/
def findOrigin : ℕ → List ι → Thrown ι → Except JsValue (Cursor ι × Option JsString)
  | left + 1, seen, .object o =>
    if o ∈ seen then .ok ((seen, .object o, left + 1), none)
    else
      match heap.frameOf o with
      | .error e => .error e
      | .ok frame =>
        match truthyFrame frame with
        | some frame => .ok ((o :: seen, heap.causeOf o, left), some frame)
        | none => findOrigin left (o :: seen) (heap.causeOf o)
  | left, seen, current => .ok ((seen, current, left), none)

/-- The second loop: `causeOrigin`. -/
def findCauseOrigin (origin : JsString) : ℕ → List ι → Thrown ι → Except JsValue (Option JsString)
  | left + 1, seen, .object o =>
    if o ∈ seen then .ok none
    else
      match heap.frameOf o with
      | .error e => .error e
      | .ok frame =>
        match truthyFrame frame with
        | some frame =>
          if frame ≠ origin then .ok (some frame)
          else findCauseOrigin origin left (o :: seen) (heap.causeOf o)
        | none => findCauseOrigin origin left (o :: seen) (heap.causeOf o)
  | _, _, _ => .ok none

/-- `resolveErrorOrigin`. -/
def resolveErrorOrigin (error : Thrown ι) : Except JsValue ErrorOrigin :=
  match heap.findOrigin MAX_CAUSE_DEPTH [] error with
  | .error e => .error e
  | .ok (_, none) => .ok ⟨none, none⟩
  | .ok ((seen, current, left), some origin) =>
    match heap.findCauseOrigin origin left seen current with
    | .error e => .error e
    | .ok causeOrigin => .ok ⟨some origin, causeOrigin⟩

/-! ### What a loop goes through -/

/-- The objects that a loop comes to, with `left` steps left. -/
def links : ℕ → List ι → Thrown ι → List ι
  | left + 1, seen, .object o => if o ∈ seen then [] else o :: links left (o :: seen) (heap.causeOf o)
  | _, _, _ => []

/-- The first loop, over the objects it comes to: `origin`, and the objects left. -/
def scanOrigin : List ι → Except JsValue (Option (JsString × List ι))
  | [] => .ok none
  | o :: rest =>
    match heap.frameOf o with
    | .error e => .error e
    | .ok frame =>
      match truthyFrame frame with
      | some frame => .ok (some (frame, rest))
      | none => scanOrigin rest

/-- The second loop, over the objects it comes to. -/
def scanCauseOrigin (origin : JsString) : List ι → Except JsValue (Option JsString)
  | [] => .ok none
  | o :: rest =>
    match heap.frameOf o with
    | .error e => .error e
    | .ok frame =>
      match truthyFrame frame with
      | some frame => if frame ≠ origin then .ok (some frame) else scanCauseOrigin origin rest
      | none => scanCauseOrigin origin rest

/-- Both loops. -/
def scan (objects : List ι) : Except JsValue ErrorOrigin :=
  match heap.scanOrigin objects with
  | .error e => .error e
  | .ok none => .ok ⟨none, none⟩
  | .ok (some (origin, rest)) =>
    match heap.scanCauseOrigin origin rest with
    | .error e => .error e
    | .ok causeOrigin => .ok ⟨some origin, causeOrigin⟩

variable {heap} {left : ℕ} {seen : List ι} {current : Thrown ι}

theorem findCauseOrigin_eq (origin : JsString) :
    heap.findCauseOrigin origin left seen current = heap.scanCauseOrigin origin (heap.links left seen current) := by
  induction left generalizing seen current with
  | zero => rfl
  | succ left ih =>
    cases current with
    | other => rfl
    | object o =>
      rw [findCauseOrigin, links]
      by_cases hseen : o ∈ seen
      · rw [if_pos hseen, if_pos hseen]
        rfl
      · rw [if_neg hseen, if_neg hseen, scanCauseOrigin]
        cases heap.frameOf o with
        | error e => rfl
        | ok frame => simp only [ih]

/-- The first loop stops where the second one goes on. -/
theorem findOrigin_eq :
    heap.scanOrigin (heap.links left seen current) = (heap.findOrigin left seen current).map fun found =>
      found.2.map fun origin => (origin, heap.links found.1.2.2 found.1.1 found.1.2.1) := by
  induction left generalizing seen current with
  | zero => rfl
  | succ left ih =>
    cases current with
    | other => rfl
    | object o =>
      rw [findOrigin, links]
      by_cases hseen : o ∈ seen
      · rw [if_pos hseen, if_pos hseen]
        rfl
      · rw [if_neg hseen, if_neg hseen, scanOrigin]
        cases heap.frameOf o with
        | error e => rfl
        | ok frame =>
          simp only
          cases truthyFrame frame with
          | some f => rfl
          | none => exact ih

/-- **The two loops** go through the objects of one chain. -/
theorem resolveErrorOrigin_eq (error : Thrown ι) :
    heap.resolveErrorOrigin error = heap.scan (heap.links MAX_CAUSE_DEPTH [] error) := by
  rw [resolveErrorOrigin, scan, findOrigin_eq]
  cases heap.findOrigin MAX_CAUSE_DEPTH [] error with
  | error e => rfl
  | ok found =>
    obtain ⟨⟨seen, current, left⟩, origin⟩ := found
    cases origin with
    | none => rfl
    | some origin =>
      simp only [findCauseOrigin_eq]
      rfl

/-! ### The chain -/

/-- Following the causes from a value through some objects leads to another value. -/
inductive Follows (heap : Heap ι) : Thrown ι → List ι → Thrown ι → Prop where
  /-- No object is gone through. -/
  | nil {v : Thrown ι} : Follows heap v [] v
  /-- An object, and then its cause. -/
  | cons {o : ι} {rest : List ι} {w : Thrown ι} :
    Follows heap (heap.causeOf o) rest w → Follows heap (.object o) (o :: rest) w

/-- **The chain of a value**: distinct objects along its causes, cut at the first value that is none, at the
first object that is one of them, and at ten. -/
structure CauseChain (heap : Heap ι) (error : Thrown ι) (chain : List ι) : Prop where
  /-- Its objects are distinct. -/
  nodup : chain.Nodup
  /-- They are ten at most. -/
  length_le : chain.length ≤ 10
  /-- They follow one another, and what comes after them is where it is cut. -/
  cut : ∃ w, heap.Follows error chain w ∧ (chain.length = 10 ∨ w = .other ∨ ∃ o ∈ chain, w = .object o)

theorem links_nodup : (heap.links left seen current).Nodup ∧ ∀ o ∈ heap.links left seen current, o ∉ seen := by
  induction left generalizing seen current with
  | zero => exact ⟨List.nodup_nil, by simp [links]⟩
  | succ left ih =>
    cases current with
    | other => exact ⟨List.nodup_nil, by simp [links]⟩
    | object o =>
      rw [links]
      by_cases hseen : o ∈ seen
      · rw [if_pos hseen]
        exact ⟨List.nodup_nil, by simp⟩
      · rw [if_neg hseen]
        obtain ⟨hnodup, hnew⟩ := @ih (o :: seen) (heap.causeOf o)
        refine ⟨List.nodup_cons.mpr ⟨fun ho => hnew o ho List.mem_cons_self, hnodup⟩, ?_⟩
        refine List.forall_mem_cons.mpr ⟨hseen, fun x hx => ?_⟩
        exact fun h => hnew x hx (List.mem_cons_of_mem o h)

theorem length_links_le : (heap.links left seen current).length ≤ left := by
  induction left generalizing seen current with
  | zero => exact le_refl 0
  | succ left ih =>
    cases current with
    | other => exact Nat.zero_le _
    | object o =>
      rw [links]
      split
      · exact Nat.zero_le _
      · exact Nat.succ_le_succ ih

/-- Where a loop stops. -/
theorem links_cut : ∃ w, heap.Follows current (heap.links left seen current) w ∧
    ((heap.links left seen current).length = left ∨ w = .other ∨
      ∃ o, (o ∈ seen ∨ o ∈ heap.links left seen current) ∧ w = .object o) := by
  induction left generalizing seen current with
  | zero => exact ⟨current, .nil, .inl rfl⟩
  | succ left ih =>
    cases current with
    | other => exact ⟨.other, .nil, .inr (.inl rfl)⟩
    | object o =>
      rw [links]
      by_cases hseen : o ∈ seen
      · rw [if_pos hseen]
        exact ⟨.object o, .nil, .inr (.inr ⟨o, .inl hseen, rfl⟩)⟩
      · rw [if_neg hseen]
        obtain ⟨w, hfollows, hcut⟩ := @ih (o :: seen) (heap.causeOf o)
        refine ⟨w, .cons hfollows, ?_⟩
        rcases hcut with hlength | hother | ⟨x, hx, hw⟩
        · exact .inl (congrArg (· + 1) hlength)
        · exact .inr (.inl hother)
        · refine .inr (.inr ⟨x, ?_, hw⟩)
          rw [List.mem_cons] at hx ⊢
          tauto

theorem causeChain_links (error : Thrown ι) : heap.CauseChain error (heap.links MAX_CAUSE_DEPTH [] error) := by
  refine ⟨links_nodup.1, length_links_le, ?_⟩
  obtain ⟨w, hfollows, hcut⟩ := @links_cut ι heap _ MAX_CAUSE_DEPTH [] error
  refine ⟨w, hfollows, hcut.imp_right (Or.imp_right ?_)⟩
  rintro ⟨o, ho, hw⟩
  exact ⟨o, ho.resolve_left List.not_mem_nil, hw⟩

omit [DecidableEq ι] in
/-- Two ways along the causes of a value are one, and what one of them has more. -/
theorem Follows.total {v w w' : Thrown ι} {c c' : List ι} (h : heap.Follows v c w) (h' : heap.Follows v c' w') :
    (∃ more, c' = c ++ more ∧ heap.Follows w more w') ∨ ∃ more, c = c' ++ more ∧ heap.Follows w' more w := by
  induction h generalizing c' with
  | nil => exact .inl ⟨c', rfl, h'⟩
  | @cons o rest w hrest ih =>
    cases h' with
    | nil => exact .inr ⟨o :: rest, rfl, .cons hrest⟩
    | cons h' =>
      refine (ih h').imp ?_ ?_
      · rintro ⟨more, rfl, hmore⟩
        exact ⟨more, rfl, hmore⟩
      · rintro ⟨more, rfl, hmore⟩
        exact ⟨more, rfl, hmore⟩

omit [DecidableEq ι] in
/-- A chain does not go on after its cut. -/
theorem CauseChain.more_eq_nil {error w w' : Thrown ι} {c more : List ι}
    (hcut : c.length = 10 ∨ w = .other ∨ ∃ o ∈ c, w = .object o) (h' : heap.CauseChain error (c ++ more))
    (hmore : heap.Follows w more w') : more = [] := by
  cases hmore with
  | nil => rfl
  | @cons o rest _ _ =>
    exfalso
    rcases hcut with hlength | hother | ⟨x, hx, hw⟩
    · have hle := h'.length_le
      rw [List.length_append, List.length_cons] at hle
      omega
    · cases hother
    · obtain rfl : o = x := by injection hw
      exact (List.nodup_append.mp h'.nodup).2.2 o hx o List.mem_cons_self rfl

omit [DecidableEq ι] in
/-- **A value has one chain.** -/
theorem CauseChain.unique {error : Thrown ι} {c c' : List ι} (h : heap.CauseChain error c)
    (h' : heap.CauseChain error c') : c' = c := by
  obtain ⟨w, hfollows, hcut⟩ := h.cut
  obtain ⟨w', hfollows', hcut'⟩ := h'.cut
  rcases hfollows.total hfollows' with ⟨more, rfl, hmore⟩ | ⟨more, rfl, hmore⟩
  · rw [more_eq_nil hcut h' hmore, List.append_nil]
  · rw [more_eq_nil hcut' h hmore, List.append_nil]

/-! ### What the chain says -/

/-- The own-code frame of an object: that of its stack, if this is a string. -/
def ownFrameOf (heap : Heap ι) (o : ι) : Option JsString :=
  match heap.stackOf o with
  | .string stack => frameOfText stack
  | _ => none

/-- The own-code frames of a chain. -/
def frames (heap : Heap ι) (chain : List ι) : List JsString := chain.filterMap heap.ownFrameOf

/-- **What a chain says**: the first frame, and the first one after it that differs. -/
def specified (heap : Heap ι) (chain : List ι) : ErrorOrigin :=
  match heap.frames chain with
  | [] => ⟨none, none⟩
  | origin :: later => ⟨some origin, later.find? (· ≠ origin)⟩

/-- An `Error` whose stack counts as true and is no string. -/
def Unreadable (heap : Heap ι) (o : ι) : Prop :=
  (heap o).isError = true ∧ ∃ stack, (heap o).stack = some stack ∧ stack.truthy = true ∧ ∀ s, stack ≠ .string s

/-- Every such error comes after two frames that differ. -/
def Readable (heap : Heap ι) (chain : List ι) : Prop :=
  Throughout (fun before o => heap.Unreadable o → ∃ f ∈ heap.frames before, ∃ g ∈ heap.frames before, f ≠ g) chain

omit [DecidableEq ι] in
theorem readable_of_forall {chain : List ι} (h : ∀ o ∈ chain, ¬ heap.Unreadable o) : heap.Readable chain := by
  intro before o after hchain hun
  exact absurd hun (h o (by simp [hchain]))

omit [DecidableEq ι] in
theorem frameOf_of_unreadable {o : ι} (h : heap.Unreadable o) : heap.frameOf o = .error splitTypeError := by
  obtain ⟨herror, stack, hstack, htruthy, hstring⟩ := h
  rw [frameOf, stackOf, if_pos herror, hstack, Option.getD_some]
  exact frameFromStack_of_truthy htruthy hstring

omit [DecidableEq ι] in
theorem frameOf_of_readable {o : ι} (h : ¬ heap.Unreadable o) : heap.frameOf o = .ok (heap.ownFrameOf o) := by
  rw [frameOf, ownFrameOf, stackOf]
  split
  · next herror =>
    cases hstack : (heap o).stack with
    | none => rfl
    | some stack =>
      have hread : stack.truthy = false ∨ ∃ s, stack = .string s := by
        by_contra hnot
        obtain ⟨htruthy, hstring⟩ := not_or.mp hnot
        rw [Bool.not_eq_false] at htruthy
        exact h ⟨herror, stack, hstack, htruthy, not_exists.mp hstring⟩
      rw [Option.getD_some]
      rcases hread with hfalsy | ⟨s, rfl⟩
      · rw [frameFromStack_of_falsy hfalsy]
        cases stack with
        | string s =>
          obtain rfl : s = [] := by simpa [JsValue.truthy] using hfalsy
          rfl
        | _ => rfl
      · exact frameFromStack_string s
  · split
    · exact frameFromStack_string _
    · rfl

omit [DecidableEq ι] in
theorem truthyFrame_ownFrameOf (o : ι) : truthyFrame (heap.ownFrameOf o) = heap.ownFrameOf o := by
  cases hframe : heap.ownFrameOf o with
  | none => rfl
  | some frame =>
    have hne : frame ≠ [] := by
      rw [ownFrameOf] at hframe
      split at hframe
      · exact frameOfText_ne_nil hframe
      · cases hframe
    cases frame with
    | nil => exact absurd rfl hne
    | cons u frame => rfl

/-- The rule of the second loop: what comes before an unreadable error has a frame that differs. -/
def ReadableFrom (heap : Heap ι) (origin : JsString) (objects : List ι) : Prop :=
  Throughout (fun before o => heap.Unreadable o → ∃ f ∈ heap.frames before, f ≠ origin) objects

omit [DecidableEq ι] in
theorem frames_cons {o : ι} {rest : List ι} :
    heap.frames (o :: rest) = (heap.ownFrameOf o).toList ++ heap.frames rest := by
  rw [frames, List.filterMap_cons]
  cases heap.ownFrameOf o <;> rfl

omit [DecidableEq ι] in
theorem frames_cons_of_none {o : ι} (h : heap.ownFrameOf o = none) (rest : List ι) :
    heap.frames (o :: rest) = heap.frames rest := by
  rw [frames_cons, h]
  rfl

omit [DecidableEq ι] in
theorem frames_cons_of_some {o : ι} {frame : JsString} (h : heap.ownFrameOf o = some frame) (rest : List ι) :
    heap.frames (o :: rest) = frame :: heap.frames rest := by
  rw [frames_cons, h]
  rfl

omit [DecidableEq ι] in
theorem scanCauseOrigin_iff {origin : JsString} {objects : List ι} :
    heap.scanCauseOrigin origin objects = .ok ((heap.frames objects).find? (· ≠ origin)) ↔
      heap.ReadableFrom origin objects := by
  induction objects with
  | nil => exact iff_of_true rfl (throughout_nil _)
  | cons o rest ih =>
    rw [ReadableFrom, throughout_cons, scanCauseOrigin]
    by_cases ho : heap.Unreadable o
    · rw [frameOf_of_unreadable ho]
      refine iff_of_false (fun h => by cases h) fun h => ?_
      obtain ⟨f, hf, -⟩ := h.1 ho
      exact List.not_mem_nil hf
    · rw [frameOf_of_readable ho]
      simp only [truthyFrame_ownFrameOf]
      cases hframe : heap.ownFrameOf o with
      | none =>
        simp only [frames_cons_of_none hframe, ih, ho, false_implies, true_and]
        rfl
      | some frame =>
        simp only [frames_cons_of_some hframe, List.find?_cons]
        by_cases hdiffers : frame = origin
        · simp only [hdiffers, ne_eq, not_true_eq_false, decide_false, if_false, ih, List.mem_cons,
            exists_eq_or_imp, ho, false_implies, true_and, false_or]
          rfl
        · simp only [ne_eq, hdiffers, not_false_eq_true, decide_true, if_true, true_iff, List.mem_cons,
            exists_eq_or_imp, true_or, implies_true]
          exact ⟨fun h => absurd h ho, fun _ _ _ _ => trivial⟩

omit [DecidableEq ι] in
/-- What the second loop reports, if it gets to the end. -/
theorem eq_of_scanCauseOrigin {origin : JsString} {objects : List ι} {found : Option JsString}
    (h : heap.scanCauseOrigin origin objects = .ok found) : found = (heap.frames objects).find? (· ≠ origin) := by
  induction objects with
  | nil => exact (Except.ok.inj h).symm
  | cons o rest ih =>
    rw [scanCauseOrigin] at h
    by_cases ho : heap.Unreadable o
    · rw [frameOf_of_unreadable ho] at h
      cases h
    · rw [frameOf_of_readable ho] at h
      simp only [truthyFrame_ownFrameOf] at h
      cases hframe : heap.ownFrameOf o with
      | none =>
        rw [hframe] at h
        rw [frames_cons_of_none hframe]
        exact ih h
      | some frame =>
        rw [hframe] at h
        rw [frames_cons_of_some hframe]
        by_cases hdiffers : frame = origin
        · rw [List.find?_cons_of_neg (by simp [hdiffers])]
          exact ih (by simpa [hdiffers] using h)
        · rw [List.find?_cons_of_pos (by simp [hdiffers])]
          simpa [hdiffers, eq_comm] using h

/-- Two entries differ if and only if one differs from the first. -/
theorem exists_ne_cons_iff {β : Type} {a : β} {l : List β} :
    (∃ f ∈ a :: l, ∃ g ∈ a :: l, f ≠ g) ↔ ∃ f ∈ l, f ≠ a := by
  constructor
  · rintro ⟨f, hf, g, hg, hne⟩
    by_cases hfa : f = a
    · refine ⟨g, (List.mem_cons.mp hg).resolve_left fun h => hne (hfa.trans h.symm), ?_⟩
      exact fun h => hne (hfa.trans h.symm)
    · exact ⟨f, (List.mem_cons.mp hf).resolve_left hfa, hfa⟩
  · rintro ⟨f, hf, hne⟩
    exact ⟨f, List.mem_cons_of_mem _ hf, a, List.mem_cons_self, hne⟩

omit [DecidableEq ι] in
theorem scan_iff {chain : List ι} : heap.scan chain = .ok (heap.specified chain) ↔ heap.Readable chain := by
  induction chain with
  | nil => exact iff_of_true rfl (throughout_nil _)
  | cons o rest ih =>
    rw [Readable, throughout_cons]
    by_cases ho : heap.Unreadable o
    · rw [scan, scanOrigin, frameOf_of_unreadable ho]
      refine iff_of_false (fun h => by cases h) fun h => ?_
      obtain ⟨f, hf, -⟩ := h.1 ho
      exact List.not_mem_nil hf
    · cases hframe : heap.ownFrameOf o with
      | none =>
        have hscan : heap.scan (o :: rest) = heap.scan rest := by
          rw [scan, scanOrigin, frameOf_of_readable ho]
          simp only [hframe]
          rfl
        have hspecified : heap.specified (o :: rest) = heap.specified rest := by
          rw [specified, specified, frames_cons_of_none hframe]
        simp only [hscan, hspecified, frames_cons_of_none hframe, ih, ho, false_implies, true_and]
        rfl
      | some origin =>
        have hdiffer (before : List ι) :
            (∃ f ∈ heap.frames (o :: before), ∃ g ∈ heap.frames (o :: before), f ≠ g) ↔
              ∃ f ∈ heap.frames before, f ≠ origin := by
          rw [frames_cons_of_some hframe]
          exact exists_ne_cons_iff
        have hscan : heap.scan (o :: rest) = (heap.scanCauseOrigin origin rest).map fun causeOrigin =>
            ⟨some origin, causeOrigin⟩ := by
          have htruthy : truthyFrame (some origin) = some origin := hframe ▸ truthyFrame_ownFrameOf o
          rw [scan, scanOrigin, frameOf_of_readable ho]
          simp only [hframe, htruthy]
          cases heap.scanCauseOrigin origin rest <;> rfl
        have hspecified : heap.specified (o :: rest) =
            ⟨some origin, (heap.frames rest).find? (· ≠ origin)⟩ := by
          rw [specified, frames_cons_of_some hframe]
        simp only [hscan, hspecified, hdiffer, ho, false_implies, true_and]
        rw [← ReadableFrom, ← scanCauseOrigin_iff]
        cases heap.scanCauseOrigin origin rest with
        | error e => exact iff_of_false (fun h => by cases h) (fun h => by cases h)
        | ok causeOrigin => simp [Except.map]

omit [DecidableEq ι] in
/-- What both loops report, if they get to the end. -/
theorem eq_of_scan {chain : List ι} {resolved : ErrorOrigin} (h : heap.scan chain = .ok resolved) :
    resolved = heap.specified chain := by
  induction chain with
  | nil => exact (Except.ok.inj h).symm
  | cons o rest ih =>
    by_cases ho : heap.Unreadable o
    · rw [scan, scanOrigin, frameOf_of_unreadable ho] at h
      cases h
    · rw [scan, scanOrigin, frameOf_of_readable ho] at h
      simp only [truthyFrame_ownFrameOf] at h
      cases hframe : heap.ownFrameOf o with
      | none =>
        rw [hframe] at h
        rw [specified, frames_cons_of_none hframe]
        exact ih h
      | some origin =>
        rw [hframe] at h
        simp only at h
        rw [specified, frames_cons_of_some hframe]
        cases hfound : heap.scanCauseOrigin origin rest with
        | error e =>
          rw [hfound] at h
          cases h
        | ok found =>
          rw [hfound] at h
          cases h
          rw [eq_of_scanCauseOrigin hfound]

/-- The chain of a value, as the loops go through it. -/
def chainOf (heap : Heap ι) (error : Thrown ι) : List ι := heap.links MAX_CAUSE_DEPTH [] error

/-- **The resolution comes to an end** exactly if the chain can be read. -/
theorem resolves_ok_iff {error : Thrown ι} :
    (∃ resolved, heap.resolveErrorOrigin error = .ok resolved) ↔ heap.Readable (heap.chainOf error) := by
  rw [resolveErrorOrigin_eq, ← scan_iff, chainOf]
  constructor
  · rintro ⟨resolved, h⟩
    rw [h, eq_of_scan h]
  · intro h
    exact ⟨_, h⟩

/-- **The loops report what the chain says** if and only if every error of the chain whose stack counts as
true and is no string comes after two frames that differ. -/
theorem resolves_iff (heap : Heap ι) (error : Thrown ι) :
    ∃ chain, (∀ c, heap.CauseChain error c ↔ c = chain) ∧
      (heap.resolveErrorOrigin error = .ok (heap.specified chain) ↔ heap.Readable chain) := by
  refine ⟨heap.links MAX_CAUSE_DEPTH [] error, fun c => ⟨fun h => ?_, ?_⟩, ?_⟩
  · exact (causeChain_links error).unique h
  · rintro rfl
    exact causeChain_links error
  · rw [resolveErrorOrigin_eq]
    exact scan_iff

/-- An error of the service that wraps an error with an array for its stack. -/
def wrapped : Heap ℕ
  | 0 => ⟨true, some (.string "Error: query failed\n    at run (/repo/src/dao.ts:7:9)"), some (.object 1)⟩
  | _ => ⟨true, some (JsValue.array []), none⟩

/-- **The resolution throws**, where the chain has an origin. -/
theorem stack_array_throws :
    wrapped.CauseChain (.object 0) [0, 1] ∧
      wrapped.specified [0, 1] = ⟨some "src/dao.ts:7 (run)", none⟩ ∧
      wrapped.resolveErrorOrigin (.object 0) = .error splitTypeError := by
  refine ⟨⟨by decide, by decide, .other, .cons (.cons .nil), .inr (.inl rfl)⟩, ?_, ?_⟩
  · decide +kernel
  · rfl

end Heap

end NestDdd.Common
