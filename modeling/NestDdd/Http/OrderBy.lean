import NestDdd.Shared.Js
import NestDdd.Theory.Path

/-!
# The order of a list

`parseOrderBy` (`src/interface/http/schemas/order-by.util.ts`), which reads the order that a request asks
for, and what `OffsetQuerySchema` and `CursorQuerySchema` (`pagination.schema.ts`) let through to it.

## The model

`orderDir.parse` throws for anything but the two directions, and with it the whole call; `none` is a call that
throws. A grammar says what is to be accepted: parts `field:dir` with commas between them.

## What is proved

* `isOrderBy_of_schemas` — what the schemas let through is in the grammar.
* `parsesAsSpecified_iff` — **a text is parsed by the grammar** if and only if one of its parts has no direction
  after its first colon, or each part has a field and one colon.
* `junk_is_dropped` — a text that is accepted, and not all of it kept.
-/

namespace NestDdd.Http

open NestDdd.Shared NestDdd.Theory

/-- `','`. -/
abbrev comma : UInt16 := 0x2C

/-- `':'`. -/
abbrev colon : UInt16 := 0x3A

/-! ### `parseOrderBy` -/

/-- `'asc' | 'desc'`. -/
inductive OrderDir where
  /-- `'asc'`. -/
  | asc
  /-- `'desc'`. -/
  | desc
  deriving DecidableEq

/-- Its text. -/
def OrderDir.text : OrderDir → JsString
  | asc => "asc"
  | desc => "desc"

/-- `orderDir.parse(value)`. -/
def orderDirParse (value : Option JsString) : Option OrderDir :=
  if value = some (JsString.ofString "asc") then some .asc
  else if value = some (JsString.ofString "desc") then some .desc
  else none

/-- `OrderByPart`. -/
structure OrderByPart where
  /-- `field`. -/
  field : JsString
  /-- `dir`. -/
  dir : OrderDir
  deriving DecidableEq

/-- What `parseOrderBy` makes of a segment. -/
def parsePart (seg : JsString) : Option OrderByPart :=
  match seg.splitOn colon with
  | [] => none
  | field :: rest => (orderDirParse rest.head?).map fun dir => ⟨field, dir⟩

/-- The segments one after the other. -/
def parseParts : List JsString → Option (List OrderByPart)
  | [] => some []
  | seg :: rest =>
    match parsePart seg with
    | none => none
    | some part => (parseParts rest).map (part :: ·)

/-- `parseOrderBy`. -/
def parseOrderBy (input : JsString) : Option (List OrderByPart) := parseParts (input.splitOn comma)

/-! ### The schemas -/

/-- `[a-zA-Z0-9_]`. -/
def isWord (u : UInt16) : Bool :=
  (0x61 ≤ u && u ≤ 0x7A) || (0x41 ≤ u && u ≤ 0x5A) || (0x30 ≤ u && u ≤ 0x39) || u == 0x5F

/-- `:(asc|desc)`. -/
def directions : List JsString := [":asc", ":desc"]

/-- `/^[a-zA-Z0-9_]+:(asc|desc)$/`. -/
def isOffsetOrderBy (s : JsString) : Bool :=
  !(s.takeWhile isWord).isEmpty && directions.contains (s.dropWhile isWord)

/-- `/^[a-zA-Z0-9_]+:(asc|desc)(,id:(asc|desc))?$/`. -/
def isCursorOrderBy (s : JsString) : Bool :=
  !(s.takeWhile isWord).isEmpty &&
    (directions.flatMap fun first =>
      first :: directions.map fun second => first ++ JsString.ofString ",id" ++ second).contains (s.dropWhile isWord)

/-- `OffsetQuerySchema.orderBy`: what it makes of the query's value, if it accepts it. -/
def offsetOrderBy : Option JsString → Option JsString
  | none => some (JsString.ofString "createdAt:desc")
  | some s => if isOffsetOrderBy s then some s else none

/-- `CursorQuerySchema.orderBy`. -/
def cursorOrderBy : Option JsString → Option JsString
  | none => some (JsString.ofString "createdAt:desc,id:desc")
  | some s => if isCursorOrderBy s then some s else none

/-! ### The grammar -/

/-- `field:dir`. -/
def OrderByPart.text (part : OrderByPart) : JsString := part.field ++ colon :: part.dir.text

/-- The parts with commas between them. -/
def joined (parts : List OrderByPart) : JsString := [comma].intercalate (parts.map OrderByPart.text)

/-- **The grammar**: parts with a field each, which has neither separator in it. -/
def IsOrderBy (s : JsString) : Prop :=
  ∃ parts : List OrderByPart, parts ≠ [] ∧ (∀ p ∈ parts, p.field ≠ [] ∧ comma ∉ p.field ∧ colon ∉ p.field) ∧
    s = joined parts

/-- **What is expected** of a text. -/
structure ParsesAsSpecified (s : JsString) : Prop where
  /-- It is accepted if it is in the grammar, and only then. -/
  accepted : (∃ parts, parseOrderBy s = some parts) ↔ IsOrderBy s
  /-- What it is read as is written as it was. -/
  roundTrip : ∀ parts, parseOrderBy s = some parts → joined parts = s
  /-- It is accepted if one of the schemas lets it through. -/
  schemas : (∃ value, offsetOrderBy value = some s ∨ cursorOrderBy value = some s) →
    ∃ parts, parseOrderBy s = some parts

/-! ### Parts -/

variable {s seg : JsString} {p : OrderByPart} {parts : List OrderByPart} {segs : List JsString}

/-- A direction has no separators. -/
theorem OrderDir.not_mem_text (dir : OrderDir) : comma ∉ dir.text ∧ colon ∉ dir.text := by
  cases dir <;> decide

theorem orderDirParse_eq_some_iff {value : Option JsString} {dir : OrderDir} :
    orderDirParse value = some dir ↔ value = some dir.text := by
  rw [orderDirParse]
  constructor
  · intro h
    split at h
    · next hasc =>
      obtain rfl := Option.some.inj h
      exact hasc
    · split at h
      · next hdesc =>
        obtain rfl := Option.some.inj h
        exact hdesc
      · cases h
  · rintro rfl
    cases dir <;> rfl

/-- A field up to the first colon, and a direction up to the next one or to the end. -/
def Directed (seg : JsString) : Prop :=
  ∃ (p : OrderByPart) (rest : JsString), colon ∉ p.field ∧ seg = p.text ++ rest ∧ (rest = [] ∨ [colon] <+: rest)

/-- **What a segment is read as.** -/
theorem parsePart_eq_some_iff :
    parsePart seg = some p ↔ colon ∉ p.field ∧ ∃ rest, seg = p.text ++ rest ∧ (rest = [] ∨ [colon] <+: rest) := by
  constructor
  · intro h
    rw [parsePart] at h
    split at h
    · cases h
    · next field pieces hsplit =>
      obtain ⟨dir, hdir, rfl⟩ := Option.map_eq_some_iff.mp h
      obtain ⟨more, rfl⟩ := List.head?_eq_some_iff.mp (orderDirParse_eq_some_iff.mp hdir)
      refine ⟨Path.not_mem_of_mem_splitOn (hsplit ▸ List.mem_cons_self), Path.slashed colon more, ?_, ?_⟩
      · rw [Path.eq_slashed hsplit, OrderByPart.text]
        simp
      · cases more with
        | nil => exact .inl rfl
        | cons piece more => exact .inr ⟨piece ++ Path.slashed colon more, rfl⟩
  · rintro ⟨hfield, rest, rfl, hrest⟩
    have hpieces : ∃ more, (p.dir.text ++ rest).splitOn colon = p.dir.text :: more := by
      rcases hrest with rfl | ⟨r, rfl⟩
      · rw [List.append_nil, Path.splitOn_of_not_mem p.dir.not_mem_text.2]
        exact ⟨[], rfl⟩
      · rw [List.singleton_append, List.splitOn_append_cons_self, Path.splitOn_of_not_mem p.dir.not_mem_text.2]
        exact ⟨_, rfl⟩
    obtain ⟨more, hmore⟩ := hpieces
    have hsplit : (p.text ++ rest).splitOn colon = p.field :: p.dir.text :: more := by
      rw [OrderByPart.text, List.append_assoc, List.cons_append, List.splitOn_append_cons_self,
        Path.splitOn_of_not_mem hfield, hmore]
      rfl
    have hdir : orderDirParse (p.dir.text :: more).head? = some p.dir := orderDirParse_eq_some_iff.mpr rfl
    simp only [parsePart, hsplit, hdir, Option.map_some]

theorem directed_iff : Directed seg ↔ ∃ p, parsePart seg = some p := by
  constructor
  · rintro ⟨p, rest, hfield, hseg, hrest⟩
    exact ⟨p, parsePart_eq_some_iff.mpr ⟨hfield, rest, hseg, hrest⟩⟩
  · rintro ⟨p, hp⟩
    obtain ⟨hfield, rest, hseg, hrest⟩ := parsePart_eq_some_iff.mp hp
    exact ⟨p, rest, hfield, hseg, hrest⟩

/-- A part as it is written is read as itself. -/
theorem parsePart_text (h : colon ∉ p.field) : parsePart p.text = some p := by
  apply parsePart_eq_some_iff.mpr
  exact ⟨h, [], (List.append_nil _).symm, .inl rfl⟩

/-! ### Lists of parts -/

theorem exists_parts_iff : (∃ parts, parseParts segs = some parts) ↔ ∀ seg ∈ segs, Directed seg := by
  induction segs with
  | nil => exact iff_of_true ⟨[], rfl⟩ (by simp)
  | cons seg segs ih =>
    rw [List.forall_mem_cons, ← ih, directed_iff, parseParts]
    cases parsePart seg with
    | none => simp
    | some part => simp

/-- Parts as they are written are read as themselves. -/
theorem parseParts_text (h : ∀ p ∈ parts, colon ∉ p.field) :
    parseParts (parts.map OrderByPart.text) = some parts := by
  induction parts with
  | nil => rfl
  | cons p parts ih =>
    obtain ⟨hp, hparts⟩ := List.forall_mem_cons.mp h
    rw [List.map_cons, parseParts, parsePart_text hp]
    simp only [ih hparts]
    rfl

theorem splitOn_joined (hne : parts ≠ []) (h : ∀ p ∈ parts, comma ∉ p.field) :
    (joined parts).splitOn comma = parts.map OrderByPart.text := by
  apply List.splitOn_intercalate comma
  · intro l hl
    obtain ⟨p, hp, rfl⟩ := List.mem_map.mp hl
    have hcolon : comma ≠ colon := by decide
    rw [OrderByPart.text, List.mem_append, List.mem_cons, not_or, not_or]
    exact ⟨h p hp, hcolon, p.dir.not_mem_text.1⟩
  · simpa using hne

/-- Texts that are written as parts are the texts of a list of parts. -/
theorem exists_map_text {P : OrderByPart → Prop} (h : ∀ seg ∈ segs, ∃ p, P p ∧ seg = p.text) :
    ∃ parts : List OrderByPart, (∀ p ∈ parts, P p) ∧ segs = parts.map OrderByPart.text := by
  induction segs with
  | nil => exact ⟨[], by simp, rfl⟩
  | cons seg segs ih =>
    obtain ⟨⟨p, hp, rfl⟩, hsegs⟩ := List.forall_mem_cons.mp h
    obtain ⟨parts, hparts, rfl⟩ := ih hsegs
    exact ⟨p :: parts, List.forall_mem_cons.mpr ⟨hp, hparts⟩, rfl⟩

/-- **The grammar**, said of the texts between the commas. -/
theorem isOrderBy_iff :
    IsOrderBy s ↔ ∀ seg ∈ s.splitOn comma, ∃ p : OrderByPart, (p.field ≠ [] ∧ colon ∉ p.field) ∧ seg = p.text := by
  constructor
  · rintro ⟨parts, hne, hparts, rfl⟩ seg hseg
    rw [splitOn_joined hne fun p hp => (hparts p hp).2.1] at hseg
    obtain ⟨p, hp, rfl⟩ := List.mem_map.mp hseg
    exact ⟨p, ⟨(hparts p hp).1, (hparts p hp).2.2⟩, rfl⟩
  · intro h
    obtain ⟨parts, hparts, hsegs⟩ := exists_map_text h
    refine ⟨parts, ?_, fun p hp => ⟨(hparts p hp).1, ?_, (hparts p hp).2⟩, ?_⟩
    · rintro rfl
      exact List.splitOn_ne_nil comma s hsegs
    · intro hm
      have hseg : p.text ∈ s.splitOn comma := by
        rw [hsegs]
        exact List.mem_map_of_mem hp
      exact Path.not_mem_of_mem_splitOn hseg (List.mem_append_left _ hm)
    · rw [joined, ← hsegs, List.intercalate_splitOn]

/-- **A text of the grammar is read back.** -/
theorem IsOrderBy.parse (h : IsOrderBy s) : ∃ parts, parseOrderBy s = some parts ∧ joined parts = s := by
  obtain ⟨parts, hne, hparts, rfl⟩ := h
  refine ⟨parts, ?_, rfl⟩
  rw [parseOrderBy, splitOn_joined hne fun p hp => (hparts p hp).2.1]
  exact parseParts_text fun p hp => (hparts p hp).2.2

/-! ### What the schemas let through -/

/-- A text of word characters has no separators. -/
theorem not_mem_of_isWord {l : JsString} (h : ∀ u ∈ l, isWord u = true) : comma ∉ l ∧ colon ∉ l := by
  constructor
  · intro hm
    exact absurd (h comma hm) (by decide)
  · intro hm
    exact absurd (h colon hm) (by decide)

theorem mem_directions_iff {d : JsString} : d ∈ directions ↔ ∃ dir : OrderDir, d = colon :: dir.text := by
  constructor
  · intro h
    rw [directions, List.mem_cons, List.mem_singleton] at h
    rcases h with rfl | rfl
    · exact ⟨.asc, rfl⟩
    · exact ⟨.desc, rfl⟩
  · rintro ⟨dir, rfl⟩
    cases dir with
    | asc => exact List.mem_cons_self
    | desc => exact List.mem_cons_of_mem _ List.mem_cons_self

theorem joined_singleton (p : OrderByPart) : joined [p] = p.text := by simp [joined]

theorem joined_pair (p q : OrderByPart) : joined [p, q] = p.text ++ comma :: q.text := by simp [joined]

/-- A field with one direction, or with an `id` and another one after it. -/
theorem isOrderBy_of_field {field rest : JsString} (hne : field ≠ []) (hword : ∀ u ∈ field, isWord u = true)
    (hrest : ∃ first : OrderDir, rest = colon :: first.text ∨
      ∃ second : OrderDir, rest = colon :: first.text ++ JsString.ofString ",id" ++ colon :: second.text) :
    IsOrderBy (field ++ rest) := by
  obtain ⟨hcomma, hcolon⟩ := not_mem_of_isWord hword
  obtain ⟨first, rfl | ⟨second, rfl⟩⟩ := hrest
  · refine ⟨[⟨field, first⟩], List.cons_ne_nil _ _, ?_, (joined_singleton ⟨field, first⟩).symm⟩
    intro p hp
    obtain rfl := List.mem_singleton.mp hp
    exact ⟨hne, hcomma, hcolon⟩
  · refine ⟨[⟨field, first⟩, ⟨JsString.ofString "id", second⟩], List.cons_ne_nil _ _, ?_, ?_⟩
    · intro p hp
      rw [List.mem_cons, List.mem_singleton] at hp
      rcases hp with rfl | rfl
      · exact ⟨hne, hcomma, hcolon⟩
      · have hid : JsString.ofString "id" ≠ [] ∧ comma ∉ JsString.ofString "id" ∧ colon ∉ JsString.ofString "id" := by
          decide
        exact hid
    · rw [joined_pair, OrderByPart.text, OrderByPart.text,
        show JsString.ofString ",id" = comma :: JsString.ofString "id" from rfl]
      simp

/-- What is read of a text by a class, if anything is. -/
theorem takeWhile_isWord (h : (!(s.takeWhile isWord).isEmpty) = true) :
    s.takeWhile isWord ≠ [] ∧ ∀ u ∈ s.takeWhile isWord, isWord u = true := by
  refine ⟨by simpa using h, ?_⟩
  intro u hu
  exact List.mem_takeWhile_imp hu

theorem isOrderBy_of_offset (h : isOffsetOrderBy s = true) : IsOrderBy s := by
  rw [isOffsetOrderBy, Bool.and_eq_true] at h
  obtain ⟨hne, hword⟩ := takeWhile_isWord h.1
  obtain ⟨dir, hdir⟩ := mem_directions_iff.mp (List.contains_iff_mem.mp h.2)
  have hs : IsOrderBy (s.takeWhile isWord ++ s.dropWhile isWord) :=
    isOrderBy_of_field hne hword ⟨dir, .inl hdir⟩
  rwa [List.takeWhile_append_dropWhile] at hs

theorem isOrderBy_of_cursor (h : isCursorOrderBy s = true) : IsOrderBy s := by
  rw [isCursorOrderBy, Bool.and_eq_true] at h
  obtain ⟨hne, hword⟩ := takeWhile_isWord h.1
  obtain ⟨first, hfirst, hrest⟩ := List.mem_flatMap.mp (List.contains_iff_mem.mp h.2)
  obtain ⟨dir, rfl⟩ := mem_directions_iff.mp hfirst
  have hs : IsOrderBy (s.takeWhile isWord ++ s.dropWhile isWord) := by
    apply isOrderBy_of_field hne hword
    refine ⟨dir, ?_⟩
    rcases List.mem_cons.mp hrest with heq | hrest
    · exact .inl heq
    · obtain ⟨second, hsecond, heq⟩ := List.mem_map.mp hrest
      obtain ⟨dir', rfl⟩ := mem_directions_iff.mp hsecond
      exact .inr ⟨dir', heq.symm⟩
  rwa [List.takeWhile_append_dropWhile] at hs

/-- **What the schemas let through** is in the grammar. -/
theorem isOrderBy_of_schemas {value : Option JsString}
    (h : offsetOrderBy value = some s ∨ cursorOrderBy value = some s) : IsOrderBy s := by
  rcases h with h | h
  · cases value with
    | none =>
      obtain rfl := Option.some.inj h
      exact isOrderBy_of_offset (by decide)
    | some v =>
      rw [offsetOrderBy] at h
      split at h
      · next hv =>
        obtain rfl := Option.some.inj h
        exact isOrderBy_of_offset hv
      · cases h
  · cases value with
    | none =>
      obtain rfl := Option.some.inj h
      exact isOrderBy_of_cursor (by decide)
    | some v =>
      rw [cursorOrderBy] at h
      split at h
      · next hv =>
        obtain rfl := Option.some.inj h
        exact isOrderBy_of_cursor hv
      · cases h

/-! ### The parser and the grammar -/

/-- A field, one colon and a direction, said of a text that has a direction after its first colon. -/
theorem Directed.plain_iff (h : Directed seg) :
    (seg.head? ≠ some colon ∧ seg.count colon = 1) ↔
      ∃ p : OrderByPart, (p.field ≠ [] ∧ colon ∉ p.field) ∧ seg = p.text := by
  have hcount {p : OrderByPart} (hp : colon ∉ p.field) (rest : JsString) :
      (p.text ++ rest).count colon = 1 + rest.count colon := by
    have hfield : p.field.count colon = 0 := List.count_eq_zero.mpr hp
    have hdir : p.dir.text.count colon = 0 := List.count_eq_zero.mpr p.dir.not_mem_text.2
    have hsum : (p.text ++ rest).count colon =
        p.field.count colon + (p.dir.text.count colon + 1) + rest.count colon := by
      rw [List.count_append, OrderByPart.text, List.count_append, List.count_cons_self]
    omega
  constructor
  · rintro ⟨hhead, hone⟩
    obtain ⟨p, rest, hp, rfl, hrest⟩ := h
    rw [hcount hp] at hone
    have hnil : rest = [] := by
      rcases hrest with rfl | ⟨r, rfl⟩
      · rfl
      · rw [List.singleton_append, List.count_cons_self] at hone
        omega
    refine ⟨p, ⟨?_, hp⟩, by rw [hnil, List.append_nil]⟩
    intro hfield
    apply hhead
    rw [OrderByPart.text, hfield]
    rfl
  · rintro ⟨p, ⟨hne, hp⟩, rfl⟩
    constructor
    · intro hhead
      obtain ⟨u, field, hfield⟩ := List.exists_cons_of_ne_nil hne
      rw [OrderByPart.text, hfield] at hhead
      obtain rfl : u = colon := Option.some.inj hhead
      exact hp (hfield ▸ List.mem_cons_self)
    · simpa using hcount hp []

/-- A text of the grammar has a direction in each part. -/
theorem IsOrderBy.directed (h : IsOrderBy s) : ∀ seg ∈ s.splitOn comma, Directed seg := by
  intro seg hseg
  obtain ⟨p, ⟨-, hp⟩, rfl⟩ := isOrderBy_iff.mp h seg hseg
  exact directed_iff.mpr ⟨p, parsePart_text hp⟩

theorem IsOrderBy.parsesAsSpecified (h : IsOrderBy s) : ParsesAsSpecified s := by
  obtain ⟨parts, hparse, hjoined⟩ := h.parse
  refine ⟨iff_of_true ⟨parts, hparse⟩ h, ?_, fun _ => ⟨parts, hparse⟩⟩
  intro parts' hparse'
  obtain rfl := Option.some.inj (hparse.symm.trans hparse')
  exact hjoined

/-- **A text is parsed by the grammar** if and only if one of its parts has no direction after its first colon,
or each of them has a field and one colon. -/
theorem parsesAsSpecified_iff (s : JsString) :
    ParsesAsSpecified s ↔
      (∃ seg ∈ s.splitOn comma, ¬ Directed seg) ∨
        ∀ seg ∈ s.splitOn comma, seg.head? ≠ some colon ∧ seg.count colon = 1 := by
  by_cases hdirected : ∀ seg ∈ s.splitOn comma, Directed seg
  · have hgrammar : IsOrderBy s ↔ ∀ seg ∈ s.splitOn comma, seg.head? ≠ some colon ∧ seg.count colon = 1 := by
      rw [isOrderBy_iff]
      exact forall₂_congr fun seg hseg => (hdirected seg hseg).plain_iff.symm
    have hnone : ¬ ∃ seg ∈ s.splitOn comma, ¬ Directed seg := by
      rintro ⟨seg, hseg, hnot⟩
      exact hnot (hdirected seg hseg)
    rw [or_iff_right hnone, ← hgrammar]
    constructor
    · intro h
      exact h.accepted.mp (exists_parts_iff.mpr hdirected)
    · exact IsOrderBy.parsesAsSpecified
  · -- neither the parser nor the grammar accepts it
    have hgrammar : ¬ IsOrderBy s := fun h => hdirected h.directed
    have hparse : ¬ ∃ parts, parseOrderBy s = some parts := fun h => hdirected (exists_parts_iff.mp h)
    refine iff_of_true ⟨iff_of_false hparse hgrammar, ?_, ?_⟩ (.inl ?_)
    · intro parts hparts
      exact absurd ⟨parts, hparts⟩ hparse
    · rintro ⟨value, hvalue⟩
      exact absurd (isOrderBy_of_schemas hvalue) hgrammar
    · simpa using hdirected

/-- **A text that is accepted**, and not all of it kept. -/
theorem junk_is_dropped :
    parseOrderBy "createdAt:asc:junk" = some [⟨"createdAt", .asc⟩] ∧
      joined [⟨"createdAt", .asc⟩] ≠ JsString.ofString "createdAt:asc:junk" ∧
      ¬ ParsesAsSpecified "createdAt:asc:junk" := by
  have hparse : parseOrderBy "createdAt:asc:junk" = some [⟨"createdAt", .asc⟩] := by decide
  have hjoined : joined [⟨"createdAt", .asc⟩] ≠ JsString.ofString "createdAt:asc:junk" := by decide
  exact ⟨hparse, hjoined, fun h => hjoined (h.roundTrip _ hparse)⟩

end NestDdd.Http
