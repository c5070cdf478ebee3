import NestDdd.Legacy.ClientRequest
import NestDdd.Shared.JsDate
import NestDdd.Shared.LinkField
import NestDdd.Theory.OrderedMap

/-!
# Deprecation headers

`deprecation-headers.util.ts`, the decorator `Deprecated` (`deprecated.decorator.ts`) and `DeprecationInterceptor`
(`deprecation.interceptor.ts`), all under `src/interface/http`: the options are checked when a module is loaded, and
every response of the route gets the headers made of them.

## The model

`z.iso.date` accepts the dates of the calendar as `YYYY-MM-DD`. `z.url` trims the text and accepts what the WHATWG URL
parser accepts, which is the parameter `canParse`; the parser refuses the empty text.

## What is proved

* `parseDeprecatedOptions_isOk` — options are accepted if and only if the schema has no issue with them.
* `decodesBack_iff` — **the headers decode back to the options** if and only if no supplied URL has a closing angle
  bracket or a character Node refuses in a header; the dates always do.
* `newline_in_link` — a URL that is accepted, and breaks every response.
-/

namespace NestDdd.Http.Deprecation

open NestDdd.Shared NestDdd.Theory
open NestDdd.Legacy (isHeaderChar)

/-! ### The options -/

/-- `DeprecatedOptions`. -/
structure DeprecatedOptions where
  /-- `since`. -/
  since : JsString
  /-- `sunset`. -/
  sunset : JsString
  /-- `successor`. -/
  successor : Option JsString
  /-- `link`. -/
  link : Option JsString
  /-- `note`. -/
  note : Option JsString

/-- A text that is a date. -/
structure IsoDate where
  /-- The text. -/
  text : JsString
  /-- The date. -/
  date : Date
  /-- The text is read as the date. -/
  reads : readIsoDate text = some date

/-- `parsed.data`: options that have been accepted. -/
structure ParsedOptions where
  /-- `since`. -/
  since : IsoDate
  /-- `sunset`. -/
  sunset : IsoDate
  /-- `successor`. -/
  successor : Option JsString
  /-- `link`. -/
  link : Option JsString
  /-- `note`. -/
  note : Option JsString
  /-- `sunset` is not less than `since`. -/
  inOrder : lessThan sunset.text since.text = false

/-- An issue of Zod: its path and its message. -/
structure Issue where
  /-- `path`. -/
  path : JsString
  /-- `message`. -/
  message : JsString

section

variable (canParse : JsString → Bool)

/-- `z.iso.date()` of a field. -/
def dateIssues (path value : JsString) : List Issue :=
  if (readIsoDate value).isSome then [] else [⟨path, "Invalid ISO date"⟩]

/-- `z.url().optional()` of a field. -/
def urlIssues (path : JsString) : Option JsString → List Issue
  | none => []
  | some value => if canParse value.trim then [] else [⟨path, "Invalid URL"⟩]

/-- The `superRefine` of `deprecatedOptionsSchema`. -/
def orderIssues (since sunset : JsString) : List Issue :=
  if lessThan sunset since then
    [⟨"sunset", JsString.ofString "sunset (" ++ sunset ++ JsString.ofString ") must not be earlier than since (" ++
      since ++ JsString.ofString ")"⟩]
  else []

/-- The issues `deprecatedOptionsSchema` has with options. -/
def issues (options : DeprecatedOptions) : List Issue :=
  dateIssues "since" options.since ++ (dateIssues "sunset" options.sunset ++
    (urlIssues canParse "successor" options.successor ++ (urlIssues canParse "link" options.link ++
      orderIssues options.since options.sunset)))

/-- `formatZodError`: the message and the details. -/
def formatZodError (issues : List Issue) : JsString × List JsString :=
  ("Validation failed", issues.map fun i =>
    if i.path = [] then i.message else i.path ++ JsString.ofString ": " ++ i.message)

/-- The text of the error `parseDeprecatedOptions` throws. -/
def errorText (issues : List Issue) : JsString :=
  JsString.ofString "Invalid @Deprecated(...) options: " ++ (formatZodError issues).1 ++ JsString.ofString ": " ++
    (JsString.ofString "; ").intercalate (formatZodError issues).2

theorem isSome_of_dateIssues {path value : JsString} (h : dateIssues path value = []) : (readIsoDate value).isSome := by
  rw [dateIssues] at h
  split at h
  · next hsome => exact hsome
  · cases h

theorem lessThan_of_orderIssues {since sunset : JsString} (h : orderIssues since sunset = []) :
    lessThan sunset since = false := by
  rw [orderIssues] at h
  split at h
  · cases h
  · next hnot => exact Bool.eq_false_iff.mpr hnot

/-- `parseDeprecatedOptions`. -/
def parseDeprecatedOptions (options : DeprecatedOptions) : Except JsString ParsedOptions :=
  if h : issues canParse options = [] then
    have h := List.append_eq_nil_iff.mp h
    have h' := List.append_eq_nil_iff.mp h.2
    .ok {
      since := ⟨options.since, _, Option.some_get (isSome_of_dateIssues h.1) |>.symm⟩
      sunset := ⟨options.sunset, _, Option.some_get (isSome_of_dateIssues h'.1) |>.symm⟩
      successor := options.successor.map JsString.trim
      link := options.link.map JsString.trim
      note := options.note
      inOrder := lessThan_of_orderIssues
        (List.append_eq_nil_iff.mp (List.append_eq_nil_iff.mp h'.2).2).2 }
  else .error (errorText (issues canParse options))

end

/-! ### The headers -/

/-- `DeprecationHeaders`. -/
structure DeprecationHeaders where
  /-- `Deprecation`. -/
  deprecation : JsString
  /-- `Sunset`. -/
  sunset : JsString
  /-- `Link`. -/
  link : Option JsString

/-- `<url>; rel="relation"`, if there is a URL. -/
def linkValue (relation : JsString) : Option JsString → Option JsString
  | none => none
  | some url =>
    if url = [] then none
    else some (0x3C :: (url ++ 0x3E :: (JsString.ofString "; rel=\"" ++ relation ++ JsString.ofString "\"")))

/-- `formatDeprecationHeaders`. -/
def formatDeprecationHeaders (options : ParsedOptions) : DeprecationHeaders :=
  let links := [linkValue "successor-version" options.successor, linkValue "deprecation" options.link].filterMap id
  { deprecation := 0x40 :: integerToString (midnight options.since.date / 1000)
    sunset := toUTCString (midnight options.sunset.date)
    link := if links.length > 0 then some ((JsString.ofString ", ").intercalate links) else none }

/-- The description `Deprecated` gives Swagger. -/
def description (options : ParsedOptions) : JsString :=
  let since := JsString.ofString "Deprecated since " ++ options.since.text ++ JsString.ofString "; sunset " ++
    options.sunset.text ++ JsString.ofString "."
  (JsString.ofString " ").intercalate ([since, options.note.getD []].filter fun part => !part.isEmpty)

/-- `Deprecated`: the metadata and the description it sets, or the error it throws. -/
def Deprecated (canParse : JsString → Bool) (options : DeprecatedOptions) :
    Except JsString (DeprecationHeaders × JsString) :=
  (parseDeprecatedOptions canParse options).map fun parsed => (formatDeprecationHeaders parsed, description parsed)

/-! ### The interceptor -/

/-- A response's headers. -/
abbrev Response := OrderedMap JsString JsString

/-- `res.setHeader(name, value)`; the error is `ERR_INVALID_CHAR`. -/
def setHeader (res : Response) (name value : JsString) : Except JsString Response :=
  if value.all isHeaderChar then .ok (res.set name.toLowerCase value)
  else .error (JsString.ofString "Invalid character in header content [\"" ++ name ++ JsString.ofString "\"]")

/-- One header after the other, up to one that throws. -/
def setHeaders : List (JsString × JsString) → Response → Response × Option JsString
  | [], res => (res, none)
  | (name, value) :: rest, res =>
    match setHeader res name value with
    | .ok res => setHeaders rest res
    | .error e => (res, some e)

/-- The headers `DeprecationInterceptor` sets. -/
def DeprecationHeaders.fields (headers : DeprecationHeaders) : List (JsString × JsString) :=
  (JsString.ofString "Deprecation", headers.deprecation) :: (JsString.ofString "Sunset", headers.sunset) ::
    ((headers.link.filter fun link => !link.isEmpty).map fun link => (JsString.ofString "Link", link)).toList

/-- `DeprecationInterceptor.intercept`, before `next.handle()`: the response, and what it throws. -/
def intercept (metadata : Option DeprecationHeaders) (res : Response) : Response × Option JsString :=
  match metadata with
  | none => (res, none)
  | some headers => setHeaders headers.fields res

/-! ### What is expected -/

/-- The URLs that are supplied, trimmed, with their relations. -/
def supplied (options : DeprecatedOptions) : List (JsString × JsString) :=
  (options.successor.map fun url => (url.trim, JsString.ofString "successor-version")).toList ++
    (options.link.map fun url => (url.trim, JsString.ofString "deprecation")).toList

/-- The values of the headers. -/
def DeprecationHeaders.values (headers : DeprecationHeaders) : List JsString :=
  headers.deprecation :: headers.sunset :: headers.link.toList

/-- The second a `Deprecation` header names: `@` and an integer. -/
def readDeprecation (s : JsString) : Option ℤ := if s.head? = some 0x40 then readInteger s.tail else none

/-- The headers decode back to the options, and break no response. -/
structure DecodesBack (options : DeprecatedOptions) (headers : DeprecationHeaders) : Prop where
  /-- Node accepts the values. -/
  valid : ∀ value ∈ headers.values, value.all isHeaderChar = true
  /-- No response is broken. -/
  unbroken : ∀ res, (intercept (some headers) res).2 = none
  /-- `Deprecation` is the midnight of `since`, `Sunset` that of `sunset`, and the one is not after the other. -/
  dates : ∃ since sunset, readIsoDate options.since = some since ∧ readIsoDate options.sunset = some sunset ∧
    readDeprecation headers.deprecation = some (beginning since) ∧
    readHttpDate headers.sunset = some (beginning sunset) ∧ beginning since ≤ beginning sunset
  /-- `Link` has the URLs that were supplied, in order. -/
  links : (headers.link.map readLinks).getD [] = supplied options
  /-- There is none if none were. -/
  noLink : headers.link = none ↔ supplied options = []

/-- A URL that stays whole between angle brackets, and that Node sends. -/
def Sendable (url : JsString) : Prop := 0x3E ∉ url ∧ url.all isHeaderChar = true
  deriving Decidable

/-! ### Options that are accepted -/

variable {canParse : JsString → Bool} {options : DeprecatedOptions} {parsed : ParsedOptions}

theorem parseDeprecatedOptions_ok (h : parseDeprecatedOptions canParse options = .ok parsed) :
    issues canParse options = [] ∧ readIsoDate options.since = some parsed.since.date ∧
      readIsoDate options.sunset = some parsed.sunset.date ∧ parsed.successor = options.successor.map JsString.trim ∧
      parsed.link = options.link.map JsString.trim := by
  rw [parseDeprecatedOptions] at h
  split at h
  · next hnone =>
    cases h
    exact ⟨hnone, (Option.some_get _).symm, (Option.some_get _).symm, rfl, rfl⟩
  · cases h

/-- **Options are accepted** if and only if there is no issue with them. -/
theorem parseDeprecatedOptions_isOk :
    (∃ parsed, parseDeprecatedOptions canParse options = .ok parsed) ↔ issues canParse options = [] := by
  constructor
  · rintro ⟨parsed, h⟩
    exact (parseDeprecatedOptions_ok h).1
  · intro h
    exact ⟨_, dif_pos h⟩

theorem canParse_of_urlIssues {path : JsString} {value : Option JsString} (h : urlIssues canParse path value = []) :
    ∀ url, value.map JsString.trim = some url → canParse url = true := by
  rintro url hurl
  obtain ⟨text, rfl, rfl⟩ := Option.map_eq_some_iff.mp hurl
  rw [urlIssues] at h
  split at h
  · next hok => exact hok
  · cases h

/-! ### The links -/

/-- A link as it is written. -/
def linkText (link : JsString × JsString) : JsString :=
  0x3C :: (link.1 ++ 0x3E :: (JsString.ofString "; rel=\"" ++ link.2 ++ JsString.ofString "\""))

/-- A supplied URL is written unless it is empty, which no accepted one is. -/
theorem linkValue_eq (hempty : canParse [] = false) {path relation : JsString} {value : Option JsString}
    (h : urlIssues canParse path value = []) :
    linkValue relation (value.map JsString.trim) = value.map fun url => linkText (url.trim, relation) := by
  cases value with
  | none => rfl
  | some text =>
    have hparse := canParse_of_urlIssues h text.trim rfl
    have hne : text.trim ≠ [] := by
      intro hnil
      rw [hnil, hempty] at hparse
      cases hparse
    rw [Option.map_some, linkValue, if_neg hne]
    rfl

/-- **The `Link` header** has the links that are supplied, with commas between them. -/
theorem link_eq (hempty : canParse [] = false) (h : parseDeprecatedOptions canParse options = .ok parsed) :
    (formatDeprecationHeaders parsed).link = if supplied options = [] then none
      else some ((JsString.ofString ", ").intercalate ((supplied options).map linkText)) := by
  obtain ⟨hissues, -, -, hsuccessor, hlink⟩ := parseDeprecatedOptions_ok h
  have h₁ := List.append_eq_nil_iff.mp (List.append_eq_nil_iff.mp (List.append_eq_nil_iff.mp hissues).2).2
  have h₂ := (List.append_eq_nil_iff.mp h₁.2).1
  rw [formatDeprecationHeaders, hsuccessor, hlink, linkValue_eq hempty h₁.1, linkValue_eq hempty h₂, supplied]
  cases options.successor <;> cases options.link <;> rfl

/-- The relations that are written. -/
def IsRelation (relation : JsString) : Prop := relation = "successor-version" ∨ relation = "deprecation"

theorem supplied_relation {link : JsString × JsString} (h : link ∈ supplied options) : IsRelation link.2 := by
  rcases List.mem_append.mp h with h | h
  · obtain ⟨url, -, rfl⟩ := Option.map_eq_some_iff.mp (Option.mem_toList.mp h)
    exact .inl rfl
  · obtain ⟨url, -, rfl⟩ := Option.map_eq_some_iff.mp (Option.mem_toList.mp h)
    exact .inr rfl

/-- Parameters are read as they are written, up to a comma or the end. -/
theorem readParameters_written {relation rest : JsString} (h : IsRelation relation)
    (hrest : rest = [] ∨ ∃ more, rest = 0x2C :: more) (n : ℕ) :
    readParameters (n + 1) (JsString.ofString "; rel=\"" ++ relation ++ JsString.ofString "\"" ++ rest) =
      ([(JsString.ofString "rel", relation)], rest) := by
  rcases h with rfl | rfl <;> rcases hrest with rfl | ⟨more, rfl⟩ <;> cases n <;> rfl

theorem relations_written {relation : JsString} (h : IsRelation relation) :
    relations [(JsString.ofString "rel", relation)] = [relation] := by
  rcases h with rfl | rfl <;> rfl

/-- A link is read as it is written, and then what follows it. -/
theorem readLinksFrom_written {link : JsString × JsString} {rest : JsString} (hrelation : IsRelation link.2)
    (htarget : 0x3E ∉ link.1) (hrest : rest = [] ∨ ∃ more, rest = 0x2C :: more) (n : ℕ) :
    readLinksFrom (n + 1) (linkText link ++ rest) = link :: readLinksFrom n (skipComma rest) := by
  have htext : linkText link ++ rest =
      0x3C :: (link.1 ++ 0x3E :: (JsString.ofString "; rel=\"" ++ link.2 ++ JsString.ofString "\"" ++ rest)) := by
    rw [linkText, List.cons_append, List.append_assoc, List.cons_append]
  rw [htext, readLinksFrom_link htarget (readParameters_written hrelation hrest _), relations_written hrelation]
  rfl

/-- **The links are read back.** -/
theorem readLinksFrom_joined {links : List (JsString × JsString)} (hrelation : ∀ link ∈ links, IsRelation link.2)
    (htarget : ∀ link ∈ links, 0x3E ∉ link.1) {n : ℕ} (hn : links.length ≤ n) :
    readLinksFrom n ((JsString.ofString ", ").intercalate (links.map linkText)) = links := by
  induction links generalizing n with
  | nil => exact readLinksFrom_nil n
  | cons link links ih =>
    obtain ⟨n, rfl⟩ : ∃ m, n = m + 1 := ⟨n - 1, by rw [List.length_cons] at hn; omega⟩
    obtain ⟨hrel, hrelation⟩ := List.forall_mem_cons.mp hrelation
    obtain ⟨htar, htarget⟩ := List.forall_mem_cons.mp htarget
    have hrest := ih hrelation htarget (n := n) (Nat.le_of_succ_le_succ hn)
    cases links with
    | nil =>
      have hread := readLinksFrom_written hrel htar (.inl rfl) n
      rw [List.append_nil] at hread
      rw [List.map_singleton, List.intercalate_singleton, hread]
      exact congrArg (List.cons link) (readLinksFrom_nil n)
    | cons next links =>
      have hread := readLinksFrom_written hrel htar
        (.inr ⟨0x20 :: (JsString.ofString ", ").intercalate ((next :: links).map linkText), rfl⟩) n
      rw [List.map_cons, List.map_cons, List.intercalate_cons_cons, ← List.map_cons, List.append_assoc]
      refine hread.trans (congrArg (List.cons link) ?_)
      exact (readLinksFrom_blank n _).trans hrest

/-! ### The characters of the headers -/

theorem isHeaderChar_of_isDecimalDigit {u : UInt16} (h : isDecimalDigit u = true) : isHeaderChar u = true := by
  rw [isDecimalDigit, Bool.and_eq_true, decide_eq_true_iff, decide_eq_true_iff] at h
  have hle : u ≤ 0x7E := UInt16.le_trans h.2 (by decide)
  have hge : 0x20 ≤ u := UInt16.le_trans (by decide) h.1
  rw [isHeaderChar, decide_eq_true hle, decide_eq_true hge, Bool.and_self, Bool.or_true, Bool.true_or]

theorem all_isHeaderChar_of_isDecimalDigit {s : JsString} (h : ∀ u ∈ s, isDecimalDigit u = true) :
    s.all isHeaderChar = true :=
  List.all_eq_true.mpr fun u hu => isHeaderChar_of_isDecimalDigit (h u hu)

theorem all_integerToString (z : ℤ) : (integerToString z).all isHeaderChar = true := by
  have hminus : ∀ negative, (minusText negative).all isHeaderChar = true := by
    intro negative
    cases negative <;> rfl
  rw [integerToString, List.all_append, hminus, all_isHeaderChar_of_isDecimalDigit (isDigits_natToString _).2,
    Bool.and_self]

theorem all_getD {names : List JsString} (h : names.all (fun name => name.all isHeaderChar) = true) (i : ℕ) :
    (names.getD i []).all isHeaderChar = true := by
  rw [List.getD_eq_getElem?_getD]
  cases hname : names[i]? with
  | none => rfl
  | some name => exact List.all_eq_true.mp h name (List.mem_of_getElem? hname)

theorem all_toUTCString (d : Date) (hyear : d.year < 10000) : (toUTCString (midnight d)).all isHeaderChar = true := by
  have hdigits : ∀ w n, (lastDigits w n).all isHeaderChar = true := fun w n =>
    all_isHeaderChar_of_isDecimalDigit (lastDigits_isDigit w n)
  have hday : dayNames.all (fun name => name.all isHeaderChar) = true := rfl
  have hmonth : monthNames.all (fun name => name.all isHeaderChar) = true := rfl
  rw [toUTCString_midnight d hyear]
  simp only [List.all_append, hdigits, all_getD hday, all_getD hmonth, Bool.and_true, Bool.true_and]
  rfl

theorem all_intercalate {p : UInt16 → Bool} {sep : JsString} (hsep : sep.all p = true) (pieces : List JsString) :
    (sep.intercalate pieces).all p = pieces.all fun piece => piece.all p := by
  induction pieces with
  | nil => rfl
  | cons piece pieces ih =>
    cases pieces with
    | nil => rw [List.intercalate_singleton, List.all_cons, List.all_nil, Bool.and_true]
    | cons next pieces =>
      rw [List.intercalate_cons_cons, List.all_append, List.all_append, hsep, Bool.and_true, ih]
      rfl

theorem all_linkText {link : JsString × JsString} (h : IsRelation link.2) :
    (linkText link).all isHeaderChar = link.1.all isHeaderChar := by
  have hrelation :
      (JsString.ofString "; rel=\"" ++ link.2 ++ JsString.ofString "\"").all isHeaderChar = true := by
    rcases h with h | h <;> rw [h] <;> rfl
  rw [linkText, List.all_cons, List.all_append, List.all_cons, hrelation, Bool.and_true]
  exact Bool.and_true _

/-- **Node accepts the links** if and only if it accepts every target. -/
theorem all_joined {links : List (JsString × JsString)}
    (hrelation : ∀ link ∈ links, IsRelation link.2) :
    ((JsString.ofString ", ").intercalate (links.map linkText)).all isHeaderChar = true ↔
      ∀ link ∈ links, link.1.all isHeaderChar = true := by
  have hsep : (JsString.ofString ", ").all isHeaderChar = true := rfl
  rw [all_intercalate hsep, List.all_map, List.all_eq_true]
  exact forall₂_congr fun link hlink => by rw [Function.comp_apply, all_linkText (hrelation link hlink)]

/-! ### The response -/

variable {headers : DeprecationHeaders} {res : Response} {text : JsString}

/-- Nothing is thrown if and only if Node accepts every value. -/
theorem setHeaders_quiet (fields : List (JsString × JsString)) (res : Response) :
    (setHeaders fields res).2 = none ↔ ∀ field ∈ fields, field.2.all isHeaderChar = true := by
  induction fields generalizing res with
  | nil => exact iff_of_true rfl nofun
  | cons field rest ih =>
    obtain ⟨name, value⟩ := field
    rw [List.forall_mem_cons, setHeaders, setHeader]
    split
    · next heq =>
      split at heq
      · next hall => exact (ih _).trans (and_iff_right hall).symm
      · cases heq
    · next heq =>
      split at heq
      · cases heq
      · next hall => exact iff_of_false nofun fun h => hall h.1

/-- **A response is not broken** if and only if Node accepts the values. -/
theorem intercept_quiet :
    (intercept (some headers) res).2 = none ↔ ∀ value ∈ headers.values, value.all isHeaderChar = true := by
  rw [intercept, setHeaders_quiet, DeprecationHeaders.fields, DeprecationHeaders.values, List.forall_mem_cons,
    List.forall_mem_cons, List.forall_mem_cons, List.forall_mem_cons]
  refine and_congr_right fun _ => and_congr_right fun _ => ?_
  rcases headers.link with - | - | ⟨c, link⟩ <;> simp [Option.filter]

/-! ### Decoding -/

theorem Deprecated_ok (h : Deprecated canParse options = .ok (headers, text)) :
    ∃ parsed, parseDeprecatedOptions canParse options = .ok parsed ∧ headers = formatDeprecationHeaders parsed := by
  rw [Deprecated] at h
  cases hparse : parseDeprecatedOptions canParse options with
  | error e =>
    rw [hparse] at h
    cases h
  | ok parsed =>
    rw [hparse] at h
    cases h
    exact ⟨parsed, rfl, rfl⟩

/-- Options are accepted by the decorator if and only if there is no issue with them. -/
theorem Deprecated_isOk :
    (∃ headers text, Deprecated canParse options = .ok (headers, text)) ↔ issues canParse options = [] := by
  rw [← parseDeprecatedOptions_isOk]
  constructor
  · rintro ⟨headers, text, h⟩
    obtain ⟨parsed, hparse, -⟩ := Deprecated_ok h
    exact ⟨parsed, hparse⟩
  · rintro ⟨parsed, hparse⟩
    refine ⟨formatDeprecationHeaders parsed, description parsed, ?_⟩
    rw [Deprecated, hparse]
    rfl

theorem deprecation_eq (parsed : ParsedOptions) :
    (formatDeprecationHeaders parsed).deprecation = 0x40 :: integerToString (beginning parsed.since.date) := by
  have hseconds : midnight parsed.since.date / 1000 = beginning parsed.since.date := by
    rw [midnight, makeDay_eq, beginning]
    omega
  rw [← hseconds]
  rfl

/-- **The dates are sent as they are**, and in order. -/
theorem dates_eq (parsed : ParsedOptions) :
    readDeprecation (formatDeprecationHeaders parsed).deprecation = some (beginning parsed.since.date) ∧
      readHttpDate (formatDeprecationHeaders parsed).sunset = some (beginning parsed.sunset.date) ∧
      beginning parsed.since.date ≤ beginning parsed.sunset.date := by
  refine ⟨?_, readHttpDate_toUTCString _ (year_lt parsed.sunset.reads),
    beginning_le_of_not_lessThan parsed.since.reads parsed.sunset.reads parsed.inOrder⟩
  rw [deprecation_eq, readDeprecation, List.head?_cons, if_pos rfl, List.tail_cons]
  exact readInteger_integerToString _

/-- Node accepts the headers if and only if it accepts the URLs. -/
theorem valid_iff (hempty : canParse [] = false) (h : parseDeprecatedOptions canParse options = .ok parsed) :
    (∀ value ∈ (formatDeprecationHeaders parsed).values, value.all isHeaderChar = true) ↔
      ∀ link ∈ supplied options, link.1.all isHeaderChar = true := by
  have hdeprecation : (formatDeprecationHeaders parsed).deprecation.all isHeaderChar = true := by
    rw [deprecation_eq, List.all_cons, all_integerToString]
    rfl
  have hsunset : (formatDeprecationHeaders parsed).sunset.all isHeaderChar = true :=
    all_toUTCString _ (year_lt parsed.sunset.reads)
  rw [DeprecationHeaders.values, List.forall_mem_cons, List.forall_mem_cons, and_iff_right hdeprecation,
    and_iff_right hsunset, link_eq hempty h]
  split
  · next hnone =>
    rw [hnone]
    exact iff_of_true nofun nofun
  · rw [Option.toList_some, List.forall_mem_singleton]
    exact all_joined fun link => supplied_relation

/-- There are no more links than characters. -/
theorem length_le_joined (links : List (JsString × JsString)) :
    links.length ≤ ((JsString.ofString ", ").intercalate (links.map linkText)).length := by
  induction links with
  | nil => exact Nat.zero_le _
  | cons link links ih =>
    cases links with
    | nil =>
      rw [List.map_singleton, List.intercalate_singleton, linkText, List.length_singleton, List.length_cons]
      exact Nat.succ_le_succ (Nat.zero_le _)
    | cons next links =>
      rw [List.map_cons, List.map_cons, List.intercalate_cons_cons, ← List.map_cons, List.length_append,
        List.length_append, List.length_cons]
      have hsep : 1 ≤ (JsString.ofString ", ").length := by decide
      omega

/-- **The links are read back** if and only if no target has a closing angle bracket. -/
theorem links_iff (hempty : canParse [] = false) (h : parseDeprecatedOptions canParse options = .ok parsed) :
    ((formatDeprecationHeaders parsed).link.map readLinks).getD [] = supplied options ↔
      ∀ link ∈ supplied options, 0x3E ∉ link.1 := by
  have hread : supplied options ≠ [] → ((formatDeprecationHeaders parsed).link.map readLinks).getD [] =
      readLinks ((JsString.ofString ", ").intercalate ((supplied options).map linkText)) := by
    intro hsome
    rw [link_eq hempty h, if_neg hsome]
    rfl
  constructor
  · intro hlinks link hlink
    rw [hread (List.ne_nil_of_mem hlink)] at hlinks
    rw [← hlinks] at hlink
    exact target_not_mem hlink
  · intro htarget
    by_cases hnone : supplied options = []
    · rw [link_eq hempty h, if_pos hnone, hnone]
      rfl
    · rw [hread hnone]
      exact readLinksFrom_joined (fun link => supplied_relation) htarget (length_le_joined _)

/-- **The headers decode back to the options** if and only if each URL that is supplied can be sent whole. -/
theorem decodesBack_iff (canParse : JsString → Bool) (hempty : canParse [] = false) {options : DeprecatedOptions}
    {headers : DeprecationHeaders} {text : JsString} (h : Deprecated canParse options = .ok (headers, text)) :
    DecodesBack options headers ↔ ∀ link ∈ supplied options, Sendable link.1 := by
  obtain ⟨parsed, hparse, rfl⟩ := Deprecated_ok h
  obtain ⟨-, hsince, hsunset, -, -⟩ := parseDeprecatedOptions_ok hparse
  have hvalid := valid_iff hempty hparse
  have hlinks := links_iff hempty hparse
  constructor
  · intro hdecodes link hlink
    exact ⟨hlinks.mp hdecodes.links link hlink, hvalid.mp hdecodes.valid link hlink⟩
  · intro hsendable
    have hall := hvalid.mpr fun link hlink => (hsendable link hlink).2
    exact {
      valid := hall
      unbroken := fun res => intercept_quiet.mpr hall
      dates := ⟨_, _, hsince, hsunset, dates_eq parsed⟩
      links := hlinks.mpr fun link hlink => (hsendable link hlink).1
      noLink := by
        rw [link_eq hempty hparse]
        split
        · next hnone => exact iff_of_true rfl hnone
        · next hsome => exact iff_of_false (Option.some_ne_none _) hsome }

/-- The options of the example in `deprecated.decorator.ts`. -/
def documentedOptions : DeprecatedOptions where
  since := "2026-01-01"
  sunset := "2026-12-31"
  successor := some (JsString.ofString "https://api.example.com/v2/orders")
  link := some (JsString.ofString "https://docs.example.com/deprecations/orders-v1")
  note := some (JsString.ofString "Use v2 instead; v1 stops serving after the sunset date.")

/-- The same options with a line break in the first URL, which the parser drops. -/
def brokenOptions : DeprecatedOptions :=
  { documentedOptions with successor := some (JsString.ofString "https://api.example.com/v2\n/orders") }

/-- A parser that accepts the URLs of these options. -/
def canParseHttps (url : JsString) : Bool := (JsString.ofString "https://").isPrefixOf url

theorem decodesBack_documented :
    ∃ headers text, Deprecated canParseHttps documentedOptions = .ok (headers, text) ∧
      DecodesBack documentedOptions headers := by
  obtain ⟨headers, text, h⟩ := Deprecated_isOk.mpr (show issues canParseHttps documentedOptions = [] by decide)
  exact ⟨headers, text, h, (decodesBack_iff canParseHttps rfl h).mpr (by decide)⟩

/-- **A line break in a URL** is accepted when the module is loaded, and no response can be sent. -/
theorem newline_in_link :
    ∃ headers text, Deprecated canParseHttps brokenOptions = .ok (headers, text) ∧
      (∀ res, (intercept (some headers) res).2 ≠ none) ∧ ¬DecodesBack brokenOptions headers := by
  obtain ⟨headers, text, h⟩ := Deprecated_isOk.mpr (show issues canParseHttps brokenOptions = [] by decide)
  obtain ⟨parsed, hparse, rfl⟩ := Deprecated_ok h
  have hvalid := (@valid_iff canParseHttps _ _ rfl hparse).not.mpr (by decide)
  refine ⟨_, text, h, fun res hquiet => hvalid (intercept_quiet.mp hquiet), fun hdecodes => hvalid hdecodes.valid⟩

end NestDdd.Http.Deprecation
