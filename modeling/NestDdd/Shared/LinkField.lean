import NestDdd.Shared.Js

/-!
# The Link header

The reader of RFC 8288 (Appendix B): links are targets between angle brackets, each with parameters, and a link has one
relation for each word of its first parameter `rel`. A quoted value may have escapes.

## What is proved

* `target_not_mem` — no target has a closing angle bracket.
* `readLinksFrom_link` — a link without one in its target is read, and then what follows its comma.
-/

namespace NestDdd.Shared

/-- `OWS`. -/
def isOws (u : UInt16) : Bool := u == 0x20 || u == 0x9

/-- What is behind leading white space. -/
def skipOws (s : JsString) : JsString := s.dropWhile isOws

/-- A quoted string, after its first quote: the value, and what is behind it. -/
def readQuoted : JsString → JsString × JsString
  | [] => ([], [])
  | [u] => if u == 0x22 || u == 0x5C then ([], []) else ([u], [])
  | u :: v :: s =>
    if u == 0x22 then ([], v :: s)
    else if u == 0x5C then (v :: (readQuoted s).1, (readQuoted s).2)
    else (u :: (readQuoted (v :: s)).1, (readQuoted (v :: s)).2)

/-- A character of a parameter's name. -/
def isNameChar (u : UInt16) : Bool := !(isOws u || u == 0x3D || u == 0x3B || u == 0x2C)

/-- A character of a value without quotes. -/
def isValueChar (u : UInt16) : Bool := !(u == 0x3B || u == 0x2C)

/-- The value behind a name. -/
def readValue (s : JsString) : JsString × JsString :=
  if s.head? = some 0x3D then
    if (skipOws s.tail).head? = some 0x22 then readQuoted (skipOws s.tail).tail
    else ((skipOws s.tail).takeWhile isValueChar, (skipOws s.tail).dropWhile isValueChar)
  else ([], s)

/-- At most `n` parameters, and what is behind them. -/
def readParameters : ℕ → JsString → List (JsString × JsString) × JsString
  | 0, s => ([], s)
  | n + 1, s =>
    let s := skipOws s
    if s.head? = some 0x3B then
      let s := skipOws s.tail
      let value := readValue (skipOws (s.dropWhile isNameChar))
      let rest := readParameters n value.2
      ((JsString.toLowerCase (s.takeWhile isNameChar), value.1) :: rest.1, rest.2)
    else ([], s)

/-- The words of a text. -/
def words (s : JsString) : List JsString := (s.splitOnP isOws).filter fun w => !w.isEmpty

/-- The relations that parameters name. -/
def relations (parameters : List (JsString × JsString)) : List JsString :=
  (words ((parameters.lookup (JsString.ofString "rel")).getD [])).map JsString.toLowerCase

/-- A character of a target. -/
def isTargetChar (u : UInt16) : Bool := u != 0x3E

/-- The link in front, with its relations, and what is behind it. -/
def readLink (s : JsString) : Option ((JsString × List JsString) × JsString) :=
  if s.head? = some 0x3C ∧ (s.tail.dropWhile isTargetChar).head? = some 0x3E then
    let parameters := readParameters s.length (s.tail.dropWhile isTargetChar).tail
    some ((s.tail.takeWhile isTargetChar, relations parameters.1), parameters.2)
  else none

/-- What is behind a comma, if there is one. -/
def skipComma (s : JsString) : JsString := if s.head? = some 0x2C then s.tail else s

/-- At most `n` links. -/
def readLinksFrom : ℕ → JsString → List (JsString × JsString)
  | 0, _ => []
  | n + 1, s =>
    match readLink (skipOws s) with
    | none => []
    | some (link, rest) => link.2.map (fun relation => (link.1, relation)) ++ readLinksFrom n (skipComma rest)

/-- The targets and relations of a field's value, in order. -/
def readLinks (s : JsString) : List (JsString × JsString) := readLinksFrom s.length s

variable {n : ℕ} {s target : JsString} {link : JsString × JsString}

/-- **No target has a closing angle bracket.** -/
theorem target_not_mem (h : link ∈ readLinksFrom n s) : 0x3E ∉ link.1 := by
  induction n generalizing s with
  | zero => exact absurd h List.not_mem_nil
  | succ n ih =>
    rw [readLinksFrom] at h
    split at h
    · exact absurd h List.not_mem_nil
    · next found rest hread =>
      rcases List.mem_append.mp h with h | h
      · obtain ⟨relation, -, rfl⟩ := List.mem_map.mp h
        rw [readLink] at hread
        split at hread
        · cases hread
          intro hm
          exact absurd (List.all_eq_true.mp List.all_takeWhile _ hm) Bool.false_ne_true
        · cases hread
      · exact ih h

theorem readLinksFrom_nil (n : ℕ) : readLinksFrom n [] = [] := by cases n <;> rfl

theorem readLinksFrom_blank (n : ℕ) (s : JsString) : readLinksFrom n (0x20 :: s) = readLinksFrom n s := by
  cases n <;> rfl

/-- **A link is read**, if its target has no closing angle bracket and its parameters are read. -/
theorem readLinksFrom_link {tail rest : JsString} {parameters : List (JsString × JsString)} (htarget : 0x3E ∉ target)
    (hparameters : readParameters (0x3C :: (target ++ 0x3E :: tail)).length tail = (parameters, rest)) (n : ℕ) :
    readLinksFrom (n + 1) (0x3C :: (target ++ 0x3E :: tail)) =
      (relations parameters).map (fun relation => (target, relation)) ++ readLinksFrom n (skipComma rest) := by
  have hall : ∀ u ∈ target, isTargetChar u = true := by
    intro u hu
    rw [isTargetChar, bne_iff_ne]
    rintro rfl
    exact htarget hu
  have hskip : skipOws (0x3C :: (target ++ 0x3E :: tail)) = 0x3C :: (target ++ 0x3E :: tail) := rfl
  have hdrop : (target ++ 0x3E :: tail).dropWhile isTargetChar = 0x3E :: tail := by
    rw [List.dropWhile_append_of_pos hall]
    rfl
  have htake : (target ++ 0x3E :: tail).takeWhile isTargetChar = target := by
    rw [List.takeWhile_append_of_pos hall, List.takeWhile_cons_of_neg (by decide), List.append_nil]
  have hread : readLink (0x3C :: (target ++ 0x3E :: tail)) = some ((target, relations parameters), rest) := by
    rw [readLink, List.tail_cons, hdrop, if_pos ⟨rfl, rfl⟩, List.tail_cons, hparameters, htake]
  rw [readLinksFrom, hskip, hread]

end NestDdd.Shared
