import Mathlib.Data.Nat.Digits.Defs
import Mathlib.Data.List.Basic
import Mathlib.Data.List.TakeWhile
import Mathlib.Tactic.IntervalCases

/-!
# HTTP/1.1 messages as bytes

A reader of requests, as a server applies it to the bytes of a connection: a head of
lines, a body delimited by `Content-Length` or by the chunked coding, and whatever
follows, which is the start of the next request. Beside it the writers whose output it
reads back.

## What is proved

* `readRequest_writeHead` — a written head reads back as its method, target and fields,
  and leaves the decision about the body to `framing`.
* `readChunks_writeChunks` — a chunked body reads back as the bytes of its chunks, and
  what follows it is left.

## Honest scope

Chunk extensions are not read: a size line is a number.
-/

namespace NestDdd.Theory.Http

/-- A string of bytes. -/
abbrev Bytes := List UInt8

/-- An ASCII text. -/
def ascii (s : String) : Bytes := s.toList.map fun c => UInt8.ofNat c.toNat

/-- The end of a line. -/
def crlf : Bytes := [13, 10]

/-! ### Lines -/

/-- The bytes up to the first end of line, and what follows it. -/
def readLine : Bytes → Option (Bytes × Bytes)
  | [] => none
  | b :: s =>
    if b = 13 ∧ s.head? = some 10 then some ([], s.tail)
    else (readLine s).map fun p => (b :: p.1, p.2)

/-- The lines up to the first empty one, and what follows it. -/
def readLines : ℕ → Bytes → Option (List Bytes × Bytes)
  | 0, _ => none
  | fuel + 1, s =>
    (readLine s).bind fun p =>
      if p.1 = [] then some ([], p.2) else (readLines fuel p.2).map fun q => (p.1 :: q.1, q.2)

/-- Lines and an empty one. -/
def writeLines (lines : List Bytes) : Bytes := (lines.flatMap fun line => line ++ crlf) ++ crlf

theorem readLine_append {line : Bytes} (h : 13 ∉ line) (s : Bytes) :
    readLine (line ++ crlf ++ s) = some (line, s) := by
  induction line with
  | nil => simp [readLine, crlf]
  | cons b line ih =>
    have hb : b ≠ 13 := fun he => h (by simp [he])
    have hline : 13 ∉ line := fun hm => h (List.mem_cons_of_mem _ hm)
    rw [List.cons_append, List.cons_append, readLine, if_neg (fun hc => hb hc.1), ih hline]
    rfl

theorem readLines_writeLines {lines : List Bytes} (h : ∀ line ∈ lines, line ≠ [] ∧ 13 ∉ line)
    {fuel : ℕ} (hfuel : lines.length < fuel) (s : Bytes) :
    readLines fuel (writeLines lines ++ s) = some (lines, s) := by
  induction lines generalizing fuel with
  | nil =>
    obtain ⟨fuel, rfl⟩ := Nat.exists_eq_add_one_of_ne_zero (Nat.pos_iff_ne_zero.mp hfuel)
    have hread : readLine (writeLines [] ++ s) = some ([], s) := readLine_append (by simp) s
    simp [readLines, hread]
  | cons line lines ih =>
    obtain ⟨fuel, rfl⟩ := Nat.exists_eq_add_one_of_ne_zero (Nat.ne_zero_of_lt hfuel)
    obtain ⟨hne, hcr⟩ := h line List.mem_cons_self
    have hsplit : writeLines (line :: lines) ++ s = line ++ crlf ++ (writeLines lines ++ s) := by
      simp [writeLines]
    have hlen : lines.length < fuel := by simpa using hfuel
    rw [hsplit, readLines, readLine_append hcr, Option.bind_some, if_neg hne,
      ih (fun l hl => h l (List.mem_cons_of_mem _ hl)) hlen]
    rfl

theorem length_le_length_writeLines (lines : List Bytes) : lines.length < (writeLines lines).length := by
  induction lines with
  | nil => simp [writeLines, crlf]
  | cons line lines ih =>
    have hsplit : writeLines (line :: lines) = line ++ crlf ++ writeLines lines := by simp [writeLines]
    rw [hsplit]
    simp only [List.length_append, List.length_cons, crlf]
    omega

/-! ### Numbers -/

/-- The value of a digit. -/
def readDigit (b : UInt8) : Option ℕ :=
  if 48 ≤ b ∧ b ≤ 57 then some (b.toNat - 48)
  else if 97 ≤ b ∧ b ≤ 102 then some (b.toNat - 87)
  else if 65 ≤ b ∧ b ≤ 70 then some (b.toNat - 55)
  else none

/-- One more digit. -/
def readStep (base n : ℕ) (b : UInt8) : Option ℕ :=
  (readDigit b).bind fun d => if d < base then some (n * base + d) else none

/-- A number in a base of at most 16. -/
def readNat (base : ℕ) (s : Bytes) : Option ℕ := if s = [] then none else s.foldlM (readStep base) 0

/-- A digit below 16, in lower case. -/
def writeDigit (d : ℕ) : UInt8 := if d < 10 then UInt8.ofNat (48 + d) else UInt8.ofNat (87 + d)

/-- A number in hexadecimal. -/
def writeHex (n : ℕ) : Bytes := if n = 0 then [48] else (Nat.digits 16 n).reverse.map writeDigit

theorem readDigit_writeDigit {d : ℕ} (h : d < 16) : readDigit (writeDigit d) = some d := by
  interval_cases d <;> rfl

theorem writeDigit_ne_cr {d : ℕ} (h : d < 16) : writeDigit d ≠ 13 := by
  interval_cases d <;> decide

theorem foldlM_writeDigit {ds : List ℕ} (h : ∀ d ∈ ds, d < 16) :
    (ds.reverse.map writeDigit).foldlM (readStep 16) 0 = some (Nat.ofDigits 16 ds) := by
  induction ds with
  | nil => simp
  | cons d ds ih =>
    have hd : d < 16 := h d List.mem_cons_self
    have hds := ih fun d' hd' => h d' (List.mem_cons_of_mem _ hd')
    rw [List.reverse_cons, List.map_append, List.foldlM_append, hds]
    simp [readStep, readDigit_writeDigit hd, hd, Nat.ofDigits_cons]
    omega

theorem readNat_writeHex (n : ℕ) : readNat 16 (writeHex n) = some n := by
  unfold writeHex readNat
  by_cases hn : n = 0
  · subst hn
    rfl
  · have hne : (Nat.digits 16 n).reverse.map writeDigit ≠ [] := by
      simpa using Nat.digits_ne_nil_iff_ne_zero.mpr hn
    rw [if_neg hn, if_neg hne, foldlM_writeDigit fun d hd => Nat.digits_lt_base (by omega) hd,
      Nat.ofDigits_digits]

theorem cr_notMem_writeHex (n : ℕ) : 13 ∉ writeHex n := by
  unfold writeHex
  by_cases hn : n = 0
  · rw [if_pos hn]
    decide
  · rw [if_neg hn]
    intro hm
    obtain ⟨d, hd, he⟩ := List.mem_map.mp hm
    exact writeDigit_ne_cr (Nat.digits_lt_base (by omega) (List.mem_reverse.mp hd)) he

/-- A text with a byte that is no digit of the base is no number. -/
theorem readNat_eq_none {base : ℕ} {s : Bytes} {b : UInt8} (hb : b ∈ s) (hd : readDigit b = none) :
    readNat base s = none := by
  have hfold : ∀ n, s.foldlM (readStep base) n = none := by
    induction s with
    | nil => cases hb
    | cons b' s ih =>
      intro n
      rw [List.foldlM_cons]
      rcases List.mem_cons.mp hb with rfl | hb
      · simp [readStep, hd]
      · cases hstep : readStep base n b' with
        | none => rfl
        | some n' => exact ih hb n'
  unfold readNat
  split
  · rfl
  · exact hfold 0

/-! ### The chunked coding -/

/-- One chunk. -/
def writeChunk (chunk : Bytes) : Bytes := writeHex chunk.length ++ crlf ++ chunk ++ crlf

/-- The chunks, the last chunk and no trailer. -/
def writeChunks (chunks : List Bytes) : Bytes := chunks.flatMap writeChunk ++ (writeHex 0 ++ crlf ++ crlf)

/-- The bytes of the chunks, and what follows the trailer. -/
def readChunks : ℕ → Bytes → Option (Bytes × Bytes)
  | 0, _ => none
  | fuel + 1, s =>
    (readLine s).bind fun p =>
      (readNat 16 p.1).bind fun n =>
        if n = 0 then (readLines fuel p.2).map fun q => ([], q.2)
        else if (p.2.drop n).take 2 = crlf then
          (readChunks fuel (p.2.drop (n + 2))).map fun q => (p.2.take n ++ q.1, q.2)
        else none

theorem readChunks_writeChunks {chunks : List Bytes} (h : ∀ chunk ∈ chunks, chunk ≠ []) {fuel : ℕ}
    (hfuel : chunks.length + 1 < fuel) (s : Bytes) :
    readChunks fuel (writeChunks chunks ++ s) = some (chunks.flatten, s) := by
  induction chunks generalizing fuel with
  | nil =>
    obtain ⟨fuel, rfl⟩ := Nat.exists_eq_add_one_of_ne_zero (Nat.ne_zero_of_lt hfuel)
    have hsplit : writeChunks [] ++ s = writeHex 0 ++ crlf ++ (writeLines [] ++ s) := by
      simp [writeChunks, writeLines]
    have hend : readLines fuel (writeLines [] ++ s) = some ([], s) :=
      readLines_writeLines (by simp) (by simpa using hfuel) s
    rw [hsplit, readChunks, readLine_append (cr_notMem_writeHex 0), Option.bind_some,
      readNat_writeHex, Option.bind_some, if_pos rfl, hend]
    rfl
  | cons chunk chunks ih =>
    obtain ⟨fuel, rfl⟩ := Nat.exists_eq_add_one_of_ne_zero (Nat.ne_zero_of_lt hfuel)
    have hpos : chunk.length ≠ 0 := fun he => h chunk List.mem_cons_self (List.length_eq_zero_iff.mp he)
    have hsplit : writeChunks (chunk :: chunks) ++ s =
        writeHex chunk.length ++ crlf ++ (chunk ++ (crlf ++ (writeChunks chunks ++ s))) := by
      simp [writeChunks, writeChunk]
    have hdrop : (chunk ++ (crlf ++ (writeChunks chunks ++ s))).drop (chunk.length + 2) =
        writeChunks chunks ++ s := by
      rw [← List.drop_drop, List.drop_left]
      rfl
    have hend : ((chunk ++ (crlf ++ (writeChunks chunks ++ s))).drop chunk.length).take 2 = crlf := by
      rw [List.drop_left]
      rfl
    rw [hsplit, readChunks, readLine_append (cr_notMem_writeHex _), Option.bind_some, readNat_writeHex,
      Option.bind_some, if_neg hpos, if_pos hend, hdrop,
      ih (fun c hc => h c (List.mem_cons_of_mem _ hc)) (by simpa using hfuel), List.take_left]
    rfl

theorem length_lt_length_writeChunks (chunks : List Bytes) :
    chunks.length + 1 < (writeChunks chunks).length := by
  induction chunks with
  | nil => decide
  | cons chunk chunks ih =>
    have hsplit : writeChunks (chunk :: chunks) = writeChunk chunk ++ writeChunks chunks := by
      simp [writeChunks]
    rw [hsplit]
    simp only [writeChunk, List.length_append, List.length_cons, crlf]
    omega

/-! ### The head -/

/-- A letter in lower case. -/
def lower (b : UInt8) : UInt8 := if 65 ≤ b ∧ b ≤ 90 then b + 32 else b

/-- A space or a tab. -/
def isBlank (b : UInt8) : Bool := b = 32 || b = 9

/-- Without the blanks at both ends. -/
def trim (s : Bytes) : Bytes := ((s.dropWhile isBlank).reverse.dropWhile isBlank).reverse

theorem mem_dropWhile {p : UInt8 → Bool} {s : Bytes} {b : UInt8} (hb : b ∈ s) (hp : p b = false) :
    b ∈ s.dropWhile p := by
  have hsplit := List.takeWhile_append_dropWhile (p := p) (l := s)
  rw [← hsplit, List.mem_append] at hb
  rcases hb with hb | hb
  · have htake := List.mem_takeWhile_imp hb
    simp [hp] at htake
  · exact hb

theorem mem_trim {s : Bytes} {b : UInt8} (hb : b ∈ s) (hp : isBlank b = false) : b ∈ trim s := by
  have hdrop := mem_dropWhile (List.mem_reverse.mpr (mem_dropWhile hb hp)) hp
  exact List.mem_reverse.mpr hdrop

theorem trim_eq_self {s : Bytes} (h : ∀ b ∈ s, isBlank b = false) : trim s = s := by
  have hdrop : ∀ t : Bytes, (∀ b ∈ t, isBlank b = false) → t.dropWhile isBlank = t := by
    intro t ht
    cases t with
    | nil => rfl
    | cons b t => simp [ht b List.mem_cons_self]
  rw [trim, hdrop s h, hdrop s.reverse fun b hb => h b (List.mem_reverse.mp hb), List.reverse_reverse]

/-- A number has no blanks. -/
theorem trim_of_readNat {s : Bytes} {n : ℕ} (h : readNat 10 s = some n) : trim s = s := by
  refine trim_eq_self fun b hb => ?_
  by_contra hblank
  have hnone : readDigit b = none := by
    simp only [isBlank, Bool.not_eq_false, Bool.or_eq_true, decide_eq_true_eq] at hblank
    rcases hblank with rfl | rfl <;> decide
  rw [readNat_eq_none hb hnone] at h
  cases h

/-- A character of a token. -/
def isTokenByte (b : UInt8) : Bool :=
  (48 ≤ b && b ≤ 57) || (65 ≤ b && b ≤ 90) || (97 ≤ b && b ≤ 122) ||
    (ascii "!#$%&'*+-.^_|~").contains b || b = 96

/-- A field, with its name in lower case and its value trimmed. -/
def readField (line : Bytes) : Option (Bytes × Bytes) :=
  match line.dropWhile (· ≠ 58) with
  | [] => none
  | _ :: value =>
    if line.takeWhile (· ≠ 58) ≠ [] ∧ (line.takeWhile (· ≠ 58)).all isTokenByte then
      some ((line.takeWhile (· ≠ 58)).map lower, trim value)
    else none

/-- A field as a line. -/
def writeField (f : Bytes × Bytes) : Bytes := f.1 ++ ascii ": " ++ f.2

/-- The target, in front of the version. -/
def readTarget (s : Bytes) : Option Bytes :=
  if s.takeWhile (· ≠ 32) ≠ [] ∧ s.dropWhile (· ≠ 32) = ascii " HTTP/1.1" then some (s.takeWhile (· ≠ 32))
  else none

/-- The method and the target of a request line. -/
def readStart (line : Bytes) : Option (Bytes × Bytes) :=
  if line.takeWhile (· ≠ 32) = [] then none
  else (readTarget ((line.dropWhile (· ≠ 32)).drop 1)).map fun target => (line.takeWhile (· ≠ 32), target)

/-- A request line. -/
def writeStart (method target : Bytes) : Bytes := method ++ 32 :: (target ++ ascii " HTTP/1.1")

/-- How the body is delimited. -/
inductive Framing where
  /-- By its length. -/
  | length (n : ℕ)
  /-- By the chunked coding. -/
  | chunked
  deriving DecidableEq

/-- The values of a field. -/
def valuesOf (name : Bytes) (fields : List (Bytes × Bytes)) : List Bytes :=
  (fields.filter fun f => f.1 = name).map Prod.snd

/-- How the values of the two fields delimit the body: a transfer coding comes before a length, and a
request with neither has no body. -/
def framingOf (codings lengths : List Bytes) : Option Framing :=
  match codings with
  | [] =>
    match lengths with
    | [] => some (.length 0)
    | [v] => (readNat 10 v).map .length
    | _ => none
  | [v] => if v.map lower = ascii "chunked" then some .chunked else none
  | _ => none

/-- How the fields delimit the body. -/
def framing (fields : List (Bytes × Bytes)) : Option Framing :=
  framingOf (valuesOf (ascii "transfer-encoding") fields) (valuesOf (ascii "content-length") fields)

/-- The body, and what follows it. -/
def readBody (f : Framing) (s : Bytes) : Option (Bytes × Bytes) :=
  match f with
  | .length n => if n ≤ s.length then some (s.take n, s.drop n) else none
  | .chunked => readChunks s.length s

/-- A length takes the whole of what is there if and only if it is its length. -/
theorem readBody_length_iff {n : ℕ} {s : Bytes} : readBody (.length n) s = some (s, []) ↔ n = s.length := by
  have hread : readBody (.length n) s = if n ≤ s.length then some (s.take n, s.drop n) else none := rfl
  rw [hread]
  constructor
  · intro h
    by_cases hle : n ≤ s.length
    · rw [if_pos hle, Option.some.injEq, Prod.mk.injEq, List.drop_eq_nil_iff] at h
      exact le_antisymm hle h.2
    · rw [if_neg hle] at h
      cases h
  · rintro rfl
    simp

/-- A request. -/
structure Request where
  /-- The method. -/
  method : Bytes
  /-- The target. -/
  target : Bytes
  /-- The fields. -/
  fields : List (Bytes × Bytes)
  /-- The body. -/
  body : Bytes

/-- A request at the start of a stream, and what follows it. -/
def readRequest (s : Bytes) : Option (Request × Bytes) :=
  (readLines s.length s).bind fun p =>
    match p.1 with
    | [] => none
    | start :: lines =>
      (readStart start).bind fun m =>
        (lines.mapM readField).bind fun fields =>
          (framing fields).bind fun f =>
            (readBody f p.2).map fun q => (⟨m.1, m.2, fields, q.1⟩, q.2)

/-- The head of a request. -/
def writeHead (method target : Bytes) (fields : List (Bytes × Bytes)) : Bytes :=
  writeLines (writeStart method target :: fields.map writeField)

/-- A head that a client may write. -/
structure WellFormed (method target : Bytes) (fields : List (Bytes × Bytes)) : Prop where
  /-- The method is a token. -/
  method : method ≠ [] ∧ 32 ∉ method ∧ 13 ∉ method
  /-- The target has no space and no end of line. -/
  target : target ≠ [] ∧ 32 ∉ target ∧ 13 ∉ target
  /-- The names are tokens. -/
  names : ∀ f ∈ fields, f.1 ≠ [] ∧ f.1.all isTokenByte
  /-- The values have no end of line. -/
  values : ∀ f ∈ fields, 13 ∉ f.2

theorem takeWhile_ne_append {s t : Bytes} {b : UInt8} (h : b ∉ s) :
    (s ++ b :: t).takeWhile (· ≠ b) = s := by
  have hall : ∀ c ∈ s, decide (c ≠ b) = true := fun c hc => by
    simpa using fun he : c = b => h (he ▸ hc)
  rw [List.takeWhile_append_of_pos hall]
  simp

theorem dropWhile_ne_append {s t : Bytes} {b : UInt8} (h : b ∉ s) :
    (s ++ b :: t).dropWhile (· ≠ b) = b :: t := by
  have hall : ∀ c ∈ s, decide (c ≠ b) = true := fun c hc => by
    simpa using fun he : c = b => h (he ▸ hc)
  rw [List.dropWhile_append_of_pos hall]
  simp

theorem readTarget_append {target : Bytes} (h : target ≠ [] ∧ 32 ∉ target) :
    readTarget (target ++ ascii " HTTP/1.1") = some target := by
  have hversion : ascii " HTTP/1.1" = 32 :: ascii "HTTP/1.1" := rfl
  unfold readTarget
  rw [hversion, takeWhile_ne_append h.2, dropWhile_ne_append h.2]
  exact if_pos ⟨h.1, rfl⟩

theorem readStart_writeStart {method target : Bytes} (hm : method ≠ [] ∧ 32 ∉ method)
    (ht : target ≠ [] ∧ 32 ∉ target) : readStart (writeStart method target) = some (method, target) := by
  unfold readStart writeStart
  rw [takeWhile_ne_append hm.2, dropWhile_ne_append hm.2, if_neg hm.1, List.drop_succ_cons, List.drop_zero,
    readTarget_append ht]
  rfl

/-- A field as it is read. -/
def normalise (f : Bytes × Bytes) : Bytes × Bytes := (f.1.map lower, trim f.2)

theorem colon_notMem {name : Bytes} (h : name.all isTokenByte) : 58 ∉ name := by
  intro hm
  have hcolon := List.all_eq_true.mp h 58 hm
  exact absurd hcolon (by decide)

theorem trim_blank (s : Bytes) : trim (32 :: s) = trim s := rfl

theorem readField_writeField {f : Bytes × Bytes} (hne : f.1 ≠ []) (h : f.1.all isTokenByte) :
    readField (writeField f) = some (normalise f) := by
  have hline : writeField f = f.1 ++ 58 :: 32 :: f.2 := by simp [writeField, ascii]
  unfold readField
  rw [hline, takeWhile_ne_append (colon_notMem h), dropWhile_ne_append (colon_notMem h)]
  simp only [ne_eq, hne, not_false_eq_true, h, and_self, if_true, normalise, trim_blank]

theorem mapM_readField {fields : List (Bytes × Bytes)}
    (h : ∀ f ∈ fields, f.1 ≠ [] ∧ f.1.all isTokenByte) :
    (fields.map writeField).mapM readField = some (fields.map normalise) := by
  induction fields with
  | nil => rfl
  | cons f fields ih =>
    obtain ⟨hne, htok⟩ := h f List.mem_cons_self
    have hrest := ih fun g hg => h g (List.mem_cons_of_mem _ hg)
    rw [List.map_cons, List.mapM_cons, readField_writeField hne htok, hrest]
    rfl

theorem WellFormed.lines {method target : Bytes} {fields : List (Bytes × Bytes)}
    (h : WellFormed method target fields) :
    ∀ line ∈ writeStart method target :: fields.map writeField, line ≠ [] ∧ 13 ∉ line := by
  intro line hline
  rcases List.mem_cons.mp hline with rfl | hline
  · have hversion : (13 : UInt8) ∉ ascii " HTTP/1.1" := by decide
    refine ⟨by simp [writeStart], fun hm => ?_⟩
    simp only [writeStart, List.mem_append, List.mem_cons] at hm
    rcases hm with hm | hm | hm | hm
    · exact h.method.2.2 hm
    · exact absurd hm (by decide)
    · exact h.target.2.2 hm
    · exact hversion hm
  · obtain ⟨f, hf, rfl⟩ := List.mem_map.mp hline
    have hsep : (13 : UInt8) ∉ ascii ": " := by decide
    refine ⟨by simp [writeField, (h.names f hf).1], fun hm => ?_⟩
    simp only [writeField, List.mem_append] at hm
    rcases hm with (hm | hm) | hm
    · have htok := List.all_eq_true.mp (h.names f hf).2 13 hm
      exact absurd htok (by decide)
    · exact hsep hm
    · exact h.values f hf hm

/-- **A head reads back**, and its fields decide about the body. -/
theorem readRequest_writeHead {method target : Bytes} {fields : List (Bytes × Bytes)}
    (h : WellFormed method target fields) (s : Bytes) :
    readRequest (writeHead method target fields ++ s) =
      (framing (fields.map normalise)).bind fun f =>
        (readBody f s).map fun q => (⟨method, target, fields.map normalise, q.1⟩, q.2) := by
  have hlen : (writeStart method target :: fields.map writeField).length <
      (writeHead method target fields ++ s).length := by
    have hlt := length_le_length_writeLines (writeStart method target :: fields.map writeField)
    simp only [writeHead, List.length_append] at *
    omega
  have hlines : readLines (writeHead method target fields ++ s).length
      (writeHead method target fields ++ s) =
        some (writeStart method target :: fields.map writeField, s) :=
    readLines_writeLines h.lines hlen s
  rw [readRequest, hlines, Option.bind_some]
  simp only
  rw [readStart_writeStart ⟨h.method.1, h.method.2.1⟩ ⟨h.target.1, h.target.2.1⟩, Option.bind_some,
    mapM_readField h.names, Option.bind_some]

end NestDdd.Theory.Http
