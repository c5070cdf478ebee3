import NestDdd.Config.Env
import NestDdd.Shared.PosixPath

/-!
# The file of the forwarding log

`LEGACY_LOG_FILE_NAME` (`src/infrastructure/config/schemas/legacy.schema.ts`), what `loadConfig`
(`load-config.ts`) asks of it, and the files that `rollingFileTarget`
(`src/infrastructure/logging/pino.options.ts`) opens in `LOGGING_DIR`: the paths that `join` makes.
That `loadLogConfig` is the slice of what zod accepts follows from its laws (`slices`).

## What is proved

* `exists_inside_iff` — a name without slashes is that of a file in the directory unless it is one dot or two.
* `join_eq_join_iff` — another name makes the same path if and only if it leads back to this one.
* `ownFile_iff` — **the forwarding log has a file of its own**, if and only if both hold of its name and of
  `LOGGING_FILE_NAME`.
* `parent_directory`, `same_file` — accepted names of a directory, and of one file for both logs.
-/

namespace NestDdd.Config

open NestDdd.Shared NestDdd.Shared.PosixPath NestDdd.Theory

/-! ### The configuration -/

/-- The environment, as far as the names of log files go. -/
structure LogEnv where
  /-- `LOGGING_DIR`. -/
  LOGGING_DIR : Option JsString
  /-- `LOGGING_FILE_NAME`. -/
  LOGGING_FILE_NAME : Option JsString
  /-- `LEGACY_LOG_FILE_NAME`. -/
  LEGACY_LOG_FILE_NAME : Option JsString

/-- The settings. -/
structure LogConfig where
  /-- `logging.directory`. -/
  directory : JsString
  /-- `logging.fileName`. -/
  fileName : JsString
  /-- `legacy.logFileName`. -/
  logFileName : JsString
  deriving DecidableEq

/-- `[\w.-]`. -/
def isNameSymbol (u : UInt16) : Bool :=
  (0x61 ≤ u && u ≤ 0x7A) || (0x41 ≤ u && u ≤ 0x5A) || (0x30 ≤ u && u ≤ 0x39) ||
    u == 0x5F || u == fullStop || u == 0x2D

/-- `/^[\w.-]+$/`. -/
def isBareName (s : JsString) : Bool := !s.isEmpty && s.all isNameSymbol

/-- `loadConfig()`, as far as these settings go; `none` is an `InvalidConfigError`. -/
def loadLogConfig (env : LogEnv) : Option LogConfig :=
  let directory := (envString env.LOGGING_DIR).getD "logs"
  let fileName := (envString env.LOGGING_FILE_NAME).getD "app.log"
  let logFileName := (envString env.LEGACY_LOG_FILE_NAME).getD "legacy-forward.log"
  if !isBareName logFileName then none
  else if logFileName = fileName then none
  else some ⟨directory, fileName, logFileName⟩

/-! ### What is expected -/

/-- The name of a file. -/
def IsProperName (name : JsString) : Prop :=
  name ≠ [] ∧ slash ∉ name ∧ name ≠ [fullStop] ∧ name ≠ [fullStop, fullStop]

/-- The path of a name directly inside a directory. -/
def inside (directory name : JsString) : JsString :=
  let normalized := normalize directory
  if normalized = JsString.ofString "." ∨ normalized = JsString.ofString "./" then name
  else if hasTrailingSeparator normalized then normalized ++ name
  else normalized ++ slash :: name

/-- **The forwarding log has a file of its own** in `LOGGING_DIR`. -/
structure OwnFile (c : LogConfig) : Prop where
  /-- It has a proper name directly inside. -/
  inside : ∃ name, IsProperName name ∧ join c.directory c.logFileName = inside c.directory name
  /-- It is not the file of the application log. -/
  apart : join c.directory c.logFileName ≠ join c.directory c.fileName

/-- **A file name leads back** to a name in the directory: it goes up, and then writes the directories it has gone
up past and the name again. Above the root of an absolute directory, there is nothing to go up past. -/
def LeadsBack (directory fileName name : JsString) : Prop :=
  fileName.getLast? ≠ some slash ∧
    (climbed fileName).2 =
      (climbed directory).2.drop ((climbed directory).2.length - (climbed fileName).1) ++ [name] ∧
    (directory.head? = some slash ∨ (climbed fileName).1 ≤ (climbed directory).2.length)

variable {directory fileName name s : JsString}

/-- **The path of a name directly inside** is that of the directory's segments and the name. -/
theorem inside_eq (hd : directory ≠ []) (name : JsString) :
    inside directory name = rendered (isAbsolute directory) (directories directory ++ [name]) := by
  have hnormalized := normalize_eq hd
  rw [inside]
  by_cases hnil : directories directory = []
  · rw [if_pos hnil] at hnormalized
    rw [hnormalized, hnil, List.nil_append, rendered_singleton]
    cases isAbsolute directory with
    | true => rfl
    | false => cases hasTrailingSeparator directory <;> rfl
  · have hleft := directories_isLeft directory
    have hdot : rendered (isAbsolute directory) (directories directory) ≠ JsString.ofString "." :=
      rendered_ne_dot hnil hleft
    have hlast : hasTrailingSeparator (rendered (isAbsolute directory) (directories directory)) = false :=
      hasTrailingSeparator_rendered hnil hleft
    rw [if_neg hnil] at hnormalized
    rw [hnormalized]
    cases hasTrailingSeparator directory with
    | true =>
      rw [if_pos rfl]
      have htrailing : hasTrailingSeparator
          (rendered (isAbsolute directory) (directories directory) ++ JsString.ofString "/") = true := by
        rw [hasTrailingSeparator, List.getLast?_append_of_ne_nil _ (by decide)]
        rfl
      have hone : rendered (isAbsolute directory) (directories directory) ++ JsString.ofString "/" ≠
          JsString.ofString "." := by
        intro heq
        rw [heq] at htrailing
        exact absurd htrailing (by decide)
      have htwo : rendered (isAbsolute directory) (directories directory) ++ JsString.ofString "/" ≠
          JsString.ofString "./" := by
        intro heq
        exact hdot (List.append_cancel_right (show _ = JsString.ofString "." ++ JsString.ofString "/" from heq))
      rw [if_neg (not_or.mpr ⟨hone, htwo⟩), if_pos htrailing, rendered_concat _ hnil, List.append_assoc]
      rfl
    | false =>
      rw [if_neg Bool.false_ne_true, List.append_nil]
      have htwo : rendered (isAbsolute directory) (directories directory) ≠ JsString.ofString "./" := by
        intro heq
        rw [heq] at hlast
        exact absurd hlast (by decide)
      rw [if_neg (not_or.mpr ⟨hdot, htwo⟩), hlast, if_neg Bool.false_ne_true, rendered_concat _ hnil]

/-! ### Names -/

theorem isBareName_iff : isBareName s = true ↔ s ≠ [] ∧ ∀ u ∈ s, isNameSymbol u = true := by
  rw [isBareName, Bool.and_eq_true, List.all_eq_true]
  simp

/-- A bare name has no slash. -/
theorem slash_not_mem (h : isBareName s = true) : slash ∉ s := by
  intro hm
  exact absurd ((isBareName_iff.mp h).2 slash hm) (by decide)

theorem leadsTo_bareName (h : isBareName s = true) (directory : JsString) :
    leadsTo directory s = pushSegment (!(isAbsolute directory)) (directories directory) s := by
  rw [leadsTo, Path.splitOn_of_not_mem (slash_not_mem h)]
  rfl

/-- A bare name is joined as what it leads to. -/
theorem join_bareName (hd : directory ≠ []) (h : isBareName s = true) :
    join directory s = rendered (isAbsolute directory) (leadsTo directory s) := by
  apply join_eq hd (isBareName_iff.mp h).1
  rw [hasTrailingSeparator, decide_eq_false_iff_not]
  intro hlast
  exact slash_not_mem h (List.mem_of_getLast? hlast)

/-- **A bare name is a proper one**, directly inside, unless it is one dot or two. -/
theorem exists_inside_iff (hd : directory ≠ []) (h : isBareName s = true) :
    (∃ name, IsProperName name ∧ join directory s = inside directory name) ↔
      s ≠ [fullStop] ∧ s ≠ [fullStop, fullStop] := by
  rw [join_bareName hd h, leadsTo_bareName h]
  constructor
  · rintro ⟨name, hname, heq⟩
    rw [inside_eq hd] at heq
    have hleft : ∀ t ∈ directories directory ++ [name], IsLeft t := by
      intro t ht
      rcases List.mem_append.mp ht with ht | ht
      · exact directories_isLeft directory t ht
      · rw [List.mem_singleton.mp ht]
        exact ⟨hname.1, hname.2.2.1, hname.2.1⟩
    have hsegments := rendered_injective (pushSegment_isLeft (directories_isLeft directory) (slash_not_mem h)) hleft heq
    constructor
    · rintro rfl
      rw [pushSegment_of_empty (.inr rfl)] at hsegments
      exact absurd (congrArg List.length hsegments) (by simp)
    · rintro rfl
      exact pushSegment_dots_ne hname.2.2.2 hsegments
  · rintro ⟨hone, htwo⟩
    refine ⟨s, ⟨(isBareName_iff.mp h).1, slash_not_mem h, hone, htwo⟩, ?_⟩
    rw [inside_eq hd, pushSegment_of_plain (isBareName_iff.mp h).1 (not_or.mpr ⟨hone, htwo⟩)]

/-! ### One file for both -/

/-- **Both names make one file** if and only if the other one leads back to the bare one. -/
theorem join_eq_join_iff (hd : directory ≠ []) (hf : fileName ≠ []) (h : isBareName name = true)
    (hone : name ≠ [fullStop]) (htwo : name ≠ [fullStop, fullStop]) :
    join directory name = join directory fileName ↔ LeadsBack directory fileName name := by
  have hname : leadsTo directory name = directories directory ++ [name] := by
    rw [leadsTo_bareName h, pushSegment_of_plain (isBareName_iff.mp h).1 (not_or.mpr ⟨hone, htwo⟩)]
  rw [join_bareName hd h, hname, LeadsBack]
  by_cases hlast : fileName.getLast? = some slash
  · -- a path that ends with a slash is that of no name
    have htrailing : hasTrailingSeparator fileName = true := by simp [hasTrailingSeparator, hlast]
    apply iff_of_false
    · intro heq
      have hend := join_trailing hd hf htrailing
      rw [← heq, getLast?_rendered (isBareName_iff.mp h).1] at hend
      exact slash_not_mem h (List.mem_of_getLast? hend)
    · intro hback
      exact hback.1 hlast
  · have htrailing : hasTrailingSeparator fileName = false := by simp [hasTrailingSeparator, hlast]
    rw [join_eq hd hf htrailing, ← leadsTo_eq_iff htwo]
    constructor
    · intro heq
      have hleft : ∀ t ∈ directories directory ++ [name], IsLeft t := hname ▸ leadsTo_isLeft directory name
      exact ⟨hlast, (rendered_injective hleft (leadsTo_isLeft directory fileName) heq).symm⟩
    · rintro ⟨-, heq⟩
      rw [heq]

/-! ### The forwarding log -/

/-- A variable is not empty, and neither is a default. -/
theorem getD_envString_ne_nil (value : Option JsString) {default : JsString} (h : default ≠ []) :
    (envString value).getD default ≠ [] := by
  rw [envString]
  split
  · exact List.cons_ne_nil _ _
  · exact h

variable {env : LogEnv} {c : LogConfig}

/-- What an accepted configuration has. -/
theorem loadLogConfig_eq_some (h : loadLogConfig env = some c) :
    c.directory ≠ [] ∧ c.fileName ≠ [] ∧ isBareName c.logFileName = true := by
  rw [loadLogConfig] at h
  split at h
  · contradiction
  · next hbare =>
    split at h
    · contradiction
    · obtain rfl := Option.some.inj h
      refine ⟨?_, ?_, by simpa using hbare⟩
      · exact getD_envString_ne_nil _ (by decide)
      · exact getD_envString_ne_nil _ (by decide)

/-- **The forwarding log has a file of its own** if and only if its name is not one dot or two, and the name of the
application log does not lead back to it. -/
theorem ownFile_iff (h : loadLogConfig env = some c) :
    OwnFile c ↔
      (c.logFileName ≠ [fullStop] ∧ c.logFileName ≠ [fullStop, fullStop]) ∧
        ¬ LeadsBack c.directory c.fileName c.logFileName := by
  obtain ⟨hd, hf, hbare⟩ := loadLogConfig_eq_some h
  constructor
  · intro hown
    have hname := (exists_inside_iff hd hbare).mp hown.inside
    refine ⟨hname, ?_⟩
    intro hback
    exact hown.apart ((join_eq_join_iff hd hf hbare hname.1 hname.2).mpr hback)
  · rintro ⟨hname, hback⟩
    refine ⟨(exists_inside_iff hd hbare).mpr hname, ?_⟩
    intro heq
    exact hback ((join_eq_join_iff hd hf hbare hname.1 hname.2).mp heq)

/-- `../log/app.log` in `var/log` leads back to another name. -/
theorem ownFile_beside : OwnFile ⟨"var/log", "../log/app.log", "legacy-forward.log"⟩ := by
  have haccepted : loadLogConfig ⟨some "var/log", some "../log/app.log", none⟩ =
      some ⟨"var/log", "../log/app.log", "legacy-forward.log"⟩ := by decide
  refine (ownFile_iff haccepted).mpr ⟨⟨by decide, by decide⟩, ?_⟩
  intro hback
  exact absurd hback.2.1 (by decide)

/-- `..` is accepted, and is what `LOGGING_DIR` is in. -/
theorem parent_directory :
    ∃ c, loadLogConfig ⟨none, none, some ".."⟩ = some c ∧ join c.directory c.logFileName = JsString.ofString "." ∧
      ¬ OwnFile c := by
  refine ⟨⟨"logs", "app.log", ".."⟩, by decide, by decide, ?_⟩
  intro hown
  exact ((exists_inside_iff (by decide) (by decide)).mp hown.inside).2 rfl

/-- `./legacy-forward.log` is accepted as another name, and is the same file. -/
theorem same_file :
    ∃ c, loadLogConfig ⟨none, some "./legacy-forward.log", none⟩ = some c ∧
      join c.directory c.logFileName = join c.directory c.fileName ∧ ¬ OwnFile c := by
  have hjoined : join "logs" "legacy-forward.log" = join "logs" "./legacy-forward.log" := by decide
  refine ⟨⟨"logs", "./legacy-forward.log", "legacy-forward.log"⟩, by decide, hjoined, ?_⟩
  intro hown
  exact hown.apart hjoined

end NestDdd.Config
