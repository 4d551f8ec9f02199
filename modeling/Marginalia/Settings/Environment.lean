import Marginalia.Settings.Basic
import Marginalia.Text.Case
import Marginalia.Text.Digit

/-
Settings from the variables of an environment.  The case of a variable's name
does not matter, and variables that name no setting do not count.
-/
namespace Marginalia

/-- Why the text of a variable is no value of its setting. -/
inductive SettingProblem where
  | notWhole
  | tooLong
  | belowMinimum
  | noChoice
deriving DecidableEq, Repr

namespace SettingProblem

/-- The longest text that is read as a number. -/
def maxLength : Nat := 4300

end SettingProblem

namespace Settings

def isMargin (c : Char) : Bool := Text.isSpace c && !(0x1C ≤ c.toNat && c.toNat ≤ 0x1F)

def trim (t : Text) : Text := ((t.dropWhile isMargin).reverse.dropWhile isMargin).reverse

def withoutFraction (t : Text) : Text :=
  match Text.cut ['.'] t with
  | some (whole, fraction) => if fraction.all (· = '0') then whole else t
  | none => t

/-- A whole number: a sign, digits with single low lines between them, and
perhaps a fraction of zeros. -/
def readWhole (t : Text) : Except SettingProblem Int :=
  let t := trim t
  let (negative, ds) : Bool × Text :=
    match withoutFraction t with
    | '-' :: ds => (true, ds)
    | '+' :: ds => (false, ds)
    | ds => (false, ds)
  if SettingProblem.maxLength < t.length then .error .tooLong
  else
    match Text.groupedDigits? ds with
    | none => .error .notWhole
    | some ds =>
      let n : Int := Text.digitsValue ds
      .ok (if negative then -n else n)

def readAtLeast (least : Int) (t : Text) : Except SettingProblem Int := do
  let n ← readWhole t
  if n < least then .error .belowMinimum else .ok n

structure Variable where
  name : Text
  set : Settings → Text → Except SettingProblem Settings

def known : List Variable :=
  [⟨"comment_style".toList, fun s t =>
      if (CommentStyle.ofName? t).isSome then .ok { s with commentStyle := t }
      else .error .noChoice⟩,
    ⟨"contiguous_gap".toList, fun s t => do
      return { s with contiguousGap := ← readAtLeast 0 t }⟩,
    ⟨"default_template".toList, fun s t => .ok { s with defaultTemplate := t }⟩,
    ⟨"max_highlight_gap".toList, fun s t => do
      return { s with maxHighlightGap := ← readAtLeast 0 t }⟩,
    ⟨"max_template_nesting".toList, fun s t => do
      return { s with maxTemplateNesting := ← readAtLeast 1 t }⟩,
    ⟨"pipeline_cache_size".toList, fun s t => do
      return { s with pipelineCacheSize := ← readAtLeast 1 t }⟩,
    ⟨"template_cache_size".toList, fun s t => do
      return { s with templateCacheSize := ← readAtLeast 1 t }⟩,
    ⟨"unknown_chapter_label".toList, fun s t => .ok { s with unknownChapterLabel := t }⟩]

/-- What the names of the variables begin with, in lower case. -/
def variableLead : Text := "highlightdown_".toList

/-- The text of the last variable for a setting. -/
def textFor? (environment : List (Text × Text)) (name : Text) : Option Text :=
  (environment.reverse.find? fun (n, _) => Text.lower n = variableLead ++ name).map (·.2)

/-- Set what the environment has a variable for, and collect what is wrong. -/
def setAll (environment : List (Text × Text)) (s : Settings) :
    List Variable → Settings × List (Text × SettingProblem)
  | [] => (s, [])
  | v :: rest =>
    match textFor? environment v.name with
    | none => setAll environment s rest
    | some t =>
      match v.set s t with
      | .ok s => setAll environment s rest
      | .error e =>
        let (s, es) := setAll environment s rest
        (s, (v.name, e) :: es)

/-- The settings that an environment asks for, or all that is wrong with it. -/
def ofEnvironment (environment : List (Text × Text)) :
    Except (List (Text × SettingProblem)) Settings :=
  match setAll environment {} known with
  | (s, []) => .ok s
  | (_, es) => .error es

end Settings
end Marginalia
