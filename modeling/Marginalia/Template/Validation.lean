import Marginalia.Template.Parsed
import Marginalia.Filter.Basic

/-
What is wrong with a template, found without rendering it.  Errors make a
template useless; warnings point out what renders silently wrong.
-/
namespace Marginalia

/-- The variables that a record of a highlight group has. -/
def recordVariables : List Text :=
  ["pageno", "pageref", "date", "localeDate", "dailyNoteLink", "time", "datetime", "randomHex",
    "chapter", "isFirstInChapter", "highlight", "highlightPlain", "note", "notes", "color",
    "drawer", "khlBg", "khlFg", "callout"].map String.toList

namespace Token

def key? : Token → Option Text
  | .text _ => none
  | .lookup k _ => some k
  | .block k _ => some k

def filters : Token → List Text
  | .lookup _ fs => fs
  | _ => []

/-- Every variable and block key, in template order. -/
def keys (ts : List Token) : List Text := (withins ts).filterMap key?

/-- Every filter as it is written, in template order. -/
def filterSpecs (ts : List Token) : List Text := (withins ts).flatMap filters

end Token

namespace Text

/-- The order of code points, a beginning before the whole. -/
def lt : Text → Text → Bool
  | _, [] => false
  | [], _ :: _ => true
  | a :: s, b :: t => a < b || (a = b && lt s t)

/-- Put a text in its place among ascending ones, unless it is there. -/
def insertNew (t : Text) : List Text → List Text
  | [] => [t]
  | u :: rest =>
    if t = u then u :: rest else if lt t u then t :: u :: rest else u :: insertNew t rest

/-- Without repetitions, ascending. -/
def sortNew (ts : List Text) : List Text := ts.foldr insertNew []

/-- Without repetitions, in the order of first occurrence. -/
def firsts : List Text → List Text
  | [] => []
  | t :: rest => t :: (firsts rest).filter (· ≠ t)

end Text

structure Validation where
  errors : List Text
  warnings : List Text
  suggestions : List Text
deriving DecidableEq

namespace Validation

def isValid (v : Validation) : Bool := v.errors.isEmpty

def kindText : AnomalyKind → Text
  | .unterminatedTag => "Unterminated tag (missing '\x7d\x7d') is rendered as text".toList
  | .emptyBlockKey => "Block tag without a key is rendered as text".toList
  | .depthExceeded => "Block nested too deeply is rendered as text".toList
  | .strayCloser => "Closing tag without a matching opener is rendered as text".toList
  | .malformedTag => "Malformed tag is rendered as text".toList
  | .unclosedBlock =>
    "Unclosed block: everything from it onwards is rendered as text".toList

/-- A recovery as a warning; a long part is cut. -/
def anomalyText (a : Anomaly) : Text :=
  let raw :=
    if a.raw.length ≤ Anomaly.excerptLength then a.raw
    else a.raw.take Anomaly.excerptLength ++ [Truncate.ellipsis]
  kindText a.kind ++ " at offset ".toList ++ Text.ofNat a.offset ++ [':', ' '] ++ Text.quoted raw

/-- What is missing, with a hint for each. -/
def missing (keys : List Text) : List (Text × Text) :=
  (if keys.contains "highlight".toList || keys.contains "highlightPlain".toList then []
   else
    [("Missing required variable: \x7b\x7bhighlight\x7d\x7d or ".toList ++
        "\x7b\x7bhighlightPlain\x7d\x7d".toList,
      ("Add \x7b\x7bhighlight\x7d\x7d for styled text or ".toList ++
        "\x7b\x7bhighlightPlain\x7d\x7d for plain text".toList))]) ++
  (if keys.contains "pageno".toList then []
   else
    [("Missing required variable: \x7b\x7bpageno\x7d\x7d".toList,
      "Add \x7b\x7bpageno\x7d\x7d to show page numbers".toList)])

/-- The names of unknown filters, ascending. -/
def unknownFilters (specs : List Text) : List Text :=
  (Text.sortNew (specs.map fun s => (Filter.split s).1)).filter fun n => (Filter.find? n).isNone

def filterWarning? (spec : Text) : Except Fault (Option Text) :=
  let (name, arg) := Filter.split spec
  match Filter.find? name with
  | none => .ok none
  | some f =>
    if f.needsArgument && (arg.getD []).isEmpty then
      .ok (some ("The filter '".toList ++ name ++ "' expects an argument, e.g. ".toList ++
        (f.sample?.getD [])))
    else if f = .truncate then do
      match ← Truncate.length? arg with
      | some _ => return none
      | none =>
        return some (['\''] ++ spec ++
          "' has a non-numeric length; the value will not be truncated".toList)
    else .ok none

def filterWarnings : List Text → Except Fault (List Text)
  | [] => .ok []
  | spec :: rest => do
    let w ← filterWarning? spec
    let ws ← filterWarnings rest
    .ok (w.toList ++ ws)

def unknownVariableText (key : Text) : Text :=
  "Unknown variable '".toList ++ key ++ "' always renders empty".toList

/-- The variables that no record has, ascending. -/
def unknownVariables (keys : List Text) : List Text :=
  (Text.sortNew keys).filter fun k => !recordVariables.contains k

def ofParsed (p : Parsed) : Except Fault Validation := do
  let keys := Token.keys p.tokens
  let specs := Token.filterSpecs p.tokens
  let absent := missing keys
  let unknown := unknownFilters specs
  let argumentWarnings ← filterWarnings (Text.firsts specs)
  return {
    errors := absent.map (·.1) ++
      unknown.map fun n => "Unknown filter '".toList ++ n ++ ['\'']
    warnings :=
      (unknown.map fun n => "The filter '".toList ++ n ++
        "' is not recognised and will be ignored.".toList) ++
      p.anomalies.map anomalyText ++ argumentWarnings ++
      (unknownVariables keys).map unknownVariableText
    suggestions := absent.map (·.2) }

def ofTemplate (limit : Int) (template : Text) : Except Fault Validation :=
  ofParsed (Parsed.ofTemplate limit template)

end Validation
end Marginalia
