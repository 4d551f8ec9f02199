import Marginalia.Text.Lines
import Marginalia.Text.Space
import Marginalia.Markdown
import Marginalia.Value.Literal

/-
Who quotes a note: the template's author, when a line that holds the note
already starts with the mark of a quotation, or else the program.
-/
namespace Marginalia

inductive Quoting where
  | auto
  | manual
deriving DecidableEq, Repr

namespace Quoting

def name : Quoting → Text
  | .auto => "auto".toList
  | .manual => "manual".toList

/-- A tag on the note starts here. -/
def noteTagAt : Text → Bool
  | '{' :: '{' :: rest =>
    match rest.dropWhile Text.isSpace with
    | 'n' :: 'o' :: 't' :: 'e' :: tail =>
      match tail.dropWhile Text.isSpace with
      | c :: _ => c = '|' || c = '}'
      | [] => false
    | _ => false
  | _ => false

def hasNoteTag : Text → Bool
  | [] => false
  | c :: rest => noteTagAt (c :: rest) || hasNoteTag rest

def isQuotedLine (line : Text) : Bool := (line.dropWhile Text.isSpace).head? = some '>'

def ofTemplate (template : Text) : Quoting :=
  if (Text.lines template).any fun line => hasNoteTag line && isQuotedLine line then .manual
  else .auto

/-- The text of a note. -/
def noteText (q : Quoting) (v : Value) : Except Fault Text := do
  let t ← v.templateText
  match q with
  | .manual => return t
  | .auto => return if t.isEmpty then [] else Markdown.quoteAll t

end Quoting
end Marginalia
