import Marginalia.Yaml.Meaning
import Marginalia.Log

/-
The block of settings that may stand before a template, between two lines of
three hyphens.  Where it holds no mapping the text is all template.
-/
namespace Marginalia

structure Frontmatter where
  entries : List (Value × Value)
  content : Text
  log : Log := []

namespace Frontmatter

/-- What follows a line end at the start of a text. -/
def afterLineEnd? : Text → Option Text
  | '\n' :: rest => some rest
  | '\r' :: '\n' :: rest => some rest
  | _ => none

/-- What follows three hyphens and blanks at the start of a text. -/
def afterFence? : Text → Option Text
  | '-' :: '-' :: '-' :: rest => some (rest.dropWhile Yaml.isBlank)
  | _ => none

/-- What follows the closing line at the start of a text; it may be the last
one. -/
def afterClosing? (t : Text) : Option Text := do
  let rest ← afterFence? (← afterLineEnd? t)
  if rest.isEmpty then some [] else afterLineEnd? rest

/-- The block before the first closing line, and what follows that line. -/
def cutClosing : Text → Option (Text × Text)
  | [] => none
  | c :: rest =>
    match afterClosing? (c :: rest) with
    | some after => some ([], after)
    | none => (cutClosing rest).map fun (block, after) => (c :: block, after)

/-- The block at the start of a text and what follows it, blanks dropped. -/
def cut? (t : Text) : Option (Text × Text) := do
  let (block, after) ← cutClosing (← afterLineEnd? (← afterFence? t))
  some (block, after.dropWhile Text.isSpace)

def ignored : LogEntry := .detail "Ignoring unparsable template frontmatter".toList

/-- Separate the settings of a template from its content. -/
def split (t : Text) : Except Fault Frontmatter :=
  match cut? t with
  | none => .ok { entries := [], content := t }
  | some (block, content) =>
    match Yaml.readMapping block with
    | .ok (some entries) => .ok { entries, content }
    | .ok none => .ok { entries := [], content := t }
    | .error .malformed => .ok { entries := [], content := t, log := [ignored] }
    | .error (.fault f) => .error f

end Frontmatter
end Marginalia
