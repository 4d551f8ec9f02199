import Marginalia.Highlight.Colour
import Marginalia.Html.Escape

/-
A highlight as markup: its paragraphs escaped and wrapped after the decoration
and the colour it was given.
-/
namespace Marginalia
namespace Highlight

def paragraphBreak : Text := "<br><br>".toList

/-- Paragraphs, escaped and trimmed, without the empty ones. -/
def joinParagraphs (ps : List Text) : Text :=
  Text.join paragraphBreak ((ps.map fun p => Html.escape (Text.strip p)).filter (!·.isEmpty))

def element (name : String) (content : Text) : Text :=
  ['<'] ++ name.toList ++ ['>'] ++ content ++ ['<', '/'] ++ name.toList ++ ['>']

def mark (background foreground content : Text) : Text :=
  "<mark style=\"background:".toList ++ background ++ ";color:".toList ++ foreground ++
    ";\">".toList ++ content ++ "</mark>".toList

/-- The text of a highlight that is not blank, or none. -/
def content? (v : Value) : Except Fault (Option Text) :=
  if !v.isTruthy then .ok none
  else match v with
    | .text t => .ok (if Text.isBlank t then none else some t)
    | .bytes bs =>
      if bs.all fun b => Text.isPadding (Char.ofNat b.toNat) then .ok none else .error .wrongKind
    | _ => .error .noSuchOperation

/-- Content on the background its colour asks for. -/
def coloured (palette : Option Palette) (colour : Value) (content : Text) : Except Fault Text :=
  match palette with
  | some p => .ok (mark p.background p.foreground content)
  | none =>
    if !colour.isTruthy then .ok content
    else match colour with
      | .text c =>
        .ok (match Rgb.ofText? c with
          | some rgb => mark c rgb.readableText content
          | none => content)
      | _ => .error .wrongKind

/-- Wrap content after its decoration.  The reader's own default, a gray
`lighten`, is left plain. -/
def decorate (palette : Option Palette) (colour drawer : Value) (content : Text) :
    Except Fault Text :=
  match drawer with
  | .text d =>
    if d = "underscore".toList then .ok (element "u" content)
    else if d = "strikeout".toList then .ok (element "s" content)
    else if d = "invert".toList then
      let foreground :=
        match palette with
        | some p => p.background
        | none => "var(--text-accent)".toList
      .ok (mark "transparent".toList foreground content)
    else if d = "lighten".toList && palette = some .gray then .ok content
    else coloured palette colour content
  | _ => coloured palette colour content

/-- A highlight as markup; nothing for a blank one.  A backslash ends a
paragraph. -/
def style (text colour drawer : Value) : Except Fault Text := do
  match ← content? text with
  | none => return []
  | some t =>
    decorate (← Palette.ofValue? colour) colour drawer (joinParagraphs (Text.fields '\\' t))

end Highlight
end Marginalia
