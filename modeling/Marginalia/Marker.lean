import Marginalia.Annotation.Basic
import Marginalia.Json.Reader
import Marginalia.Json.Writer
import Marginalia.Sha1
import Marginalia.Text.Utf8
import Marginalia.Text.Case

/-
Provenance markers: comments in a rendered document that name the annotation a
block was made from, so that a later import knows it again.
-/
namespace Marginalia

/-- The kind of comment a marker is written as. -/
inductive MarkerStyle where
  | html
  | percent
deriving DecidableEq, Repr

namespace Marker

def word : Text := "KOHL".toList

def wrap (style : MarkerStyle) (payload : Text) : Text :=
  match style with
  | .html => "<!-- KOHL ".toList ++ payload ++ " -->".toList
  | .percent => "%% KOHL ".toList ++ payload ++ " %%".toList

/-! ## Identifiers -/

/-- The stable text of one field that goes into an identifier. -/
def fieldText : Value → Except Fault Text
  | .null => .ok "undefined".toList
  | .map es => Json.write (.map es)
  | v => v.shown

/-- A text field by its words, in lower case. -/
def foldedText (v : Value) : Except Fault Text := do
  return Text.lower (Text.normalizeSpace (← v.orEmpty.shown))

/-- What an identifier is computed from: the page, both positions, and the
words of text and note. -/
def identity (a : Annotation) : Except Fault Text := do
  let text ← foldedText a.text
  let note ← foldedText a.note
  let page ← Value.wholeText a.pageno
  let pos0 ← fieldText a.pos0
  let pos1 ← fieldText a.pos1
  return Text.unifyLineEnds (Text.join ['|'] [page, pos0, pos1, text, note])

def idLength : Nat := 16

/-- The identifier that an annotation's content gives it. -/
def contentId (a : Annotation) : Except Fault Text := do
  return (Sha1.digest (Text.encode (← identity a))).take idLength

/-! ## Writing -/

/-- The payload of an annotation's marker; fields that are not set are left
out. -/
def payload (a : Annotation) : Except Fault Text := do
  let id ← if a.id.isTruthy then pure a.id else .text <$> contentId a
  let fields : List (String × Value) :=
    [("v", .int 1), ("id", id), ("p", .int a.pageno), ("pr", a.pageref), ("pos0", a.pos0),
      ("pos1", a.pos1), ("t", a.datetime), ("c", a.color), ("d", a.drawer)]
  let isSet : Value → Bool
    | .null => false
    | _ => true
  Json.write (.map ((fields.filter fun (_, v) => isSet v).map fun (k, v) => (.text k.toList, v)))

def create (style : MarkerStyle) (a : Annotation) : Except Fault Text := do
  return wrap style (← payload a)

def createEach (style : MarkerStyle) : List Annotation → Except Fault (List Text)
  | [] => .ok []
  | a :: rest => do
    let m ← create style a
    let ms ← createEach style rest
    .ok (m :: ms)

def createAll (style : MarkerStyle) (as : List Annotation) : Except Fault Text := do
  return Text.join ['\n'] (← createEach style as)

/-! ## Finding -/

/-- What follows a literal text at the start. -/
def after? (literal t : Text) : Option Text :=
  if literal.isPrefixOf t then some (t.drop literal.length) else none

def opening? (t : Text) : Option Text :=
  (after? "<!--".toList t).orElse fun _ => after? "%%".toList t

def closing? (t : Text) : Option Text :=
  (after? "-->".toList t).orElse fun _ => after? "%%".toList t

/-- The rest of a payload, up to the first closing brace that the end of a
comment follows. -/
def payloadEnd? : Text → Option (Text × Text)
  | [] => none
  | c :: rest =>
    let more := (payloadEnd? rest).map fun (p, r) => (c :: p, r)
    if c = '}' then
      match closing? (rest.dropWhile Text.isSpace) with
      | some r => some ([c], r)
      | none => more
    else more

/-- The payload of a marker at the start of a text, and what follows it. -/
def match? (t : Text) : Option (Text × Text) := do
  let t ← opening? t
  let t ← after? word (t.dropWhile Text.isSpace)
  match t.dropWhile Text.isSpace with
  | '{' :: rest => (payloadEnd? rest).map fun (p, r) => ('{' :: p, r)
  | _ => none

/-- Replace every marker, found from the left, given its payload and its text.
One step per code point is enough. -/
def replaceWith (f : Text → Text → Text) : Nat → Text → Text
  | 0, t => t
  | _, [] => []
  | fuel + 1, c :: rest =>
    match match? (c :: rest) with
    | some (p, r) =>
      f p ((c :: rest).take (rest.length + 1 - r.length)) ++ replaceWith f fuel r
    | none => c :: replaceWith f fuel rest

def replace (f : Text → Text → Text) (t : Text) : Text := replaceWith f (t.length + 1) t

/-! ## Removing and restyling -/

/-- How many code points belong to the text up to and with its last line
break. -/
def throughLastBreak (t : Text) : Nat := t.length - (t.reverse.takeWhile (· ≠ '\n')).length

/-- Two or more blank lines become one. -/
def collapseBlankLines (t : Text) : Text :=
  match t with
  | [] => []
  | '\n' :: rest =>
    let run := rest.takeWhile Text.isSpace
    if 2 ≤ run.count '\n' then '\n' :: '\n' :: collapseBlankLines (rest.drop (throughLastBreak run))
    else '\n' :: collapseBlankLines rest
  | c :: rest => c :: collapseBlankLines rest
termination_by t.length
decreasing_by
  all_goals simp only [List.length_cons, List.length_drop]; omega

/-- Strip every marker, and the blank lines left behind. -/
def removeAll (t : Text) : Text := collapseBlankLines (replace (fun _ _ => []) t)

/-- A marker with its payload written anew, when it holds an object. -/
def renewed (style : MarkerStyle) (payload whole : Text) : Except Fault Text :=
  match Json.read? payload with
  | some (.map es) => do return wrap style (← Json.write (.map es))
  | _ => .ok whole

/-- Bring every marker into one style.  A marker that does not hold an object is
kept as it is. -/
def restyle (style : MarkerStyle) (t : Text) : Text :=
  replace (fun p whole => match renewed style p whole with
    | .ok m => m
    | .error _ => whole) t

/-- Restyle or remove every marker; an unknown style changes nothing. -/
def convert (style : Text) (t : Text) : Text :=
  if style = "none".toList then removeAll t
  else if style = "html".toList then restyle .html t
  else if style = "md".toList then restyle .percent t
  else t

end Marker
end Marginalia
