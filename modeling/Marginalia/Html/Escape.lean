import Marginalia.Text.Basic
import Marginalia.Text.Space
import Marginalia.Number.Decimal

/-
The five characters that markup reserves, written as references; tags taken out
of a text; and line breaks written as tags.
-/
namespace Marginalia
namespace Html

def escapeChar : Char → Text
  | '&' => "&amp;".toList
  | '<' => "&lt;".toList
  | '>' => "&gt;".toList
  | '"' => "&quot;".toList
  | '\'' => "&#39;".toList
  | c => [c]

/-- Every reserved character becomes its reference. -/
def escape (t : Text) : Text := t.flatMap escapeChar

/-- The five references that escaping writes, decoded in one pass. -/
def decodeReserved : Text → Text
  | [] => []
  | '&' :: 'a' :: 'm' :: 'p' :: ';' :: rest => '&' :: decodeReserved rest
  | '&' :: 'l' :: 't' :: ';' :: rest => '<' :: decodeReserved rest
  | '&' :: 'g' :: 't' :: ';' :: rest => '>' :: decodeReserved rest
  | '&' :: 'q' :: 'u' :: 'o' :: 't' :: ';' :: rest => '"' :: decodeReserved rest
  | '&' :: '#' :: '3' :: '9' :: ';' :: rest => '\'' :: decodeReserved rest
  | c :: rest => c :: decodeReserved rest

/-- Remove every run from a less-than sign to the next greater-than sign. -/
def dropTags (t : Text) : Text :=
  match t with
  | [] => []
  | '<' :: rest =>
    match _h : Text.cut ['>'] rest with
    | none => '<' :: rest
    | some (_, after) => dropTags after
  | c :: rest => c :: dropTags rest
termination_by t.length
decreasing_by
  · have := Text.length_after_cut _h
    simp only [List.length_cons] at this ⊢
    omega
  · simp

/-- The text of a piece of markup: reserved references are decoded first, so
that tags written with them go as well. -/
def strip (t : Text) : Text := dropTags (decodeReserved t)

/-- What follows a tag of the given lower-case name at the start of the text;
blanks may stand around a closing slash. -/
def afterVoidTag? (name : Text) (blankAfterSlash : Bool) (t : Text) : Option Text :=
  match t with
  | '<' :: rest =>
    if (rest.take name.length).map Decimal.lowerBasic = name then
      let r := (rest.drop name.length).dropWhile Text.isSpace
      let r :=
        match r with
        | '/' :: s => if blankAfterSlash then s.dropWhile Text.isSpace else s
        | s => s
      match r with
      | '>' :: s => some s
      | _ => none
    else none
  | _ => none

def breaksToLines (fuel : Nat) (t : Text) : Text :=
  match fuel, t with
  | 0, t => t
  | _, [] => []
  | fuel + 1, c :: rest =>
    match afterVoidTag? ['b', 'r'] true (c :: rest) with
    | some after => '\n' :: breaksToLines fuel after
    | none => c :: breaksToLines fuel rest

/-- Every line-break tag becomes a line break; one step per code point is
enough. -/
def lineBreaks (t : Text) : Text := breaksToLines t.length t

end Html
end Marginalia
