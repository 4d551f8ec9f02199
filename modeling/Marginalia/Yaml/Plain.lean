import Marginalia.Yaml.Stamp
import Marginalia.Yaml.Tag
import Marginalia.Text.Case
import Marginalia.Html.Reference

/-
The forms of plain scalars.  The text of a plain scalar alone decides its tag:
truth values, numbers, dates and nothing have forms of their own, and all else
is text.
-/
namespace Marginalia
namespace Yaml
namespace Plain

def nullForms : List Text := ["", "~", "null", "Null", "NULL"].map String.toList

/-- The words for truth values in lower case; they may also be capitalized or in
capitals. -/
def truthWords : List (Text × Bool) :=
  [("yes".toList, true), ("no".toList, false), ("true".toList, true), ("false".toList, false),
    ("on".toList, true), ("off".toList, false)]

/-- A word in the three ways in which it may be written. -/
def isWritten (t word : Text) : Bool :=
  t = word || t = Text.upper (word.take 1) ++ word.drop 1 || t = Text.upper word

def isTruthForm (t : Text) : Bool := truthWords.any fun (word, _) => isWritten t word

def isGrouping (p : Char → Bool) (c : Char) : Bool := p c || c = '_'

def isGrouped : Text → Bool
  | [] => false
  | c :: rest => Text.isBasicDigit c && rest.all (isGrouping Text.isBasicDigit)

def isSixtieth : Text → Bool
  | [c] => Text.isBasicDigit c
  | [c, d] => '0' ≤ c && c ≤ '5' && Text.isBasicDigit d
  | _ => false

def isOctal (c : Char) : Bool := '0' ≤ c && c ≤ '7'

def isHex (c : Char) : Bool := (Html.hexValue? c).isSome

def isBinary (c : Char) : Bool := c = '0' || c = '1'

/-- Whole numbers: binary, octal, decimal, hexadecimal, and in base sixty. -/
def isWholeForm (t : Text) : Bool :=
  match (Decimal.takeSign t).2 with
  | ['0'] => true
  | '0' :: 'b' :: ds => !ds.isEmpty && ds.all (isGrouping isBinary)
  | '0' :: 'x' :: ds => !ds.isEmpty && ds.all (isGrouping isHex)
  | '0' :: ds => !ds.isEmpty && ds.all (isGrouping isOctal)
  | body =>
    match Text.fields ':' body with
    | [] => false
    | d :: parts => isGrouped d && parts.all isSixtieth

/-- An exponent with its sign, or nothing. -/
def isExponent : Text → Bool
  | [] => true
  | e :: s :: ds =>
    (e = 'e' || e = 'E') && (s = '+' || s = '-') && !ds.isEmpty && ds.all Text.isBasicDigit
  | _ => false

def infinityForms : List Text := ["inf", "Inf", "INF"].map String.toList

def nanForms : List Text := ["nan", "NaN", "NAN"].map String.toList

/-- Numbers with a point: decimal, in base sixty, infinite ones, and what is not
a number. -/
def isRealForm (t : Text) : Bool :=
  match Text.cut ['.'] t with
  | none => false
  | some (before, after) =>
    let whole := (Decimal.takeSign before).2
    let fraction := after.takeWhile (isGrouping Text.isBasicDigit)
    let tail := after.drop fraction.length
    let sixtieths :=
      match Text.fields ':' whole with
      | d :: p :: ps => isGrouped d && (p :: ps).all isSixtieth && tail.isEmpty
      | _ => false
    (whole.isEmpty && infinityForms.contains after) ||
      (before.isEmpty && nanForms.contains after) ||
      (isGrouped whole && isExponent tail) ||
      (before.isEmpty && isGrouped fraction && isExponent tail) || sixtieths

/-- A date alone has months and days of two digits. -/
def isStampForm (t : Text) : Bool :=
  (Stamp.read? t).any fun s => s.time.isSome || t.length = 10

/-- The marks of other nodes, which are no scalars by themselves. -/
def nodeMarks : List Text := ["!", "&", "*"].map String.toList

/-- A form may be followed by one line end. -/
def withoutLineEnd (t : Text) : Text :=
  if t.getLast? = some '\n' && t.length ≠ 1 then t.dropLast else t

def tag (t : Text) : Tag :=
  let t := withoutLineEnd t
  if isTruthForm t then .truth
  else if isRealForm t then .real
  else if isWholeForm t then .whole
  else if t = ['<', '<'] then .merge
  else if nullForms.contains t then .null
  else if isStampForm t then .stamp
  else if t = ['='] then .standIn
  else if nodeMarks.contains t then .unknown
  else .text

end Plain
end Yaml
end Marginalia
