import Marginalia.Text.Space
import Marginalia.Text.DigitTable

/-
Decimal digits of every script, and whole numbers written with them.
-/
namespace Marginalia
namespace Text

/-- The digit a code point stands for, if it stands for one. -/
def digit? (c : Char) : Option Nat :=
  (digitZeros.find? fun z => z ≤ c.toNat && c.toNat ≤ z + 9).map (c.toNat - ·)

def isDigit (c : Char) : Bool := (digit? c).isSome

/-- The value of a run of digits, most significant first. -/
def digitsValue (t : Text) : Nat :=
  t.foldl (fun n c => 10 * n + (digit? c).getD 0) 0

/-- Every digit becomes its basic form and every other blank of the extended
code pages a space; other code points stay. -/
def basicDigits (t : Text) : Text :=
  t.map fun c =>
    if c.toNat < 127 then c
    else if isSpace c then ' '
    else match digit? c with
      | some d => Char.ofNat (48 + d)
      | none => c

def stripPadding (t : Text) : Text :=
  ((t.dropWhile isPadding).reverse.dropWhile isPadding).reverse

def isBasicDigit (c : Char) : Bool := '0' ≤ c && c ≤ '9'

/-- Digits with single low lines between neighbours; the low lines are dropped. -/
def groupedDigits? : Text → Option Text
  | [] => none
  | [c] => if isBasicDigit c then some [c] else none
  | c :: '_' :: rest => if isBasicDigit c then (groupedDigits? rest).map (c :: ·) else none
  | c :: rest => if isBasicDigit c then (groupedDigits? rest).map (c :: ·) else none

/-- The digits of a whole number: padding, an optional sign, grouped digits of
any script. -/
def wholeDigits? (t : Text) : Option (Bool × Text) :=
  match stripPadding (basicDigits t) with
  | '-' :: ds => (groupedDigits? ds).map ((true, ·))
  | '+' :: ds => (groupedDigits? ds).map ((false, ·))
  | ds => (groupedDigits? ds).map ((false, ·))

/-- The longest numeral that is converted between text and number. -/
def maxNumeralDigits : Nat := 4300

end Text
end Marginalia
