import Marginalia.Text.Basic

/-
The ways in which an operation can fail, by cause.
-/
namespace Marginalia

inductive TemplateProblem where
  | directoryMissing (path : Text)
  | noTemplates (path : Text)
  | noDefault (id : Text)
  | noUserDirectory
deriving DecidableEq, Repr

inductive FileProblem where
  | notFound
  | isDirectory
  | notDirectory
  | exists
  | nameTooLong
  | notPermitted
deriving DecidableEq, Repr

inductive CalendarProblem where
  | year (n : Nat)
  | month
  | day
  | hour
  | minute
  | second
  /-- An offset of a day or more, as it is shown. -/
  | offset (shown : Text)
deriving DecidableEq, Repr

inductive Fault where
  /-- An operation met a value of a kind it does not work on. -/
  | wrongKind
  /-- A value was asked for an operation that its kind does not have. -/
  | noSuchOperation
  /-- A page of a kind that is no number, named by its kind. -/
  | pageOfKind (kind : Text)
  /-- A page that does not read as a number, as it is shown. -/
  | pageNotNumber (shown : Text)
  /-- A page that is not a whole number, as it is shown. -/
  | pageNotWhole (shown : Text)
  /-- A whole number beyond the range of floating-point numbers. -/
  | tooLarge
  | infinite
  /-- What is not a number where a whole number is needed. -/
  | notNumber
  /-- A whole number whose text would have too many digits. -/
  | textTooLong
  /-- A numeral of too many digits, by their count. -/
  | numeralTooLong (digits : Nat)
  /-- A text that is no whole number in a base, as it is shown. -/
  | badNumeral (base : Nat) (shown : Text)
  /-- A text that is no number, as it is shown. -/
  | badDecimal (shown : Text)
  | badCodePoint
  /-- A number for a code point that has more than thirty-one bits. -/
  | wideCodePoint
  | calendar (problem : CalendarProblem)
  /-- A text that names no truth value. -/
  | badTruthValue
  | emptyNumeral
  | emptyGroup
  /-- A cache with no room for a single entry was asked to make room. -/
  | noRoom
  | undecodable
  | template (problem : TemplateProblem)
  | file (problem : FileProblem)
deriving DecidableEq, Repr

namespace TemplateProblem

def message : TemplateProblem → Text
  | .directoryMissing path => "Built-in template directory not found: ".toList ++ path
  | .noTemplates path => "No templates found in ".toList ++ path
  | .noDefault id => "Default template '".toList ++ id ++ "' is not a built-in".toList
  | .noUserDirectory => "No user template directory configured".toList

end TemplateProblem

namespace CalendarProblem

def message : CalendarProblem → Text
  | .year n => "year ".toList ++ Text.ofNat n ++ " is out of range".toList
  | .month => "month must be in 1..12".toList
  | .day => "day is out of range for month".toList
  | .hour => "hour must be in 0..23".toList
  | .minute => "minute must be in 0..59".toList
  | .second => "second must be in 0..59".toList
  | .offset shown =>
    "offset must be a timedelta strictly between -timedelta(hours=24) and ".toList ++
      "timedelta(hours=24), not ".toList ++ shown ++ ['.']

end CalendarProblem

namespace Fault

/-- The text that tells a reader what went wrong, where there is one. -/
def message : Fault → Option Text
  | .pageOfKind kind => some ("pageno must be a number, got ".toList ++ kind)
  | .pageNotNumber shown => some ("pageno is not a number: ".toList ++ shown)
  | .pageNotWhole shown => some ("pageno is not a whole number: ".toList ++ shown)
  | .tooLarge => some "int too large to convert to float".toList
  | .infinite => some "cannot convert float infinity to integer".toList
  | .notNumber => some "cannot convert float NaN to integer".toList
  | .textTooLong =>
    some ("Exceeds the limit (4300 digits) for integer string conversion; ".toList ++
      "use sys.set_int_max_str_digits() to increase the limit".toList)
  | .numeralTooLong digits =>
    some ("Exceeds the limit (4300 digits) for integer string conversion: value has ".toList ++
      Text.ofNat digits ++
      " digits; use sys.set_int_max_str_digits() to increase the limit".toList)
  | .badNumeral base shown =>
    some ("invalid literal for int() with base ".toList ++ Text.ofNat base ++ [':', ' '] ++
      shown.take 200)
  | .badDecimal shown => some ("could not convert string to float: ".toList ++ shown)
  | .badCodePoint => some "chr() arg not in range(0x110000)".toList
  | .wideCodePoint => some "Python int too large to convert to C int".toList
  | .calendar problem => some problem.message
  | .template problem => some problem.message
  | _ => none

end Fault
end Marginalia
