import Marginalia.Calendar.Moment
import Marginalia.Text.Digit
import Marginalia.Number.Decimal

/-
Reading dates in a few everyday layouts.  A layout is a list of items; each
item offers the ways in which a text can start with it, best first, and a text
is read by the first combination that fits the layout from the start.
-/
namespace Marginalia

inductive LayoutItem where
  | literal (c : Char)
  /-- Any number of blanks, at least one. -/
  | gap
  | year
  | month
  | monthName (names : List Text)
  | day
  | hour
  | minute
  | second
deriving DecidableEq

abbrev DateLayout := List LayoutItem

namespace DateLayout

/-- The fields read so far; a field that is never read keeps its least value. -/
structure Fields where
  year : Nat := 1900
  month : Nat := 1
  day : Nat := 1
  hour : Nat := 0
  minute : Nat := 0
  second : Nat := 0

def shortMonths : List Text :=
  ["Jan", "Feb", "Mar", "Apr", "May", "Jun", "Jul", "Aug", "Sep", "Oct", "Nov", "Dec"].map
    String.toList

def longMonths : List Text :=
  ["January", "February", "March", "April", "May", "June", "July", "August", "September",
    "October", "November", "December"].map String.toList

/-- One code point of a set. -/
def among (first last : Char) (c : Char) : Bool := first ≤ c && c ≤ last

/-- The ways to read a number of `classes.length` digits, each in its class. -/
def number (classes : List (Char → Bool)) (t : Text) : List (Nat × Text) :=
  let ds := t.take classes.length
  if ds.length = classes.length && (classes.zip ds).all fun (p, c) => p c then
    [(Text.digitsValue ds, t.drop classes.length)]
  else []

def monthNumbers (t : Text) : List (Nat × Text) :=
  number [(· = '1'), among '0' '2'] t ++ number [(· = '0'), among '1' '9'] t ++
    number [among '1' '9'] t

def dayNumbers (t : Text) : List (Nat × Text) :=
  number [(· = '3'), among '0' '1'] t ++ number [among '1' '2', Text.isDigit] t ++
    number [(· = '0'), among '1' '9'] t ++ number [among '1' '9'] t ++
    match t with
    | ' ' :: rest => number [among '1' '9'] rest
    | _ => []

def hourNumbers (t : Text) : List (Nat × Text) :=
  number [(· = '2'), among '0' '3'] t ++ number [among '0' '1', Text.isDigit] t ++
    number [Text.isDigit] t

def minuteNumbers (t : Text) : List (Nat × Text) :=
  number [among '0' '5', Text.isDigit] t ++ number [Text.isDigit] t

/-- Two seconds past the minute are let through here and refused as a time. -/
def secondNumbers (t : Text) : List (Nat × Text) :=
  number [(· = '6'), among '0' '1'] t ++ minuteNumbers t

def yearNumbers (t : Text) : List (Nat × Text) :=
  number [Text.isDigit, Text.isDigit, Text.isDigit, Text.isDigit] t

/-- The month whose name the text starts with, in any case of the letters. -/
def namedMonth (names : List Text) (t : Text) : List (Nat × Text) :=
  let low := t.map Decimal.lowerBasic
  (names.zipIdx 1).filterMap fun (name, n) =>
    if (name.map Decimal.lowerBasic).isPrefixOf low then some (n, t.drop name.length) else none

/-- The cuts of a text after one or more blanks, longest run first. -/
def gaps (t : Text) : List Text :=
  let run := (t.takeWhile Text.isSpace).length
  (List.range run).reverse.map fun n => t.drop (n + 1)

def item (f : Fields) (t : Text) : LayoutItem → List (Fields × Text)
  | .literal c =>
    match t with
    | d :: rest => if c = d then [(f, rest)] else []
    | [] => []
  | .gap => (gaps t).map fun rest => (f, rest)
  | .year => (yearNumbers t).map fun (n, rest) => ({ f with year := n }, rest)
  | .month => (monthNumbers t).map fun (n, rest) => ({ f with month := n }, rest)
  | .monthName names => (namedMonth names t).map fun (n, rest) => ({ f with month := n }, rest)
  | .day => (dayNumbers t).map fun (n, rest) => ({ f with day := n }, rest)
  | .hour => (hourNumbers t).map fun (n, rest) => ({ f with hour := n }, rest)
  | .minute => (minuteNumbers t).map fun (n, rest) => ({ f with minute := n }, rest)
  | .second => (secondNumbers t).map fun (n, rest) => ({ f with second := n }, rest)

def first? : DateLayout → Fields → Text → Option (Fields × Text)
  | [], f, t => some (f, t)
  | i :: rest, f, t => (item f t i).findSome? fun (f', t') => first? rest f' t'

def read? (layout : DateLayout) (t : Text) : Option Moment := do
  let (f, rest) ← first? layout {} t
  let m : Moment := ⟨⟨f.year, f.month, f.day⟩, f.hour, f.minute, f.second, 0, none⟩
  if rest.isEmpty && m.isValid then some m else none

def timeItems : DateLayout :=
  [.gap, .hour, .literal ':', .minute, .literal ':', .second]

def numeric (sep : Char) : DateLayout :=
  [.year, .literal sep, .month, .literal sep, .day]

def named (names : List Text) : DateLayout :=
  [.monthName names, .gap, .day, .literal ',', .gap, .year]

def known : List DateLayout :=
  [numeric '-' ++ timeItems, numeric '-', named shortMonths, named longMonths,
    numeric '/' ++ timeItems, numeric '/']

end DateLayout
end Marginalia
