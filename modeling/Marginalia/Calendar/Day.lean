/-
Days of the common calendar, extended to all years from 1 to 9999, and their
count from the first day of year 1.
-/
namespace Marginalia

structure Day where
  year : Nat
  month : Nat
  day : Nat
deriving DecidableEq, Repr

namespace Day

def isLeap (year : Nat) : Bool := year % 4 = 0 && (year % 100 ≠ 0 || year % 400 = 0)

def monthLength (year month : Nat) : Nat :=
  if month = 2 then (if isLeap year then 29 else 28)
  else if month = 4 || month = 6 || month = 9 || month = 11 then 30
  else 31

def daysBeforeYear (year : Nat) : Nat :=
  let y := year - 1
  y * 365 + y / 4 - y / 100 + y / 400

def daysBeforeMonth (year : Nat) : Nat → Nat
  | 0 => 0
  | 1 => 0
  | month + 1 => daysBeforeMonth year month + monthLength year month

/-- The number of the day, the first day of year 1 being 1. -/
def ordinal (d : Day) : Nat := daysBeforeYear d.year + daysBeforeMonth d.year d.month + d.day

def maxYear : Nat := 9999

def isValid (d : Day) : Bool :=
  1 ≤ d.year && d.year ≤ maxYear && 1 ≤ d.month && d.month ≤ 12 &&
    1 ≤ d.day && d.day ≤ monthLength d.year d.month

/-- The month that holds the `n`th day of the year, counted from zero, and the
day in it. -/
def monthOf (year : Nat) : Nat → Nat → Nat → Nat × Nat
  | 0, month, n => (month, n + 1)
  | fuel + 1, month, n =>
    let len := monthLength year month
    if n < len then (month, n + 1) else monthOf year fuel (month + 1) (n - len)

def ofOrdinal (n : Nat) : Day :=
  let n := n - 1
  let n400 := n / 146097
  let n := n % 146097
  let n100 := min (n / 36524) 3
  let n := n - n100 * 36524
  let n4 := n / 1461
  let n := n % 1461
  let n1 := min (n / 365) 3
  let n := n - n1 * 365
  let year := n400 * 400 + n100 * 100 + n4 * 4 + n1 + 1
  let (month, day) := monthOf year 11 1 n
  ⟨year, month, day⟩

/-- The day of the week, Monday being 0. -/
def weekday (d : Day) : Nat := (d.ordinal + 6) % 7

/-- The number of the Monday of the first week of a year: the week that holds
the year's first Thursday. -/
def firstMonday (year : Nat) : Int :=
  let first := ordinal ⟨year, 1, 1⟩
  let weekday := (first + 6) % 7
  let monday : Int := first - weekday
  if 3 < weekday then monday + 7 else monday

def hasWeek53 (year : Nat) : Bool :=
  let w := weekday ⟨year, 1, 1⟩
  w = 3 || (w = 2 && isLeap year)

/-- The day given by year, week of the year and day of the week from 1 to 7. -/
def ofWeek? (year week weekday : Nat) : Option Day :=
  if week = 0 || 53 < week || (week = 53 && !hasWeek53 year) then none
  else if weekday = 0 || 7 < weekday then none
  else if year = 0 then none
  else
    let n := firstMonday year + ((week - 1) * 7 + weekday - 1 : Nat)
    if n < 1 then none
    else
      let d := ofOrdinal n.toNat
      if d.year ≤ maxYear then some d else none

end Day

end Marginalia
