import Marginalia.Calendar.Day
import Marginalia.Text.Basic

/-
Moments: a day and a time of day to the microsecond, with or without a known
offset from universal time.
-/
namespace Marginalia

structure Moment where
  day : Day
  hour : Nat
  minute : Nat
  second : Nat
  micro : Nat
  /-- Microseconds east of universal time, when the offset is known. -/
  offset : Option Int
deriving DecidableEq, Repr

/-- A number in at least `width` decimal digits. -/
def Text.padded (width n : Nat) : Text :=
  let ds := ofNat n
  List.replicate (width - ds.length) '0' ++ ds

def Day.text (d : Day) : Text :=
  Text.padded 4 d.year ++ ['-'] ++ Text.padded 2 d.month ++ ['-'] ++ Text.padded 2 d.day

namespace Moment

def microsPerSecond : Nat := 1000000

def microsPerDay : Nat := 86400 * microsPerSecond

def isValid (m : Moment) : Bool :=
  m.day.isValid && m.hour < 24 && m.minute < 60 && m.second < 60 && m.micro < microsPerSecond &&
    match m.offset with
    | none => true
    | some o => o.natAbs < microsPerDay

/-- Microseconds of local time since the start of the calendar. -/
def localMicros (m : Moment) : Int :=
  ((((m.day.ordinal * 24 + m.hour) * 60 + m.minute) * 60 + m.second) * microsPerSecond + m.micro :
    Nat)

/-- The order of two moments; with the offset of just one known, there is none. -/
def compare? (a b : Moment) : Option Ordering :=
  match a.offset, b.offset with
  | none, none => some (compare a.localMicros b.localMicros)
  | some o, some p => some (compare (a.localMicros - o) (b.localMicros - p))
  | _, _ => none

def offsetText (o : Int) : Text :=
  let n := o.natAbs
  let seconds := n / microsPerSecond
  let micros := n % microsPerSecond
  [if o < 0 then '-' else '+'] ++ Text.padded 2 (seconds / 3600) ++ [':'] ++
    Text.padded 2 (seconds / 60 % 60) ++
    (if seconds % 60 = 0 && micros = 0 then [] else ':' :: Text.padded 2 (seconds % 60)) ++
    (if micros = 0 then [] else '.' :: Text.padded 6 micros)

/-- Day and time with `sep` between them; microseconds and offset only where
there are any. -/
def text (sep : Char) (m : Moment) : Text :=
  m.day.text ++ [sep] ++ Text.padded 2 m.hour ++ [':'] ++ Text.padded 2 m.minute ++ [':'] ++
    Text.padded 2 m.second ++
    (if m.micro = 0 then [] else '.' :: Text.padded 6 m.micro) ++
    (match m.offset with
     | none => []
     | some o => offsetText o)

def epochDay : Nat := 719163

/-- The moment at a count of whole seconds and microseconds from the start of
1970.  The first day of year 1 is out of reach. -/
def ofSeconds? (seconds : Int) (micro : Nat) : Option Moment :=
  if seconds < -62135510400 || 253402300799 < seconds then none
  else
    let n := (seconds + (epochDay : Int) * 86400).toNat
    let rest := n % 86400
    some ⟨Day.ofOrdinal (n / 86400), rest / 3600, rest / 60 % 60, rest % 60, micro, none⟩

end Moment

end Marginalia
