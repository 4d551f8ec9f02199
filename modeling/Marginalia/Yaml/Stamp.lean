import Marginalia.Yaml.Cursor
import Marginalia.Value.Literal

/-
Dates with or without a time of day, as scalars write them.
-/
namespace Marginalia
namespace Yaml

/-- The parts of a date with or without a time, as they are written. -/
structure Stamp where
  year : Nat
  month : Nat
  day : Nat
  /-- Hour, minute, second, and microseconds. -/
  time : Option (Nat × Nat × Nat × Nat)
  /-- Minutes east of universal time. -/
  offset : Option Int

namespace Stamp

/-! ## Reading -/

/-- One or two digits, and what follows them. -/
def oneOrTwo? (t : Text) : Option (Nat × Text) :=
  let ds := (t.take 2).takeWhile Text.isBasicDigit
  if ds.isEmpty then none else some (Text.digitsValue ds, t.drop ds.length)

/-- A number of digits, and what follows them. -/
def digits? (n : Nat) (t : Text) : Option (Nat × Text) :=
  let ds := t.take n
  if ds.length = n && ds.all Text.isBasicDigit then some (Text.digitsValue ds, t.drop n) else none

def after? (c : Char) : Text → Option Text
  | [] => none
  | d :: rest => if d = c then some rest else none

/-- A fraction of a second as microseconds, further digits being cut. -/
def micros (ds : Text) : Nat :=
  Text.digitsValue ((ds ++ List.replicate 6 '0').take 6)

/-- An offset that fills the text: nothing, the letter of universal time, or a
sign with hours and minutes. -/
def offset? (t : Text) : Option (Option Int) :=
  if t.isEmpty then some none
  else
    match t.dropWhile isBlank with
    | ['Z'] => some (some 0)
    | s :: rest =>
      if s = '+' || s = '-' then do
        let (hours, rest) ← oneOrTwo? rest
        let minutes ←
          if rest.isEmpty then some 0
          else do
            let (m, rest) ← digits? 2 (← after? ':' rest)
            if rest.isEmpty then some m else none
        let n : Int := hours * 60 + minutes
        some (some (if s = '-' then -n else n))
      else none
    | [] => none

def read? (t : Text) : Option Stamp := do
  let (year, rest) ← digits? 4 t
  let (month, rest) ← oneOrTwo? (← after? '-' rest)
  let (day, rest) ← oneOrTwo? (← after? '-' rest)
  match rest with
  | [] => some ⟨year, month, day, none, none⟩
  | c :: r =>
    let rest ←
      if c = 'T' || c = 't' then some r
      else if isBlank c then some (r.dropWhile isBlank)
      else none
    let (hour, rest) ← oneOrTwo? rest
    let (minute, rest) ← digits? 2 (← after? ':' rest)
    let (second, rest) ← digits? 2 (← after? ':' rest)
    let (fraction, rest) : Text × Text :=
      match rest with
      | '.' :: r => (r.takeWhile Text.isBasicDigit, r.dropWhile Text.isBasicDigit)
      | r => ([], r)
    let offset ← offset? rest
    some ⟨year, month, day, some (hour, minute, second, micros fraction), offset⟩

/-! ## Values -/

def checkDay (s : Stamp) : Except Fault Day :=
  let d : Day := ⟨s.year, s.month, s.day⟩
  if s.year = 0 then .error (.calendar (.year s.year))
  else if s.month = 0 || 12 < s.month then .error (.calendar .month)
  else if d.isValid then .ok d
  else .error (.calendar .day)

/-- The offset of minutes in microseconds; it is less than a day. -/
def checkOffset : Option Int → Except Fault (Option Int)
  | none => .ok none
  | some minutes =>
    let o := minutes * 60 * Moment.microsPerSecond
    if o.natAbs < Moment.microsPerDay then .ok (some o)
    else .error (.calendar (.offset (Value.durationLiteral o)))

/-- The day or the moment that is written, if the calendar has it. -/
def value (s : Stamp) : Except Fault Value := do
  match s.time with
  | none => return .day (← s.checkDay)
  | some (hour, minute, second, micro) =>
    let offset ← checkOffset s.offset
    let day ← s.checkDay
    if 23 < hour then throw (.calendar .hour)
    if 59 < minute then throw (.calendar .minute)
    if 59 < second then throw (.calendar .second)
    return .moment ⟨day, hour, minute, second, micro, offset⟩

end Stamp
end Yaml
end Marginalia
