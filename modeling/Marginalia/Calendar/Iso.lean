import Marginalia.Calendar.Moment
import Marginalia.Text.Digit

/-
Reading moments in the international notation: calendar or week dates, with or
without hyphens; any one code point between date and time; a time to any
precision down to fractions of a second; an offset.  Digits are basic ones.
-/
namespace Marginalia
namespace Iso

/-- Exactly `n` basic digits and what follows them. -/
def takeDigits (n : Nat) (t : Text) : Option (Nat × Text) :=
  let ds := t.take n
  if ds.length = n && ds.all Text.isBasicDigit then some (Text.digitsValue ds, t.drop n) else none

/-- A date that fills `t`, as far as its fields need; the day of a week date may
be left out at the end. -/
def date? (t : Text) : Option Day := do
  let (year, rest) ← takeDigits 4 t
  let (hyphens, rest) : Bool × Text :=
    match rest with
    | '-' :: r => (true, r)
    | r => (false, r)
  let hyphen (t : Text) : Option Text :=
    if hyphens then
      match t with
      | '-' :: r => some r
      | _ => none
    else some t
  match rest with
  | 'W' :: r =>
    let (week, r) ← takeDigits 2 r
    if r.isEmpty then Day.ofWeek? year week 1
    else
      let (weekday, _) ← takeDigits 1 (← hyphen r)
      Day.ofWeek? year week weekday
  | r =>
    let (month, r) ← takeDigits 2 r
    let (day, _) ← takeDigits 2 (← hyphen r)
    some ⟨year, month, day⟩

/-- How far the date reaches, in code points: what stands there separates it
from the time. -/
def dateLength (t : Text) : Nat :=
  let isHyphen (i : Nat) : Bool := t[i]? = some '-'
  let isDigitAt (i : Nat) : Bool := (t[i]?.map Text.isBasicDigit).getD false
  if t.length = 7 then 7
  else if isHyphen 4 then
    if t[5]? = some 'W' then
      if 8 < t.length && isHyphen 8 then (if 10 < t.length && isDigitAt 10 then 8 else 10)
      else 8
    else 10
  else if t[4]? = some 'W' then
    let run := ((t.drop 7).takeWhile Text.isBasicDigit).length
    if run < 2 then 7 + run
    else if run % 2 = 1 then 7
    else 8
  else 8

structure Fields where
  hour : Nat
  minute : Nat
  second : Nat
  micro : Nat

/-- Up to six digits of a fraction of a second.  The flag is set when something
other than digits is left over. -/
def fraction? (t : Text) : Option (Nat × Bool) := do
  let n := min t.length 6
  let (v, rest) ← takeDigits n t
  some (v * Nat.pow 10 (6 - n), !(rest.dropWhile Text.isBasicDigit).isEmpty)

/-- Fields with one character behind them, which may stand before an offset when
it is an ASCII one. -/
def withExtra? (f : Fields) (c : Char) : Option (Fields × Bool) :=
  if c.toNat < 128 then some (f, true) else none

/-- What follows the minutes: the seconds and a fraction.  A time with colons
keeps them throughout; a time without has none. -/
def seconds? (colons : Bool) (hour minute : Nat) (t : Text) : Option (Fields × Bool) := do
  let (second, rest) ← takeDigits 2 t
  match rest with
  | [] => some (⟨hour, minute, second, 0⟩, false)
  | [c] => withExtra? ⟨hour, minute, second, 0⟩ c
  | c :: r =>
    let tail : Option Text :=
      if colons && c = ':' then some r
      else if c = '.' || c = ',' then some r
      else if colons then none
      else some rest
    let (micro, extra) ← fraction? (← tail)
    some (⟨hour, minute, second, micro⟩, extra)

/-- A time of day.  The flag is set when the text does not end where the fields
do. -/
def time? (t : Text) : Option (Fields × Bool) := do
  let (hour, rest) ← takeDigits 2 t
  match rest with
  | [] => some (⟨hour, 0, 0, 0⟩, false)
  | [c] => withExtra? ⟨hour, 0, 0, 0⟩ c
  | c :: r =>
    let colons := c = ':'
    if !colons && (c = '.' || c = ',') then
      let (micro, extra) ← fraction? r
      some (⟨hour, 0, 0, micro⟩, extra)
    else
      let (minute, rest) ← takeDigits 2 (if colons then r else rest)
      match rest with
      | [] => some (⟨hour, minute, 0, 0⟩, false)
      | [c] => withExtra? ⟨hour, minute, 0, 0⟩ c
      | c :: r =>
        if colons && c = ':' then seconds? colons hour minute r
        else if c = '.' || c = ',' then
          let (micro, extra) ← fraction? r
          some (⟨hour, minute, 0, micro⟩, extra)
        else if colons then none
        else seconds? colons hour minute rest

/-- A time with an offset, if there is one.  What stands between the time's
fields and an offset is not looked at. -/
def timeAndOffset? (t : Text) : Option (Fields × Option Int) := do
  let isSign (c : Char) : Bool := c = '+' || c = '-' || c = 'Z'
  let head := t.takeWhile (!isSign ·)
  let tail := t.dropWhile (!isSign ·)
  let (fields, extra) ← time? head
  match tail with
  | [] => if extra then none else some (fields, none)
  | 'Z' :: r => if r.isEmpty then some (fields, some 0) else none
  | c :: r =>
    let (o, extra) ← time? r
    if extra then none
    else
      let seconds := o.hour * 3600 + o.minute * 60 + o.second
      let micros : Int := seconds * Moment.microsPerSecond + o.micro
      some (fields, some (if seconds = 0 then 0 else if c = '-' then -micros else micros))

def read? (t : Text) : Option Moment := do
  if t.length < 7 then none
  let n := dateLength t
  let day ← date? (t.take n)
  let rest := t.drop n
  let (fields, offset) ←
    match rest with
    | [] => some (⟨0, 0, 0, 0⟩, none)
    | _ :: time => timeAndOffset? time
  let m : Moment := ⟨day, fields.hour, fields.minute, fields.second, fields.micro, offset⟩
  if m.isValid then some m else none

end Iso
end Marginalia
