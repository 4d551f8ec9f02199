import Marginalia.Calendar.Reading

/-
Masks for moments.  A mask names fields of a moment by tokens, in braces or
bare, and everything else in it is copied.
-/
namespace Marginalia

inductive DateField where
  | year
  | month
  | day
  | hour
  | minute
  | second
deriving DecidableEq, Repr

namespace DateField

def token : DateField → Text
  | .year => "YYYY".toList
  | .month => "MM".toList
  | .day => "DD".toList
  | .hour => "HH".toList
  | .minute => "mm".toList
  | .second => "ss".toList

def all : List DateField := [.year, .month, .day, .hour, .minute, .second]

def ofToken? (t : Text) : Option DateField := all.find? (·.token = t)

/-- A field of a moment, padded with zeros. -/
def text (m : Moment) : DateField → Text
  | .year => Text.padded 4 m.day.year
  | .month => Text.padded 2 m.day.month
  | .day => Text.padded 2 m.day.day
  | .hour => Text.padded 2 m.hour
  | .minute => Text.padded 2 m.minute
  | .second => Text.padded 2 m.second

end DateField

inductive MaskItem where
  | literal (c : Char)
  | field (f : DateField)
deriving DecidableEq, Repr

abbrev DateMask := List MaskItem

namespace DateMask

def render (mask : DateMask) (m : Moment) : Text :=
  mask.flatMap fun
    | .literal c => [c]
    | .field f => f.text m

def bareField? (t : Text) : Option DateField := DateField.all.find? fun f => f.token.isPrefixOf t

/-- A mask whose tokens stand bare: the leftmost token counts, and a longer run
of its letter starts over after it. -/
def bare (t : Text) : DateMask :=
  match t with
  | [] => []
  | c :: rest =>
    match bareField? (c :: rest) with
    | some f => .field f :: bare (rest.drop (f.token.length - 1))
    | none => .literal c :: bare rest
termination_by t.length
decreasing_by
  · simp only [List.length_drop, List.length_cons]; omega
  · simp

/-- A mask whose tokens stand in braces; it is refused when the braces hold
anything but a token.  A brace that is never closed is copied. -/
def braced? (t : Text) : Option DateMask :=
  match t with
  | [] => some []
  | '{' :: rest =>
    match _h : Text.cut ['}'] rest with
    | none => some (('{' :: rest).map .literal)
    | some (name, after) =>
      match DateField.ofToken? name with
      | none => none
      | some f => (braced? after).map (.field f :: ·)
  | c :: rest => (braced? rest).map (.literal c :: ·)
termination_by t.length
decreasing_by
  · have := Text.length_after_cut _h
    simp only [List.length_cons] at this ⊢
    omega
  · simp

/-- A mask with a brace anywhere has its tokens in braces. -/
def ofText? (t : Text) : Option DateMask := if t.contains '{' then braced? t else some (bare t)

end DateMask

namespace Moment

/-- Month by its short name, day and year. -/
def shortDate (m : Moment) : Text :=
  (DateLayout.shortMonths.getD (m.day.month - 1) []) ++ [' '] ++ Text.ofNat m.day.day ++
    [',', ' '] ++ Text.ofNat m.day.year

/-- Month, day and the last two digits of the year. -/
def localDate (m : Moment) : Text :=
  Text.padded 2 m.day.month ++ ['/'] ++ Text.padded 2 m.day.day ++ ['/'] ++
    Text.padded 2 (m.day.year % 100)

def dailyNote (m : Moment) : Text := ['[', '['] ++ m.day.text ++ [']', ']']

/-- A moment after a pattern: none or an empty one, a name, or a mask. -/
def format (pattern : Option Text) (m : Moment) : Text :=
  match pattern with
  | none => m.shortDate
  | some p =>
    if p.isEmpty then m.shortDate
    else if p = "locale".toList then m.localDate
    else if p = "daily-note".toList then m.dailyNote
    else
      match DateMask.ofText? p with
      | none => []
      | some mask => mask.render m

end Moment

/-- A value that stands for a moment, after a pattern; nothing for any other. -/
def formatDate (v : Value) (pattern : Option Text) : Except Fault Text := do
  match ← Moment.ofValue? v with
  | none => .ok []
  | some m => .ok (m.format pattern)

end Marginalia
