import Marginalia.Value.Basic
import Marginalia.Number.Decimal
import Marginalia.Text.Quoted
import Marginalia.Fault

/-
The texts of values: how a value shows by itself, how it shows inside a
composite, and the text a template puts in its place.
-/
namespace Marginalia
namespace Value

/-- The decimal text of a whole number, unless it has too many digits. -/
def wholeText (n : Int) : Except Fault Text :=
  if n.natAbs < Nat.pow 10 Text.maxNumeralDigits then .ok (toString n).toList
  else .error .textTooLong

/-- A whole number read from text, unless it has too many digits. -/
def readWhole (t : Text) : Except Fault Int :=
  match Text.wholeDigits? t with
  | none => .error (.badNumeral 10 (Text.quoted t))
  | some (negative, ds) =>
    if Text.maxNumeralDigits < ds.length then .error (.numeralTooLong ds.length)
    else
      let n : Int := Text.digitsValue ds
      .ok (if negative then -n else n)

def commaSpace : Text := [',', ' ']

/-- A call with arguments, as composite values show the values they hold. -/
def call (name : String) (args : List Text) : Text :=
  name.toList ++ ['('] ++ Text.join commaSpace args ++ [')']

def durationLiteral (micros : Int) : Text :=
  let days := micros / Moment.microsPerDay
  let rest := (micros % Moment.microsPerDay).toNat
  let seconds := rest / Moment.microsPerSecond
  let part (name : String) (n : Int) : List Text :=
    if n = 0 then [] else [name.toList ++ ['='] ++ (toString n).toList]
  let parts := part "days" days ++ part "seconds" seconds ++
    part "microseconds" (rest % Moment.microsPerSecond : Nat)
  call "datetime.timedelta" (if parts.isEmpty then [['0']] else parts)

def momentLiteral (m : Moment) : Text :=
  let numbers : List Nat := [m.day.year, m.day.month, m.day.day, m.hour, m.minute]
  let seconds : List Nat :=
    if m.micro ≠ 0 then [m.second, m.micro] else if m.second ≠ 0 then [m.second] else []
  let zone : List Text :=
    match m.offset with
    | none => []
    | some o =>
      ["tzinfo=".toList ++
        if o = 0 then "datetime.timezone.utc".toList
        else call "datetime.timezone" [durationLiteral o]]
  call "datetime.datetime" ((numbers ++ seconds).map Text.ofNat ++ zone)

mutual

/-- How a value shows inside a composite one. -/
def literal : Value → Except Fault Text
  | .null => .ok "None".toList
  | .bool b => .ok (if b then "True" else "False").toList
  | .int n => wholeText n
  | .float x => .ok x.text
  | .text t => .ok (Text.quoted t)
  | .bytes bs => .ok (Text.quotedBytes bs)
  | .day d => .ok (call "datetime.date" ([d.year, d.month, d.day].map Text.ofNat))
  | .moment m => .ok (momentLiteral m)
  | .list xs => do
    let parts ← literals xs
    .ok (['['] ++ Text.join commaSpace parts ++ [']'])
  | .tuple xs => do
    let parts ← literals xs
    match parts with
    | [p] => .ok (['('] ++ p ++ [',', ')'])
    | _ => .ok (['('] ++ Text.join commaSpace parts ++ [')'])
  | .map entries => do
    let parts ← entryLiterals entries
    .ok (['{'] ++ Text.join commaSpace parts ++ ['}'])
  | .set members => do
    let parts ← literals members
    if parts.isEmpty then .ok (call "set" [])
    else .ok (['{'] ++ Text.join commaSpace parts ++ ['}'])
  | .enclosing isMap => .ok (if isMap then "\x7b...\x7d" else "[...]").toList

def literals : List Value → Except Fault (List Text)
  | [] => .ok []
  | x :: xs => do
    let t ← literal x
    let ts ← literals xs
    .ok (t :: ts)

def entryLiterals : List (Value × Value) → Except Fault (List Text)
  | [] => .ok []
  | (k, v) :: rest => do
    let kt ← literal k
    let vt ← literal v
    let ts ← entryLiterals rest
    .ok ((kt ++ [':', ' '] ++ vt) :: ts)

end

/-- How a value shows by itself: a text as it is, a moment with a space between
day and time. -/
def shown : Value → Except Fault Text
  | .text t => .ok t
  | .day d => .ok d.text
  | .moment m => .ok (m.text ' ')
  | v => literal v

mutual

/-- The text a template puts in place of a value: nothing for null, whole
floating-point numbers without a fraction, sequences joined with commas. -/
def templateText : Value → Except Fault Text
  | .null => .ok []
  | .bool b => .ok (if b then "true" else "false").toList
  | .float x =>
    match if x.isWhole then x.truncate? else none with
    | some n => wholeText n
    | none => .ok x.text
  | .list xs => do
    let parts ← templateTexts xs
    .ok (Text.join commaSpace parts)
  | .tuple xs => do
    let parts ← templateTexts xs
    .ok (Text.join commaSpace parts)
  | v => shown v

def templateTexts : List Value → Except Fault (List Text)
  | [] => .ok []
  | x :: xs => do
    let t ← templateText x
    let ts ← templateTexts xs
    .ok (t :: ts)

end

end Value
end Marginalia
