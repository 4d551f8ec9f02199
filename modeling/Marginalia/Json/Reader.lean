import Marginalia.Value.Basic
import Marginalia.Number.Decimal
import Marginalia.Html.Reference

/-
Reading values from their interchange text.  Objects keep the order of their
keys, and a key that is repeated keeps its first place and its last value.
-/
namespace Marginalia
namespace Json

def isBlank (c : Char) : Bool := c = ' ' || c = '\t' || c = '\n' || c = '\r'

def skipBlanks (t : Text) : Text := t.dropWhile isBlank

/-- The number written by four hexadecimal digits. -/
def fourHex? (t : Text) : Option (Nat × Text) :=
  let ds := t.take 4
  if ds.length = 4 && ds.all fun c => (Html.hexValue? c).isSome then
    some (Html.hexNumber ds, t.drop 4)
  else none

def isHighSurrogate (n : Nat) : Bool := 0xD800 ≤ n && n ≤ 0xDBFF

def isLowSurrogate (n : Nat) : Bool := 0xDC00 ≤ n && n ≤ 0xDFFF

/-- The code point of a numeric escape, after its letter; two escapes may write
one code point between them. -/
def unicodeEscape? (t : Text) : Option (Char × Text) := do
  let (n, rest) ← fourHex? t
  let single : Char :=
    if isHighSurrogate n || isLowSurrogate n then Char.ofNat 0xFFFD else Char.ofNat n
  if isHighSurrogate n then
    match rest with
    | '\\' :: 'u' :: r =>
      match fourHex? r with
      | some (m, r) =>
        if isLowSurrogate m then
          some (Char.ofNat (0x10000 + (n - 0xD800) * 0x400 + (m - 0xDC00)), r)
        else some (single, rest)
      | none => none
    | _ => some (single, rest)
  else some (single, rest)

def shortEscape? : Char → Option Char
  | '"' => some '"'
  | '\\' => some '\\'
  | '/' => some '/'
  | 'b' => some '\x08'
  | 'f' => some '\x0c'
  | 'n' => some '\n'
  | 'r' => some '\r'
  | 't' => some '\t'
  | _ => none

/-- The rest of a string after its opening quote. -/
def string? : Nat → Text → Option (Text × Text)
  | 0, _ => none
  | _, [] => none
  | _, '"' :: rest => some ([], rest)
  | fuel + 1, '\\' :: 'u' :: rest => do
    let (c, rest) ← unicodeEscape? rest
    let (t, rest) ← string? fuel rest
    some (c :: t, rest)
  | fuel + 1, '\\' :: e :: rest => do
    let c ← shortEscape? e
    let (t, rest) ← string? fuel rest
    some (c :: t, rest)
  | fuel + 1, c :: rest =>
    if c.toNat < 0x20 || c = '\\' then none
    else do
      let (t, rest) ← string? fuel rest
      some (c :: t, rest)

/-- The digits of a fraction after its point, when there are any. -/
def fraction : Text → Text × Text
  | '.' :: rest =>
    let ds := rest.takeWhile Text.isBasicDigit
    if ds.isEmpty then ([], '.' :: rest) else (ds, rest.drop ds.length)
  | rest => ([], rest)

def exponent (t : Text) : Option Int × Text :=
  match t with
  | c :: rest =>
    if c = 'e' || c = 'E' then
      let (negative, r) := Decimal.takeSign rest
      let ds := r.takeWhile Text.isBasicDigit
      if ds.isEmpty then (none, t)
      else
        let n : Int := Text.digitsValue ds
        (some (if negative then -n else n), r.drop ds.length)
    else (none, t)
  | [] => (none, t)

/-- A number; it is whole when it has neither fraction nor exponent. -/
def number? (t : Text) : Option (Value × Text) := do
  let (negative, body) : Bool × Text :=
    match t with
    | '-' :: r => (true, r)
    | r => (false, r)
  let ds :=
    match body with
    | '0' :: _ => ['0']
    | r => r.takeWhile Text.isBasicDigit
  if ds.isEmpty then none
  let (fr, rest) := fraction (body.drop ds.length)
  let (ex, rest) := exponent rest
  if fr.isEmpty && ex.isNone then
    if Text.maxNumeralDigits < ds.length then none
    else
      let n : Int := Text.digitsValue ds
      some (.int (if negative then -n else n), rest)
  else
    let d : Decimal := ⟨negative, Text.digitsValue (ds ++ fr), ex.getD 0 - fr.length⟩
    some (.float d.toBinary64, rest)

def wordValues : List (Text × Value) :=
  [("null".toList, .null), ("true".toList, .bool true), ("false".toList, .bool false),
    ("NaN".toList, .float .nan), ("Infinity".toList, .float (.infinity false)),
    ("-Infinity".toList, .float (.infinity true))]

def word? (t : Text) : Option (Value × Text) :=
  (wordValues.find? fun (w, _) => w.isPrefixOf t).map fun (w, v) => (v, t.drop w.length)

mutual

def value? : Nat → Text → Option (Value × Text)
  | 0, _ => none
  | fuel + 1, t =>
    match t with
    | '"' :: rest => (string? (rest.length + 1) rest).map fun (s, r) => (.text s, r)
    | '[' :: rest =>
      match skipBlanks rest with
      | ']' :: r => some (.list [], r)
      | r => (items? fuel r).map fun (xs, r) => (.list xs, r)
    | '{' :: rest =>
      match skipBlanks rest with
      | '}' :: r => some (.map [], r)
      | r => (members? fuel r).map fun (es, r) => (Value.ofEntries es, r)
    | t => (word? t).orElse fun _ => number? t

def items? : Nat → Text → Option (List Value × Text)
  | 0, _ => none
  | fuel + 1, t => do
    let (v, rest) ← value? fuel t
    match skipBlanks rest with
    | ']' :: r => some ([v], r)
    | ',' :: r => do
      let (vs, r) ← items? fuel (skipBlanks r)
      some (v :: vs, r)
    | _ => none

def members? : Nat → Text → Option (List (Value × Value) × Text)
  | 0, _ => none
  | fuel + 1, t =>
    match t with
    | '"' :: rest => do
      let (k, rest) ← string? (rest.length + 1) rest
      match skipBlanks rest with
      | ':' :: r =>
        let (v, rest) ← value? fuel (skipBlanks r)
        match skipBlanks rest with
        | '}' :: r => some ([(.text k, v)], r)
        | ',' :: r => do
          let (es, r) ← members? fuel (skipBlanks r)
          some ((.text k, v) :: es, r)
        | _ => none
      | _ => none
    | _ => none

end

/-- Read one value that, blanks apart, fills the text. -/
def read? (t : Text) : Option Value := do
  let (v, rest) ← value? (2 * t.length + 2) (skipBlanks t)
  if (skipBlanks rest).isEmpty then some v else none

end Json
end Marginalia
