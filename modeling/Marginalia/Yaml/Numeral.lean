import Marginalia.Yaml.Plain

/-
The values of scalars that are meant as truth values and numbers.  A tag may ask
for them of any text, so that reading can fail.
-/
namespace Marginalia
namespace Yaml
namespace Numeral

def truth (t : Text) : Except Fault Bool :=
  match Plain.truthWords.lookup (Text.lower t) with
  | some b => .ok b
  | none => .error .badTruthValue

/-! ## Whole numbers -/

/-- The letter that marks a base between a zero and the digits. -/
def isBaseMark (base : Nat) (c : Char) : Bool :=
  match base with
  | 2 => c = 'b' || c = 'B'
  | 8 => c = 'o' || c = 'O'
  | 16 => c = 'x' || c = 'X'
  | _ => false

def withoutBaseMark (base : Nat) : Text → Text
  | '0' :: c :: rest => if isBaseMark base c then rest else '0' :: c :: rest
  | ds => ds

/-- A number in base two, eight or sixteen: padding, an optional sign, the mark
of the base or nothing, and digits; the decimal ones may be of any script. -/
def based (base : Nat) (t : Text) : Except Fault Int :=
  let (negative, body) := Decimal.takeSign (Text.stripPadding (Text.basicDigits t))
  let ds := withoutBaseMark base body
  if !ds.isEmpty && ds.all fun c => (Html.hexValue? c).any (· < base) then
    let n : Nat := ds.foldl (fun n c => base * n + (Html.hexValue? c).getD 0) 0
    .ok (if negative then -n else n)
  else .error (.badNumeral base (Text.quoted t))

/-- The sum of parts in base sixty. -/
def sixtieths (parts : List Text) : Except Fault Int :=
  parts.foldlM (fun n part => do return 60 * n + (← Value.readWhole part)) 0

/-- A leading zero, with a letter or alone, names the base. -/
def whole (t : Text) : Except Fault Int := do
  let (negative, body) := Decimal.takeSign (t.filter (· ≠ '_'))
  let n ←
    match body with
    | [] => throw .emptyNumeral
    | ['0'] => pure 0
    | '0' :: 'b' :: ds => based 2 ds
    | '0' :: 'x' :: ds => based 16 ds
    | '0' :: _ => based 8 body
    | _ => if body.contains ':' then sixtieths (Text.fields ':' body) else Value.readWhole body
  return if negative then -n else n

/-! ## Numbers with a fraction -/

def decimal (t : Text) : Except Fault Binary64 :=
  match Decimal.read? t with
  | some x => .ok x
  | none => .error (.badDecimal (Text.quoted t))

/-- The sum of parts in base sixty, the last one first. -/
def realSixtieths : List Binary64 → Except Fault Binary64 := go Binary64.zero 1
where
  go (sum : Binary64) (base : Nat) : List Binary64 → Except Fault Binary64
    | [] => .ok sum
    | x :: rest =>
      match Binary64.ofInt? base with
      | none => .error .tooLarge
      | some b => go (sum.add (x.mul b)) (base * 60) rest

/-- The sign of a number, and what follows it in small letters. -/
def unsigned (t : Text) : Bool × Text := Decimal.takeSign (Text.lower (t.filter (· ≠ '_')))

/-- Whether a text names what is not a number by a point and letters. -/
def namesNoNumber (t : Text) : Bool := (unsigned t).2 = ".nan".toList

def real (t : Text) : Except Fault Binary64 := do
  if t.all (· = '_') then throw .emptyNumeral
  let (negative, body) := unsigned t
  let x ←
    if namesNoNumber t then pure .nan
    else if body = ".inf".toList then pure (.infinity false)
    else if body.contains ':' then
      realSixtieths (← (Text.fields ':' body).mapM decimal).reverse
    else decimal body
  return if negative then x.neg else x

end Numeral
end Yaml
end Marginalia
