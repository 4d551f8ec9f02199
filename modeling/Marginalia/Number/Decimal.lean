import Marginalia.Number.Binary64
import Marginalia.Text.Digit

/-
Decimal numerals: reading the nearest binary number, and writing the fewest
digits that read back.
-/
namespace Marginalia

/-- The number `digits` times 10 to the power `exponent`. -/
structure Decimal where
  negative : Bool
  digits : Nat
  exponent : Int
deriving DecidableEq, Repr

namespace Decimal

/-- The nearest binary number.  Exponents far outside the range are settled
before any power of ten is formed. -/
def toBinary64 (d : Decimal) : Binary64 :=
  if d.digits = 0 then .finite d.negative 0
  else if 400 < d.exponent then .infinity d.negative
  else if 0 ≤ d.exponent then .ofRatio d.negative (d.digits * Nat.pow 10 d.exponent.toNat) 1
  else if (400 + d.digits.log2 : Int) < -d.exponent then .finite d.negative 0
  else .ofRatio d.negative d.digits (Nat.pow 10 (-d.exponent).toNat)

def takeSign : Text → Bool × Text
  | '-' :: rest => (true, rest)
  | '+' :: rest => (false, rest)
  | rest => (false, rest)

/-- The exponent part of a numeral: nothing, or the letter, a sign and digits. -/
def exponent? : Text → Option Int
  | [] => some 0
  | c :: rest =>
    if c = 'e' || c = 'E' then
      let (negative, ds) := takeSign rest
      if !ds.isEmpty && ds.all Text.isBasicDigit then
        let n : Int := Text.digitsValue ds
        some (if negative then -n else n)
      else none
    else none

/-- A numeral in basic digits without sign: digits with at most one point, at
least one of them, and an exponent part. -/
def unsigned? (negative : Bool) (t : Text) : Option Decimal :=
  let whole := t.takeWhile Text.isBasicDigit
  let rest := t.dropWhile Text.isBasicDigit
  let (fraction, tail) : Text × Text :=
    match rest with
    | '.' :: r => (r.takeWhile Text.isBasicDigit, r.dropWhile Text.isBasicDigit)
    | r => ([], r)
  if whole.isEmpty && fraction.isEmpty then none
  else (exponent? tail).map fun e =>
    ⟨negative, Text.digitsValue (whole ++ fraction), e - fraction.length⟩

/-- Low lines are dropped where they stand between two digits. -/
def ungroup? : Text → Option Text
  | [] => some []
  | '_' :: _ => none
  | [c] => some [c]
  | c :: '_' :: d :: rest =>
    if Text.isBasicDigit c && Text.isBasicDigit d then (ungroup? (d :: rest)).map (c :: ·)
    else none
  | c :: rest => (ungroup? rest).map (c :: ·)

def lowerBasic (c : Char) : Char :=
  if 'A' ≤ c && c ≤ 'Z' then Char.ofNat (c.toNat + 32) else c

/-- Read a number: padding around, digits of any script, low lines between
digits, or one of the names of infinity and of what is not a number. -/
def read? (t : Text) : Option Binary64 := do
  let (negative, body) := takeSign (← ungroup? (Text.stripPadding (Text.basicDigits t)))
  let name := body.map lowerBasic
  if name = "inf".toList || name = "infinity".toList then some (.infinity negative)
  else if name = "nan".toList then some .nan
  else (unsigned? negative body).map toBinary64

/-- The exponent of the leading decimal digit of `u` units, for `u` positive. -/
def leadingExponent (u : Nat) : Int :=
  let guess : Int := ((u.log2 : Int) - 1074) * 30103 / 100000
  let reaches (e : Int) : Bool :=
    if 0 ≤ e then Nat.pow 10 e.toNat * Binary64.one ≤ u
    else Binary64.one ≤ u * Nat.pow 10 (-e).toNat
  if !reaches guess then guess - 1
  else if reaches (guess + 1) then guess + 1
  else guess

/-- The numeral with `digits` at the grid 10 to the power `exponent` reads back
as `u` units. -/
def readsBack (u digits : Nat) (exponent : Int) : Bool :=
  Decimal.toBinary64 ⟨false, digits, exponent⟩ = .finite false u

/-- Twice the distance, in units over a common scale, decides which neighbour on
the grid is nearer: the lower one when `u` lies below the middle. -/
def belowMiddle (u lower : Nat) (exponent : Int) : Ordering :=
  if 0 ≤ exponent then
    compare (2 * u) ((2 * lower + 1) * Nat.pow 10 exponent.toNat * Binary64.one)
  else compare (2 * u * Nat.pow 10 (-exponent).toNat) ((2 * lower + 1) * Binary64.one)

/-- The grid point with `count` digits that is nearest among the neighbours of
`u` that read back. -/
def onGrid? (u : Nat) (leading : Int) (count : Nat) : Option (Nat × Int) :=
  let e := leading - count + 1
  let lower :=
    if 0 ≤ e then u / (Nat.pow 10 e.toNat * Binary64.one)
    else u * Nat.pow 10 (-e).toNat / Binary64.one
  match readsBack u lower e, readsBack u (lower + 1) e with
  | false, false => none
  | true, false => some (lower, e)
  | false, true => some (lower + 1, e)
  | true, true =>
    match belowMiddle u lower e with
    | .lt => some (lower, e)
    | .gt => some (lower + 1, e)
    | .eq => some (if lower % 2 = 0 then lower else lower + 1, e)

/-- The first count of digits from `count` on whose grid has a point that reads
back. -/
def shortestFrom (u : Nat) (leading : Int) : Nat → Nat → Nat × Int
  | 0, count => (onGrid? u leading count).getD (0, 0)
  | fuel + 1, count => (onGrid? u leading count).getD (shortestFrom u leading fuel (count + 1))

/-- The fewest digits that read back as `u` units, and their exponent; 17 always
suffice. -/
def shortest (u : Nat) : Nat × Int := shortestFrom u (leadingExponent u) 17 1

def trimZeros (ds : Text) : Text := (ds.reverse.dropWhile (· = '0')).reverse

/-- The layout of a number: positional from 10 to the power -4 up to 10 to the
power 16, with at least one digit on each side of the point; otherwise one
digit, the others after a point, and a signed exponent of two digits or more. -/
def layout (ds : Text) (exponent : Int) : Text :=
  let leading := exponent + ds.length - 1
  let digits := trimZeros ds
  if -4 ≤ leading && leading < 16 then
    if 0 ≤ leading then
      let n := leading.toNat + 1
      let whole := digits.take n
      let fraction := digits.drop n
      whole ++ List.replicate (n - whole.length) '0' ++ ['.'] ++
        (if fraction.isEmpty then ['0'] else fraction)
    else ['0', '.'] ++ List.replicate (-leading - 1).toNat '0' ++ digits
  else
    let e := Text.ofNat leading.natAbs
    let mantissa :=
      match digits with
      | d :: [] => [d]
      | d :: rest => d :: '.' :: rest
      | [] => []
    mantissa ++ ['e', if leading < 0 then '-' else '+'] ++
      (if e.length < 2 then '0' :: e else e)

end Decimal

namespace Binary64

/-- The shortest text that reads back. -/
def text : Binary64 → Text
  | .nan => "nan".toList
  | .infinity s => (if s then "-inf" else "inf").toList
  | .finite s u =>
    let body :=
      if u = 0 then "0.0".toList
      else
        let (digits, e) := Decimal.shortest u
        Decimal.layout (Text.ofNat digits) e
    if s then '-' :: body else body

/-- A fixed count of decimal places; a half goes to the even neighbour. -/
def fixed (places : Nat) : Binary64 → Text
  | .finite s u =>
    let n := roundHalfEven (u * Nat.pow 10 places) one
    let ds := Text.ofNat n
    let padded := List.replicate (places + 1 - ds.length) '0' ++ ds
    let cut := padded.length - places
    (if s then ['-'] else []) ++ padded.take cut ++ ['.'] ++ padded.drop cut
  | x => x.text

end Binary64

end Marginalia
