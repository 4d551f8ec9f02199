/-
Binary floating-point numbers of 53 significant bits.  Every finite one is a
whole number of units of 2 to the power -1074, and is kept as that number: sums
and comparisons are then sums and comparisons of whole numbers, followed by one
rounding.
-/
namespace Marginalia

/-- The nearest whole number to `num / den`; a half goes to the even neighbour. -/
def roundHalfEven (num den : Nat) : Nat :=
  let q := num / den
  let r := num % den
  if 2 * r < den then q
  else if den < 2 * r then q + 1
  else if q % 2 = 0 then q else q + 1

/-- The whole number nearest to `num / den` among those with at most 53
significant bits; a half goes to the even significand. -/
def roundSignificand (num den : Nat) : Nat :=
  let shift := (num / den).log2 - 52
  roundHalfEven num (den * Nat.pow 2 shift) * Nat.pow 2 shift

/-- A floating-point number; `units` counts multiples of 2 to the power -1074. -/
inductive Binary64 where
  | nan
  | infinity (negative : Bool)
  | finite (negative : Bool) (units : Nat)
deriving DecidableEq, Inhabited, Repr

namespace Binary64

/-- How many units make one. -/
def one : Nat := Nat.pow 2 1074

/-- The first magnitude, in units, that is too large. -/
def limit : Nat := Nat.pow 2 2098

def zero : Binary64 := .finite false 0

/-- The nearest number to the ratio `num / den`, which is infinite when the
ratio is too large. -/
def ofRatio (negative : Bool) (num den : Nat) : Binary64 :=
  -- A product recurses on its second factor, which therefore is not the large one.
  let u := roundSignificand (one * num) den
  if u < limit then .finite negative u else .infinity negative

/-- The nearest number to a whole number, unless that is too large. -/
def ofInt? (n : Int) : Option Binary64 :=
  match ofRatio (n < 0) n.natAbs 1 with
  | .finite s u => some (.finite s u)
  | _ => none

def ofNat (n : Nat) : Binary64 := ofRatio false n 1

/-- The signed count of units. -/
def signedUnits (negative : Bool) (u : Nat) : Int := if negative then -(u : Int) else u

/-- The nearest number to a signed whole count of `1 / den` units. -/
def ofSigned (n : Int) (den : Nat) : Binary64 :=
  let u := roundSignificand n.natAbs den
  if u < limit then .finite (n < 0) u else .infinity (n < 0)

def neg : Binary64 → Binary64
  | .nan => .nan
  | .infinity s => .infinity !s
  | .finite s u => .finite (!s) u

def abs : Binary64 → Binary64
  | .nan => .nan
  | .infinity _ => .infinity false
  | .finite _ u => .finite false u

def add : Binary64 → Binary64 → Binary64
  | .nan, _ | _, .nan => .nan
  | .infinity s, .infinity t => if s = t then .infinity s else .nan
  | .infinity s, _ => .infinity s
  | _, .infinity t => .infinity t
  | .finite s u, .finite t v =>
    let n := signedUnits s u + signedUnits t v
    if n = 0 then .finite (s && t) 0 else ofSigned n 1

def sub (x y : Binary64) : Binary64 := add x (neg y)

def mul : Binary64 → Binary64 → Binary64
  | .nan, _ | _, .nan => .nan
  | .infinity s, .infinity t => .infinity (s != t)
  | .infinity s, .finite t v => if v = 0 then .nan else .infinity (s != t)
  | .finite s u, .infinity t => if u = 0 then .nan else .infinity (s != t)
  | .finite s u, .finite t v =>
    let w := roundSignificand (u * v) one
    if w < limit then .finite (s != t) w else .infinity (s != t)

def div : Binary64 → Binary64 → Binary64
  | .nan, _ | _, .nan => .nan
  | .infinity _, .infinity _ => .nan
  | .infinity s, .finite t _ => .infinity (s != t)
  | .finite s _, .infinity t => .finite (s != t) 0
  | .finite s u, .finite t v => if v = 0 then .nan else ofRatio (s != t) u v

/-- How two numbers compare; what is not a number compares with nothing. -/
def compare? : Binary64 → Binary64 → Option Ordering
  | .nan, _ | _, .nan => none
  | .infinity s, .infinity t =>
    some (if s = t then .eq else if s then .lt else .gt)
  | .infinity s, _ => some (if s then .lt else .gt)
  | _, .infinity t => some (if t then .gt else .lt)
  | .finite s u, .finite t v => some (compare (signedUnits s u) (signedUnits t v))

/-- How a number compares with a whole number. -/
def compareInt? (x : Binary64) (n : Int) : Option Ordering :=
  match x with
  | .nan => none
  | .infinity s => some (if s then .lt else .gt)
  | .finite s u => some (compare (signedUnits s u) (n * one))

def isZero : Binary64 → Bool
  | .finite _ 0 => true
  | _ => false

def isFinite : Binary64 → Bool
  | .finite _ _ => true
  | _ => false

def isWhole : Binary64 → Bool
  | .finite _ u => u % one = 0
  | _ => false

/-- The whole part, toward zero, of a finite number. -/
def truncate? : Binary64 → Option Int
  | .finite s u => some (signedUnits s (u / one))
  | _ => none

/-- The nearest whole number to a finite one, a half going to the even
neighbour. -/
def round? : Binary64 → Option Int
  | .finite s u => some (signedUnits s (roundHalfEven u one))
  | _ => none

end Binary64

end Marginalia
