import Marginalia.Annotation.Basic

/-
Positions in a book: a place in a text, written as a node and a count of
characters with a point between them, or coordinates on a page.
-/
namespace Marginalia

structure Position where
  node : Text
  offset : Nat
deriving DecidableEq, Repr

structure Coordinates where
  x : Binary64
  y : Binary64
deriving DecidableEq, Repr

namespace Coordinates

/-- A value as a coordinate, when it reads as a number. -/
def number? (v : Value) : Except Fault (Option Binary64) :=
  match v with
  | .float x => .ok (some x)
  | .text t => .ok (Decimal.read? t)
  | .bytes bs =>
    .ok (if bs.all (·.toNat < 128) then Decimal.read? (bs.map fun b => Char.ofNat b.toNat)
      else none)
  | v =>
    match v.whole? with
    | none => .ok none
    | some n =>
      match Binary64.ofInt? n with
      | some x => .ok (some x)
      | none => .error .tooLarge

def ofValue? (pos : Value) : Except Fault (Option Coordinates) :=
  match pos with
  | .map es =>
    match Value.lookup ['x'] es, Value.lookup ['y'] es with
    | some vx, some vy => do
      match ← number? vx with
      | none => return none
      | some x =>
        match ← number? vy with
        | none => return none
        | some y => return some ⟨x, y⟩
    | _, _ => .ok none
  | _ => .ok none

/-- A coordinate to the nearest whole number. -/
def rounded (x : Binary64) : Except Fault Int :=
  match x with
  | .nan => .error .notNumber
  | .infinity _ => .error .infinite
  | .finite s u => .ok (Binary64.signedUnits s (roundHalfEven u Binary64.one))

/-- The node that stands for a place given by coordinates. -/
def node (c : Coordinates) : Except Fault Text := do
  let x ← rounded c.x
  let y ← rounded c.y
  return "coord_".toList ++ (toString x).toList ++ ['_'] ++ (toString y).toList

end Coordinates

namespace Position

/-- A text position as its node and the digits of its offset: they follow the
last point, and one line break may follow them. -/
def split? (t : Text) : Option (Text × Text) :=
  let body := if t.getLast? = some '\n' then t.dropLast else t
  let back := body.reverse
  let ds := (back.takeWhile Text.isDigit).reverse
  match back.dropWhile Text.isDigit with
  | '.' :: front =>
    let node := front.reverse
    if ds.isEmpty || node.isEmpty || node.contains '\n' then none else some (node, ds)
  | _ => none

def ofText? (t : Text) : Except Fault (Option Position) :=
  match split? t with
  | none => .ok none
  | some (node, ds) =>
    if Text.maxNumeralDigits < ds.length then .error (.numeralTooLong ds.length)
    else .ok (some ⟨node, Text.digitsValue ds⟩)

/-- A position from a value of either form. -/
def ofValue? (v : Value) : Except Fault (Option Position) := do
  if !v.isTruthy then return none
  match ← Coordinates.ofValue? v with
  | some c => return some ⟨← c.node, 0⟩
  | none =>
    match v with
    | .text t => ofText? t
    | _ => return none

def digitRuns (t : Text) : List Text :=
  match _h : t.dropWhile fun c => !Text.isDigit c with
  | [] => []
  | c :: rest =>
    (c :: rest.takeWhile Text.isDigit) :: digitRuns (rest.dropWhile Text.isDigit)
termination_by t.length
decreasing_by
  have h1 := (List.dropWhile_suffix (l := t) fun c => !Text.isDigit c).length_le
  have h2 := (List.dropWhile_suffix (l := rest) Text.isDigit).length_le
  rw [_h] at h1
  simp only [List.length_cons] at h1
  omega

def runValues : List Text → Except Fault (List Nat)
  | [] => .ok []
  | ds :: rest =>
    if Text.maxNumeralDigits < ds.length then .error (.numeralTooLong ds.length)
    else do
      let ns ← runValues rest
      .ok (Text.digitsValue ds :: ns)

/-- The numbers in a node, in their order. -/
def nodeNumbers (node : Text) : Except Fault (List Nat) := runValues (digitRuns node)

end Position
end Marginalia
