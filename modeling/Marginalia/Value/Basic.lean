import Marginalia.Number.Binary64
import Marginalia.Calendar.Moment

/-
Values of template variables and of annotation fields.  Sidecar files and
callers may put any kind of value in any field, so one type holds them all.
-/
namespace Marginalia

inductive Value where
  | null
  | bool (b : Bool)
  | int (n : Int)
  | float (x : Binary64)
  | text (t : Text)
  | bytes (bs : List UInt8)
  | day (d : Day)
  | moment (m : Moment)
  | list (xs : List Value)
  | tuple (xs : List Value)
  /-- Entries in order of insertion, no two with the same key. -/
  | map (entries : List (Value × Value))
  /-- Members in order of insertion, no two the same. -/
  | set (members : List Value)
  /-- The list or the map around it that a value holds inside itself. -/
  | enclosing (isMap : Bool)
deriving Repr, Inhabited

namespace Value

def kind : Value → Text
  | .null => "NoneType".toList
  | .bool _ => "bool".toList
  | .int _ => "int".toList
  | .float _ => "float".toList
  | .text _ => "str".toList
  | .bytes _ => "bytes".toList
  | .day _ => "date".toList
  | .moment _ => "datetime".toList
  | .list _ => "list".toList
  | .tuple _ => "tuple".toList
  | .map _ => "dict".toList
  | .set _ => "set".toList
  | .enclosing isMap => (if isMap then "dict" else "list").toList

/-- Nothing, false, zero, and whatever is empty do not count as present. -/
def isTruthy : Value → Bool
  | .null => false
  | .bool b => b
  | .int n => n ≠ 0
  | .float x => !x.isZero
  | .text t => !t.isEmpty
  | .bytes bs => !bs.isEmpty
  | .day _ => true
  | .moment _ => true
  | .list xs => !xs.isEmpty
  | .tuple xs => !xs.isEmpty
  | .map entries => !entries.isEmpty
  | .set members => !members.isEmpty
  | .enclosing _ => true

/-- The value itself, or the empty text in place of one that does not count as
present. -/
def orEmpty (v : Value) : Value := if v.isTruthy then v else .text []

def lookup (key : Text) : List (Value × Value) → Option Value
  | [] => none
  | (.text k, v) :: rest => if k = key then some v else lookup key rest
  | _ :: rest => lookup key rest

/-- Truth values count as the numbers one and zero. -/
def whole? : Value → Option Int
  | .bool b => some (if b then 1 else 0)
  | .int n => some n
  | _ => none

mutual

/-- Equality of keys: numbers by their value whatever their kind, composites by
their parts. -/
def sameKey : Value → Value → Bool
  | .null, .null => true
  | .text s, .text t => s = t
  | .bytes s, .bytes t => s = t
  | .day d, .day e => d = e
  | .moment m, .moment n => m.compare? n = some .eq
  | .float x, .float y => x.compare? y = some .eq
  | .float x, .int n => x.compareInt? n = some .eq
  | .int n, .float x => x.compareInt? n = some .eq
  | .float x, .bool b => x.compareInt? (if b then 1 else 0) = some .eq
  | .bool b, .float x => x.compareInt? (if b then 1 else 0) = some .eq
  | .int m, .int n => m = n
  | .bool b, .bool c => b = c
  | .bool b, .int n => n = if b then 1 else 0
  | .int n, .bool b => n = if b then 1 else 0
  | .tuple xs, .tuple ys => sameKeys xs ys
  | .list xs, .list ys => sameKeys xs ys
  | _, _ => false

def sameKeys : List Value → List Value → Bool
  | [], [] => true
  | x :: xs, y :: ys => sameKey x y && sameKeys xs ys
  | _, _ => false

end

mutual

/-- Whether a value can be a key: lists, maps and sets cannot, nor what holds
one. -/
def isKey : Value → Bool
  | .list _ => false
  | .map _ => false
  | .set _ => false
  | .enclosing _ => false
  | .tuple xs => areKeys xs
  | _ => true

def areKeys : List Value → Bool
  | [] => true
  | x :: xs => isKey x && areKeys xs

end

/-- Put a value under a key: a known key keeps its place and its first form. -/
def insert (key v : Value) : List (Value × Value) → List (Value × Value)
  | [] => [(key, v)]
  | (k, w) :: rest => if sameKey k key then (k, v) :: rest else (k, w) :: insert key v rest

/-- The map with the given entries, later ones overriding earlier ones. -/
def ofEntries (entries : List (Value × Value)) : Value :=
  .map (entries.foldl (fun es (k, v) => insert k v es) [])

end Value
end Marginalia
