import Marginalia.Annotation.Position
import Marginalia.Calendar.Reading

/-
The order of the annotations of one chapter: by page, then by the place on it,
then by the time they were made.
-/
namespace Marginalia

/-- The first difference between two lists of numbers, where both have one. -/
def firstDifference : List Nat → List Nat → Ordering
  | m :: ms, n :: ns => (compare m n).then (firstDifference ms ns)
  | _, _ => .eq

/-- The order of texts by code points, a beginning before the whole. -/
def Text.compare : Text → Text → Ordering
  | [], [] => .eq
  | [], _ :: _ => .lt
  | _ :: _, [] => .gt
  | a :: s, b :: t => (Ord.compare a.toNat b.toNat).then (Text.compare s t)

namespace Position

/-- The order of nodes: by the numbers in them, then by how many there are, then
by their text. -/
def compareNodes (a b : Text) : Except Fault Ordering := do
  let ms ← nodeNumbers a
  let ns ← nodeNumbers b
  return ((firstDifference ms ns).then (Ord.compare ms.length ns.length)).then (Text.compare a b)

/-- The order of positions: by node, then by offset. -/
def compare (p q : Position) : Except Fault Ordering :=
  if p.node = q.node then .ok (Ord.compare p.offset q.offset) else compareNodes p.node q.node

end Position

namespace Annotation

/-- The order of the places of two annotations on one page; a place that is
known comes before one that is not. -/
def comparePlaces (a b : Annotation) : Except Fault Ordering := do
  match ← Position.ofValue? a.pos0, ← Position.ofValue? b.pos0 with
  | some p, some q => Position.compare p q
  | some _, none => return .lt
  | none, some _ => return .gt
  | none, none => return .eq

/-- The order of the times of two annotations; times that cannot be compared
are alike. -/
def compareTimes (a b : Annotation) : Except Fault Ordering := do
  match ← Moment.ofValue? a.datetime, ← Moment.ofValue? b.datetime with
  | some m, some n => return (m.compare? n).getD .eq
  | _, _ => return .eq

def compare (a b : Annotation) : Except Fault Ordering :=
  if a.pageno ≠ b.pageno then .ok (Ord.compare a.pageno b.pageno)
  else do
    match ← comparePlaces a b with
    | .eq => compareTimes a b
    | o => return o

end Annotation
end Marginalia
