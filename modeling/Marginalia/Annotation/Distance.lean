import Marginalia.Annotation.Position

/-
How far one annotation is from the next, and the groups of annotations that
follow each other closely.
-/
namespace Marginalia

/-- How the texts of two neighbours in a group are joined. -/
inductive Separator where
  | contiguous
  | gap
deriving DecidableEq, Repr

namespace Separator

def text : Separator → Text
  | .contiguous => [' ']
  | .gap => " [...] ".toList

/-- Any text but the single space stands for a gap. -/
def ofText (t : Text) : Separator := if t = [' '] then .contiguous else .gap

/-- The separator for a distance: tight up to `contiguousGap`. -/
def pick (contiguousGap : Int) (d : Binary64) : Separator :=
  if (d.compareInt? contiguousGap).any (· ≠ .gt) then .contiguous else .gap

end Separator

/-- The largest distance that still joins two annotations. -/
inductive Gap where
  | whole (n : Int)
  | real (x : Binary64)
deriving DecidableEq, Repr

namespace Gap

def allows (g : Gap) (d : Binary64) : Bool :=
  match g with
  | .whole n => (d.compareInt? n).any (· ≠ .gt)
  | .real x => (d.compare? x).any (· ≠ .gt)

end Gap

namespace Annotation

def isPositioned (a : Annotation) : Bool := a.pos0.isTruthy || a.pos1.isTruthy

/-- Coordinates closer than this, from top to bottom, count as one run. -/
def nearby : Int := 50

def wholeDistance (n : Int) : Except Fault Binary64 :=
  match Binary64.ofInt? n with
  | some x => .ok x
  | none => .error .tooLarge

/-- The characters from the end of one text position to the start of another on
the same node; infinitely many in any other case. -/
def textDistance (a b : Annotation) : Except Fault Binary64 := do
  match ← Position.ofValue? a.pos1, ← Position.ofValue? b.pos0 with
  | some last, some first =>
    if last.node = first.node then wholeDistance ((first.offset : Int) - last.offset)
    else return .infinity false
  | _, _ => return .infinity false

/-- The distance from the end of an annotation to the start of another: pages
where neither has a position, nothing or infinity for coordinates, characters
for text positions. -/
def distance (a b : Annotation) : Except Fault Binary64 :=
  if !a.isPositioned && !b.isPositioned then wholeDistance (b.pageno - a.pageno).natAbs
  else if a.pageno ≠ b.pageno then .ok (.infinity false)
  else do
    match ← Coordinates.ofValue? a.pos0, ← Coordinates.ofValue? b.pos0 with
    | some c, some d =>
      if ((c.y.sub d.y).abs.compareInt? nearby).any (· = .lt) then return .zero
      else return .infinity false
    | _, _ => textDistance a b

end Annotation

/-- Annotations that are shown as one, with a separator for each pair of
neighbours. -/
structure Group where
  annotations : List Annotation
  separators : List Separator
deriving Repr

namespace Group

/-- Put an annotation in front of the first of some groups. -/
def extend (a : Annotation) (s : Separator) : List Group → List Group
  | [] => [⟨[a], []⟩]
  | g :: rest => ⟨a :: g.annotations, s :: g.separators⟩ :: rest

def startingWith (gap : Gap) (contiguousGap : Int) (a : Annotation) :
    List Annotation → Except Fault (List Group)
  | [] => .ok [⟨[a], []⟩]
  | b :: rest => do
    let d ← a.distance b
    let groups ← startingWith gap contiguousGap b rest
    if gap.allows d then return extend a (Separator.pick contiguousGap d) groups
    else return ⟨[a], []⟩ :: groups

/-- Split annotations into groups: a new one starts where the next annotation
lies beyond the gap. -/
def successive (gap : Gap) (contiguousGap : Int) : List Annotation → Except Fault (List Group)
  | [] => .ok []
  | a :: rest => startingWith gap contiguousGap a rest

end Group
end Marginalia
