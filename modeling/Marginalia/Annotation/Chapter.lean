import Marginalia.Annotation.Order
import Marginalia.Sorting

/-
Annotations by chapter: each chapter's in their order, and the chapters by the
page they start on.
-/
namespace Marginalia

structure Chapter where
  name : Text
  annotations : List Annotation
deriving Repr

namespace Chapter

def startPage (c : Chapter) : Int := (c.annotations.head?.map (·.pageno)).getD 0

/-- Add an annotation to the chapter of its name, which is opened at the end
when there is none yet. -/
def file (name : Text) (a : Annotation) : List Chapter → List Chapter
  | [] => [⟨name, [a]⟩]
  | c :: rest =>
    if c.name = name then { c with annotations := c.annotations ++ [a] } :: rest
    else c :: file name a rest

def nameOf (unknown : Text) (a : Annotation) : Except Fault Text := do
  let title ← a.chapterTitle
  return if title.isEmpty then unknown else title

/-- File annotations under their chapters, in the order of first occurrence;
each carries the name of its chapter from then on. -/
def fileAll (unknown : Text) : List Chapter → List Annotation → Except Fault (List Chapter)
  | cs, [] => .ok cs
  | cs, a :: rest => do
    let name ← nameOf unknown a
    fileAll unknown (file name { a with chapter := .text name } cs) rest

abbrev Comparison := Annotation → Annotation → Except Fault Ordering

def precedes (cmp : Comparison) (a b : Annotation) : Except Fault Bool := do
  return (← cmp a b) = .lt

def sortEach (cmp : Comparison) : List Chapter → Except Fault (List Chapter)
  | [] => .ok []
  | c :: rest => do
    let as ← Sorting.sort (precedes cmp) c.annotations
    let cs ← sortEach cmp rest
    .ok ({ c with annotations := as } :: cs)

/-- Put a chapter before the first one that starts on a later page. -/
def insertByPage (c : Chapter) : List Chapter → List Chapter
  | [] => [c]
  | d :: rest => if c.startPage < d.startPage then c :: d :: rest else d :: insertByPage c rest

/-- Chapters by the page they start on; those that start on one page keep their
order. -/
def sortByPage (cs : List Chapter) : List Chapter :=
  cs.foldl (fun sorted c => insertByPage c sorted) []

def ofAnnotations (unknown : Text) (cmp : Comparison) (as : List Annotation) :
    Except Fault (List Chapter) := do
  let cs ← fileAll unknown [] as
  return sortByPage (← sortEach cmp cs)

end Chapter
end Marginalia
