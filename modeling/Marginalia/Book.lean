import Marginalia.Annotation.Chapter
import Marginalia.Record
import Marginalia.Marker
import Marginalia.Settings.Basic

/-
A book's annotations rendered to one document.  The work is first laid out as a
list of steps, one for each group, and then carried out from left to right.
-/
namespace Marginalia

abbrev Grouper := List Annotation → Except Fault (List Group)

inductive BookStep where
  | block (g : Group) (first : Bool)
  | report (e : LogEntry)
  | stop (f : Fault)

namespace Book

def blocks : List Group → List BookStep
  | [] => []
  | g :: rest => .block g true :: rest.map fun h => .block h false

def chapterEntry (c : Chapter) (groups : List Group) : LogEntry :=
  .detail ("Chapter '".toList ++ c.name ++ "': ".toList ++ Text.ofNat groups.length ++
    " highlight groups".toList)

def chapterSteps (grouper : Grouper) (c : Chapter) : List BookStep :=
  match grouper c.annotations with
  | .error f => [.stop f]
  | .ok groups => blocks groups ++ [.report (chapterEntry c groups)]

def steps (unknown : Text) (cmp : Chapter.Comparison) (grouper : Grouper)
    (as : List Annotation) : List BookStep :=
  match Chapter.ofAnnotations unknown cmp as with
  | .error f => [.stop f]
  | .ok cs => cs.flatMap (chapterSteps grouper)

/-- What comes before a block. -/
def withMarkers (style : Option MarkerStyle) (g : Group) (t : Text) : Except Fault Text :=
  match style with
  | none => .ok t
  | some s => do return (← Marker.createAll s g.annotations) ++ '\n' :: t

def renderGroup (hexes : Nat → Text) (compiled : Bindings → Render Text) (g : Group)
    (first : Bool) : Render Text := do
  let drawn := (← get).drawn
  let r ← Render.ofExcept (Record.ofGroup (hexes drawn) g first)
  modify fun s => { s with drawn := drawn + 1 }
  compiled r.bindings

/-- Carry out steps: the blocks they render. -/
def run (hexes : Nat → Text) (compiled : Bindings → Render Text) (style : Option MarkerStyle) :
    List BookStep → Render (List Text)
  | [] => pure []
  | .report e :: rest => do
    Render.report e
    run hexes compiled style rest
  | .stop f :: _ => throw f
  | .block g first :: rest => do
    let t ← renderGroup hexes compiled g first
    let t ← Render.ofExcept (withMarkers style g t)
    let ts ← run hexes compiled style rest
    return t :: ts

def blockBreak : Text := "\n\n".toList

def dividerBreak : Text := "\n\n---\n\n".toList

/-- How the blocks of a document are marked and joined. -/
structure Form where
  style : Option MarkerStyle
  divider : Bool

/-- The kind of marker that a comment style asks for; whatever is neither
`none` nor `html` is written with percent signs. -/
def markerStyle (style : Text) : Option MarkerStyle :=
  if style = "none".toList then none
  else if style = "html".toList then some .html
  else some .percent

def render (hexes : Nat → Text) (compiled : Bindings → Render Text) (form : Form)
    (unknown : Text) (cmp : Chapter.Comparison) (grouper : Grouper) (as : List Annotation) :
    Render Text := do
  let ts ← run hexes compiled form.style (steps unknown cmp grouper as)
  return Text.join (if form.divider then dividerBreak else blockBreak) ts

/-- Three or more line feeds become two. -/
def squeeze (t : Text) : Text :=
  match t with
  | [] => []
  | '\n' :: rest =>
    let run := rest.takeWhile (· = '\n')
    if 2 ≤ run.length then '\n' :: '\n' :: squeeze (rest.drop run.length)
    else '\n' :: squeeze rest
  | c :: rest => c :: squeeze rest
termination_by t.length
decreasing_by
  all_goals simp only [List.length_cons, List.length_drop]; omega

end Book
end Marginalia
