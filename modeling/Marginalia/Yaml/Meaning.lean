import Marginalia.Yaml.Merge
import Marginalia.Yaml.Numeral
import Marginalia.Base64

/-
The values that nodes stand for.  Scalars are read where they are met, while a
collection is first only noted, and what stands inside it is met when the
collections noted before have been opened.  So of several scalars without a
value the outermost is the one that is reported.
-/
namespace Marginalia
namespace Yaml

def lift {α : Type} : Except Fault α → Except Problem α
  | .ok a => .ok a
  | .error f => .error (.fault f)

/-! ## Scalars -/

namespace Graph

/-- The text of a scalar, or of what a mapping has under the mark of a
stand-in. -/
def textWithin (g : Graph) : Nat → Id → Except Problem Text
  | 0, _ => .error .malformed
  | fuel + 1, id =>
    match g.shape id with
    | .scalar t => .ok t
    | .sequence _ => .error .malformed
    | .mapping entries =>
      match entries.find? fun (key, _) => g.tag key = .standIn with
      | some (_, v) => g.textWithin fuel v
      | none => .error .malformed

def text (g : Graph) (id : Id) : Except Problem Text := g.textWithin (g.nodes.size + 1) id

def stamp (g : Graph) (id : Id) : Except Fault Value :=
  match g.shape id with
  | .scalar t =>
    match Stamp.read? (Plain.withoutLineEnd t) with
    | some s => s.value
    | none => .error .noSuchOperation
  | _ => .error .wrongKind

/-- The value of a node that holds no other nodes. -/
def leafValue (g : Graph) (id : Id) : Except Problem Value := do
  match g.tag id with
  | .null =>
    let _ ← g.text id
    return .null
  | .truth => return .bool (← lift (Numeral.truth (← g.text id)))
  | .whole => return .int (← lift (Numeral.whole (← g.text id)))
  | .real => return .float (← lift (Numeral.real (← g.text id)))
  | .text => return .text (← g.text id)
  | .bytes =>
    let t ← g.text id
    match if t.all (·.toNat < 128) then Base64.decode? t else none with
    | some bs => return .bytes bs
    | none => throw .malformed
  | .stamp =>
    let _ ← g.text id
    lift (g.stamp id)
  | _ => throw .malformed

/-- Whether a node names what is not a number by a point and letters. -/
def namesNoNumber (g : Graph) (id : Id) : Bool :=
  match g.tag id, g.text id with
  | .real, .ok t => Numeral.namesNoNumber t
  | _, _ => false

end Graph

/-- The value of a node without inner nodes.  As keys two leaves are the same if
their values are, and always if they have the same `self`. -/
structure Leaf where
  value : Value
  self : Id
deriving Repr, Inhabited

namespace Leaf

/-- What is not a number differs from itself as a value.  All nodes that name it
share one `self`, which is the place behind the last node. -/
def ofNode (g : Graph) (id : Id) : Except Problem Leaf := do
  return ⟨← g.leafValue id, if g.namesNoNumber id then g.nodes.size else id⟩

def isSame (a b : Leaf) : Bool := a.self = b.self || Value.sameKey a.value b.value

/-- Put a node under a key: a known key keeps its place and its first form. -/
def insert (key : Leaf) (id : Id) : List (Leaf × Id) → List (Leaf × Id)
  | [] => [(key, id)]
  | (k, w) :: rest => if k.isSame key then (k, id) :: rest else (k, w) :: insert key id rest

end Leaf

/-! ## Collections -/

/-- What a node has turned out to stand for. -/
inductive Content where
  /-- A collection that is still to be opened. -/
  | closed
  | leaf (l : Leaf)
  | list (items : List Id)
  | map (entries : List (Leaf × Id))
  | set (members : List Leaf)
  | pairs (entries : List (Id × Id))
deriving Repr, Inhabited

structure Reading where
  graph : Graph
  /-- The content of the nodes that have been met. -/
  contents : Array (Option Content)
  /-- The collections to open, the next one first. -/
  waiting : List Id := []

namespace Reading

abbrev Step (α : Type) := StateT Reading (Except Problem) α

def content? (r : Reading) (id : Id) : Option Content := r.contents.getD id none

def settle (id : Id) (c : Content) : Step Unit :=
  modify fun r => { r with contents := r.contents.setIfInBounds id (some c) }

/-- Meet a node: read a leaf, or note a collection. -/
def meet (id : Id) : Step Unit := do
  let r ← get
  if (r.content? id).isNone then
    if (r.graph.tag id).isCollection then
      settle id .closed
      modify fun r => { r with waiting := r.waiting ++ [id] }
    else settle id (.leaf (← Leaf.ofNode r.graph id))

/-- Meet the node of a key, which must be a leaf. -/
def meetKey (id : Id) : Step Leaf := do
  meet id
  match (← get).content? id with
  | some (.leaf l) => return l
  | _ => throw .malformed

def openMapping (id : Id) : Step (List (Leaf × Id)) := do
  let r ← get
  if !r.graph.isMapping id then throw .malformed
  let g ← r.graph.flatten id
  set { r with graph := g }
  (g.entries id).foldlM (fun es (key, v) => do
    let k ← meetKey key
    meet v
    return k.insert v es) []

/-- The pair in an item of a list of pairs. -/
def openPair (id : Id) : Step (Id × Id) := do
  match (← get).graph.shape id with
  | .mapping [(key, v)] =>
    meet key
    meet v
    return (key, v)
  | _ => throw .malformed

def openSequence (id : Id) : Step (List Id) := do
  match (← get).graph.shape id with
  | .sequence items => return items
  | _ => throw .malformed

def openNode (id : Id) : Step Unit := do
  match (← get).graph.tag id with
  | .map => settle id (.map (← openMapping id))
  | .set => settle id (.set ((← openMapping id).map (·.1)))
  | .pairs => settle id (.pairs (← (← openSequence id).mapM openPair))
  | _ =>
    let items ← openSequence id
    items.forM meet
    settle id (.list items)

/-- Open what waits; no node waits twice. -/
def openAll : Nat → Step Unit
  | 0 => pure ()
  | fuel + 1 => do
    match (← get).waiting with
    | [] => return
    | id :: rest =>
      modify fun r => { r with waiting := rest }
      openNode id
      openAll fuel

/-- Read all that can be reached from a node. -/
def ofGraph (g : Graph) (root : Id) : Except Problem Reading := do
  let start : Reading := { graph := g, contents := Array.replicate g.nodes.size none }
  let ((), r) ← (do meet root; openAll g.nodes.size).run start
  return r

/-- The value of a node that stands inside collections.  Where it is one of
these itself, the value ends. -/
def valueWithin (r : Reading) : Nat → List Id → Id → Value
  | 0, _, _ => .null
  | fuel + 1, around, id =>
    match r.content? id with
    | some (.leaf l) => l.value
    | some (.list items) =>
      if around.contains id then .enclosing false
      else .list (items.map (r.valueWithin fuel (id :: around)))
    | some (.pairs entries) =>
      if around.contains id then .enclosing false
      else
        let value := r.valueWithin fuel (id :: around)
        .list (entries.map fun (k, v) => .tuple [value k, value v])
    | some (.map entries) =>
      if around.contains id then .enclosing true
      else .map (entries.map fun (k, v) => (k.value, r.valueWithin fuel (id :: around) v))
    | some (.set members) => .set (members.map (·.value))
    | _ => .null

def value (r : Reading) (id : Id) : Value := r.valueWithin (r.contents.size + 1) [] id

end Reading

/-- The entries of the mapping that a text with at most one document holds, each
value by itself; none if the text holds something else. -/
def readMapping (t : Text) : Except Problem (Option (List (Value × Value))) := do
  match ← Graph.ofText? t with
  | none => return none
  | some (g, root) =>
    let r ← Reading.ofGraph g root
    match r.content? root with
    | some (.map entries) => return some (entries.map fun (k, v) => (k.value, r.value v))
    | _ => return none

end Yaml
end Marginalia
