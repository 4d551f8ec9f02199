import Marginalia.Yaml.Token
import Marginalia.Yaml.Plain

/-
The nodes of a text: scalars, sequences and mappings, each with the tag that says
what it is meant to be.  A name given to a node mentions that very node wherever
it stands, also inside the node itself, so nodes know each other by their places
in one list.
-/
namespace Marginalia
namespace Yaml

/-- The place of a node among the nodes of its text. -/
abbrev Id := Nat

inductive Shape where
  | scalar (t : Text)
  | sequence (items : List Id)
  | mapping (entries : List (Id × Id))
deriving Repr, Inhabited

structure Node where
  tag : Tag
  shape : Shape
deriving Repr, Inhabited

/-- A place where nothing is written. -/
def Node.empty : Node := ⟨.null, .scalar []⟩

structure Graph where
  nodes : Array Node := #[]

namespace Graph

def node (g : Graph) (id : Id) : Node := g.nodes.getD id .empty

def tag (g : Graph) (id : Id) : Tag := (g.node id).tag

def shape (g : Graph) (id : Id) : Shape := (g.node id).shape

def entries (g : Graph) (id : Id) : List (Id × Id) :=
  match g.shape id with
  | .mapping es => es
  | _ => []

def fill (g : Graph) (id : Id) (n : Node) : Graph := { g with nodes := g.nodes.setIfInBounds id n }

def retag (g : Graph) (id : Id) (tag : Tag) : Graph := g.fill id { g.node id with tag := tag }

def setEntries (g : Graph) (id : Id) (es : List (Id × Id)) : Graph :=
  g.fill id { g.node id with shape := .mapping es }

/-! ## Reading -/

structure State where
  tokens : List Token
  /-- What the handles of tags stand for. -/
  handles : List (Text × Text)
  graph : Graph := {}
  /-- The nodes that have names, also those still being read. -/
  named : List (Text × Id) := []

def defaultHandles : List (Text × Text) := [(['!'], ['!']), (['!', '!'], Tag.space)]

abbrev Parse (α : Type) := StateT State (Except Problem) α

namespace Parse

def peek? : Parse (Option Token) := return (← get).tokens.head?

def skip : Parse Unit := modify fun s => { s with tokens := s.tokens.tail }

/-- Take a token if it is the next one. -/
def accept (t : Token) : Parse Bool := do
  if (← peek?) = some t then
    skip
    return true
  return false

def expect (t : Token) : Parse Unit := do
  if !(← accept t) then throw .malformed

/-- Whether the next token is one of a few. -/
def isNext (ts : List Token) : Parse Bool := return (← peek?).any ts.contains

def anchor? : Parse (Option Text) := do
  match ← peek? with
  | some (.anchor name) =>
    skip
    return some name
  | _ => return none

def tag? : Parse (Option Text) := do
  match ← peek? with
  | some (.tag t) =>
    skip
    match t.handle with
    | none => return some t.suffix
    | some handle =>
      match (← get).handles.lookup handle with
      | some meaning => return some (meaning ++ t.suffix)
      | none => throw .malformed
  | _ => return none

/-- Anchor and tag of a node, in either order. -/
def properties : Parse (Option Text × Option Text) := do
  match ← anchor? with
  | some name => return (some name, ← tag?)
  | none =>
    let tag ← tag?
    return (← if tag.isSome then anchor? else pure none, tag)

/-- The node that a name stands for. -/
def named (name : Text) : Parse Id := do
  match (← get).named.lookup name with
  | some id => return id
  | none => throw .malformed

def add (n : Node) : Parse Id := do
  let id := (← get).graph.nodes.size
  modify fun s => { s with graph := ⟨s.graph.nodes.push n⟩ }
  return id

def empty : Parse Id := add .empty

/-- Make room for a node, which has its name from now on.  A name can be given
once. -/
def place (anchor : Option Text) : Parse Id := do
  let id ← empty
  if let some name := anchor then
    if ((← get).named.lookup name).isSome then throw .malformed
    modify fun s => { s with named := (name, id) :: s.named }
  return id

/-- The tag of a scalar: the bare mark of a tag leaves it to the text like no
tag, but a scalar in quotes or a block without any tag is a text. -/
def scalarTag (written : Option Text) (isPlain : Bool) (t : Text) : Tag :=
  match written with
  | none => if isPlain then Plain.tag t else .text
  | some w => if w = ['!'] then Plain.tag t else .ofText w

def collectionTag (written : Option Text) (usual : Tag) : Tag :=
  match written with
  | none => usual
  | some w => if w = ['!'] then usual else .ofText w

mutual

/-- A node.  Outside brackets it may be a block collection, and behind a key
also a sequence that is not indented. -/
def node (inBlock afterKey : Bool) : Nat → Parse Id
  | 0 => throw .malformed
  | fuel + 1 => do
    if let some (.alias name) ← peek? then
      skip
      return ← named name
    let (anchor, tag) ← properties
    let id ← place anchor
    let next ← peek?
    let n ←
      if afterKey && next = some .entry then
        pure ⟨collectionTag tag .list, .sequence (← flatItems fuel)⟩
      else
        match next with
        | some (.scalar t isPlain) =>
          skip
          pure ⟨scalarTag tag isPlain t, .scalar t⟩
        | some .openBracket =>
          skip
          pure ⟨collectionTag tag .list, .sequence (← flowItems true fuel)⟩
        | some .openBrace =>
          skip
          pure ⟨collectionTag tag .map, .mapping (← flowEntries true fuel)⟩
        | _ =>
          if inBlock && next = some .sequenceStart then
            skip
            pure ⟨collectionTag tag .list, .sequence (← blockItems fuel)⟩
          else if inBlock && next = some .mappingStart then
            skip
            pure ⟨collectionTag tag .map, .mapping (← blockEntries fuel)⟩
          else if anchor.isSome || tag.isSome then
            pure ⟨scalarTag tag true [], .scalar []⟩
          else throw .malformed
    modify fun s => { s with graph := s.graph.fill id n }
    return id

/-- A node, unless one of the tokens that end its place comes next. -/
def nodeUnless (ends : List Token) (inBlock afterKey : Bool) : Nat → Parse Id
  | 0 => throw .malformed
  | fuel + 1 => do
    if ← isNext ends then return ← empty
    node inBlock afterKey fuel

def blockItems : Nat → Parse (List Id)
  | 0 => throw .malformed
  | fuel + 1 => do
    if ← accept .entry then
      let item ← nodeUnless [.entry, .blockEnd] true false fuel
      return item :: (← blockItems fuel)
    expect .blockEnd
    return []

/-- The items of a sequence that stands at the column of its key. -/
def flatItems : Nat → Parse (List Id)
  | 0 => throw .malformed
  | fuel + 1 => do
    if ← accept .entry then
      let item ← nodeUnless [.entry, .key, .value, .blockEnd] true false fuel
      return item :: (← flatItems fuel)
    return []

def blockEntries : Nat → Parse (List (Id × Id))
  | 0 => throw .malformed
  | fuel + 1 => do
    if ← accept .key then
      let key ← nodeUnless [.key, .value, .blockEnd] true true fuel
      let value ←
        if ← accept .value then nodeUnless [.key, .value, .blockEnd] true true fuel
        else empty
      return (key, value) :: (← blockEntries fuel)
    expect .blockEnd
    return []

/-- The items of a sequence in brackets; an entry of a mapping may stand for a
mapping of its own. -/
def flowItems (first : Bool) : Nat → Parse (List Id)
  | 0 => throw .malformed
  | fuel + 1 => do
    if ← accept .closeBracket then return []
    if !first then expect .comma
    if ← accept .key then
      let key ← nodeUnless [.value, .comma, .closeBracket] false false fuel
      let value ←
        if ← accept .value then nodeUnless [.comma, .closeBracket] false false fuel
        else empty
      let item ← add ⟨.map, .mapping [(key, value)]⟩
      return item :: (← flowItems false fuel)
    if ← accept .closeBracket then return []
    let item ← node false false fuel
    return item :: (← flowItems false fuel)

/-- The entries of a mapping in braces; a node by itself is a key. -/
def flowEntries (first : Bool) : Nat → Parse (List (Id × Id))
  | 0 => throw .malformed
  | fuel + 1 => do
    if ← accept .closeBrace then return []
    if !first then expect .comma
    if ← accept .key then
      let key ← nodeUnless [.value, .comma, .closeBrace] false false fuel
      let value ←
        if ← accept .value then nodeUnless [.comma, .closeBrace] false false fuel
        else empty
      return (key, value) :: (← flowEntries false fuel)
    if ← accept .closeBrace then return []
    let key ← node false false fuel
    let value ← empty
    return (key, value) :: (← flowEntries false fuel)

end

/-- The directives before a document: the version is at most stated once and is
the first, and a handle gets one meaning. -/
def directives : Nat → Bool → List (Text × Text) → Parse (List (Text × Text))
  | 0, _, handles => pure handles
  | fuel + 1, versioned, handles => do
    match ← peek? with
    | some (.version major) =>
      skip
      if versioned || major ≠ 1 then throw .malformed
      directives fuel true handles
    | some (.handle name meaning) =>
      skip
      if (handles.lookup name).isSome then throw .malformed
      directives fuel versioned ((name, meaning) :: handles)
    | some .ignored =>
      skip
      directives fuel versioned handles
    | _ => return handles

def skipEnds : Nat → Parse Unit
  | 0 => pure ()
  | fuel + 1 => do
    if ← accept .documentEnd then skipEnds fuel

/-- The one document of a text, if it has any. -/
def document : Parse (Option Id) := do
  let fuel := 4 * (← get).tokens.length + 4
  match ← peek? with
  | none => return none
  | some t =>
    let startsDocument :=
      match t with
      | .version _ | .handle _ _ | .ignored | .documentStart => true
      | _ => false
    let root ←
      if startsDocument then do
        let handles ← directives fuel false []
        modify fun s => { s with handles := handles ++ defaultHandles }
        expect .documentStart
        match ← peek? with
        | none | some (.version _) | some (.handle _ _) | some .ignored | some .documentStart
        | some .documentEnd => empty
        | some _ => node true false fuel
      else node true false fuel
    skipEnds fuel
    if (← peek?).isSome then throw .malformed
    return some root

end Parse

/-- The nodes of a text with at most one document, and the outermost one. -/
def ofText? (t : Text) : Except Problem (Option (Graph × Id)) := do
  let tokens ← Token.ofText t
  let (root, s) ← Parse.document.run { tokens, handles := defaultHandles }
  return root.map (s.graph, ·)

end Graph
end Yaml
end Marginalia
