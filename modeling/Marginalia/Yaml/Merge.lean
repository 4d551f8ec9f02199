import Marginalia.Yaml.Node

/-
Merging: an entry under the merge mark brings the entries of other mappings into
the one it stands in.  They are put in front of its own entries, those of the
first mapping last, so that own entries win over all and earlier mappings over
later ones.
-/
namespace Marginalia
namespace Yaml
namespace Graph

abbrev Merging (α : Type) := StateT Graph (Except Problem) α

def isMapping (g : Graph) (id : Id) : Bool :=
  match g.shape id with
  | .mapping _ => true
  | _ => false

/-- Take the first merge out of a mapping: the node that it brings in. -/
def takeMerge? (id : Id) : Merging (Option Id) := do
  let g ← get
  let (before, rest) := (g.entries id).span fun (key, _) => g.tag key ≠ .merge
  match rest with
  | [] => return none
  | (_, source) :: after =>
    set (g.setEntries id (before ++ after))
    return some source

/-- The mark of a stand-in is a plain text once its mapping is read as one. -/
def settleKeys (g : Graph) (id : Id) : Graph :=
  (g.entries id).foldl (fun g (key, _) => if g.tag key = .standIn then g.retag key .text else g) g

mutual

/-- Carry out the merges of a mapping.  Each is taken out before the mapping
that it brings in is flattened itself, so a mapping may be merged into itself. -/
def flattenWithin : Nat → Id → Merging Unit
  | 0, _ => throw .malformed
  | fuel + 1, id => do
    let merged ← gather fuel id
    modify fun g =>
      let g := g.settleKeys id
      if merged.isEmpty then g else g.setEntries id (merged ++ g.entries id)

/-- The entries that merges bring into a mapping. -/
def gather : Nat → Id → Merging (List (Id × Id))
  | 0, _ => throw .malformed
  | fuel + 1, id => do
    match ← takeMerge? id with
    | none => return []
    | some source =>
      let sources ←
        match (← get).shape source with
        | .scalar _ => throw .malformed
        | .sequence items => pure items
        | .mapping _ => pure [source]
      let parts ← sources.mapM fun s => do
        if !(← get).isMapping s then throw .malformed
        flattenWithin fuel s
        return (← get).entries s
      return parts.reverse.flatten ++ (← gather fuel id)

end

def mergeCount (g : Graph) : Nat :=
  (g.nodes.toList.flatMap fun n =>
    match n.shape with
    | .mapping es => es.filter fun (key, _) => g.tag key = .merge
    | _ => []).length

/-- Carry out the merges of a mapping; each step inwards takes a merge out. -/
def flatten (g : Graph) (id : Id) : Except Problem Graph := do
  let ((), flat) ← (flattenWithin (2 * g.mergeCount + 2) id).run g
  return flat

end Graph
end Yaml
end Marginalia
