import Marginalia.Text.Basic

/-
Tags: what a node is meant to be.
-/
namespace Marginalia
namespace Yaml

inductive Tag where
  | null
  | truth
  | whole
  | real
  | text
  | bytes
  | stamp
  | list
  | map
  | set
  /-- A list of pairs, each written as a mapping with one entry. -/
  | pairs
  /-- The key of mappings that are merged into the one it stands in. -/
  | merge
  /-- The key of the value that a mapping stands for where a scalar is wanted. -/
  | standIn
  /-- A tag that no value has. -/
  | unknown
deriving DecidableEq, Repr, Inhabited

namespace Tag

def space : Text := "tag:yaml.org,2002:".toList

def names : List (Text × Tag) :=
  [("null".toList, .null), ("bool".toList, .truth), ("int".toList, .whole),
    ("float".toList, .real), ("str".toList, .text), ("binary".toList, .bytes),
    ("timestamp".toList, .stamp), ("seq".toList, .list), ("map".toList, .map),
    ("set".toList, .set), ("omap".toList, .pairs), ("pairs".toList, .pairs),
    ("merge".toList, .merge), ("value".toList, .standIn)]

def ofText (t : Text) : Tag :=
  if space.isPrefixOf t then (names.lookup (t.drop space.length)).getD .unknown else .unknown

/-- A node of these tags holds other nodes. -/
def isCollection : Tag → Bool
  | .list => true
  | .map => true
  | .set => true
  | .pairs => true
  | _ => false

end Tag
end Yaml
end Marginalia
