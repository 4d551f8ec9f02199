import Marginalia.Text.Basic

/-
Paths of files: names divided by slashes, from the root or from the directory
where a program works.
-/
namespace Marginalia

structure Path where
  /-- The slashes at the start: none, one, or the two that are kept as two. -/
  root : Text := []
  /-- The names on the way; the parent directory is one of them, the same
  directory is not. -/
  parts : List Text := []
deriving DecidableEq, Repr

namespace Path

/-- Slashes at the end, slashes in a row and the same directory do not count. -/
def ofText (t : Text) : Path where
  root :=
    match (t.takeWhile (· = '/')).length with
    | 0 => []
    | 2 => ['/', '/']
    | _ => ['/']
  parts := (Text.fields '/' t).filter fun p => !p.isEmpty && p ≠ ['.']

def text (p : Path) : Text :=
  if p.root.isEmpty && p.parts.isEmpty then ['.'] else p.root ++ Text.join ['/'] p.parts

def isAbsolute (p : Path) : Bool := !p.root.isEmpty

/-- A path seen from another one; a path from the root is the same from
everywhere. -/
def join (p q : Path) : Path :=
  if q.isAbsolute then q else ⟨p.root, p.parts ++ q.parts⟩

def child (p : Path) (t : Text) : Path := p.join (ofText t)

def parent (p : Path) : Path := ⟨p.root, p.parts.dropLast⟩

def name (p : Path) : Text := p.parts.getLast?.getD []

/-- A name without what follows its last point; a point that starts or ends the
name does not count. -/
def stemOf (name : Text) : Text :=
  let tail := (name.reverse.takeWhile (· ≠ '.')).reverse
  let stem := name.take (name.length - tail.length - 1)
  if tail.length = name.length || tail.isEmpty || stem.isEmpty then name else stem

def stem (p : Path) : Text := stemOf p.name

end Path
end Marginalia
