import Marginalia.File.Path
import Marginalia.Fault
import Marginalia.Text.Utf8

/-
Files and directories as a value.  Each is kept under the names that lead to it
from the root; paths are followed name by name, as a system does.
-/
namespace Marginalia

inductive FileEntry where
  | file (bytes : List UInt8)
  | directory
deriving DecidableEq, Repr

structure FileTree where
  /-- Where paths that do not start at the root begin. -/
  workplace : List Text := []
  /-- What there is below the root. -/
  entries : List (List Text × FileEntry) := []
deriving Repr

namespace FileTree

abbrev Names := List Text

/-- What stands under some names. -/
def entry? (t : FileTree) (names : Names) : Option FileEntry :=
  if names.isEmpty then some .directory else t.entries.lookup names

/-- Put an entry in place of the one under the same names. -/
def put (t : FileTree) (names : Names) (e : FileEntry) : FileTree :=
  let rec go : List (Names × FileEntry) → List (Names × FileEntry)
    | [] => [(names, e)]
    | (n, f) :: rest => if n = names then (names, e) :: rest else (n, f) :: go rest
  { t with entries := go t.entries }

def drop (t : FileTree) (names : Names) : FileTree :=
  { t with entries := t.entries.filter (·.1 ≠ names) }

/-! ## Following paths -/

/-- The most bytes that a name may have. -/
def maxName : Nat := 255

/-- The most bytes that a path may have. -/
def maxPath : Nat := 4095

def isTooLong (name : Text) : Bool := maxName < (Text.encode name).length

/-- Follow names from a place, each of which but the last leads to a
directory. -/
def walk (t : FileTree) (place : Names) : List Text → Except FileProblem Names
  | [] => .ok place
  | name :: rest =>
    match t.entry? place with
    | none => .error .notFound
    | some (.file _) => .error .notDirectory
    | some .directory =>
      if name = ['.', '.'] then walk t place.dropLast rest
      else if isTooLong name then .error .nameTooLong
      else walk t (place ++ [name]) rest

/-- The names under which a path finds something or could put it. -/
def locate (t : FileTree) (p : Path) : Except FileProblem Names :=
  if maxPath < (Text.encode p.text).length then .error .nameTooLong
  else t.walk (if p.isAbsolute then [] else t.workplace) p.parts

def find (t : FileTree) (p : Path) : Except FileProblem FileEntry := do
  match t.entry? (← t.locate p) with
  | some e => .ok e
  | none => .error .notFound

/-- Whether a path leads to something of a kind.  That it leads nowhere is an
answer; that it cannot be followed at all is not. -/
def leadsTo (t : FileTree) (p : Path) (kind : FileEntry → Bool) : Except FileProblem Bool :=
  match t.find p with
  | .ok e => .ok (kind e)
  | .error .notFound => .ok false
  | .error .notDirectory => .ok false
  | .error e => .error e

def isFile (t : FileTree) (p : Path) : Except FileProblem Bool :=
  t.leadsTo p fun e => e matches .file _

def isDirectory (t : FileTree) (p : Path) : Except FileProblem Bool :=
  t.leadsTo p fun e => e matches .directory

def exists? (t : FileTree) (p : Path) : Except FileProblem Bool := t.leadsTo p fun _ => true

/-! ## Reading and writing -/

def read (t : FileTree) (p : Path) : Except FileProblem (List UInt8) := do
  match ← t.find p with
  | .file bytes => .ok bytes
  | .directory => .error .isDirectory

def write (t : FileTree) (p : Path) (bytes : List UInt8) : Except FileProblem FileTree := do
  let names ← t.locate p
  match t.entry? names with
  | some .directory => .error .isDirectory
  | _ => .ok (t.put names (.file bytes))

def remove (t : FileTree) (p : Path) : Except FileProblem FileTree := do
  let names ← t.locate p
  match t.entry? names with
  | some (.file _) => .ok (t.drop names)
  | some .directory => .error .isDirectory
  | none => .error .notFound

def makeDirectory (t : FileTree) (p : Path) : Except FileProblem FileTree := do
  let names ← t.locate p
  match t.entry? names with
  | some _ => .error .exists
  | none => .ok (t.put names .directory)

/-- A directory that is there already is as good as a new one. -/
def orPresent (t : FileTree) (p : Path) (problem : FileProblem) : Except FileProblem FileTree := do
  if ← t.isDirectory p then .ok t else .error problem

/-- Make a directory and the directories on the way to it; `n` of the names on
the way may be missing.  What was made stays even when the rest cannot be. -/
def makeWay (t : FileTree) (p : Path) : Nat → FileTree × Except FileProblem Unit
  | 0 => (t, .error .notFound)
  | n + 1 =>
    let settle (t : FileTree) : Except FileProblem FileTree → FileTree × Except FileProblem Unit
      | .ok made => (made, .ok ())
      | .error e => (t, .error e)
    match t.makeDirectory p with
    | .ok made => (made, .ok ())
    | .error .notFound =>
      if p.parts.isEmpty then (t, .error .notFound)
      else
        match t.makeWay p.parent n with
        | (t, .error e) => (t, .error e)
        | (t, .ok ()) =>
          match t.makeDirectory p with
          | .ok made => (made, .ok ())
          | .error e => settle t (t.orPresent p e)
    | .error e => settle t (t.orPresent p e)

def makeDirectories (t : FileTree) (p : Path) : FileTree × Except FileProblem Unit :=
  t.makeWay p (p.parts.length + 1)

/-! ## Listing -/

def namesIn (t : FileTree) (place : Names) : List Text :=
  t.entries.filterMap fun (names, _) =>
    match names.getLast? with
    | some name => if names.dropLast = place then some name else none
    | none => none

/-- The files and what they hold, by their names from the root. -/
def files (t : FileTree) : List (Names × List UInt8) :=
  t.entries.filterMap fun (names, e) =>
    match e with
    | .file bytes => some (names, bytes)
    | .directory => none

/-- What a later tree has that an earlier one has not, or has otherwise. -/
def changes (earlier later : FileTree) : List (Names × FileEntry) :=
  later.entries.filter fun (names, e) => earlier.entry? names ≠ some e

end FileTree
end Marginalia
