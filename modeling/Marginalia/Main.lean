import Marginalia.Command.Run
import Marginalia.Settings.Environment

/-
The command as a program.  What a run may look at is taken into a tree of files
first, and what the run changed in the tree is written back afterwards.
-/
namespace Marginalia
namespace Main

/-- The variables of settings that the environment has. -/
def environment : IO (List (Text × Text)) :=
  Settings.known.filterMapM fun v => do
    let name := Text.upper (Settings.variableLead ++ v.name)
    return (← IO.getEnv (String.ofList name)).map fun t => (name, t.toList)

/-- Where names lead to from the root. -/
def address (names : List Text) : String := String.ofList ('/' :: Text.join ['/'] names)

/-- Take in what stands under some names. -/
def observe (tree : FileTree) (names : List Text) : IO FileTree := do
  let path := (← IO.currentDir) / address names
  if ← path.isDir then return tree.put names .directory
  if ← path.pathExists then
    return tree.put names (.file (← IO.FS.readBinFile path).toList)
  return tree

/-- Take in what stands on the way from a place. -/
def follow (tree : FileTree) (place : List Text) : List Text → IO FileTree
  | [] => return tree
  | name :: rest => do
    if name = ['.', '.'] then follow tree place.dropLast rest
    else follow (← observe tree (place ++ [name])) (place ++ [name]) rest

/-- Take in what stands on the ways of some paths. -/
def followAll (tree : FileTree) : List Path → IO FileTree
  | [] => return tree
  | p :: rest => do
    followAll (← follow tree (if p.isAbsolute then [] else tree.workplace) p.parts) rest

/-- The files on the ways of some paths, seen from where the program works. -/
def files (paths : List Path) : IO FileTree := do
  let workplace := (Path.ofText (← IO.currentDir).toString.toList).parts
  followAll (← follow { workplace } [] workplace) paths

def write : List (List Text × FileEntry) → IO Unit
  | [] => return
  | (names, .directory) :: rest => do
    IO.FS.createDirAll (address names)
    write rest
  | (names, .file bytes) :: rest => do
    IO.FS.writeBinFile (address names) ⟨bytes.toArray⟩
    write rest

def line (e : LogEntry) : String := String.ofList (e.severity.name ++ " │ ".toList ++ e.message)

def run (settings : Settings) (args : List Text) : IO UInt32 := do
  let defaults := Options.ofSettings settings
  let tree ← files (Command.paths defaults args)
  let seed ← IO.getRandomBytes 16
  let w : Surroundings := { settings, hexes := Command.hexes seed.toList }
  let (result, s) := Id.run ((ExceptT.run (Command.run w defaults args)).run { files := tree })
  write (tree.changes s.files)
  for e in s.log.shown (Command.verbosity defaults args) do IO.eprintln (line e)
  IO.eprint (String.ofList s.stderr)
  IO.print (String.ofList s.stdout)
  match result with
  | .ok _ => return 0
  | .error (.exit code) => return UInt32.ofNat code
  | .error (.fault f) =>
    IO.eprintln (String.ofList (f.message.getD "the run failed".toList))
    return 1

end Main
end Marginalia

def main (args : List String) : IO UInt32 := do
  match Marginalia.Settings.ofEnvironment (← Marginalia.Main.environment) with
  | .ok settings => Marginalia.Main.run settings (args.map String.toList)
  | .error problems =>
    for (name, _) in problems do IO.eprintln (String.ofList ("bad setting: ".toList ++ name))
    return 1
