import Marginalia.Command.Arguments
import Marginalia.Command.Job

/-
The whole command: from the words of its command line to its last stage.
-/
namespace Marginalia
namespace Command

def programName : Text := "highlightdown".toList

def programVersion : Text := "1.0.0".toList

def versionLine : Text := programName ++ ' ' :: programVersion ++ ['\n']

def usage : Text :=
  "usage: ".toList ++ programName ++ " [options] ".toList ++
    Text.join [' '] Arguments.directoryNames ++ ['\n']

def flagLine (f : Flag) : Text :=
  ' ' :: ' ' :: Text.join [',', ' '] f.names ++ (if f.takesValue then " VALUE".toList else []) ++
    ['\n']

def help : Text := usage ++ "\noptions:\n".toList ++ Flag.all.flatMap flagLine

def usageLine (problem : UsageProblem) : Text :=
  programName ++ ": error: ".toList ++ problem.message

def job (o : Options) : Job where
  inputDirectory := Path.ofText o.inputDirectory
  outputDirectory := Path.ofText o.outputDirectory
  verbosity := o.verbosity
  inputFile := o.inputFile
  template := some o.template
  templateDirectory := o.templateDirectory
  commentStyle := some o.commentStyle
  maxGap := some (.whole o.maxGap)
  outputFile := o.outputFile
  printsTemplate := o.printsTemplate

def requireDirectory (p : Path) : Act Unit := do
  if !(← Act.query (·.isDirectory p)) then Act.giveUp ("Not a directory: ".toList ++ p.text)

/-- Make sure of the two directories. -/
def openDirectories (j : Job) : Act Unit := do
  if ← Act.query (·.exists? j.outputDirectory) then requireDirectory j.outputDirectory
  else Act.makeDirectories j.outputDirectory
  requireDirectory j.inputDirectory

def run (w : Surroundings) (defaults : Options) (args : List Text) : Act Job := do
  match Arguments.read defaults args with
  | .error .help =>
    Act.print help
    throw (.exit 0)
  | .error .version =>
    Act.print versionLine
    throw (.exit 0)
  | .error (.usage problem) =>
    Act.printError (usage ++ usageLine problem)
    throw (.exit 2)
  | .ok o =>
    let j := job o
    openDirectories j
    j.through w Job.stages

/-- Everything that carrying out a command line may look at. -/
def paths (defaults : Options) (args : List Text) : List Path :=
  match Arguments.read defaults args with
  | .ok o => (job o).paths
  | .error _ => []

/-- The random texts that follow from a seed: four hexadecimal digits each. -/
def hexes (seed : List UInt8) (n : Nat) : Text :=
  (Sha1.digest (seed ++ Text.encode (Text.ofNat n))).take 4

/-- How verbose a command line asks the log to be. -/
def verbosity (defaults : Options) (args : List Text) : Int :=
  match Arguments.read defaults args with
  | .ok o => o.verbosity
  | .error _ => 0

end Command
end Marginalia
