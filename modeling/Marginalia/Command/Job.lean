import Marginalia.Library.Basic
import Marginalia.Json.Reader
import Marginalia.Template.Terminal

/-
One run of the command, in stages.  Each stage takes the state that the one
before it left and adds to it: where the files are, the annotations, and what
came of them.
-/
namespace Marginalia

inductive JobResult where
  | written (outputFile : Text) (count : Nat) (template : Option Text)
  | printed
deriving DecidableEq, Repr

/-- The options of a run, and what its stages found. -/
structure Job where
  inputDirectory : Path
  outputDirectory : Path
  verbosity : Int := 1
  inputFile : Text := []
  template : Option Text := none
  templateDirectory : Option Text := none
  commentStyle : Option Text := none
  maxGap : Option Gap := none
  outputFile : Option Text := none
  printsTemplate : Bool := false
  /-- The files have been found. -/
  isReady : Bool := false
  source : Path := { root := ['/'] }
  target : Path := { root := ['/'] }
  annotations : Option (List Annotation) := none
  result : Option JobResult := none

/-- What a run sees of the world and changes in it. -/
structure Session where
  files : FileTree
  log : Log := []
  drawn : Nat := 0
  stdout : Text := []
  stderr : Text := []

/-- Why a run ends before its last stage. -/
inductive Stop where
  | exit (code : Nat)
  | fault (f : Fault)
deriving DecidableEq, Repr

/-- A part of a run, which keeps what it did even when it stops. -/
abbrev Act (α : Type) := ExceptT Stop (StateM Session) α

/-- What a run is given besides its options. -/
structure Surroundings where
  settings : Settings
  hexes : Nat → Text

namespace Act

def report (e : LogEntry) : Act Unit := modify fun s => { s with log := s.log ++ [e] }

def print (t : Text) : Act Unit := modify fun s => { s with stdout := s.stdout ++ t }

def printError (line : Text) : Act Unit :=
  modify fun s => { s with stderr := s.stderr ++ line ++ ['\n'] }

def giveUp {α : Type} (line : Text) : Act α := do
  printError line
  throw (.exit 1)

def query {α : Type} (f : FileTree → Except FileProblem α) : Act α := do
  match f (← get).files with
  | .ok a => return a
  | .error e => throw (.fault (.file e))

def makeDirectories (p : Path) : Act Unit := do
  let (files, made) := (← get).files.makeDirectories p
  modify fun s => { s with files := files }
  if let .error e := made then throw (.fault (.file e))

end Act

def FileProblem.message : FileProblem → Text
  | .notFound => "No such file or directory".toList
  | .isDirectory => "Is a directory".toList
  | .notDirectory => "Not a directory".toList
  | .exists => "File exists".toList
  | .nameTooLong => "File name too long".toList
  | .notPermitted => "Operation not permitted".toList

namespace Job

/-! ## Finding the files -/

/-- A text that is given and not empty. -/
def given? : Option Text → Option Text
  | some (c :: rest) => some (c :: rest)
  | _ => none

/-- The name of the document: as asked for, or after the annotations. -/
def outputName (j : Job) (source : Path) : Text :=
  (given? j.outputFile).getD (TemplateDefinition.fileName source.stem)

def checkTemplateDirectory (j : Job) : Act Unit := do
  match given? j.templateDirectory with
  | none => pure ()
  | some t =>
    if !(← Act.query (·.isDirectory (Path.ofText t))) then
      Act.giveUp ("Error: Template directory not found: ".toList ++ t)

def prepare (_ : Surroundings) (j : Job) : Act Job := do
  Act.report (.detail "Checking environment...".toList)
  j.checkTemplateDirectory
  if j.printsTemplate then return { j with isReady := true }
  if j.inputFile.isEmpty then Act.giveUp "Error: --inputFile is required".toList
  let source := j.inputDirectory.child j.inputFile
  if !(← Act.query (·.isFile source)) then
    Act.giveUp ("Error: Input file not found: ".toList ++ source.text)
  Act.report (.detail ("Input file: ".toList ++ source.text))
  Act.makeDirectories j.outputDirectory
  let target := j.outputDirectory.child (j.outputName source)
  Act.report (.detail ("Output file: ".toList ++ target.text))
  return { j with source, target, isReady := true }

/-! ## Reading the annotations -/

/-- The value in a file, or why there is none. -/
def readValue (files : FileTree) (p : Path) : Except Text Value := do
  match files.read p with
  | .error e => throw e.message
  | .ok bytes =>
    match Text.decode? bytes with
    | none => throw "The file is not encoded as UTF-8".toList
    | some t =>
      match Json.read? (Text.unifyLineEnds t) with
      | none => throw "The file is not well formed".toList
      | some v => return v

/-- The list of annotations in a value: the value itself, or its entry. -/
def listIn? : Value → Option (List Value)
  | .list xs => some xs
  | .map es =>
    match Value.lookup "annotations".toList es with
    | some (.list xs) => some xs
    | _ => none
  | _ => none

def load (_ : Surroundings) (j : Job) : Act Job := do
  if j.printsTemplate then return j
  Act.report (.progress "Reading annotations...".toList)
  match readValue (← get).files j.source with
  | .error reason => Act.giveUp ("Error reading input file: ".toList ++ reason)
  | .ok v =>
    match listIn? v with
    | none => Act.giveUp "Error: Input holds no list of annotations".toList
    | some vs =>
      match Annotation.ofList vs with
      | .error f => Act.giveUp ("Error: Malformed annotation: ".toList ++ f.message.getD [])
      | .ok as =>
        Act.report (.detail ("Loaded ".toList ++ Text.ofNat as.length ++ " annotations".toList))
        return { j with annotations := some as }

/-! ## Rendering -/

def library (w : Surroundings) (j : Job) : Library where
  settings := w.settings
  userDirectory := (given? j.templateDirectory).map Path.ofText
  hexes := w.hexes

/-- Use a library that has not been used yet.  What is wrong with the library
itself ends the run with a message. -/
def useLibrary {α : Type} (w : Surroundings) (j : Job) (use : Library → Use α) : Act α := do
  let s ← get
  let l := j.library w
  let shelf := l.opened s.files w.settings.pipelineCacheSize
  let (result, shelf) := Id.run ((ExceptT.run (use l)).run
    { shelf with render := { shelf.render with log := s.log, drawn := s.drawn } })
  set { s with files := shelf.files, log := shelf.render.log, drawn := shelf.render.drawn }
  match result with
  | .ok a => return a
  | .error (.template problem) => Act.giveUp ("Template error: ".toList ++ problem.message)
  | .error f => throw (.fault f)

def printTemplate (w : Surroundings) (j : Job) : Act Unit := do
  let source ← j.useLibrary w fun l => l.load j.template
  Act.print (Fragment.paint source)

def writeDocument (j : Job) (document : Text) : Act Unit := do
  match (← get).files.write j.target (Text.encode (document ++ ['\n'])) with
  | .ok files => modify fun s => { s with files := files }
  | .error e => Act.giveUp ("Error writing output file: ".toList ++ e.message)

def render (w : Surroundings) (j : Job) : Act Job := do
  if j.printsTemplate then
    j.printTemplate w
    return { j with result := some .printed }
  Act.report (.progress "Rendering highlights...".toList)
  let as := j.annotations.getD []
  let document ← j.useLibrary w fun l => l.render as j.template j.commentStyle j.maxGap
  j.writeDocument document
  Act.report (.detail ("Wrote ".toList ++ j.target.text))
  return { j with result := some (.written j.target.text as.length j.template) }

/-! ## The report -/

def report (_ : Surroundings) (j : Job) : Act Job := do
  match j.result with
  | none => Act.giveUp "Error: Rendering failed".toList
  | some .printed => return j
  | some (.written outputFile count template) =>
    Act.report (.progress "✓ Rendering successful!".toList)
    Act.report (.progress ("  Output: ".toList ++ outputFile))
    Act.report (.progress ("  Annotations: ".toList ++ Text.ofNat count))
    Act.report (.progress ("  Template: ".toList ++ template.getD "None".toList))
    return j

/-! ## Runs -/

abbrev Stage := Surroundings → Job → Act Job

def stages : List Stage := [prepare, load, render, report]

/-- Everything that the stages may look at. -/
def paths (j : Job) : List Path :=
  let source := j.inputDirectory.child j.inputFile
  let templates := (given? j.templateDirectory).toList.map Path.ofText
  [j.inputDirectory, j.outputDirectory, source, j.outputDirectory.child (j.outputName source)] ++
    templates ++
    templates.map fun p => p.child (TemplateDefinition.fileName (j.template.getD []))

def through (w : Surroundings) (j : Job) : List Stage → Act Job
  | [] => return j
  | stage :: rest => do through w (← stage w j) rest

end Job
end Marginalia
