import Marginalia.Book
import Marginalia.File.Tree
import Marginalia.Library.Definition
import Marginalia.Library.Shipped
import Marginalia.Template.Validation

/-
The template library.  A template is looked for in the user's directory, then
among the built-in ones; where it is not found, or is of no use, the default
template takes its place.  Built-in templates are read once, and compiled
templates are kept.
-/
namespace Marginalia

/-- Where built-in templates come from. -/
inductive BuiltInSource where
  | shipped
  | directory (p : Path)
deriving DecidableEq, Repr

/-- What does not change while a library is used. -/
structure Library where
  settings : Settings
  userDirectory : Option Path := none
  builtInSource : BuiltInSource := .shipped
  /-- The random texts in the order in which they are drawn. -/
  hexes : Nat → Text

structure StoredTemplate where
  compiled : Compiled
  source : Text
  divider : Bool
  /-- The number of the compilation that made it. -/
  serial : Nat

/-- What changes while a library is used. -/
structure Shelf where
  files : FileTree
  /-- The built-in templates that have been read, no two with one id. -/
  builtIns : List TemplateDefinition := []
  stored : Cache Text StoredTemplate
  /-- How many templates have been compiled. -/
  compilations : Nat := 0
  /-- Memory of pipelines, clock, log, and random texts. -/
  render : RenderState := {}

/-- A use of a library, which keeps what it did to the shelf even when it
fails. -/
abbrev Use (α : Type) := ExceptT Fault (StateM Shelf) α

namespace Use

def report (e : LogEntry) : Use Unit :=
  modify fun s => { s with render := { s.render with log := s.render.log ++ [e] } }

def reportAll (log : Log) : Use Unit :=
  modify fun s => { s with render := { s.render with log := s.render.log ++ log } }

def ofExcept {α : Type} : Except Fault α → Use α
  | .ok a => pure a
  | .error e => throw e

/-- Ask the files something. -/
def query {α : Type} (f : FileTree → Except FileProblem α) : Use α := do
  match f (← get).files with
  | .ok a => return a
  | .error e => throw (.file e)

def setFiles (files : FileTree) : Use Unit := modify fun s => { s with files := files }

def change (f : FileTree → Except FileProblem FileTree) : Use Unit := do
  setFiles (← query f)

/-- A render, with the memory of pipelines, the log and the random texts of the
shelf. -/
def render {α : Type} (m : Render α) : Use α := do
  let (result, r) := Id.run ((ExceptT.run m).run (← get).render)
  modify fun s => { s with render := r }
  ofExcept result

end Use

namespace TemplateDefinition

/-- Put a definition in place of the one with the same id. -/
def insert (d : TemplateDefinition) : List TemplateDefinition → List TemplateDefinition
  | [] => [d]
  | e :: rest => if e.id = d.id then d :: rest else e :: insert d rest

/-- Put a definition before the first one with a greater id. -/
def place (d : TemplateDefinition) : List TemplateDefinition → List TemplateDefinition
  | [] => [d]
  | e :: rest => if Text.lt d.id e.id then d :: e :: rest else e :: place d rest

/-- The definitions by ascending id. -/
def sort (ds : List TemplateDefinition) : List TemplateDefinition :=
  ds.foldl (fun sorted d => place d sorted) []

def find? (id : Text) (ds : List TemplateDefinition) : Option TemplateDefinition :=
  ds.find? (·.id = id)

end TemplateDefinition

namespace Library

/-! ## Reading definitions -/

def readText (p : Path) : Use Text := do
  match Text.decode? (← Use.query (·.read p)) with
  | some t => return Text.unifyLineEnds t
  | none => throw .undecodable

def define (id : Text) (builtIn : Bool) (t : Text) : Use TemplateDefinition := do
  let (result, log) := TemplateDefinition.ofText id builtIn t
  Use.reportAll log
  Use.ofExcept result

def readDefinition (p : Path) (builtIn : Bool) : Use TemplateDefinition := do
  define p.stem builtIn (← readText p)

def templateNames (p : Path) : Use (List Text) := do
  let place ← Use.query (·.locate p)
  return Text.sortNew (((← get).files.namesIn place).filter TemplateDefinition.isFileName)

def addBuiltIn (d : TemplateDefinition) : Use Unit :=
  modify fun s => { s with builtIns := d.insert s.builtIns }

/-- Read built-in templates one after another; those that were read stay when a
later one cannot be. -/
def addBuiltInsFrom (p : Path) : List Text → Use Unit
  | [] => pure ()
  | name :: rest => do
    addBuiltIn (← readDefinition (p.child name) true)
    addBuiltInsFrom p rest

def addShipped : List (Text × Text) → Use Unit
  | [] => pure ()
  | (name, t) :: rest => do
    addBuiltIn (← define (Path.stemOf name) true t)
    addShipped rest

def countEntry (ds : List TemplateDefinition) : LogEntry :=
  .detail ("Loaded ".toList ++ Text.ofNat ds.length ++ " built-in templates".toList)

/-- The built-in templates, read when they are needed for the first time. -/
def builtIns (l : Library) : Use (List TemplateDefinition) := do
  let known := (← get).builtIns
  if !known.isEmpty then return known
  match l.builtInSource with
  | .shipped => addShipped Shipped.files
  | .directory p =>
    if !(← Use.query (·.isDirectory p)) then throw (.template (.directoryMissing p.text))
    addBuiltInsFrom p (← templateNames p)
    if (← get).builtIns.isEmpty then throw (.template (.noTemplates p.text))
  let ds := (← get).builtIns
  Use.report (countEntry ds)
  return ds

def addUserTemplates (p : Path) (ds : List TemplateDefinition) :
    List Text → Use (List TemplateDefinition)
  | [] => return ds
  | name :: rest => do
    let d ← readDefinition (p.child name) false
    addUserTemplates p (d.insert ds) rest

def list (l : Library) : Use (List TemplateDefinition) := do
  let ds ← l.builtIns
  match l.userDirectory with
  | none => return TemplateDefinition.sort ds
  | some p =>
    if !(← Use.query (·.isDirectory p)) then return TemplateDefinition.sort ds
    return TemplateDefinition.sort (← addUserTemplates p ds (← templateNames p))

/-! ## Finding templates -/

/-- The default template, which is a built-in one. -/
def fallback (l : Library) : Use TemplateDefinition := do
  match TemplateDefinition.find? l.settings.defaultTemplate (← l.builtIns) with
  | some d => return d
  | none => throw (.template (.noDefault l.settings.defaultTemplate))

/-- The user's template of an id, if there is one. -/
def findUser? (l : Library) (id : Text) : Use (Option TemplateDefinition) := do
  match l.userDirectory with
  | none => return none
  | some directory =>
    let p := directory.child (TemplateDefinition.fileName id)
    if !(← Use.query (·.isFile p)) then return none
    Use.report (.detail ("Using user template '".toList ++ id ++ "' from ".toList ++ p.text))
    return some (← readDefinition p false)

def find (l : Library) (id : Text) : Use TemplateDefinition := do
  match ← l.findUser? id with
  | some d => return d
  | none =>
    match TemplateDefinition.find? id (← l.builtIns) with
    | some d =>
      Use.report (.detail ("Using built-in template '".toList ++ id ++ ['\'']))
      return d
    | none =>
      Use.report (.failure ("Template '".toList ++ id ++ "' not found; falling back to '".toList ++
        l.settings.defaultTemplate ++ ['\'']))
      l.fallback

/-- The id that is meant when none or an empty one is given. -/
def chosenId (l : Library) (id : Option Text) : Text :=
  match id with
  | some (c :: rest) => c :: rest
  | _ => l.settings.defaultTemplate

/-- The text of a template, checked; one that is of no use is replaced by the
default template, which is not checked again. -/
def load (l : Library) (id : Option Text) : Use Text := do
  let d ← l.find (l.chosenId id)
  let parsed := Parsed.ofTemplate l.settings.maxTemplateNesting d.content
  Use.reportAll parsed.log
  let v ← Use.ofExcept (Validation.ofParsed parsed)
  Use.reportAll (v.warnings.map fun w =>
    .detail ("Template '".toList ++ d.id ++ "': ".toList ++ w))
  if v.isValid then return d.content
  Use.report (.failure ("Template '".toList ++ d.id ++ "' failed validation (".toList ++
    Text.join [';', ' '] v.errors ++ "); falling back to '".toList ++
    l.settings.defaultTemplate ++ ['\'']))
  return (← l.fallback).content

/-! ## Compiled templates -/

def compileAs (l : Library) (id source : Text) : Use StoredTemplate := do
  let compiled := Compiled.ofTemplate l.settings.maxTemplateNesting source
  Use.reportAll compiled.log
  let t : StoredTemplate :=
    ⟨compiled, source, wantsDivider source, (← get).compilations⟩
  let now ← Use.render Render.clock
  modify fun s =>
    { s with
      stored := s.stored.store now id t
      compilations := s.compilations + 1 }
  if !(← get).stored.hasBound then throw .noRoom
  return t

def compiled (l : Library) (id : Option Text) : Use StoredTemplate := do
  let id := l.chosenId id
  let now ← Use.render Render.clock
  let s ← get
  let (hit, stored) := s.stored.lookup now id
  set { s with stored }
  match hit with
  | some t => return t
  | none => l.compileAs id (← l.load (some id))

def forget : Use Unit := modify fun s => { s with stored := s.stored.clear }

/-! ## Rendering -/

/-- A document without long gaps and without blanks at its ends. -/
def tidy (t : Text) : Text := Text.strip (Book.squeeze t)

/-- The comment style that is meant when none or an empty one is given. -/
def chosenStyle (l : Library) (style : Option Text) : Text :=
  match style with
  | some (c :: rest) => c :: rest
  | _ => l.settings.commentStyle

def render (l : Library) (as : List Annotation) (id style : Option Text) (gap : Option Gap) :
    Use Text := do
  let t ← l.compiled id
  let form : Book.Form := ⟨Book.markerStyle (l.chosenStyle style), t.divider⟩
  let gap := gap.getD (.whole l.settings.maxHighlightGap)
  let rendered ← Use.render (Book.render l.hexes t.compiled.renderShared form
    l.settings.unknownChapterLabel Annotation.compare
    (Group.successive gap l.settings.contiguousGap) as)
  return tidy rendered

/-- A library that has not been used yet; its memory of pipelines has a given
size. -/
def opened (l : Library) (files : FileTree) (pipelines : Int) : Shelf where
  files := files
  stored := { maxSize := l.settings.templateCacheSize }
  render := { pipelines := some { maxSize := pipelines } }

end Library
end Marginalia
