import Marginalia.Library.Basic
import Marginalia.Yaml.Writer

/-
Copies of the built-in templates in the user's directory, to start from.
-/
namespace Marginalia
namespace Library

/-- The file of a template: its description as frontmatter, and its content. -/
def fileText (d : TemplateDefinition) : Text :=
  let settings := Text.strip (Yaml.Writer.entry "description".toList d.description)
  "---\n".toList ++ settings ++ "\n---\n\n".toList ++ d.content

/-- Write the templates that have no file yet: the paths that were written. -/
def installAll (directory : Path) : List TemplateDefinition → Use (List Path)
  | [] => return []
  | d :: rest => do
    let p := directory.child (TemplateDefinition.fileName d.id)
    if ← Use.query (·.exists? p) then installAll directory rest
    else
      Use.change (·.write p (Text.encode (fileText d)))
      return p :: (← installAll directory rest)

/-- Copy the built-in templates to the user's directory; a file that is there
stays as it is. -/
def install (l : Library) : Use (List Path) := do
  match l.userDirectory with
  | none => throw (.template .noUserDirectory)
  | some directory =>
    let (files, made) := (← get).files.makeDirectories directory
    Use.setFiles files
    if let .error e := made then throw (.file e)
    let written ← installAll directory (← l.builtIns)
    Use.report (.detail ("Installed ".toList ++ Text.ofNat written.length ++
      " default templates into ".toList ++ directory.text))
    return written

end Library
end Marginalia
