import Marginalia.Frontmatter
import Marginalia.Markdown
import Marginalia.Html.Escape
import Marginalia.Text.Word
import Marginalia.File.Path

/-
Templates as a library knows them: a name, a description, and the text.
-/
namespace Marginalia

structure TemplateDefinition where
  /-- What the template is chosen by. -/
  id : Text
  name : Text
  description : Text
  content : Text
  /-- Whether it came from the library's own directory. -/
  builtIn : Bool
deriving DecidableEq, Repr

namespace TemplateDefinition

def fileName (id : Text) : Text := id ++ ".md".toList

def isFileName (name : Text) : Bool := ".md".toList.isSuffixOf name

/-- Every word starts with a capital; `inWord` says whether one is being
read. -/
def capitalized (inWord : Bool) : Text → Text
  | [] => []
  | c :: rest =>
    let w := Text.isWord c
    (if w && !inWord then Text.upperChar c else [c]) ++ capitalized w rest

/-- The name that is shown for an id: hyphens are spaces. -/
def displayName (id : Text) : Text :=
  capitalized false (id.map fun c => if c = '-' then ' ' else c)

/-- The description for want of another. -/
def plainDescription (name : Text) : Text :=
  "The ".toList ++ name ++ " template.".toList

/-- The description that frontmatter states. -/
def describe (name : Text) (entries : List (Value × Value)) : Except Fault Text := do
  let v := (Value.lookup "description".toList entries).getD .null
  if v.isTruthy then return Text.strip (← v.shown)
  return Text.strip (plainDescription name)

/-- A template from the text of its file, and what reading it reports. -/
def ofText (id : Text) (builtIn : Bool) (t : Text) : Except Fault TemplateDefinition × Log :=
  let name := displayName id
  match Frontmatter.split t with
  | .error f => (.error f, [])
  | .ok f =>
    ((describe name f.entries).map fun description =>
      { id, name, description, content := f.content, builtIn }, f.log)

end TemplateDefinition

/-! ## Dividers -/

/-- A rule written as a tag stands somewhere in the text. -/
def Html.hasRule : Text → Bool
  | [] => false
  | c :: rest => (Html.afterVoidTag? ['h', 'r'] false (c :: rest)).isSome || Html.hasRule rest

/-- Groups are divided by a rule unless the template has one of its own. -/
def wantsDivider (content : Text) : Bool := !(Markdown.hasRule content || Html.hasRule content)

end Marginalia
