import Marginalia.Filter.Truncate
import Marginalia.Html.Reference
import Marginalia.Markdown
import Marginalia.Calendar.Mask
import Marginalia.Text.Case

/-
The filters a template may use, and how a filter is written.
-/
namespace Marginalia

inductive FilterCategory where
  | html
  | text
  | markdown
  | date
  | identity
deriving DecidableEq, Repr

namespace FilterCategory

def name : FilterCategory → Text
  | .html => "html".toList
  | .text => "text".toList
  | .markdown => "markdown".toList
  | .date => "date".toList
  | .identity => "identity".toList

def all : List FilterCategory := [.html, .text, .markdown, .date, .identity]

end FilterCategory

inductive Filter where
  | stripHtml
  | breaksToLines
  | escapeHtml
  | unescapeHtml
  | truncate
  | lower
  | upper
  | quote
  | escapeMarkdown
  | dateFormat
  /-- What an unknown name stands for. -/
  | identity
deriving DecidableEq, Repr

namespace Filter

def name : Filter → Text
  | .stripHtml => "stripHTML".toList
  | .breaksToLines => "br2nl".toList
  | .escapeHtml => "escapeHtml".toList
  | .unescapeHtml => "unescapeHtml".toList
  | .truncate => "truncate".toList
  | .lower => "lower".toList
  | .upper => "upper".toList
  | .quote => "quote".toList
  | .escapeMarkdown => "escape".toList
  | .dateFormat => "dateFormat".toList
  | .identity => "identity".toList

/-- The filters that have a name of their own. -/
def known : List Filter :=
  [.stripHtml, .breaksToLines, .escapeHtml, .unescapeHtml, .truncate, .lower, .upper, .quote,
    .escapeMarkdown, .dateFormat]

def find? (name : Text) : Option Filter := known.find? (·.name = name)

/-- The filter with a name; an unknown name changes nothing. -/
def resolve (name : Text) : Filter := (find? name).getD .identity

def category : Filter → FilterCategory
  | .stripHtml | .breaksToLines | .escapeHtml | .unescapeHtml => .html
  | .truncate | .lower | .upper => .text
  | .quote | .escapeMarkdown => .markdown
  | .dateFormat => .date
  | .identity => .identity

def description : Filter → Text
  | .stripHtml => "Remove HTML tags and decode entities".toList
  | .breaksToLines => "Convert <br> tags to newlines".toList
  | .escapeHtml => "Escape HTML entities".toList
  | .unescapeHtml => "Unescape HTML entities".toList
  | .truncate => "Truncate to N characters".toList
  | .lower => "Convert to lowercase".toList
  | .upper => "Convert to uppercase".toList
  | .quote => "Prefix lines with > for Markdown quotes".toList
  | .escapeMarkdown => "Escape Markdown special characters".toList
  | .dateFormat => "Format date string (e.g. YYYYMMDDHHmmss)".toList
  | .identity => "Unknown filter; value passes through unchanged".toList

def needsArgument : Filter → Bool
  | .truncate => true
  | .dateFormat => true
  | _ => false

/-- An example of a tag that uses the filter. -/
def sample? : Filter → Option Text
  | .stripHtml => some "\x7b\x7bhighlight|stripHTML\x7d\x7d".toList
  | .breaksToLines => some "\x7b\x7bhighlight|br2nl\x7d\x7d".toList
  | .escapeHtml => some "\x7b\x7bnote|escapeHtml\x7d\x7d".toList
  | .unescapeHtml => some "\x7b\x7bhighlightPlain|unescapeHtml\x7d\x7d".toList
  | .truncate => some "\x7b\x7bhighlight|truncate:80\x7d\x7d".toList
  | .lower => some "\x7b\x7bchapter|lower\x7d\x7d".toList
  | .upper => some "\x7b\x7bchapter|upper\x7d\x7d".toList
  | .quote => some "\x7b\x7bhighlightPlain|br2nl|quote\x7d\x7d".toList
  | .escapeMarkdown => some "\x7b\x7bchapter|escape\x7d\x7d".toList
  | .dateFormat => some "\x7b\x7bdatetime|dateFormat:YYYY-MM-DD\x7d\x7d".toList
  | .identity => none

def apply (f : Filter) (arg : Option Text) (t : Text) : Except Fault Text :=
  match f with
  | .stripHtml => .ok (Html.strip t)
  | .breaksToLines => .ok (Html.lineBreaks t)
  | .escapeHtml => .ok (Html.escape t)
  | .unescapeHtml => Html.decode t
  | .truncate => Truncate.apply t arg
  | .lower => .ok (Text.lower t)
  | .upper => .ok (Text.upper t)
  | .quote => .ok (Markdown.quote t)
  | .escapeMarkdown => .ok (Markdown.escape t)
  | .dateFormat => formatDate (.text t) arg
  | .identity => .ok t

/-- Split how a filter is written into its name and its argument, which follows
the first colon. -/
def split (spec : Text) : Text × Option Text :=
  match Text.cut [':'] spec with
  | none => (Text.strip spec, none)
  | some (name, arg) => (Text.strip name, some (Text.strip arg))

end Filter

/-- A sequence of filters with their arguments, first one first. -/
abbrev Pipeline := List (Filter × Option Text)

namespace Pipeline

def ofSpecs (specs : List Text) : Pipeline :=
  specs.map fun spec =>
    let (name, arg) := Filter.split spec
    (Filter.resolve name, arg)

def run : Pipeline → Text → Except Fault Text
  | [], t => .ok t
  | (f, arg) :: rest, t =>
    match f.apply arg t with
    | .ok u => run rest u
    | .error e => .error e

/-- The key a pipeline is remembered by. -/
def key (specs : List Text) : Text := Text.join ['|'] specs

end Pipeline

/-- The text of a value after filters. -/
def filterValue (v : Value) (specs : List Text) : Except Fault Text := do
  (Pipeline.ofSpecs specs).run (← v.templateText)

end Marginalia
