import Marginalia.Text.Basic

/-
Settings of the program.
-/
namespace Marginalia

/-- What stands before each rendered block. -/
inductive CommentStyle where
  | html
  | md
  | none
deriving DecidableEq, Repr

namespace CommentStyle

def name : CommentStyle → Text
  | .html => "html".toList
  | .md => "md".toList
  | .none => "none".toList

def all : List CommentStyle := [.html, .md, .none]

def ofName? (t : Text) : Option CommentStyle := all.find? (·.name = t)

end CommentStyle

structure Settings where
  /-- The most blocks that may be open at a time in a template. -/
  maxTemplateNesting : Int := 20
  /-- The largest distance that still joins two highlights. -/
  maxHighlightGap : Int := 250
  /-- The largest distance joined without a sign of the gap. -/
  contiguousGap : Int := 2
  /-- The chapter of annotations without one. -/
  unknownChapterLabel : Text := "Chapter Unknown".toList
  commentStyle : Text := CommentStyle.html.name
  /-- The template used when none is chosen, or a bad one. -/
  defaultTemplate : Text := "default".toList
  pipelineCacheSize : Int := 200
  templateCacheSize : Int := 10
deriving DecidableEq, Repr

end Marginalia
