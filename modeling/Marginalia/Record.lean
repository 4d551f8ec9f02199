import Marginalia.Annotation.Distance
import Marginalia.Highlight.Style
import Marginalia.Calendar.Mask
import Marginalia.Template.Compiled

/-
The record of a highlight group that a template sees.
-/
namespace Marginalia

/-! ## Merging the texts of a group -/

namespace Group

def gapMark : Text := "[...]".toList

def joinBlock (out : Text) (s : Separator) (block : Text) : Text :=
  match s with
  | .contiguous => out ++ ' ' :: block
  | .gap =>
    let out :=
      if Highlight.paragraphBreak.isSuffixOf out then out else out ++ Highlight.paragraphBreak
    out ++ gapMark ++ Highlight.paragraphBreak ++ block

/-- Join further blocks; where separators run out the blocks are contiguous. -/
def joinFrom (out : Text) : List Text → List Separator → Text
  | [], _ => out
  | b :: bs, [] => joinFrom (joinBlock out .contiguous b) bs []
  | b :: bs, s :: ss => joinFrom (joinBlock out s b) bs ss

def joinBlocks : List Text → List Separator → Text
  | [], _ => []
  | b :: bs, ss => joinFrom b bs ss

/-- What follows a break between paragraphs at the start of a text: two line
ends with nothing but blanks between them, as far as blanks and line ends go. -/
def afterBlankLine? (t : Text) : Option Text :=
  let after (rest : Text) : Option Text :=
    let run := rest.takeWhile Text.isSpace
    if run.contains '\n' then
      some (rest.drop (run.length - (run.reverse.takeWhile (· ≠ '\n')).length))
    else none
  match t with
  | '\n' :: rest => after rest
  | '\r' :: '\n' :: rest => after rest
  | _ => none

/-- The paragraphs of a text.  One step per code point is enough. -/
def paragraphsFrom : Nat → Text → List Text
  | 0, t => [t]
  | _, [] => [[]]
  | fuel + 1, c :: rest =>
    match afterBlankLine? (c :: rest) with
    | some after => [] :: paragraphsFrom fuel after
    | none =>
      match paragraphsFrom fuel rest with
      | [] => [[c]]
      | p :: ps => (c :: p) :: ps

def paragraphs (t : Text) : List Text := paragraphsFrom (t.length + 1) t

/-- The plain text of a highlight: its paragraphs, escaped. -/
def plainText (v : Value) : Except Fault Text :=
  match v.orEmpty with
  | .text t => .ok (Highlight.joinParagraphs (paragraphs t))
  | _ => .error .wrongKind

def styledTexts : List Annotation → Except Fault (List Text)
  | [] => .ok []
  | a :: rest => do
    let t ← Highlight.style a.text a.color a.drawer
    let ts ← styledTexts rest
    .ok (t :: ts)

def plainTexts : List Annotation → Except Fault (List Text)
  | [] => .ok []
  | a :: rest => do
    let t ← plainText a.text
    let ts ← plainTexts rest
    .ok (t :: ts)

def notes (as : List Annotation) : List Text :=
  as.filterMap fun a =>
    match a.note with
    | .text t => some t
    | _ => none

def noteRule : Text := "\n---\n".toList

/-- The notes that are not blank, with rules between them. -/
def mergedNotes (as : List Annotation) : Text :=
  Text.join noteRule ((notes as).filter fun t => !Text.isBlank t)

end Group

/-! ## The record -/

structure Record where
  pageno : Value := .int 0
  pageref : Value := .null
  date : Text := []
  localeDate : Text := []
  dailyNoteLink : Text := []
  time : Text := []
  datetime : Value := .text []
  randomHex : Text := []
  chapter : Text := []
  isFirstInChapter : Bool := false
  highlight : Text := []
  highlightPlain : Text := []
  note : Text := []
  notes : List Text := []
  color : Option Palette := none
  drawer : Value := .null

namespace Record

def timeMask : Text := "\x7bYYYY\x7d/\x7bMM\x7d/\x7bDD\x7d \x7bHH\x7d:\x7bmm\x7d:\x7bss\x7d".toList

/-- The record of a group: page, times, chapter and colour come from its first
annotation, text and notes from all of them. -/
def ofGroup (randomHex : Text) (g : Group) (isFirstInChapter : Bool) : Except Fault Record :=
  match g.annotations with
  | [] => .error .emptyGroup
  | head :: _ => do
    let color ← Palette.ofValue? head.color
    let date ← formatDate head.datetime none
    let localeDate ← formatDate head.datetime (some "locale".toList)
    let dailyNoteLink ← formatDate head.datetime (some "daily-note".toList)
    let time ← formatDate head.datetime (some timeMask)
    let chapter ← head.chapterTitle
    let styled ← Group.styledTexts g.annotations
    let plain ← Group.plainTexts g.annotations
    return {
      pageno := match head.pageref with
        | .null => .int head.pageno
        | v => v
      pageref := head.pageref
      date, localeDate, dailyNoteLink, time
      datetime := head.datetime.orEmpty
      randomHex, chapter, isFirstInChapter
      highlight := Group.joinBlocks styled g.separators
      highlightPlain := Group.joinBlocks plain g.separators
      note := Group.mergedNotes g.annotations
      notes := Group.notes g.annotations
      color
      drawer := head.drawer }

def optional : Option Text → Value
  | none => .null
  | some t => .text t

/-- The variables of a record, in the order of their documentation. -/
def entries (r : Record) : List (Text × Value) :=
  [("pageno".toList, r.pageno), ("pageref".toList, r.pageref), ("date".toList, .text r.date),
    ("localeDate".toList, .text r.localeDate), ("dailyNoteLink".toList, .text r.dailyNoteLink),
    ("time".toList, .text r.time), ("datetime".toList, r.datetime),
    ("randomHex".toList, .text r.randomHex), ("chapter".toList, .text r.chapter),
    ("isFirstInChapter".toList, .bool r.isFirstInChapter),
    ("highlight".toList, .text r.highlight), ("highlightPlain".toList, .text r.highlightPlain),
    ("note".toList, .text r.note), ("notes".toList, .tuple (r.notes.map .text)),
    ("color".toList, optional (r.color.map (·.name))), ("drawer".toList, r.drawer),
    ("khlBg".toList, optional (r.color.map (·.background))),
    ("khlFg".toList, optional (r.color.map (·.foreground))),
    ("callout".toList, .text ((r.color.map (·.name)).getD "note".toList))]

def bindings (r : Record) : Bindings := fun key => (r.entries.lookup key).getD .null

end Record
end Marginalia
