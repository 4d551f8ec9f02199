import Marginalia.Markdown
import Marginalia.Text.Utf8
import Marginalia.Text.Word

/-
Template sources cut into fragments that are shown in different colours.  The
fragments of a source, put together again, are the source: each rule takes its
fragments from the front of what is left, and where none applies one code point
is taken alone.
-/
namespace Marginalia

inductive FragmentKind where
  | text
  | punctuation
  | keyword
  | key
  | filterName
  | argument
  | comment
  | markup
  | heading
  | rule
  | error
deriving DecidableEq, Repr

structure Fragment where
  kind : FragmentKind
  source : Text
deriving DecidableEq, Repr

/-- Whether a source is read outside a tag or between a variable and its end. -/
inductive FragmentMode where
  | outside
  | inTag
deriving DecidableEq, Repr

namespace Fragment

def sources (fs : List Fragment) : Text := fs.flatMap (·.source)

/-! ## Patterns -/

/-- One part of a pattern: the kind of fragment it makes, and how many code
points it takes from the front, if it applies. -/
structure Segment where
  kind : FragmentKind
  size? : Text → Option Nat

namespace Segment

def exactly (kind : FragmentKind) (mark : String) : Segment :=
  ⟨kind, fun t => if mark.toList.isPrefixOf t then some mark.toList.length else none⟩

/-- A run of any length. -/
def run (kind : FragmentKind) (p : Char → Bool) : Segment :=
  ⟨kind, fun t => some (t.takeWhile p).length⟩

/-- A run of one code point or more. -/
def run1 (kind : FragmentKind) (p : Char → Bool) : Segment :=
  ⟨kind, fun t => let n := (t.takeWhile p).length; if n = 0 then none else some n⟩

def blanks : Segment := run .text Text.isSpace

/-- From an opening mark to the next closing mark on the same line. -/
def between (kind : FragmentKind) (opener closer : String) : Segment :=
  ⟨kind, fun t =>
    if opener.toList.isPrefixOf t then
      match Text.cut closer.toList (t.drop opener.toList.length) with
      | some (inner, _) =>
        if inner.contains '\n' then none
        else some (opener.toList.length + inner.length + closer.toList.length)
      | none => none
    else none⟩

/-- From a less-than sign to the next greater-than sign, with something between
them. -/
def tag : Segment :=
  ⟨.markup, fun t =>
    match t with
    | '<' :: rest =>
      match Text.cut ['>'] rest with
      | some (inner, _) => if inner.isEmpty then none else some (inner.length + 2)
      | none => none
    | _ => none⟩

/-- A heading of one to six marks and a space, to the end of its line. -/
def heading : Segment :=
  ⟨.heading, fun t =>
    let marks := (t.takeWhile (· = '#')).length
    if 1 ≤ marks && marks ≤ 6 && [' '].isPrefixOf (t.drop marks) then
      some (t.takeWhile (· ≠ '\n')).length
    else none⟩

/-- A thematic rule with the blanks around it. -/
def thematicRule : Segment := ⟨.rule, Markdown.rule?⟩

/-- Any one code point but a line feed. -/
def anyInLine (kind : FragmentKind) : Segment :=
  ⟨kind, fun t =>
    match t with
    | [] => none
    | c :: _ => if c = '\n' then none else some 1⟩

end Segment

/-- Match parts one after another: the fragments they make and what is left.
Parts that take nothing make no fragment. -/
def take? : List Segment → Text → Option (List Fragment × Text)
  | [], t => some ([], t)
  | p :: ps, t =>
    match p.size? t with
    | none => none
    | some n =>
      (take? ps (t.drop n)).map fun (fs, rest) =>
        (if (t.take n).isEmpty then fs else ⟨p.kind, t.take n⟩ :: fs, rest)

/-- What a pattern takes and what it leaves are the whole text. -/
theorem sources_take {ps : List Segment} {t rest : Text} {fs : List Fragment}
    (h : take? ps t = some (fs, rest)) : sources fs ++ rest = t := by
  induction ps generalizing t fs with
  | nil =>
    simp only [take?, Option.some.injEq, Prod.mk.injEq] at h
    obtain ⟨rfl, rfl⟩ := h
    rfl
  | cons p ps ih =>
    simp only [take?] at h
    split at h
    · simp at h
    · rename_i n _
      obtain ⟨⟨gs, r⟩, hg, he⟩ := Option.map_eq_some_iff.1 h
      simp only [Prod.mk.injEq] at he
      obtain ⟨hf, rfl⟩ := he
      have hrest := ih hg
      subst hf
      split
      · rename_i hn
        have htake : t.take n = [] := by simpa using hn
        rw [hrest]
        simpa [htake] using (List.take_append_drop n t)
      · simp only [sources, List.flatMap_cons, List.append_assoc] at hrest ⊢
        rw [hrest]
        exact List.take_append_drop n t

/-! ## Rules -/

/-- A rule: where it applies, its pattern, and how reading goes on after it. -/
structure Rule where
  /-- Only at the start of a line. -/
  atLineStart : Bool := false
  parts : List Segment
  next : FragmentMode

open Segment

def isPlain (c : Char) : Bool := !("\x7b<%#-_*\n".toList.contains c)

/-- The rules outside tags, in the order in which they are tried. -/
def outsideRules : List Rule :=
  [{ parts := [between .comment "<!--" "-->"], next := .outside },
    { parts := [between .comment "%%" "%%"], next := .outside },
    { parts := [exactly .punctuation "\x7b\x7b", blanks, exactly .keyword "#",
        exactly .keyword "if", run1 .text Text.isSpace, run1 .key Text.isWord, blanks,
        exactly .punctuation "\x7d\x7d"], next := .outside },
    { parts := [exactly .punctuation "\x7b\x7b", blanks, exactly .keyword "#",
        run1 .key Text.isWord, blanks, exactly .punctuation "\x7d\x7d"], next := .outside },
    { parts := [exactly .punctuation "\x7b\x7b", blanks, exactly .keyword "/",
        run1 .keyword Text.isWord, blanks, exactly .punctuation "\x7d\x7d"], next := .outside },
    { parts := [exactly .punctuation "\x7b\x7b", blanks, run1 .key Text.isWord], next := .inTag },
    { parts := [exactly .error "\x7b\x7b"], next := .outside },
    { atLineStart := true, parts := [thematicRule], next := .outside },
    { atLineStart := true, parts := [heading], next := .outside },
    { parts := [tag], next := .outside },
    { parts := [run1 .text isPlain], next := .outside },
    { parts := [exactly .text "\n"], next := .outside },
    { parts := [anyInLine .text], next := .outside }]

/-- The rules between a variable and the end of its tag. -/
def inTagRules : List Rule :=
  [{ parts := [run1 .text Text.isSpace], next := .inTag },
    { parts := [exactly .punctuation "|", blanks, run1 .filterName Text.isWord], next := .inTag },
    { parts := [exactly .punctuation ":", run .argument fun c => c ≠ '|' && c ≠ '\x7d'],
      next := .inTag },
    { parts := [exactly .punctuation "\x7d\x7d"], next := .outside },
    -- Line feeds are blanks, so that this rule, meant for tags without an end, never applies.
    { parts := [exactly .text "\n"], next := .outside },
    { parts := [anyInLine .error], next := .inTag }]

def rules : FragmentMode → List Rule
  | .outside => outsideRules
  | .inTag => inTagRules

/-- The first rule that applies and takes something. -/
def step? (lineStart : Bool) (t : Text) : List Rule → Option (List Fragment × Text × FragmentMode)
  | [] => none
  | r :: rs =>
    match if r.atLineStart && !lineStart then none else take? r.parts t with
    | none => step? lineStart t rs
    | some (fs, rest) => if fs.isEmpty then step? lineStart t rs else some (fs, rest, r.next)

theorem eq_of_step {lineStart : Bool} {t rest : Text} {rs : List Rule} {fs : List Fragment}
    {mode : FragmentMode} (h : step? lineStart t rs = some (fs, rest, mode)) :
    sources fs ++ rest = t := by
  induction rs with
  | nil => simp [step?] at h
  | cons r rs ih =>
    simp only [step?] at h
    split at h
    · exact ih h
    · rename_i gs s hm
      split at h
      · exact ih h
      · simp only [Option.some.injEq, Prod.mk.injEq] at h
        obtain ⟨rfl, rfl, _⟩ := h
        split at hm
        · simp at hm
        · exact sources_take hm

/-- Whether what was read last ends a line. -/
def endsLine (fs : List Fragment) : Bool := (sources fs).getLast? = some '\n'

/-- Fragments of a text, read on in a mode.  Where no rule makes a shorter text
of it, one code point is taken alone. -/
def scan (mode : FragmentMode) (lineStart : Bool) (t : Text) : List Fragment :=
  match t with
  | [] => []
  | c :: rest =>
    match step? lineStart (c :: rest) (rules mode) with
    | some (fs, after, next) =>
      if after.length < (c :: rest).length then fs ++ scan next (endsLine fs) after
      else ⟨.error, [c]⟩ :: scan mode (c = '\n') rest
    | none => ⟨.error, [c]⟩ :: scan mode (c = '\n') rest
termination_by t.length
decreasing_by
  all_goals simp only [List.length_cons] at *
  all_goals omega

/-- A source as it is shown: without a byte order mark, with line feeds for line
ends, without empty lines at its ends, and ending in one line feed. -/
def displayed (source : Text) : Text :=
  let t := Text.unifyLineEnds (match source with
    | '\ufeff' :: rest => rest
    | t => t)
  ((t.dropWhile (· = '\n')).reverse.dropWhile (· = '\n')).reverse ++ ['\n']

def ofSource (source : Text) : List Fragment := scan .outside true (displayed source)

end Fragment
end Marginalia
