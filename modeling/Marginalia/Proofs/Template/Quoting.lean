import Marginalia.Proofs.Text.Strip
import Marginalia.Template.Quoting

/-
Who quotes a note, found in one pass over a template.  A line is read from its start: first
its mark of a quotation, then the braces, the name and the end of a tag on the note.  What a
pass has found depends on nothing but where it stands, so that a template may be read part by
part.
-/
namespace Marginalia

/-- A letter of the name of the note. -/
inductive NoteLetter where
  | n
  | o
  | t
  | e
deriving DecidableEq, Repr

/-- The name behind this letter. -/
def NoteLetter.missing : NoteLetter → Text
  | .n => "ote".toList
  | .o => "te".toList
  | .t => "e".toList
  | .e => []

/-- Where a pass stands in a line. -/
inductive Pass where
  /-- Behind nothing but blanks. -/
  | blank
  /-- In a line that is no quotation. -/
  | plain
  /-- In a quotation, and in no tag on the note so far. -/
  | quoted
  | brace
  | braces
  /-- Behind two braces and blanks. -/
  | spaced
  /-- In the name of the note, behind this letter, or behind it and blanks. -/
  | name (upTo : NoteLetter)
  | found
deriving DecidableEq, Repr

namespace Pass

/-- Read a code point in a quotation that does not go on with a tag on the note. -/
def restart (c : Char) : Pass := if c = '{' then .brace else .quoted

/-- Read one more code point of a line. -/
def nextInLine : Pass → Char → Pass
  | .blank, c => if Text.isSpace c then .blank else if c = '>' then .quoted else .plain
  | .plain, _ => .plain
  | .quoted, c => restart c
  | .brace, c => if c = '{' then .braces else .quoted
  | .braces, c =>
    if Text.isSpace c then .spaced
    else if c = 'n' then .name .n
    else if c = '{' then .braces
    else .quoted
  | .spaced, c =>
    if Text.isSpace c then .spaced else if c = 'n' then .name .n else restart c
  | .name .n, c => if c = 'o' then .name .o else restart c
  | .name .o, c => if c = 't' then .name .t else restart c
  | .name .t, c => if c = 'e' then .name .e else restart c
  | .name .e, c =>
    if Text.isSpace c then .name .e
    else if c = '|' ∨ c = '}' then .found
    else restart c
  | .found, _ => .found

/-- Read one more code point; a line break starts another line. -/
def next : Pass → Char → Pass
  | .found, _ => .found
  | s, c => if Text.isLineBreak c then .blank else s.nextInLine c

/-- Read on over a text. -/
def through (s : Pass) (t : Text) : Pass := t.foldl next s

theorem through_cons (s : Pass) (c : Char) (t : Text) : s.through (c :: t) = (s.next c).through t := rfl

theorem through_append (s : Pass) (t u : Text) : s.through (t ++ u) = (s.through t).through u :=
  List.foldl_append

theorem through_found (t : Text) : found.through t = found := by
  induction t with
  | nil => rfl
  | cons c rest ih => exact ih

theorem next_of_isLineBreak {s : Pass} {c : Char} (hs : s ≠ .found) (hc : Text.isLineBreak c) :
    s.next c = .blank := by
  cases s with
  | found => exact absurd rfl hs
  | _ => exact if_pos hc

theorem next_of_inLine {c : Char} (hc : Text.isLineBreak c = false) (s : Pass) :
    s.next c = s.nextInLine c := by
  cases s with
  | found => rfl
  | _ => exact if_neg (by simp [hc])

/-- Two line breaks are as good as one. -/
theorem next_breaks {c d : Char} (hc : Text.isLineBreak c) (hd : Text.isLineBreak d) (s : Pass) :
    (s.next c).next d = s.next c := by
  by_cases hs : s = .found
  · rw [hs]
    rfl
  · rw [next_of_isLineBreak hs hc]
    exact next_of_isLineBreak nofun hd

/-! ## What the rest of a line has to show -/

/-- The end of the name in a tag on the note. -/
def endsName (t : Text) : Bool :=
  match t.dropWhile Text.isSpace with
  | c :: _ => c = '|' || c = '}'
  | [] => false

/-- The name of the note, behind two braces. -/
def startsName (t : Text) : Bool :=
  match t.dropWhile Text.isSpace with
  | 'n' :: 'o' :: 't' :: 'e' :: rest => endsName rest
  | _ => false

/-- The name goes on behind a letter of it. -/
def continues (l : NoteLetter) (t : Text) : Bool :=
  l.missing.isPrefixOf t && endsName (t.drop l.missing.length)

/-- What is left of a line still makes it a quotation with a tag on the note. -/
def shows : Pass → Text → Bool
  | .blank, t => Quoting.hasNoteTag t && Quoting.isQuotedLine t
  | .plain, _ => false
  | .quoted, t => Quoting.hasNoteTag t
  | .brace, t => Quoting.noteTagAt ('{' :: t) || Quoting.hasNoteTag t
  | .braces, t => startsName t || Quoting.noteTagAt ('{' :: t) || Quoting.hasNoteTag t
  | .spaced, t => startsName t || Quoting.hasNoteTag t
  | .name l, t => continues l t || Quoting.hasNoteTag t
  | .found, _ => true

section

variable {c : Char} {t : Text}

theorem endsName_of_isSpace (hc : Text.isSpace c) : endsName (c :: t) = endsName t := by
  unfold endsName
  rw [List.dropWhile_cons_of_pos hc]

theorem endsName_cons (hc : Text.isSpace c = false) :
    endsName (c :: t) = (c = '|' || c = '}') := by
  unfold endsName
  rw [List.dropWhile_cons_of_neg (by simp [hc])]

theorem startsName_of_isSpace (hc : Text.isSpace c) : startsName (c :: t) = startsName t := by
  unfold startsName
  rw [List.dropWhile_cons_of_pos hc]

theorem startsName_n :
    startsName ('n' :: t) = continues .n t := by
  unfold startsName continues NoteLetter.missing
  rw [List.dropWhile_cons_of_neg (by decide)]
  split
  · rename_i heq
    cases heq
    rfl
  · rename_i hnone
    have hstart : "ote".toList.isPrefixOf t = false := by
      rw [← Bool.not_eq_true, List.isPrefixOf_iff_prefix]
      intro h
      obtain ⟨rest, rfl⟩ := h
      exact hnone rest rfl
    rw [hstart]
    rfl

theorem startsName_cons (hc : Text.isSpace c = false) (hn : c ≠ 'n') :
    startsName (c :: t) = false := by
  unfold startsName
  rw [List.dropWhile_cons_of_neg (by simp [hc])]
  split
  · rename_i heq
    exact absurd (List.cons.inj heq).1 hn
  · rfl

theorem noteTagAt_cons (hc : c ≠ '{') : Quoting.noteTagAt (c :: t) = false := by
  unfold Quoting.noteTagAt
  split
  · rename_i heq
    exact absurd (List.cons.inj heq).1 hc
  · rfl

theorem noteTagAt_brace_cons (hc : c ≠ '{') : Quoting.noteTagAt ('{' :: c :: t) = false := by
  unfold Quoting.noteTagAt
  split
  · rename_i heq
    exact absurd (List.cons.inj (List.cons.inj heq).2).1 hc
  · rfl

theorem noteTagAt_braces : Quoting.noteTagAt ('{' :: '{' :: t) = startsName t := rfl

theorem hasNoteTag_cons (hc : c ≠ '{') : Quoting.hasNoteTag (c :: t) = Quoting.hasNoteTag t := by
  rw [Quoting.hasNoteTag, noteTagAt_cons hc]
  rfl

theorem isQuotedLine_of_isSpace (hc : Text.isSpace c) :
    Quoting.isQuotedLine (c :: t) = Quoting.isQuotedLine t := by
  unfold Quoting.isQuotedLine
  rw [List.dropWhile_cons_of_pos hc]

theorem isQuotedLine_cons (hc : Text.isSpace c = false) :
    Quoting.isQuotedLine (c :: t) = decide (c = '>') := by
  unfold Quoting.isQuotedLine
  rw [List.dropWhile_cons_of_neg (by simp [hc]), List.head?_cons]
  simp

theorem ne_brace_of_isSpace (hc : Text.isSpace c) : c ≠ '{' := by
  rintro rfl
  cases hc

end

theorem shows_nil (s : Pass) : s.shows [] = decide (s = .found) := by
  cases s with
  | name l =>
    cases l with
    | _ => rfl
  | _ => rfl

theorem shows_restart (c : Char) (t : Text) :
    (restart c).shows t = Quoting.hasNoteTag (c :: t) := by
  unfold restart
  by_cases hc : c = '{'
  · rw [if_pos hc, hc]
    rfl
  · rw [if_neg hc, hasNoteTag_cons hc]
    rfl

theorem shows_blank (c : Char) (t : Text) :
    (blank.nextInLine c).shows t = blank.shows (c :: t) := by
  rw [nextInLine, shows]
  by_cases hspace : Text.isSpace c
  · rw [if_pos hspace, hasNoteTag_cons (ne_brace_of_isSpace hspace),
      isQuotedLine_of_isSpace hspace]
    rfl
  · rw [if_neg hspace, isQuotedLine_cons (by simpa using hspace)]
    by_cases hmark : c = '>'
    · rw [if_pos hmark, hmark, hasNoteTag_cons (by decide)]
      simp [shows]
    · rw [if_neg hmark]
      simp [shows, hmark]

theorem shows_brace (c : Char) (t : Text) :
    (brace.nextInLine c).shows t = brace.shows (c :: t) := by
  rw [nextInLine, shows]
  by_cases hbrace : c = '{'
  · rw [if_pos hbrace, hbrace, noteTagAt_braces, Quoting.hasNoteTag, ← Bool.or_assoc]
    rfl
  · rw [if_neg hbrace, noteTagAt_brace_cons hbrace, hasNoteTag_cons hbrace]
    rfl

theorem shows_braces (c : Char) (t : Text) :
    (braces.nextInLine c).shows t = braces.shows (c :: t) := by
  rw [nextInLine, shows]
  by_cases hspace : Text.isSpace c
  · have hbrace := ne_brace_of_isSpace hspace
    rw [if_pos hspace, startsName_of_isSpace hspace, noteTagAt_brace_cons hbrace,
      hasNoteTag_cons hbrace, Bool.or_false]
    rfl
  · rw [if_neg hspace]
    by_cases hname : c = 'n'
    · rw [if_pos hname, hname, startsName_n, noteTagAt_brace_cons (by decide),
        hasNoteTag_cons (by decide), Bool.or_false]
      rfl
    · -- the second brace may be the first one of a tag
      rw [if_neg hname, startsName_cons (by simpa using hspace) hname, Bool.false_or]
      exact shows_brace c t

theorem shows_spaced (c : Char) (t : Text) :
    (spaced.nextInLine c).shows t = spaced.shows (c :: t) := by
  rw [nextInLine, shows]
  by_cases hspace : Text.isSpace c
  · rw [if_pos hspace, startsName_of_isSpace hspace,
      hasNoteTag_cons (ne_brace_of_isSpace hspace)]
    rfl
  · rw [if_neg hspace]
    by_cases hname : c = 'n'
    · rw [if_pos hname, hname, startsName_n, hasNoteTag_cons (by decide)]
      rfl
    · rw [if_neg hname, startsName_cons (by simpa using hspace) hname, shows_restart,
        Bool.false_or]

theorem shows_letter {l m : NoteLetter} {d : Char} (hl : l.missing = d :: m.missing)
    (hd : d ≠ '{') (c : Char) (t : Text) :
    (if c = d then name m else restart c).shows t = (name l).shows (c :: t) := by
  rw [shows, continues, hl]
  by_cases hc : c = d
  · rw [if_pos hc, hc, hasNoteTag_cons hd]
    simp [shows, continues]
  · rw [if_neg hc, shows_restart]
    simp [Ne.symm hc]

theorem shows_name_end (c : Char) (t : Text) :
    ((name .e).nextInLine c).shows t = (name .e).shows (c :: t) := by
  have hshows : ∀ u, (name .e).shows u = (endsName u || Quoting.hasNoteTag u) := fun _ => rfl
  rw [nextInLine, hshows]
  by_cases hspace : Text.isSpace c
  · rw [if_pos hspace, endsName_of_isSpace hspace, hasNoteTag_cons (ne_brace_of_isSpace hspace)]
    rfl
  · rw [if_neg hspace, endsName_cons (by simpa using hspace)]
    by_cases hend : c = '|' ∨ c = '}'
    · rw [if_pos hend]
      simp [shows, hend]
    · rw [if_neg hend, shows_restart]
      simp [hend]

/-- What a line has to show, it has to show behind its first code point. -/
theorem shows_next {c : Char} (hc : Text.isLineBreak c = false) (s : Pass) (t : Text) :
    (s.next c).shows t = s.shows (c :: t) := by
  rw [next_of_inLine hc]
  cases s with
  | blank => exact shows_blank c t
  | plain => rfl
  | quoted => exact shows_restart c t
  | brace => exact shows_brace c t
  | braces => exact shows_braces c t
  | spaced => exact shows_spaced c t
  | name l =>
    cases l with
    | n => exact shows_letter rfl (by decide) c t
    | o => exact shows_letter rfl (by decide) c t
    | t => exact shows_letter rfl (by decide) c t
    | e => exact shows_name_end c t
  | found => rfl

/-! ## Lines -/

/-- What is left of a line and the lines behind it: one of them is a quotation with a tag on
the note. -/
def showsIn (s : Pass) : List Text → Bool
  | [] => s = .found
  | line :: rest => s.shows line || rest.any blank.shows

theorem showsIn_blank (ls : List Text) : blank.showsIn ls = ls.any blank.shows := by
  cases ls with
  | nil => rfl
  | cons line rest => rfl

theorem showsIn_break {c : Char} (hc : Text.isLineBreak c) (s : Pass) (ls : List Text) :
    s.showsIn ([] :: ls) = (s.next c).showsIn ls := by
  rw [showsIn, shows_nil]
  by_cases hs : s = .found
  · rw [hs]
    cases ls with
    | nil => rfl
    | cons line rest => rfl
  · rw [next_of_isLineBreak hs hc, showsIn_blank]
    simp [hs]

/-- A pass finds what the lines show. -/
theorem through_eq_found (s : Pass) (t : Text) :
    decide (s.through t = .found) = s.showsIn (Text.lines t) := by
  fun_induction Text.lines t generalizing s with
  | case1 => rfl
  | case2 rest ih =>
    -- two code points make one break
    rw [through_cons, through_cons, next_breaks (by decide) (by decide), ih]
    exact (showsIn_break (by decide) s (Text.lines rest)).symm
  | case3 c rest hbreak hc ih =>
    rw [through_cons, ih, showsIn_break hc]
  | case4 c rest hbreak hc hlines ih =>
    rw [through_cons, ih, hlines, showsIn, showsIn, List.any_nil, Bool.or_false,
      ← shows_next (by simpa using hc), shows_nil]
  | case5 c rest hbreak hc l ls hlines ih =>
    rw [through_cons, ih, hlines, showsIn, showsIn, shows_next (by simpa using hc)]

end Pass

/-- The program leaves a note alone exactly if a pass over the template finds one that the
author quotes. -/
theorem Quoting.ofTemplate_eq_through (template : Text) :
    ofTemplate template = if Pass.blank.through template = .found then .manual else .auto := by
  have hshows : (Text.lines template).any (fun line => hasNoteTag line && isQuotedLine line) =
      decide (Pass.blank.through template = .found) := by
    rw [Pass.through_eq_found, Pass.showsIn_blank]
    rfl
  unfold ofTemplate
  rw [hshows]
  simp

end Marginalia
