import Marginalia.Proofs.Template.Canonical
import Marginalia.Proofs.Template.Origin
import Marginalia.Proofs.Template.Quoting
import Marginalia.Proofs.Text.Breaks

/-
Tags that leave the lines of a template as they are.  The canonical text of a tag has none of
the blanks around its parts and none of its empty parts.  As long as these hold no line break,
and nothing is lost that tells a tag on the note from another, a pass over the tag comes to the
same as a pass over its canonical text.
-/
namespace Marginalia

/-! ## Passes over parts of tags -/

namespace Pass

open Text (IsMargin breaks strip trimmed)

variable {s : Pass} {w f : Text}

/-- Behind a sign that is neither a blank nor a brace. -/
def IsSettled (s : Pass) : Prop := s = .plain ∨ s = .quoted ∨ s = .found

/-- Read the sign that ends a part of a tag. -/
def leave (s : Pass) : Pass := s.next '|'

theorem next_close (s : Pass) : s.next '}' = s.leave := by
  cases s with
  | name l =>
    cases l with
    | _ => rfl
  | _ => rfl

theorem isSettled_leave (s : Pass) : s.leave.IsSettled := by
  cases s with
  | name l =>
    cases l with
    | e => exact .inr (.inr rfl)
    | _ => exact .inr (.inl rfl)
  | blank => exact .inl rfl
  | plain => exact .inl rfl
  | found => exact .inr (.inr rfl)
  | _ => exact .inr (.inl rfl)

theorem IsSettled.leave_eq (h : s.IsSettled) : s.leave = s := by
  rcases h with rfl | rfl | rfl
  · rfl
  · rfl
  · rfl

theorem IsSettled.next_eq {c : Char} (h : s.IsSettled) (hline : Text.isLineBreak c = false)
    (hc : c ≠ '{') : s.next c = s := by
  rw [next_of_inLine hline]
  rcases h with rfl | rfl | rfl
  · rfl
  · exact if_neg hc
  · rfl

theorem IsSettled.through_margin (h : s.IsSettled) (hw : IsMargin w) : s.through w = s := by
  induction w with
  | nil => rfl
  | cons c rest ih =>
    obtain ⟨⟨hspace, hline⟩, hrest⟩ := List.forall_mem_cons.1 hw
    rw [through_cons, h.next_eq hline (ne_brace_of_isSpace hspace), ih hrest]

/-- Blanks at the end of a part do not count. -/
theorem leave_through_margin (s : Pass) (hw : IsMargin w) : (s.through w).leave = s.leave := by
  induction w generalizing s with
  | nil => rfl
  | cons c rest ih =>
    obtain ⟨⟨hspace, hline⟩, hrest⟩ := List.forall_mem_cons.1 hw
    have hrestart : restart c = .quoted := if_neg (ne_brace_of_isSpace hspace)
    have hother : ∀ d, Text.isSpace d = false → c ≠ d := by
      rintro d hd rfl
      rw [hspace] at hd
      cases hd
    rw [through_cons, ih _ hrest, next_of_inLine hline]
    cases s with
    | name l =>
      cases l with
      | n => rw [nextInLine, if_neg (hother 'o' (by decide)), hrestart]; rfl
      | o => rw [nextInLine, if_neg (hother 't' (by decide)), hrestart]; rfl
      | t => rw [nextInLine, if_neg (hother 'e' (by decide)), hrestart]; rfl
      | e => rw [nextInLine, if_pos hspace]
    | blank => rw [nextInLine, if_pos hspace]
    | plain => rfl
    | quoted => rw [nextInLine, hrestart]
    | brace => rw [nextInLine, if_neg (hother '{' (by decide))]; rfl
    | braces => rw [nextInLine, if_pos hspace]; rfl
    | spaced => rw [nextInLine, if_pos hspace]
    | found => rfl

/-- Read a part of a tag and the sign that ends it. -/
def past (s : Pass) (f : Text) : Pass := (s.through f).leave

theorem past_cons (s : Pass) (c : Char) (t : Text) : s.past (c :: t) = (s.next c).past t := rfl

theorem past_append (s : Pass) (t u : Text) : s.past (t ++ u) = (s.through t).past u := by
  rw [past, through_append]
  rfl

theorem isSettled_past (s : Pass) (f : Text) : (s.past f).IsSettled := isSettled_leave _

/-- Of the blanks around a part only those in front of it may count. -/
theorem exists_past_strip (hf : breaks f ≤ breaks (strip f)) :
    ∃ before, IsMargin before ∧ ∀ s : Pass, s.past f = (s.through before).past (strip f) := by
  obtain ⟨before, after, hbefore, hafter, heq⟩ := Text.exists_margins hf
  refine ⟨before, hbefore, fun s => ?_⟩
  calc s.past f = ((s.through (before ++ strip f)).through after).leave := by
        rw [← through_append, ← heq]
        rfl
    _ = s.past (before ++ strip f) := leave_through_margin _ hafter
    _ = (s.through before).past (strip f) := past_append s before (strip f)

theorem IsSettled.past_strip (h : s.IsSettled) (hf : breaks f ≤ breaks (strip f)) :
    s.past f = s.past (strip f) := by
  obtain ⟨before, hbefore, hpast⟩ := exists_past_strip hf
  rw [hpast, h.through_margin hbefore]

/-! ## Parts between bars -/

theorem past_join_cons (s : Pass) (f : Text) {fs : List Text} (h : fs ≠ []) :
    s.past (Text.join ['|'] (f :: fs)) = (s.past f).past (Text.join ['|'] fs) := by
  rw [Text.join_cons_of_ne_nil h, past_append]
  rfl

theorem past_join (s : Pass) {fs : List Text} (h : fs ≠ []) :
    s.past (Text.join ['|'] fs) = fs.foldl past s := by
  induction fs generalizing s with
  | nil => exact absurd rfl h
  | cons f rest ih =>
    cases rest with
    | nil => rfl
    | cons g rest =>
      rw [past_join_cons s f (List.cons_ne_nil g rest), ih _ (List.cons_ne_nil g rest)]
      rfl

/-- Behind the key, blanks around the parts and empty parts do not count. -/
theorem IsSettled.foldl_past_trimmed {fs : List Text} (h : s.IsSettled)
    (hfs : breaks (Text.join ['|'] fs) ≤ breaks (Text.join ['|'] (trimmed fs))) :
    fs.foldl past s = (trimmed fs).foldl past s := by
  induction fs generalizing s with
  | nil => rfl
  | cons f rest ih =>
    have hf := Text.breaks_strip_le f
    have hrest := Text.breaks_trimmed_le rest
    rw [Text.breaks_trimmed_cons, Text.breaks_join_cons] at hfs
    rw [List.foldl_cons, ih (isSettled_past s f) (by omega), h.past_strip (by omega),
      Text.trimmed_cons]
    split
    · rename_i hempty
      have hpast : s.past [] = s := h.leave_eq
      rw [hempty, hpast]
    · rfl

/-! ## Keys -/

section

variable {k : Text}

/-- Within a line, a text without two braces neither starts nor ends a tag on the note. -/
theorem past_quoted (houter : k.IsOuter) (hline : breaks k = 0) :
    quoted.past k = quoted ∧ (k.head? ≠ some '{' → brace.past k = quoted) := by
  induction k with
  | nil => exact ⟨rfl, fun _ => rfl⟩
  | cons c rest ih =>
    obtain ⟨hopen, hrest⟩ := Text.not_start_of_holds houter
    obtain ⟨hc, hline⟩ := Text.breaks_cons_eq_zero.1 hline
    obtain ⟨hquoted, hbrace⟩ := ih hrest hline
    rw [past_cons, past_cons, next_of_inLine hc, next_of_inLine hc]
    by_cases hstart : c = '{'
    · subst hstart
      refine ⟨hbrace fun hhead => ?_, fun hne => absurd rfl hne⟩
      obtain ⟨tail, rfl⟩ := List.head?_eq_some_iff.1 hhead
      simp [Token.tagOpen, List.isPrefixOf] at hopen
    · rw [nextInLine, nextInLine, restart, if_neg hstart, if_neg hstart]
      exact ⟨hquoted, fun _ => hquoted⟩

theorem past_plain (hline : breaks k = 0) : plain.past k = plain := by
  induction k with
  | nil => rfl
  | cons c rest ih =>
    obtain ⟨hc, hline⟩ := Text.breaks_cons_eq_zero.1 hline
    rw [past_cons, next_of_inLine hc]
    exact ih hline

theorem past_found (f : Text) : found.past f = found := by
  rw [past, through_found]
  rfl

theorem IsSettled.past_of_isOuter (h : s.IsSettled) (houter : k.IsOuter) (hline : breaks k = 0) :
    s.past k = s := by
  rcases h with rfl | rfl | rfl
  · exact past_plain hline
  · exact (past_quoted houter hline).1
  · exact past_found k

theorem past_of_isWord (h : ∀ c ∈ k, Text.isWord c) : quoted.past k = quoted := by
  refine (past_quoted (Text.holds_of_not_mem fun hmem => ?_) ?_).1
  · exact Text.ne_mark_of_isWord (h _ hmem) (by decide) rfl
  · rw [breaks, List.countP_eq_zero]
    intro c hc
    simp [Text.not_isLineBreak_of_isWord (h c hc)]

theorem restart_of_isWord {c : Char} (h : Text.isWord c) : restart c = quoted :=
  if_neg (Text.ne_mark_of_isWord h (by decide))

theorem past_name_end (h : ∀ c ∈ k, Text.isWord c) :
    (name .e).past k = if k = [] then found else quoted := by
  cases k with
  | nil => rfl
  | cons c rest =>
    obtain ⟨hc, hrest⟩ := List.forall_mem_cons.1 h
    have hspace := Text.not_isSpace_of_isWord hc
    have hend : ¬ (c = '|' ∨ c = '}') := by
      rw [not_or]
      exact ⟨Text.ne_mark_of_isWord hc (by decide), Text.ne_mark_of_isWord hc (by decide)⟩
    rw [past_cons, next_of_inLine (Text.not_isLineBreak_of_isWord hc), nextInLine,
      if_neg (by simp [hspace]), if_neg hend, restart_of_isWord hc, past_of_isWord hrest]
    rfl

/-- The name of the note goes on letter by letter. -/
theorem past_letter {l m : NoteLetter} {d : Char} (hl : l.missing = d :: m.missing)
    (hnext : ∀ c, (name l).nextInLine c = if c = d then name m else restart c)
    (hm : ∀ {k : Text}, (∀ c ∈ k, Text.isWord c) →
      (name m).past k = if k = m.missing then found else quoted)
    (h : ∀ c ∈ k, Text.isWord c) :
    (name l).past k = if k = l.missing then found else quoted := by
  rw [hl]
  cases k with
  | nil =>
    cases l with
    | e => cases hl
    | _ => rfl
  | cons c rest =>
    obtain ⟨hc, hrest⟩ := List.forall_mem_cons.1 h
    rw [past_cons, next_of_inLine (Text.not_isLineBreak_of_isWord hc), hnext]
    by_cases hd : c = d
    · rw [if_pos hd, hm hrest]
      simp [hd]
    · rw [if_neg hd, restart_of_isWord hc, past_of_isWord hrest]
      simp [hd]

/-- A key behind two braces, and blanks or none, is found if it is the note. -/
theorem past_braces (hs : s = braces ∨ s = spaced) (h : ∀ c ∈ k, Text.isWord c) :
    s.past k = if k = "note".toList then found else quoted := by
  have ht {k : Text} := past_letter (k := k) (l := .t) (m := .e) rfl (fun _ => rfl) past_name_end
  have ho {k : Text} := past_letter (k := k) (l := .o) (m := .t) rfl (fun _ => rfl) ht
  have hn {k : Text} := past_letter (k := k) (l := .n) (m := .o) rfl (fun _ => rfl) ho
  cases k with
  | nil =>
    rcases hs with rfl | rfl
    · rfl
    · rfl
  | cons c rest =>
    obtain ⟨hc, hrest⟩ := List.forall_mem_cons.1 h
    have hspace : ¬ Text.isSpace c := by simp [Text.not_isSpace_of_isWord hc]
    have hbrace : c ≠ '{' := Text.ne_mark_of_isWord hc (by decide)
    have hnext : s.nextInLine c = if c = 'n' then name .n else quoted := by
      rcases hs with rfl | rfl
      · rw [nextInLine, if_neg hspace, if_neg hbrace]
      · rw [nextInLine, if_neg hspace, restart_of_isWord hc]
    have hnote : "note".toList = 'n' :: NoteLetter.n.missing := rfl
    rw [past_cons, next_of_inLine (Text.not_isLineBreak_of_isWord hc), hnext, hnote]
    by_cases hname : c = 'n'
    · rw [if_pos hname, hn hrest]
      simp [hname]
    · rw [if_neg hname, past_of_isWord hrest]
      simp [hname]

end

/-! ## Tags -/

/-- Read the braces that open a tag. -/
def enter (s : Pass) : Pass := (s.next '{').next '{'

theorem enter_cases (s : Pass) : s.enter = braces ∨ s.enter.IsSettled := by
  cases s with
  | name l =>
    cases l with
    | _ => exact .inl rfl
  | blank => exact .inr (.inl rfl)
  | plain => exact .inr (.inl rfl)
  | found => exact .inr (.inr (.inr rfl))
  | _ => exact .inl rfl

theorem through_tag (s : Pass) (inner : Text) : s.through (Token.tag inner) = s.enter.past inner := by
  have hclose : ((s.enter.through inner).next '}').next '}' = s.enter.past inner := by
    rw [next_close, next_close]
    exact (isSettled_past s.enter inner).leave_eq
  rw [← hclose, Token.tag, through_append, through_append]
  rfl

theorem spaced_through_margin (hw : IsMargin w) : spaced.through w = spaced := by
  induction w with
  | nil => rfl
  | cons c rest ih =>
    obtain ⟨⟨hspace, hline⟩, hrest⟩ := List.forall_mem_cons.1 hw
    rw [through_cons, next_of_inLine hline, nextInLine, if_pos hspace, ih hrest]

/-- Blanks behind two braces. -/
theorem braces_through_margin (hw : IsMargin w) :
    braces.through w = braces ∨ braces.through w = spaced := by
  cases w with
  | nil => exact .inl rfl
  | cons c rest =>
    obtain ⟨⟨hspace, hline⟩, hrest⟩ := List.forall_mem_cons.1 hw
    rw [through_cons, next_of_inLine hline, nextInLine, if_pos hspace, spaced_through_margin hrest]
    exact .inr rfl

end Pass

namespace Tag

open Text (breaks strip IsOuter)

/-- A tag that leaves the lines as its canonical text does.  What is trimmed holds no line
break, no empty part stands in front of the note, and where a block is not closed by its key,
the key holds neither a line break nor braces. -/
def KeepsLines (inner : Text) : Tag → Prop
  | .opener key closing =>
    breaks inner = breaks key ∧ (closing = key ∨ key.IsOuter ∧ breaks key = 0)
  | .closer key => breaks inner = breaks key
  | .lookup key filters =>
    breaks inner = breaks (Text.join ['|'] (key :: filters)) ∧
      (key = "note".toList → ∀ f ∈ (Text.fields '|' inner).head?, ¬ Text.isBlank f)
  | .keyless | .malformed => True

instance (inner : Text) : (tag : Tag) → Decidable (tag.KeepsLines inner)
  | .opener _ _ => inferInstanceAs (Decidable (_ ∧ _))
  | .closer _ => inferInstanceAs (Decidable (_ = _))
  | .lookup _ _ => inferInstanceAs (Decidable (_ ∧ _))
  | .keyless | .malformed => inferInstanceAs (Decidable True)

end Tag

theorem Token.Opens.breaks_le {written key closing : Text} (h : Opens written key closing) :
    Text.breaks key ≤ Text.breaks written := by
  cases h with
  | plain _ _ => exact Nat.le_refl _
  | @conditional rest _ =>
    rw [Text.breaks_cons (by decide), Text.breaks_cons (by decide), Text.breaks_cons (by decide)]
    exact Text.breaks_strip_le rest

namespace Pass

open Text (IsMargin breaks strip trimmed)

variable {s : Pass} {inner key closing : Text} {filters : List Text}

/-- A key with blanks around it is read as the key alone. -/
theorem braces_past_strip {f : Text} (h : ∀ c ∈ strip f, Text.isWord c)
    (hf : breaks f ≤ breaks (strip f)) : braces.past f = braces.past (strip f) := by
  obtain ⟨before, hbefore, hpast⟩ := exists_past_strip hf
  rw [hpast, past_braces (braces_through_margin hbefore) h, past_braces (.inl rfl) h]

theorem foldl_past_lookup {fs : List Text} (hs : s = braces ∨ s.IsSettled) (hne : fs ≠ [])
    (hparts : trimmed fs = key :: filters) (hword : ∀ c ∈ key, Text.isWord c)
    (hbreaks : breaks (Text.join ['|'] fs) ≤ breaks (Text.join ['|'] (trimmed fs)))
    (hfirst : key = "note".toList → ∀ f ∈ fs.head?, ¬ Text.isBlank f) :
    fs.foldl past s = (key :: filters).foldl past s := by
  rcases hs with rfl | hs
  · obtain ⟨f, rest, rfl⟩ := List.exists_cons_of_ne_nil hne
    have hf := Text.breaks_strip_le f
    have hrest := Text.breaks_trimmed_le rest
    rw [Text.breaks_trimmed_cons, Text.breaks_join_cons] at hbreaks
    by_cases hempty : strip f = []
    · -- behind an empty part a key is found no more, so that it must not be the note
      have hnote : key ≠ "note".toList :=
        fun hkey => hfirst hkey f rfl (Text.isBlank_of_strip hempty)
      have hbehind : braces.past f = quoted := by
        rw [braces_past_strip (by rw [hempty]; nofun) (by omega), hempty]
        rfl
      have hsettled : quoted.IsSettled := .inr (.inl rfl)
      rw [Text.trimmed_cons, if_pos hempty] at hparts
      rw [List.foldl_cons, hbehind, hsettled.foldl_past_trimmed (by omega), hparts,
        List.foldl_cons, List.foldl_cons, past_of_isWord hword, past_braces (.inl rfl) hword,
        if_neg hnote]
    · rw [Text.trimmed_cons, if_neg hempty] at hparts
      obtain ⟨rfl, rfl⟩ := List.cons.inj hparts
      rw [List.foldl_cons, List.foldl_cons, braces_past_strip hword (by omega),
        (isSettled_past _ _).foldl_past_trimmed (by omega)]
  · rw [hs.foldl_past_trimmed hbreaks, hparts]

theorem past_lookup (hs : s = braces ∨ s.IsSettled)
    (hread : Tag.read inner = .lookup key filters)
    (h : (Tag.lookup key filters).KeepsLines inner) :
    s.past inner = s.past (Text.join ['|'] (key :: filters)) := by
  obtain ⟨hbreaks, hfirst⟩ := h
  have hparts : trimmed (Text.fields '|' inner) = key :: filters := Tag.says_of_read hread
  have hne := Text.fields_ne_nil '|' inner
  have hword : ∀ c ∈ key, Text.isWord c := by
    have hlookup : Token.IsLookup key [] := ⟨Tag.isIdentifier_of_read hread, nofun, nofun⟩
    exact fun c => hlookup.isWord_of_mem
  have hfields : s.past inner = (Text.fields '|' inner).foldl past s := by
    rw [← past_join s hne, Text.join_fields]
  rw [hfields, past_join s (List.cons_ne_nil key filters)]
  refine foldl_past_lookup hs hne hparts hword ?_ hfirst
  rw [hparts, Text.join_fields]
  exact Nat.le_of_eq hbreaks

/-- The sign of a block ends the search for a tag on the note. -/
theorem next_sign {sign : Char} (hsign : sign = '#' ∨ sign = '/')
    (hs : s = braces ∨ s = spaced) : s.next sign = quoted := by
  rcases hsign with rfl | rfl
  · rcases hs with rfl | rfl
    · rfl
    · rfl
  · rcases hs with rfl | rfl
    · rfl
    · rfl

theorem past_signed {sign : Char} {k : Text} (hs : s = braces ∨ s.IsSettled)
    (hsign : sign = '#' ∨ sign = '/') (hstrip : strip inner = sign :: k)
    (h : breaks inner ≤ breaks k) :
    (s.next sign).IsSettled ∧ s.past inner = (s.next sign).past k := by
  obtain ⟨hline, hbrace⟩ : Text.isLineBreak sign = false ∧ sign ≠ '{' := by
    rcases hsign with rfl | rfl
    · decide
    · decide
  obtain ⟨before, hbefore, hpast⟩ :=
    exists_past_strip (f := inner) (by rwa [hstrip, Text.breaks_cons hline])
  rw [hpast, hstrip, past_cons]
  rcases hs with rfl | hs
  · rw [next_sign hsign (.inl rfl), next_sign hsign (braces_through_margin hbefore)]
    exact ⟨.inr (.inl rfl), rfl⟩
  · rw [hs.through_margin hbefore, hs.next_eq hline hbrace]
    exact ⟨hs, rfl⟩

theorem past_opened {written : Text} (hs : s.IsSettled) (hopens : Token.Opens written key closing)
    (h : breaks written ≤ breaks key) : s.past written = s.past key := by
  cases hopens with
  | plain _ _ => rfl
  | @conditional rest _ =>
    have hif : s.through ['i', 'f', ' '] = s := by
      rcases hs with rfl | rfl | rfl
      · rfl
      · rfl
      · rfl
    have hrest : breaks rest ≤ breaks (strip rest) := by
      rwa [Text.breaks_cons (by decide), Text.breaks_cons (by decide),
        Text.breaks_cons (by decide)] at h
    calc s.past (['i', 'f', ' '] ++ rest) = s.past rest := by rw [past_append, hif]
      _ = s.past (strip rest) := hs.past_strip hrest

theorem through_lookup (s : Pass) (hread : Tag.read inner = .lookup key filters)
    (h : (Tag.lookup key filters).KeepsLines inner) :
    s.through (Token.tag inner) = s.through (Token.lookup key filters).canonical := by
  rw [Token.canonical, through_tag, through_tag]
  exact past_lookup s.enter_cases hread h

theorem through_opener (s : Pass) (hread : Tag.read inner = .opener key closing)
    (h : (Tag.opener key closing).KeepsLines inner) :
    s.through (Token.tag inner) = s.through (Token.tag ('#' :: key)) := by
  obtain ⟨k, hstrip, hopens⟩ := Tag.says_of_read hread
  have hbreaks : breaks inner = breaks key := h.1
  have hk : breaks k ≤ breaks inner := by
    have := Text.breaks_strip_le inner
    rwa [hstrip, Text.breaks_cons (by decide)] at this
  have hwritten := Text.breaks_strip_le k
  have hkey := hopens.breaks_le
  obtain ⟨hsettled, hpast⟩ := past_signed s.enter_cases (.inl rfl) hstrip (by omega)
  rw [through_tag, through_tag, hpast, hsettled.past_strip (by omega),
    past_opened hsettled hopens (by omega)]
  rfl

theorem through_closer (s : Pass) (hread : Tag.read inner = .closer closing)
    (h : (Tag.closer closing).KeepsLines inner)
    (hkey : closing = key ∨ closing = "if".toList ∧ key.IsOuter ∧ breaks key = 0) :
    s.through (Token.tag inner) = s.through (Token.tag ('/' :: key)) := by
  obtain ⟨k, hstrip, hclosing⟩ := Tag.says_of_read hread
  have hbreaks : breaks inner = breaks closing := h
  have hk : breaks k ≤ breaks inner := by
    have := Text.breaks_strip_le inner
    rwa [hstrip, Text.breaks_cons (by decide)] at this
  have hwritten := Text.breaks_strip_le k
  rw [hclosing] at hwritten
  obtain ⟨hsettled, hpast⟩ := past_signed s.enter_cases (.inr rfl) hstrip (by omega)
  have hsame : (s.enter.next '/').past closing = (s.enter.next '/').past key := by
    rcases hkey with rfl | ⟨rfl, houter, hline⟩
    · rfl
    · rw [hsettled.past_of_isOuter houter hline]
      exact hsettled.past_of_isOuter (by decide) (by decide)
  rw [through_tag, through_tag, hpast, hsettled.past_strip (by rw [hclosing]; omega), hclosing, hsame]
  rfl

end Pass

/-! ## Templates -/

namespace Piece

/-- A piece with a tag that leaves the lines as they are, or without a tag. -/
def KeepsLines : Piece → Prop
  | .tag inner => (Tag.read inner).KeepsLines inner
  | .text _ | .dangling _ => True

instance : (p : Piece) → Decidable p.KeepsLines
  | .tag inner => inferInstanceAs (Decidable ((Tag.read inner).KeepsLines inner))
  | .text _ | .dangling _ => inferInstanceAs (Decidable True)

/-- The pieces of a template whose tags leave its lines as they are. -/
def KeepLines (ps : List Piece) : Prop := ∀ p ∈ ps, p.KeepsLines

instance (ps : List Piece) : Decidable (KeepLines ps) :=
  inferInstanceAs (Decidable (∀ p ∈ ps, p.KeepsLines))

theorem KeepLines.of_append {ps qs : List Piece} (h : KeepLines (ps ++ qs)) :
    KeepLines ps ∧ KeepLines qs :=
  List.forall_mem_append.1 h

end Piece

namespace Token

/-- A block is closed by its key, or by `if`. -/
theorem Opens.closing_eq {written key closing : Text} (h : Opens written key closing) :
    closing = key ∨ closing = "if".toList := by
  cases h with
  | plain _ _ => exact .inl rfl
  | conditional _ => exact .inr rfl

/-- A pass over a template comes to the same as a pass over the canonical text of its tokens. -/
theorem ReadFrom.through_sources {clean : Bool} {ts : List Token} {ps : List Piece}
    (h : ReadFrom clean ts ps) (hlines : Piece.KeepLines ps) (s : Pass) :
    s.through (Piece.sources ps) = s.through (canonicals ts) := by
  induction h generalizing s with
  | nil => rfl
  | text t _ ih =>
    obtain ⟨_, hrest⟩ := List.forall_mem_cons.1 hlines
    rw [Piece.sources, canonicals, Pass.through_append, Pass.through_append, ih hrest]
    rfl
  | recovered lost _ _ ih =>
    rw [Piece.sources_append, canonicals, Pass.through_append, Pass.through_append,
      ih hlines.of_append.2]
    rfl
  | @lookup rest ps inner key filters hread _ ih =>
    obtain ⟨htag, hrest⟩ := List.forall_mem_cons.1 hlines
    rw [Piece.KeepsLines, hread] at htag
    rw [Piece.sources, canonicals, Pass.through_append, Pass.through_append, ih hrest]
    exact congrArg (Pass.through · _) (Pass.through_lookup s hread htag)
  | @block body rest inside ps opener closer key closing hopener _ hcloser _ ihbody ih =>
    obtain ⟨hfirst, hbehind⟩ := List.forall_mem_cons.1 hlines
    obtain ⟨hinside, hbehind⟩ := Piece.KeepLines.of_append hbehind
    obtain ⟨hlast, hrest⟩ := List.forall_mem_cons.1 hbehind
    rw [Piece.KeepsLines, hopener] at hfirst
    rw [Piece.KeepsLines, hcloser] at hlast
    obtain ⟨_, _, hopens⟩ := Tag.says_of_read hopener
    have hkey : closing = key ∨ closing = "if".toList ∧ key.IsOuter ∧ Text.breaks key = 0 := by
      rcases hfirst.2 with heq | houter
      · exact .inl heq
      · exact hopens.closing_eq.imp_right fun hif => ⟨hif, houter⟩
    rw [Piece.sources, Piece.sources_append, Piece.sources, canonicals, canonical]
    simp only [Pass.through_append, Piece.source]
    rw [Pass.through_opener s hopener hfirst, ihbody hinside, Pass.through_closer _ hcloser hlast hkey,
      ih hrest]

end Token

/-- Where the tags keep their lines, who quotes a note is seen from the tokens. -/
theorem Quoting.ofTemplate_eq_canonicals (limit : Int) {template : Text}
    (h : Piece.KeepLines (Piece.ofTemplate template)) :
    ofTemplate template = ofTemplate (Token.canonicals (tokenize limit template)) := by
  have hpass := (Parsed.readFrom_ofTemplate limit template).through_sources h .blank
  rw [Piece.sources_ofTemplate] at hpass
  rw [ofTemplate_eq_through, ofTemplate_eq_through, hpass]
  rfl

end Marginalia
