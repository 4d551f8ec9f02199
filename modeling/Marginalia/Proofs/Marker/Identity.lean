import Marginalia.Proofs.Marker.Payload
import Marginalia.Proofs.Text.Case
import Marginalia.Proofs.Text.Utf8
import Marginalia.Proofs.Text.Words

/-
What an identifier is computed from: a page, two positions and the folded words of text and
note, with bars between them.  How text and note are spaced does not show in it.  Annotations
that differ in it are told apart, as far as the bars in their fields are equally many and an
absent position is not spelled out in the other annotation.
-/
namespace Marginalia
namespace Marker

variable {a b : Annotation} {v : Value} {s t p : Text}

/-! ## Folded texts -/

/-- The texts of two fields have the same words; an absent one has none. -/
def SameWords (v w : Value) : Prop :=
  Text.words <$> v.orEmpty.shown = Text.words <$> w.orEmpty.shown

instance (v w : Value) : Decidable (SameWords v w) := inferInstanceAs (Decidable (_ = _))

theorem foldedText_eq (v : Value) : foldedText v =
    (fun ws => Text.lower (Text.join [' '] ws)) <$> (Text.words <$> v.orEmpty.shown) := by
  unfold foldedText
  cases v.orEmpty.shown with
  | error e => rfl
  | ok t =>
    show Except.ok (Text.lower (Text.normalizeSpace t)) = .ok (Text.lower (Text.join [' '] _))
    rw [Text.normalizeSpace_eq]

theorem SameWords.foldedText_eq {v w : Value} (h : SameWords v w) :
    foldedText v = foldedText w := by
  rw [Marker.foldedText_eq, Marker.foldedText_eq, h]

theorem not_mem_normalizeSpace (t : Text) : '\r' ∉ Text.normalizeSpace t := fun h =>
  absurd (Text.eq_space_of_mem_collapseRuns h (by decide)) (by decide)

theorem not_mem_foldedText (h : foldedText v = .ok t) : '\r' ∉ t := by
  obtain ⟨s, _, h⟩ := exists_of_bind_eq_ok h
  cases h
  exact fun hmem => not_mem_normalizeSpace s (Text.mem_of_mem_lower hmem (by decide))

/-! ## Parts -/

/-- The texts that go into an identifier. -/
structure Parts where
  page : Text
  pos0 : Text
  pos1 : Text
  text : Text
  note : Text

def Parts.joined (x : Parts) : Text :=
  x.page ++ '|' :: (x.pos0 ++ '|' :: (x.pos1 ++ '|' :: (x.text ++ '|' :: x.note)))

/-- The pieces between bars, from the page on. -/
def Parts.pieces (x : Parts) : List Text :=
  Text.fields '|' x.pos0 ++ (Text.fields '|' x.pos1 ++
    (Text.fields '|' x.text ++ Text.fields '|' x.note))

theorem join_parts (page pos0 pos1 text note : Text) :
    Text.join ['|'] [page, pos0, pos1, text, note] =
      Parts.joined ⟨page, pos0, pos1, text, note⟩ := by
  simp [Parts.joined, Text.join]

structure Parts.Of (x : Parts) (a : Annotation) : Prop where
  page : Value.wholeText a.pageno = .ok x.page
  pos0 : fieldText a.pos0 = .ok x.pos0
  pos1 : fieldText a.pos1 = .ok x.pos1
  text : foldedText a.text = .ok x.text
  note : foldedText a.note = .ok x.note

theorem Parts.Of.identity_eq {x : Parts} (h : x.Of a) :
    identity a = .ok (Text.unifyLineEnds x.joined) := by
  unfold identity
  rw [h.text, h.note, h.page, h.pos0, h.pos1]
  show Except.ok (Text.unifyLineEnds (Text.join ['|'] _)) = _
  rw [join_parts]

theorem exists_parts (h : identity a = .ok p) :
    ∃ x : Parts, x.Of a ∧ p = Text.unifyLineEnds x.joined := by
  have hid := h
  obtain ⟨text, htext, h⟩ := exists_of_bind_eq_ok h
  obtain ⟨note, hnote, h⟩ := exists_of_bind_eq_ok h
  obtain ⟨page, hpage, h⟩ := exists_of_bind_eq_ok h
  obtain ⟨pos0, hpos0, h⟩ := exists_of_bind_eq_ok h
  obtain ⟨pos1, hpos1, h⟩ := exists_of_bind_eq_ok h
  have hparts : Parts.Of ⟨page, pos0, pos1, text, note⟩ a := ⟨hpage, hpos0, hpos1, htext, hnote⟩
  rw [hparts.identity_eq, Except.ok.injEq] at hid
  exact ⟨_, hparts, hid.symm⟩

theorem wholeText_inj {m n : Int} (h : Value.wholeText m = .ok t) (h' : Value.wholeText n = .ok t) :
    m = n := by
  obtain ⟨_, hm⟩ := Value.wholeText_eq_ok.1 h
  obtain ⟨_, hn⟩ := Value.wholeText_eq_ok.1 h'
  exact Value.eq_of_toList_toString (hm.symm.trans hn)

/-! ## Telling annotations apart -/

/-- What is left of positions, text and note when they are taken apart at their bars. -/
def pieces (a : Annotation) : Except Fault (List Text) := do
  let pos0 ← fieldText a.pos0
  let pos1 ← fieldText a.pos1
  let text ← foldedText a.text
  let note ← foldedText a.note
  return Text.fields '|' pos0 ++ (Text.fields '|' pos1 ++
    (Text.fields '|' text ++ Text.fields '|' note))

theorem Parts.Of.pieces_eq {x : Parts} (h : x.Of a) : Marker.pieces a = .ok x.pieces := by
  unfold Marker.pieces
  rw [h.pos0, h.pos1, h.text, h.note]
  rfl

/-- Texts with equally many bars, or none that can be made. -/
def SameBars (s t : Except Fault Text) : Prop := (·.count '|') <$> s = (·.count '|') <$> t

instance (s t : Except Fault Text) : Decidable (SameBars s t) :=
  inferInstanceAs (Decidable (_ = _))

/-- The word that stands for an absent position. -/
def absentWord : Text := "undefined".toList

end Marker

/-- A position that is absent, or a text with its line ends unified. -/
def Value.IsPlace (v : Value) : Prop := v = .null ∨ ∃ t, v = .text t ∧ '\r' ∉ t

/-- One position is absent, and the other is the word that stands for it. -/
def Value.SpellsOut (v w : Value) : Prop := v = .null ∧ w = .text Marker.absentWord

/-- Positions that are places, and texts. -/
structure Annotation.IsPlain (a : Annotation) : Prop where
  pos0 : a.pos0.IsPlace
  pos1 : a.pos1.IsPlace
  worded : a.IsWorded

/-- Annotations whose fields are not taken for one another where they are joined. -/
structure Annotation.KeepApart (a b : Annotation) : Prop where
  bars0 : Marker.SameBars (Marker.fieldText a.pos0) (Marker.fieldText b.pos0)
  bars1 : Marker.SameBars (Marker.fieldText a.pos1) (Marker.fieldText b.pos1)
  barsText : Marker.SameBars (Marker.foldedText a.text) (Marker.foldedText b.text)
  absent0 : ¬ a.pos0.SpellsOut b.pos0 ∧ ¬ b.pos0.SpellsOut a.pos0
  absent1 : ¬ a.pos1.SpellsOut b.pos1 ∧ ¬ b.pos1.SpellsOut a.pos1

namespace Marker

theorem SameBars.count_eq (h : SameBars (.ok s) (.ok t)) : s.count '|' = t.count '|' :=
  Except.ok.inj h

theorem exists_fieldText_place (h : v.IsPlace) : ∃ t, fieldText v = .ok t ∧ '\r' ∉ t := by
  obtain rfl | ⟨t, rfl, ht⟩ := h
  · exact ⟨_, rfl, by decide⟩
  · exact ⟨t, rfl, ht⟩

theorem eq_of_fieldText {w : Value} (hv : v.IsPlace) (hw : w.IsPlace)
    (habsent : ¬ v.SpellsOut w ∧ ¬ w.SpellsOut v) (h : fieldText v = fieldText w) : v = w := by
  obtain rfl | ⟨s, rfl, _⟩ := hv <;> obtain rfl | ⟨t, rfl, _⟩ := hw
  · rfl
  · cases h
    exact absurd ⟨rfl, rfl⟩ habsent.1
  · cases h
    exact absurd ⟨rfl, rfl⟩ habsent.2
  · cases h
    rfl

/-- In the parts of a plain annotation there is no carriage return. -/
theorem Parts.Of.unified {x : Parts} (h : x.Of a) (ha : a.IsPlain) :
    Text.unifyLineEnds x.joined = x.joined := by
  obtain ⟨pos0, hpos0, hplace0⟩ := exists_fieldText_place ha.pos0
  obtain ⟨pos1, hpos1, hplace1⟩ := exists_fieldText_place ha.pos1
  obtain rfl : x.pos0 = pos0 := Except.ok.inj (h.pos0.symm.trans hpos0)
  obtain rfl : x.pos1 = pos1 := Except.ok.inj (h.pos1.symm.trans hpos1)
  have hpage : '\r' ∉ x.page := Value.not_mem_wholeText h.page (by decide) (by decide)
  refine Text.unifyLineEnds_of_not_mem ?_
  simp [Parts.joined, hpage, hplace0, hplace1, not_mem_foldedText h.text,
    not_mem_foldedText h.note]

theorem Parts.fields_joined {x : Parts} (h : '|' ∉ x.page) :
    Text.fields '|' x.joined = x.page :: x.pieces := by
  unfold Parts.joined Parts.pieces
  rw [Text.fields_append_sep h, Text.fields_append, Text.fields_append, Text.fields_append]

theorem Parts.joined_eq_iff {x y : Parts} (hx : '|' ∉ x.page) (hy : '|' ∉ y.page) :
    x.joined = y.joined ↔ x.page = y.page ∧ x.pieces = y.pieces := by
  rw [← (Text.fields_injective '|').eq_iff, Parts.fields_joined hx, Parts.fields_joined hy,
    List.cons.injEq]

/-- The pieces come together to the parts again when as many bars are in each. -/
theorem Parts.eq_of_pieces {x y : Parts} (hpage : x.page = y.page) (h : x.pieces = y.pieces)
    (hbars0 : x.pos0.count '|' = y.pos0.count '|') (hbars1 : x.pos1.count '|' = y.pos1.count '|')
    (hbarsText : x.text.count '|' = y.text.count '|') : x = y := by
  have hlength : ∀ {s t : Text}, s.count '|' = t.count '|' →
      (Text.fields '|' s).length = (Text.fields '|' t).length := by
    intro s t hcount
    rw [Text.length_fields, Text.length_fields, hcount]
  have hfields := Text.fields_injective '|'
  obtain ⟨hpos0, h⟩ := List.append_inj h (hlength hbars0)
  obtain ⟨hpos1, h⟩ := List.append_inj h (hlength hbars1)
  obtain ⟨htext, hnote⟩ := List.append_inj h (hlength hbarsText)
  cases x
  cases y
  cases hpage
  cases hfields hpos0
  cases hfields hpos1
  cases hfields htext
  cases hfields hnote
  rfl

/-- The identity of a plain annotation can be computed exactly when its page can be written. -/
theorem exists_identity_iff (ha : a.IsPlain) :
    (∃ p, identity a = .ok p) ↔ Value.IsShort a.pageno := by
  constructor
  · rintro ⟨p, hp⟩
    obtain ⟨x, hx, _⟩ := exists_parts hp
    exact (Value.wholeText_eq_ok.1 hx.page).1
  · intro hpage
    obtain ⟨page, hpage⟩ := Value.exists_wholeText hpage
    obtain ⟨pos0, hpos0, _⟩ := exists_fieldText_place ha.pos0
    obtain ⟨pos1, hpos1, _⟩ := exists_fieldText_place ha.pos1
    obtain ⟨text, htext⟩ := exists_foldedText ha.worded.1.isData
    obtain ⟨note, hnote⟩ := exists_foldedText ha.worded.2.isData
    have hparts : Parts.Of ⟨page, pos0, pos1, text, note⟩ a :=
      ⟨hpage, hpos0, hpos1, htext, hnote⟩
    exact ⟨_, hparts.identity_eq⟩

/-- The identities of plain annotations are the same exactly when their pages are and the pieces
between their bars; and where fields are not taken for one another, exactly when their pages, their
positions and the words of text and note are. -/
theorem identity_tells_apart (ha : a.IsPlain) (hb : b.IsPlain) :
    ((∃ p, identity a = .ok p) ↔ Value.IsShort a.pageno) ∧
      ∀ p q, identity a = .ok p → identity b = .ok q →
        (p = q ↔ a.pageno = b.pageno ∧ pieces a = pieces b) ∧
        (a.KeepApart b → (p = q ↔ a.pageno = b.pageno ∧ a.pos0 = b.pos0 ∧ a.pos1 = b.pos1 ∧
          foldedText a.text = foldedText b.text ∧ foldedText a.note = foldedText b.note)) := by
  refine ⟨exists_identity_iff ha, fun p q hp hq => ?_⟩
  obtain ⟨x, hx, rfl⟩ := exists_parts hp
  obtain ⟨y, hy, rfl⟩ := exists_parts hq
  have hbar : ∀ {n t}, Value.wholeText n = .ok t → '|' ∉ t := fun h =>
    Value.not_mem_wholeText h (by decide) (by decide)
  have hpage : x.page = y.page ↔ a.pageno = b.pageno :=
    ⟨fun h => wholeText_inj hx.page (h ▸ hy.page),
      fun h => Except.ok.inj (hx.page.symm.trans (h ▸ hy.page))⟩
  rw [hx.unified ha, hy.unified hb, Parts.joined_eq_iff (hbar hx.page) (hbar hy.page),
    hx.pieces_eq, hy.pieces_eq, Except.ok.injEq, hpage]
  refine ⟨Iff.rfl, fun happart => ?_⟩
  have hbars0 := happart.bars0
  have hbars1 := happart.bars1
  have hbarsText := happart.barsText
  rw [hx.pos0, hy.pos0] at hbars0
  rw [hx.pos1, hy.pos1] at hbars1
  rw [hx.text, hy.text] at hbarsText
  constructor
  · rintro ⟨hpages, hpieces⟩
    obtain rfl := Parts.eq_of_pieces (hpage.2 hpages) hpieces hbars0.count_eq hbars1.count_eq
      hbarsText.count_eq
    exact ⟨hpages,
      eq_of_fieldText ha.pos0 hb.pos0 happart.absent0 (hx.pos0.trans hy.pos0.symm),
      eq_of_fieldText ha.pos1 hb.pos1 happart.absent1 (hx.pos1.trans hy.pos1.symm),
      hx.text.trans hy.text.symm, hx.note.trans hy.note.symm⟩
  · rintro ⟨hpages, hpos0, hpos1, htext, hnote⟩
    have hpieces : pieces a = pieces b := by
      unfold pieces
      rw [hpos0, hpos1, htext, hnote]
    rw [hx.pieces_eq, hy.pieces_eq, Except.ok.injEq] at hpieces
    exact ⟨hpages, hpieces⟩

/-- Two annotations of one passage, of which only the first has a second position. -/
def placedTwice : Annotation :=
  { pageno := 3, pos0 := .text "1|2".toList, pos1 := .text "x".toList,
    text := .text " Two\tWORDS".toList }

def placedOnce : Annotation :=
  { pageno := 3, pos0 := .text "1|2".toList, text := .text "two words ".toList }

theorem identity_tells_position : placedTwice.IsPlain ∧ placedOnce.IsPlain ∧
    placedTwice.KeepApart placedOnce ∧ ∃ p q, identity placedTwice = .ok p ∧
      identity placedOnce = .ok q ∧ p ≠ q := by
  have htwice : placedTwice.IsPlain :=
    ⟨.inr ⟨_, rfl, by decide⟩, .inr ⟨_, rfl, by decide⟩, .inr ⟨_, rfl⟩, .inl rfl⟩
  have honce : placedOnce.IsPlain :=
    ⟨.inr ⟨_, rfl, by decide⟩, .inl rfl, .inr ⟨_, rfl⟩, .inl rfl⟩
  have hword : ¬ placedOnce.pos1.SpellsOut placedTwice.pos1 :=
    fun h => absurd (Value.text.inj h.2) (by decide)
  have hapart : placedTwice.KeepApart placedOnce :=
    ⟨by decide, by decide, by decide +kernel, ⟨nofun, nofun⟩, ⟨nofun, hword⟩⟩
  have hp : identity placedTwice = .ok "3|1|2|x|two words|".toList := by decide +kernel
  have hq : identity placedOnce = .ok "3|1|2|undefined|two words|".toList := by decide +kernel
  have hiff := ((identity_tells_apart htwice honce).2 _ _ hp hq).2 hapart
  exact ⟨htwice, honce, hapart, _, _, hp, hq, fun heq => nomatch (hiff.1 heq).2.2.1⟩

/-! ### Annotations that are confused -/

def unplaced : Annotation := { pageno := 1 }

def spelledOut : Annotation := { pageno := 1, pos0 := .text absentWord }

def brokenEarly : Annotation :=
  { pageno := 1, pos0 := .text "a".toList, pos1 := .text "b|c".toList }

def brokenLate : Annotation :=
  { pageno := 1, pos0 := .text "a|b".toList, pos1 := .text "c".toList }

/-- An absent position is taken for the word that stands for it, and a bar in a position for the
one that ends it. -/
theorem identity_confuses_positions :
    ((unplaced.IsPlain ∧ spelledOut.IsPlain) ∧ unplaced.pos0 ≠ spelledOut.pos0 ∧
      identity unplaced = .ok "1|undefined|undefined||".toList ∧
      identity spelledOut = .ok "1|undefined|undefined||".toList) ∧
    (brokenEarly.IsPlain ∧ brokenLate.IsPlain) ∧ brokenEarly.pos0 ≠ brokenLate.pos0 ∧
      identity brokenEarly = .ok "1|a|b|c||".toList ∧
      identity brokenLate = .ok "1|a|b|c||".toList := by
  have hplace : ∀ {t : Text}, '\r' ∉ t → Value.IsPlace (.text t) := fun h => .inr ⟨_, rfl, h⟩
  have hunplaced : unplaced.IsPlain := ⟨.inl rfl, .inl rfl, .inr ⟨_, rfl⟩, .inl rfl⟩
  have hspelled : spelledOut.IsPlain := ⟨hplace (by decide), .inl rfl, .inr ⟨_, rfl⟩, .inl rfl⟩
  have hearly : brokenEarly.IsPlain :=
    ⟨hplace (by decide), hplace (by decide), .inr ⟨_, rfl⟩, .inl rfl⟩
  have hlate : brokenLate.IsPlain :=
    ⟨hplace (by decide), hplace (by decide), .inr ⟨_, rfl⟩, .inl rfl⟩
  exact ⟨⟨⟨hunplaced, hspelled⟩, nofun, by decide +kernel, by decide +kernel⟩, ⟨hearly, hlate⟩,
    fun h => absurd (Value.text.inj h) (by decide), by decide +kernel, by decide +kernel⟩

/-! ## Spacing -/

/-- Positions that are the same up to their line ends. -/
def SameLines (v w : Value) : Prop :=
  Text.unifyLineEnds <$> fieldText v = Text.unifyLineEnds <$> fieldText w

instance (v w : Value) : Decidable (SameLines v w) := inferInstanceAs (Decidable (_ = _))

theorem unifyLineEnds_joined (x : Parts) : Text.unifyLineEnds x.joined =
    Parts.joined ⟨Text.unifyLineEnds x.page, Text.unifyLineEnds x.pos0, Text.unifyLineEnds x.pos1,
      Text.unifyLineEnds x.text, Text.unifyLineEnds x.note⟩ := by
  have hbar : ∀ s t : Text, Text.unifyLineEnds (s ++ '|' :: t) =
      Text.unifyLineEnds s ++ '|' :: Text.unifyLineEnds t :=
    Text.unifyLineEnds_append (by decide) (by decide)
  unfold Parts.joined
  rw [hbar, hbar, hbar, hbar]

/-- Line ends may be unified position by position. -/
theorem identity_unified (a : Annotation) : identity a = (do
    let text ← foldedText a.text
    let note ← foldedText a.note
    let page ← Value.wholeText a.pageno
    let pos0 ← Text.unifyLineEnds <$> fieldText a.pos0
    let pos1 ← Text.unifyLineEnds <$> fieldText a.pos1
    return Text.unifyLineEnds (Parts.joined ⟨page, pos0, pos1, text, note⟩)) := by
  refine bind_congr fun text => bind_congr fun note => bind_congr fun page => ?_
  cases fieldText a.pos0 with
  | error e => rfl
  | ok pos0 =>
    cases fieldText a.pos1 with
    | error e => rfl
    | ok pos1 =>
      show Except.ok (Text.unifyLineEnds (Text.join ['|'] _)) = .ok (Text.unifyLineEnds _)
      rw [join_parts, unifyLineEnds_joined, unifyLineEnds_joined,
        Text.unifyLineEnds_unifyLineEnds, Text.unifyLineEnds_unifyLineEnds]

/-- How text and note are spaced, and how lines end in positions, does not show in an identifier:
what a text comes to are its words, with single spaces between them. -/
theorem contentId_of_reflow (hpage : a.pageno = b.pageno) (hpos0 : SameLines a.pos0 b.pos0)
    (hpos1 : SameLines a.pos1 b.pos1) (htext : SameWords a.text b.text)
    (hnote : SameWords a.note b.note) :
    contentId a = contentId b ∧ ∀ t, Text.normalizeSpace t = Text.join [' '] (Text.words t) := by
  have hidentity : identity a = identity b := by
    rw [identity_unified, identity_unified, htext.foldedText_eq, hnote.foldedText_eq, hpage, hpos0,
      hpos1]
  refine ⟨?_, Text.normalizeSpace_eq⟩
  unfold contentId
  rw [hidentity]

/-- One passage as it is read from a page and as it is typed. -/
def passageOnPage : Annotation :=
  { pageno := 3, pos0 := .text "n\r\n1".toList, text := .text " Two\twords\r\n".toList }

def passageTyped : Annotation :=
  { pageno := 3, pos0 := .text "n\n1".toList, text := .text "Two words".toList,
    note := .text " \n".toList }

theorem contentId_of_reflow_typed : passageOnPage.pageno = passageTyped.pageno ∧
    SameLines passageOnPage.pos0 passageTyped.pos0 ∧
      SameLines passageOnPage.pos1 passageTyped.pos1 ∧
      SameWords passageOnPage.text passageTyped.text ∧
      SameWords passageOnPage.note passageTyped.note ∧
      contentId passageOnPage = contentId passageTyped := by
  have hpage : passageOnPage.pageno = passageTyped.pageno := rfl
  have hpos0 : SameLines passageOnPage.pos0 passageTyped.pos0 := by decide +kernel
  have hpos1 : SameLines passageOnPage.pos1 passageTyped.pos1 := rfl
  have htext : SameWords passageOnPage.text passageTyped.text := by decide +kernel
  have hnote : SameWords passageOnPage.note passageTyped.note := by decide +kernel
  have hids := (contentId_of_reflow hpage hpos0 hpos1 htext hnote).1
  exact ⟨hpage, hpos0, hpos1, htext, hnote, hids⟩

end Marker
end Marginalia
