import Marginalia.Proofs.Ensures
import Marginalia.Proofs.Highlight.Paragraphs
import Marginalia.Proofs.Template.Single

/-
A highlight by itself.  The record of a group of one annotation has the markup of its
text, and a template can show the text again as it was, paragraph by paragraph.
-/
namespace Marginalia

/-! ## Records that can be made -/

/-- A text, or nothing at all. -/
def Value.IsWritten (v : Value) : Prop := v = .null ∨ ∃ t, v = .text t

/-- The fields that are read as texts hold texts, if they hold anything. -/
structure Annotation.IsReadable (a : Annotation) : Prop where
  color : a.color.IsWritten
  datetime : a.datetime.IsWritten
  chapter : a.chapter.IsWritten

/-- What counts as present is a text. -/
def Value.IsTextual (v : Value) : Prop := v.isTruthy → ∃ t, v = .text t

section

variable {v : Value}

theorem Value.IsWritten.isTextual (h : v.IsWritten) : v.IsTextual := by
  obtain rfl | ⟨t, rfl⟩ := h
  · exact nofun
  · exact fun _ => ⟨t, rfl⟩

theorem Value.IsTextual.cases (h : v.IsTextual) : v.isTruthy = false ∨ ∃ t, v = .text t := by
  cases hv : v.isTruthy with
  | false => exact .inl rfl
  | true => exact .inr (h hv)

instance : Decidable v.IsTextual :=
  decidable_of_iff ((!v.isTruthy || match v with
    | .text _ => true
    | _ => false) = true) <| by
    unfold Value.IsTextual
    cases v <;> simp

theorem exists_palette (h : v.IsTextual) : ∃ p, Palette.ofValue? v = .ok p := by
  unfold Palette.ofValue?
  obtain hv | ⟨t, rfl⟩ := h.cases
  · rw [hv]
    exact ⟨none, rfl⟩
  · split <;> exact ⟨_, rfl⟩

theorem exists_formatDate (h : ∃ m, Moment.ofValue? v = .ok m) (pattern : Option Text) :
    ∃ t, formatDate v pattern = .ok t :=
  exists_bind_eq_ok h fun m _ => by cases m <;> exact ⟨_, rfl⟩

theorem exists_moment (h : v.IsWritten) : ∃ m, Moment.ofValue? v = .ok m := by
  obtain rfl | ⟨t, rfl⟩ := h <;> exact ⟨_, rfl⟩

theorem exists_coloured (palette : Option Palette) (h : v.IsTextual) (content : Text) :
    ∃ t, Highlight.coloured palette v content = .ok t := by
  unfold Highlight.coloured
  split
  · exact ⟨_, rfl⟩
  · obtain hv | ⟨t, rfl⟩ := h.cases
    · rw [hv]
      exact ⟨content, rfl⟩
    · split <;> exact ⟨_, rfl⟩

theorem exists_decorate (palette : Option Palette) (h : v.IsTextual) (drawer : Value)
    (content : Text) : ∃ t, Highlight.decorate palette v drawer content = .ok t := by
  have hcoloured := exists_coloured palette h content
  unfold Highlight.decorate
  split
  · split
    · exact ⟨_, rfl⟩
    · split
      · exact ⟨_, rfl⟩
      · split
        · exact ⟨_, rfl⟩
        · split
          · exact ⟨_, rfl⟩
          · exact hcoloured
  · exact hcoloured

theorem exists_content (h : v.IsTextual) : ∃ c, Highlight.content? v = .ok c := by
  unfold Highlight.content?
  obtain hv | ⟨t, rfl⟩ := h.cases
  · rw [hv]
    exact ⟨none, rfl⟩
  · split <;> exact ⟨_, rfl⟩

theorem exists_style {text : Value} (ht : text.IsTextual) (h : v.IsTextual) (drawer : Value) :
    ∃ u, Highlight.style text v drawer = .ok u := by
  obtain ⟨p, hp⟩ := exists_palette h
  refine exists_bind_eq_ok (exists_content ht) fun c _ => ?_
  rw [hp]
  cases c with
  | none => exact ⟨[], rfl⟩
  | some c => exact exists_decorate p h drawer _

theorem exists_chapterTitle_iff {a : Annotation} :
    (∃ t, a.chapterTitle = .ok t) ↔ a.chapter.IsTextual := by
  unfold Annotation.chapterTitle
  constructor
  · rintro ⟨t, ht⟩ hpresent
    rw [hpresent, if_neg nofun] at ht
    split at ht
    · rename_i u hu
      exact ⟨u, hu⟩
    · cases ht
  · intro h
    obtain hv | ⟨t, ht⟩ := h.cases
    · rw [hv]
      exact ⟨[], rfl⟩
    · rw [ht]
      split <;> exact ⟨_, rfl⟩

end

namespace Group

variable {as : List Annotation}

theorem plainText_text (t : Text) :
    plainText (.text t) = .ok (Highlight.joinParagraphs (paragraphs t)) := by
  cases t <;> rfl

theorem plainTexts_single {a : Annotation} {t : Text} (h : a.text = .text t) :
    plainTexts [a] = .ok [Highlight.joinParagraphs (paragraphs t)] := by
  unfold plainTexts
  rw [h, plainText_text]
  rfl

theorem exists_plainText_iff {v : Value} : (∃ t, plainText v = .ok t) ↔ v.IsTextual := by
  constructor
  · rintro ⟨t, ht⟩ hpresent
    unfold plainText Value.orEmpty at ht
    rw [if_pos hpresent] at ht
    split at ht
    · exact ⟨_, rfl⟩
    · cases ht
  · intro h
    obtain hv | ⟨t, rfl⟩ := h.cases
    · unfold plainText Value.orEmpty
      rw [hv]
      exact ⟨_, rfl⟩
    · exact ⟨_, plainText_text t⟩

theorem exists_plainTexts (h : ∀ a ∈ as, a.text.IsTextual) : ∃ ts, plainTexts as = .ok ts :=
  exists_each plainTexts rfl (fun _ _ => rfl) fun a ha => exists_plainText_iff.2 (h a ha)

theorem exists_styledTexts (htexts : ∀ a ∈ as, a.text.IsTextual)
    (hcolors : ∀ a ∈ as, a.color.IsTextual) : ∃ ts, styledTexts as = .ok ts :=
  exists_each styledTexts rfl (fun _ _ => rfl) fun a ha =>
    exists_style (htexts a ha) (hcolors a ha) a.drawer

/-- What every block has, and joining one more to a text keeps, the joined text has. -/
theorem joinBlocks_induction {P Q : Text → Prop} (hfirst : ∀ b, Q b → P b)
    (hstep : ∀ out s b, P out → Q b → P (joinBlock out s b)) {blocks : List Text}
    (hne : blocks ≠ []) (hblocks : ∀ b ∈ blocks, Q b) (seps : List Separator) :
    P (joinBlocks blocks seps) := by
  have hfrom {bs : List Text} (hbs : ∀ b ∈ bs, Q b) :
      ∀ (out : Text) (ss : List Separator), P out → P (joinFrom out bs ss) := by
    induction bs with
    | nil => exact fun _ _ hout => hout
    | cons b rest ih =>
      obtain ⟨hb, hrest⟩ := List.forall_mem_cons.1 hbs
      intro out ss hout
      cases ss with
      | nil => exact ih hrest _ [] (hstep out .contiguous b hout hb)
      | cons s ss => exact ih hrest _ ss (hstep out s b hout hb)
  obtain ⟨b, rest, rfl⟩ := List.exists_cons_of_ne_nil hne
  obtain ⟨hb, hrest⟩ := List.forall_mem_cons.1 hblocks
  exact hfrom hrest b seps (hfirst b hb)

end Group

namespace Record

variable {hex t : Text} {a : Annotation} {g : Group} {seps : List Separator} {first : Bool}
  {r : Record}

/-- A group has a record where all of its texts and colours are texts, and its first
annotation can be dated and has a title. -/
theorem exists_ofGroup_of_textual (hne : g.annotations ≠ [])
    (htexts : ∀ a ∈ g.annotations, a.text.IsTextual)
    (hcolors : ∀ a ∈ g.annotations, a.color.IsTextual)
    (hdates : ∀ a ∈ g.annotations, ∃ m, Moment.ofValue? a.datetime = .ok m)
    (hchapters : ∀ a ∈ g.annotations, a.chapter.IsTextual) :
    ∃ r, ofGroup hex g first = .ok r := by
  obtain ⟨styled, hstyled⟩ := Group.exists_styledTexts htexts hcolors
  obtain ⟨plain, hplain⟩ := Group.exists_plainTexts htexts
  unfold ofGroup
  split
  · rename_i hnil
    exact absurd hnil hne
  · rename_i head rest hcons
    have hmem : head ∈ g.annotations := hcons ▸ List.mem_cons_self
    obtain ⟨color, hcolor⟩ := exists_palette (hcolors head hmem)
    have hdate := exists_formatDate (hdates head hmem)
    obtain ⟨date, hdate₁⟩ := hdate none
    obtain ⟨localeDate, hdate₂⟩ := hdate (some "locale".toList)
    obtain ⟨note, hdate₃⟩ := hdate (some "daily-note".toList)
    obtain ⟨time, hdate₄⟩ := hdate (some timeMask)
    obtain ⟨chapter, hchapter⟩ := exists_chapterTitle_iff.2 (hchapters head hmem)
    rw [hcolor, hdate₁, hdate₂, hdate₃, hdate₄, hchapter, hstyled, hplain]
    exact ⟨_, rfl⟩

/-- A group whose annotations are written has a record. -/
theorem exists_ofGroup_of_written (hne : g.annotations ≠ [])
    (htexts : ∀ a ∈ g.annotations, a.text.IsWritten) (h : ∀ a ∈ g.annotations, a.IsReadable) :
    ∃ r, ofGroup hex g first = .ok r :=
  exists_ofGroup_of_textual hne (fun a ha => (htexts a ha).isTextual)
    (fun a ha => (h a ha).color.isTextual) (fun a ha => exists_moment (h a ha).datetime)
    fun a ha => (h a ha).chapter.isTextual

theorem exists_ofGroup (ht : a.text = .text t) (h : a.IsReadable) :
    ∃ r, ofGroup hex ⟨[a], seps⟩ first = .ok r := by
  refine exists_ofGroup_of_written (List.cons_ne_nil a []) ?_ ?_
  · exact List.forall_mem_singleton.2 (.inr ⟨t, ht⟩)
  · exact List.forall_mem_singleton.2 h

/-- The texts of a record are those of the annotations, joined. -/
theorem texts_of_ofGroup (h : ofGroup hex g first = .ok r) :
    ∃ styled plain, Group.styledTexts g.annotations = .ok styled ∧
      Group.plainTexts g.annotations = .ok plain ∧
      r.highlight = Group.joinBlocks styled g.separators ∧
      r.highlightPlain = Group.joinBlocks plain g.separators := by
  unfold ofGroup at h
  split at h
  · cases h
  · iterate 6 obtain ⟨_, _, h⟩ := exists_of_bind_eq_ok h
    obtain ⟨styled, hstyled, h⟩ := exists_of_bind_eq_ok h
    obtain ⟨plain, hplain, h⟩ := exists_of_bind_eq_ok h
    cases h
    exact ⟨styled, plain, hstyled, hplain, rfl, rfl⟩

/-- What a record has from the first annotation of its group. -/
structure HasHead (r : Record) (head : Annotation) : Prop where
  number : head.pageref = .null → r.pageno = .int head.pageno
  label : ∀ label, head.pageref = .text label → r.pageno = .text label
  date : formatDate head.datetime none = .ok r.date
  time : formatDate head.datetime (some timeMask) = .ok r.time
  datetime : r.datetime = head.datetime.orEmpty

theorem hasHead_of_ofGroup (h : ofGroup hex g first = .ok r) :
    r.isFirstInChapter = first ∧ ∃ head rest, g.annotations = head :: rest ∧ r.HasHead head := by
  unfold ofGroup at h
  split at h
  · cases h
  · rename_i head rest hcons
    obtain ⟨_, _, h⟩ := exists_of_bind_eq_ok h
    obtain ⟨date, hdate, h⟩ := exists_of_bind_eq_ok h
    iterate 2 obtain ⟨_, _, h⟩ := exists_of_bind_eq_ok h
    obtain ⟨time, htime, h⟩ := exists_of_bind_eq_ok h
    iterate 3 obtain ⟨_, _, h⟩ := exists_of_bind_eq_ok h
    cases h
    refine ⟨rfl, head, rest, hcons, ?_, ?_, hdate, htime, rfl⟩
    · intro hnull
      dsimp only
      rw [hnull]
    · intro label hlabel
      dsimp only
      rw [hlabel]

theorem highlightPlain_of_ofGroup (ht : a.text = .text t)
    (h : ofGroup hex ⟨[a], seps⟩ first = .ok r) :
    r.highlightPlain = Highlight.joinParagraphs (Group.paragraphs t) := by
  obtain ⟨styled, plain, _, hplain, _, hr⟩ := texts_of_ofGroup h
  rw [Group.plainTexts_single ht] at hplain
  cases hplain
  exact hr

end Record

/-! ## A text shown again -/

namespace Record

/-- The tag that shows the text of a highlight without its markup. -/
def plainTag : Text := "highlightPlain|br2nl|unescapeHtml".toList

theorem read_plainTag :
    Tag.read plainTag = .lookup "highlightPlain".toList Highlight.plainFilters := by
  decide

/-- The plain text of a highlight is shown through whatever filters a tag names. -/
theorem emit_filtered (c : Compiled) (r : Record) (filters : List Text) :
    c.emit r.bindings (.lookup "highlightPlain".toList filters) =
      (Pipeline.ofSpecs filters).run r.highlightPlain :=
  c.emit_of_ne_note r.bindings (by decide) filters

theorem emit_highlightPlain (c : Compiled) {r : Record} {ps : List Text}
    (h : r.highlightPlain = Highlight.joinParagraphs ps) :
    c.emit r.bindings (.lookup "highlightPlain".toList Highlight.plainFilters) =
      .ok (Highlight.spaced ps) := by
  rw [emit_filtered, h]
  exact Highlight.run_plainFilters ps

/-- The text of a highlight comes through its markup unharmed: however it is divided at
its blank lines, undoing its markup gives the pieces, trimmed, with a blank line between
two, and so does a template that undoes it for a highlight by itself. -/
theorem plain_text_retained (t : Text) :
    (∃ ps, Group.Divided t ps) ∧
    ∀ ps, Group.Divided t ps →
      ((Group.plainText (.text t)).bind fun u => filterValue (.text u) Highlight.plainFilters) =
        .ok (Highlight.spaced ps) ∧
      ∀ (hex : Text) (a : Annotation) (seps : List Separator) (first : Bool), a.text = .text t →
        (a.IsReadable → ∃ r, ofGroup hex ⟨[a], seps⟩ first = .ok r) ∧
        ∀ r, ofGroup hex ⟨[a], seps⟩ first = .ok r →
          (∀ c : Compiled, c.emit r.bindings (.lookup "highlightPlain".toList
            Highlight.plainFilters) = .ok (Highlight.spaced ps)) ∧
          ∀ (limit : Int) (before after : Text), before.IsOuter → before.getLast? ≠ some '{' →
            after.IsOuter →
            (Compiled.ofTemplate limit (before ++ (Token.tag plainTag ++ after))).render
              r.bindings = .ok (before ++ Highlight.spaced ps ++ after) := by
  refine ⟨⟨_, Group.divided_paragraphs t⟩, fun ps hps => ?_⟩
  have hspaced : Highlight.spaced ps = Highlight.spaced (Group.paragraphs t) := by
    unfold Highlight.spaced
    rw [hps.trimmed_eq (Group.divided_paragraphs t)]
  rw [hspaced]
  refine ⟨?_, fun hex a seps first ht => ⟨exists_ofGroup ht, fun r hr => ?_⟩⟩
  · rw [Group.plainText_text]
    exact Highlight.run_plainFilters (Group.paragraphs t)
  · have hplain := highlightPlain_of_ofGroup ht hr
    refine ⟨fun c => emit_highlightPlain c hplain, ?_⟩
    intro limit before after hbefore hbrace hafter
    have htokens := Compiled.tokens_around limit read_plainTag (by decide) (by decide) hbefore
      hbrace hafter
    rw [Compiled.render_of_tokens htokens, emit_highlightPlain _ hplain]
    rfl

/-- A text that looks like its own markup. -/
def lookalike : Text := " 1 < 2<br>3 &lt; 4\r\n \t\n\n&amp;amp; <b>\n".toList

theorem plain_text_retained_lookalike :
    Group.Divided lookalike [" 1 < 2<br>3 &lt; 4".toList, "&amp;amp; <b>\n".toList] ∧
      ∃ r, ofGroup [] ⟨[{ text := .text lookalike }], []⟩ true = .ok r ∧
        (Compiled.ofTemplate 0
          "> \x7b\x7bhighlightPlain|br2nl|unescapeHtml\x7d\x7d\n".toList).render r.bindings =
            .ok "> 1 < 2<br>3 &lt; 4\n\n&amp;amp; <b>\n".toList := by
  have hpieces : Group.paragraphs lookalike =
      [" 1 < 2<br>3 &lt; 4".toList, "&amp;amp; <b>\n".toList] := by decide +kernel
  have hdivided := Group.divided_paragraphs lookalike
  rw [hpieces] at hdivided
  obtain ⟨_, h⟩ := (plain_text_retained lookalike).2 _ hdivided
  obtain ⟨hmade, hshown⟩ := h [] { text := .text lookalike } [] true rfl
  obtain ⟨r, hr⟩ := hmade ⟨.inl rfl, .inr ⟨[], rfl⟩, .inl rfl⟩
  have := (hshown r hr).2 0 "> ".toList "\n".toList (by decide) (by decide) (by decide)
  exact ⟨hdivided, r, hr, this.trans (by decide +kernel)⟩

end Record
end Marginalia
