import Mathlib.Data.List.GetD
import Marginalia.Library.Basic
import Marginalia.Proofs.Markdown
import Marginalia.Proofs.Number.Numeral
import Marginalia.Proofs.Calendar.Mask
import Marginalia.Proofs.Record
import Marginalia.Proofs.Template.Limit

/-
The callout.  All of it is one quotation: its title is a single line, the text of the highlight
is quoted by a filter, the notes are quoted because the template leaves that to the program, and
between them the template has marks and line ends of its own.
-/
namespace Marginalia

/-! ## Dates and pages are single lines -/

theorem DateLayout.not_mem_shortMonths (n : Nat) : '\n' ∉ shortMonths.getD n [] := by
  by_cases h : n < shortMonths.length
  · have hall : ∀ month ∈ shortMonths, '\n' ∉ month := by decide
    rw [List.getD_eq_getElem _ _ h]
    exact hall _ (List.getElem_mem h)
  · rw [List.getD_eq_default _ _ (Nat.le_of_not_lt h)]
    exact List.not_mem_nil

theorem Moment.not_mem_shortDate (m : Moment) : '\n' ∉ m.shortDate := by
  have hday : '\n' ∉ Text.ofNat m.day.day := Text.not_mem_ofNat (by decide)
  have hyear : '\n' ∉ Text.ofNat m.day.year := Text.not_mem_ofNat (by decide)
  have hmonth := DateLayout.not_mem_shortMonths (m.day.month - 1)
  simp only [shortDate, List.mem_append, not_or]
  exact ⟨⟨⟨⟨hmonth, by decide⟩, hday⟩, by decide⟩, hyear⟩

theorem not_mem_formatDate {v : Value} {t : Text} (h : formatDate v none = .ok t) : '\n' ∉ t := by
  rw [formatDate_eq] at h
  obtain ⟨d, -, rfl⟩ := exists_of_map_eq_ok h
  cases d with
  | none => exact List.not_mem_nil
  | some m => exact m.not_mem_shortDate

/-- A label for a page that is one line of text, or none at all. -/
def Value.IsLabel (v : Value) : Prop := v = .null ∨ ∃ label, v = .text label ∧ '\n' ∉ label

namespace Record

/-- A page can be written unless it is a number that is too long, and takes no line of its own. -/
theorem HasHead.page {r : Record} {head : Annotation} (h : r.HasHead head)
    (hlabel : head.pageref.IsLabel) :
    ((∃ page, r.pageno.templateText = .ok page) ↔
      (head.pageref = .null → Value.IsShort head.pageno)) ∧
      ∀ page, r.pageno.templateText = .ok page → '\n' ∉ page := by
  rcases hlabel with hnull | ⟨label, htext, hline⟩
  · have hwhole : (Value.int head.pageno).templateText = Value.wholeText head.pageno := rfl
    rw [h.number hnull, hwhole]
    refine ⟨⟨?_, fun h => Value.exists_wholeText (h hnull)⟩, fun page hpage => ?_⟩
    · rintro ⟨page, hpage⟩ -
      exact (Value.wholeText_eq_ok.1 hpage).1
    · exact Value.not_mem_wholeText hpage (by decide) (by decide)
  · rw [h.label label htext, htext]
    refine ⟨⟨fun _ => nofun, fun _ => ⟨label, rfl⟩⟩, ?_⟩
    rintro page ⟨⟩
    exact hline

/-! ## What a callout shows -/

variable (r : Record)

/-- The kind of callout that a highlight is shown in. -/
def calloutKind : Text := (r.color.map (·.name)).getD "note".toList

/-- The date in the title of a callout. -/
def calloutDate : Text := if r.date.isEmpty then [] else ", ".toList ++ r.date

/-- The first line of a callout: its kind, the page and, where there is one, the date. -/
def calloutTitle (page : Text) : Text :=
  "> [!".toList ++ (r.calloutKind ++ ("] Page ".toList ++ (page ++ r.calloutDate)))

/-- The notes in a callout, behind an empty line of the quotation. -/
def calloutNotes : Text :=
  if r.note.isEmpty then [] else ">\n".toList ++ (Markdown.quoteAll r.note ++ ['\n'])

/-- What the callout shows of a highlight whose page is written in this way. -/
def calloutText (page : Text) : Text :=
  r.calloutTitle page ++ '\n' ::
    (Markdown.quote (Html.lineBreaks r.highlightPlain) ++ '\n' :: (r.calloutNotes ++ ['\n']))

theorem not_mem_calloutKind : '\n' ∉ r.calloutKind := by
  unfold calloutKind
  cases r.color with
  | none => decide
  | some p => cases p <;> decide

variable {r}

theorem isQuotation_calloutTitle {page : Text} (hpage : '\n' ∉ page) (hdate : '\n' ∉ r.date) :
    Markdown.IsQuotation (r.calloutTitle page) := by
  refine Markdown.isQuotation_cons ?_
  have hend : '\n' ∉ r.calloutDate := by
    unfold calloutDate
    split
    · exact List.not_mem_nil
    · exact List.not_mem_append (by decide) hdate
  exact List.not_mem_append (by decide) (List.not_mem_append r.not_mem_calloutKind
    (List.not_mem_append (by decide) (List.not_mem_append hpage hend)))

theorem isQuotation_calloutText {page : Text} (hpage : '\n' ∉ page) (hdate : '\n' ∉ r.date) :
    Markdown.IsQuotation (r.calloutText page) := by
  refine (isQuotation_calloutTitle hpage hdate).append ((Markdown.isQuotation_quote _).append ?_)
  unfold calloutNotes
  split
  · decide
  · have hmark : Markdown.IsQuotation ['>'] := by decide
    have hend : Markdown.IsQuotation ['\n'] := by decide
    -- the notes end their last line, and the template ends one more
    have hnotes := hmark.append ((Markdown.isQuotation_quoteAll r.note).append hend)
    simpa using hnotes

end Record

/-! ## The template -/

namespace Shipped

def headingBlock : Token :=
  .block "isFirstInChapter".toList
    [.text "### ".toList, .lookup "chapter".toList [], .text "\n\n".toList]

def dateBlock : Token := .block "date".toList [.text ", ".toList, .lookup "date".toList []]

def noteBlock : Token :=
  .block "note".toList [.text ">\n".toList, .lookup "note".toList [], .text ['\n']]

def calloutTokens : List Token :=
  [headingBlock, .text "> [!".toList, .lookup "callout".toList [], .text "] Page ".toList,
    .lookup "pageno".toList [], dateBlock, .text ['\n'],
    .lookup "highlightPlain".toList ["br2nl".toList, "quote".toList], .text ['\n'], noteBlock,
    .text ['\n']]

/-- The callout has no block inside another one, and leaves notes to be quoted by the program. -/
theorem exists_callout : ∃ d,
    (TemplateDefinition.ofText "callout".toList true (callout.flatMap String.toList)).1 = .ok d ∧
    ∀ limit : Int, 1 ≤ limit →
      Compiled.ofTemplate limit d.content = ⟨calloutTokens, [], .auto⟩ := by
  have hcontent : ((TemplateDefinition.ofText "callout".toList true
      (callout.flatMap String.toList)).1.map fun d =>
        (Parsed.ofTemplate 1 d.content, Quoting.ofTemplate d.content)) =
      .ok (⟨calloutTokens, []⟩, .auto) := by
    decide +kernel
  obtain ⟨d, hread, hd⟩ := exists_of_map_eq_ok hcontent
  obtain ⟨hparsed, hquoting⟩ := Prod.mk.inj hd
  refine ⟨d, hread, fun limit hlimit => ?_⟩
  have hsame : Parsed.ofTemplate limit d.content = ⟨calloutTokens, []⟩ := by
    rw [Parsed.ofTemplate_of_le ?_ hlimit, hparsed]
    rw [hparsed]
    exact nofun
  unfold Compiled.ofTemplate
  rw [hsame, hquoting]

section

variable (c : Compiled) (r : Record)

theorem emitAll_dateBlock :
    c.emitAll r.bindings (Emission.ofToken r.bindings dateBlock) = .ok r.calloutDate := by
  have hdated : (r.bindings "date".toList).isTruthy = !r.date.isEmpty := rfl
  have hshown : c.emit r.bindings (.lookup "date".toList []) = .ok r.date :=
    c.emit_of_text (by decide) rfl
  rw [dateBlock, Compiled.emitAll_block, hdated, Record.calloutDate]
  cases hdate : r.date.isEmpty with
  | true => rfl
  | false =>
    rw [Compiled.emitAll_text, Compiled.emitAll_lookup, hshown]
    exact congrArg (fun t => Except.ok (", ".toList ++ t)) (List.append_nil r.date)

theorem emitAll_noteBlock (hquoting : c.quoting = .auto) :
    c.emitAll r.bindings (Emission.ofToken r.bindings noteBlock) = .ok r.calloutNotes := by
  have hnoted : (r.bindings "note".toList).isTruthy = !r.note.isEmpty := rfl
  have hquoted : c.emit r.bindings (.lookup "note".toList []) =
      .ok (if r.note.isEmpty then [] else Markdown.quoteAll r.note) := by
    show (c.quoting.noteText (.text r.note)).bind Except.ok = _
    rw [hquoting]
    rfl
  rw [noteBlock, Compiled.emitAll_block, hnoted, Record.calloutNotes]
  cases hnote : r.note.isEmpty with
  | true => rfl
  | false =>
    rw [Compiled.emitAll_text, Compiled.emitAll_lookup, hquoted, hnote]
    rfl

/-- Away from the start of a chapter, a callout has its text wherever its page has one. -/
theorem render_callout (htokens : c.tokens = calloutTokens) (hquoting : c.quoting = .auto)
    (hfirst : r.isFirstInChapter = false) :
    c.render r.bindings = r.pageno.templateText.map r.calloutText := by
  have hheading : c.emitAll r.bindings (Emission.ofToken r.bindings headingBlock) = .ok [] := by
    have hshown : (r.bindings "isFirstInChapter".toList).isTruthy = r.isFirstInChapter := rfl
    rw [headingBlock, Compiled.emitAll_block, hshown, hfirst]
    rfl
  have hkind : c.emit r.bindings (.lookup "callout".toList []) = .ok r.calloutKind :=
    c.emit_of_text (by decide) rfl
  have hpage : c.emit r.bindings (.lookup "pageno".toList []) = r.pageno.templateText := by
    rw [c.emit_of_ne_note _ (by decide)]
    show r.pageno.templateText.bind Except.ok = _
    cases r.pageno.templateText <;> rfl
  have htext := Record.emit_filtered c r ["br2nl".toList, "quote".toList]
  have hquoted : (Pipeline.ofSpecs ["br2nl".toList, "quote".toList]).run r.highlightPlain =
      .ok (Markdown.quote (Html.lineBreaks r.highlightPlain)) := rfl
  have hend : c.emitAll r.bindings (Emission.ofTokens r.bindings []) = .ok [] := rfl
  unfold Compiled.render Compiled.emissions
  rw [htokens, calloutTokens]
  simp only [Compiled.emitAll_text, Compiled.emitAll_lookup, hkind, hpage, htext, hquoted, hend,
    Compiled.emitAll_cons_of_ok hheading, Compiled.emitAll_cons_of_ok (emitAll_dateBlock c r),
    Compiled.emitAll_cons_of_ok (emitAll_noteBlock c r hquoting)]
  cases r.pageno.templateText with
  | error e => rfl
  | ok page =>
    simp only [Except.bind, Except.map]
    simp [Record.calloutText, Record.calloutTitle]

end

/-- Away from the start of a chapter the callout keeps everything inside the quotation: every
line of it that is not empty has the mark, whatever the texts and notes of the group are and
however they are separated.  Only a page number that is too long to be written stops it. -/
theorem callout_quotes :
    ∃ d, (TemplateDefinition.ofText "callout".toList true (callout.flatMap String.toList)).1 =
        .ok d ∧
      ∀ (hex : Text) (g : Group),
        (g.annotations ≠ [] → (∀ a ∈ g.annotations, a.text.IsTextual ∧ a.color.IsTextual ∧
            a.chapter.IsTextual ∧ a.datetime.IsDateLike) →
          ∃ r, Record.ofGroup hex g false = .ok r) ∧
        ∀ r, Record.ofGroup hex g false = .ok r →
          ∀ head ∈ g.annotations.head?, head.pageref.IsLabel → ∀ limit : Int, 1 ≤ limit →
            ((∃ s, (Compiled.ofTemplate limit d.content).render r.bindings = .ok s) ↔
              (head.pageref = .null → Value.IsShort head.pageno)) ∧
            ∀ s, (Compiled.ofTemplate limit d.content).render r.bindings = .ok s →
              Markdown.IsQuotation s := by
  obtain ⟨d, hread, hcompiled⟩ := exists_callout
  refine ⟨d, hread, fun hex g => ⟨fun hne h => ?_, ?_⟩⟩
  · exact Record.exists_ofGroup_of_textual hne (fun a ha => (h a ha).1) (fun a ha => (h a ha).2.1)
      (fun a ha => (h a ha).2.2.2.exists_moment) fun a ha => (h a ha).2.2.1
  intro r hr head hhead hlabel limit hlimit
  obtain ⟨hfirst, head', rest, hcons, htakes⟩ := Record.hasHead_of_ofGroup hr
  rw [hcons] at hhead
  cases hhead
  obtain ⟨hwritten, hline⟩ := htakes.page hlabel
  rw [hcompiled limit hlimit, render_callout _ r rfl rfl hfirst, ← hwritten]
  cases hpage : r.pageno.templateText with
  | error e => exact ⟨⟨nofun, nofun⟩, nofun⟩
  | ok page =>
    refine ⟨⟨fun _ => ⟨page, rfl⟩, fun _ => ⟨_, rfl⟩⟩, ?_⟩
    rintro s ⟨⟩
    exact Record.isQuotation_calloutText (hline page hpage) (not_mem_formatDate htakes.date)

/-- Texts and notes with lines, tags and marks of their own. -/
def unrulyGroup : Group where
  annotations :=
    [{ text := .text "a <br> b\n \n\n> [!c]\n</blockquote>\nd".toList,
       note := .text "\n# one\n\n---\n&#10;<br>two\n".toList,
       datetime := .text "2024-01-02".toList, color := .text " Grey".toList,
       pageref := .text "xii".toList },
     { text := .text "\n\n".toList },
     { text := .text "e".toList, note := .text "> three".toList, pageref := .text "\n".toList }]
  separators := [.gap]

def unrulyCallout : Text :=
  ("> [!gray] Page xii, Jan 2, 2024\n" ++
    "> a &lt;br&gt; b\n>\n> &gt; [!c]\n> &lt;/blockquote&gt;\n> d\n>\n> [...]\n>\n>  e\n" ++
    ">\n> \n> # one\n> \n> ---\n> &#10;<br>two\n> \n> ---\n> > three\n\n").toList

theorem callout_quotes_unrulyGroup :
    ∃ d, (TemplateDefinition.ofText "callout".toList true (callout.flatMap String.toList)).1 =
        .ok d ∧
      ∃ r, Record.ofGroup [] unrulyGroup false = .ok r ∧
        (Compiled.ofTemplate 20 d.content).render r.bindings = .ok unrulyCallout ∧
        Markdown.IsQuotation unrulyCallout := by
  obtain ⟨d, hread, h⟩ := callout_quotes
  obtain ⟨hmade, hshown⟩ := h [] unrulyGroup
  have htextual : ∀ a ∈ unrulyGroup.annotations, a.text.IsTextual ∧ a.color.IsTextual ∧
      a.chapter.IsTextual ∧ a.datetime.IsDateLike := by
    refine List.forall_mem_cons.2 ⟨?_, List.forall_mem_cons.2 ⟨?_, List.forall_mem_singleton.2 ?_⟩⟩
    all_goals exact ⟨by decide, by decide, by decide, trivial⟩
  obtain ⟨r, hr⟩ := hmade (by decide) htextual
  have hlabel : Value.IsLabel (.text "xii".toList) := .inr ⟨_, rfl, by decide⟩
  obtain ⟨_, hquotes⟩ := hshown r hr _ rfl hlabel 20 (by decide)
  obtain ⟨d', hread', hcompiled⟩ := exists_callout
  obtain rfl : d = d' := Except.ok.inj (hread.symm.trans hread')
  have htext : (Record.ofGroup [] unrulyGroup false).bind (fun r =>
      (⟨calloutTokens, [], .auto⟩ : Compiled).render r.bindings) = .ok unrulyCallout := by
    decide +kernel
  rw [hr] at htext
  have hrender : (Compiled.ofTemplate 20 d.content).render r.bindings = .ok unrulyCallout := by
    rw [hcompiled 20 (by decide)]
    exact htext
  exact ⟨d, hread, r, hr, hrender, hquotes _ hrender⟩

end Shipped
end Marginalia
