import Marginalia.Library.Basic
import Marginalia.Proofs.Html.Strip
import Marginalia.Proofs.Record
import Marginalia.Proofs.Template.Single

/-
The compact list.  It shows a highlight as plain text, by a filter that reads the
references of escaped text back before it removes tags: a tag that was part of the text
goes as well, and everything else in the text stays.
-/
namespace Marginalia

/-! ## Texts without a blank line -/

namespace Group

theorem IsUnbroken.of_count {t : Text} (h : t.count '\n' < 2) : IsUnbroken t := by
  rintro b hb ⟨_, hcount⟩
  have := hb.sublist.count_le '\n'
  omega

/-- A text without a blank line is one paragraph. -/
theorem paragraphs_of_isUnbroken {t : Text} (h : IsUnbroken t) : paragraphs t = [t] :=
  (divided_paragraphs t).eq_single h

end Group

namespace Highlight

theorem spaced_single (t : Text) : spaced [t] = Text.strip t := by
  unfold spaced Group.trimmed
  rw [List.map_singleton, List.filter_singleton]
  cases hstrip : Text.strip t with
  | nil => rfl
  | cons c rest => rfl

/-- The filters that leave no markup in a text. -/
def tagFilters : List Text := ["br2nl".toList, "stripHTML".toList]

theorem run_tagFilters (ps : List Text) :
    (Pipeline.ofSpecs tagFilters).run (joinParagraphs ps) = .ok (Html.dropTags (spaced ps)) := by
  have hfilters : Pipeline.ofSpecs tagFilters =
      [(.breaksToLines, none), (.stripHtml, none)] := by decide
  rw [hfilters]
  show Except.ok (Html.dropTags (Html.decodeReserved (Html.lineBreaks (joinParagraphs ps)))) = _
  rw [lineBreaks_joinParagraphs, Html.decodeReserved_escape]

end Highlight

/-! ## The template -/

namespace Shipped

/-- The tag that stands at the start of the compact list. -/
def compactTag : Text := "highlightPlain|br2nl|stripHTML".toList

theorem read_compactTag :
    Tag.read compactTag = .lookup "highlightPlain".toList Highlight.tagFilters := by
  decide

def compactRest : Text :=
  (" (p. \x7b\x7bpageno\x7d\x7d)" ++
    "\x7b\x7b#notes\x7d\x7d: *\x7b\x7bnotes|stripHTML\x7d\x7d*\x7b\x7b/notes\x7d\x7d\n").toList

theorem exists_compactList : ∃ d,
    (TemplateDefinition.ofText "compact-list".toList true
      (compactList.flatMap String.toList)).1 = .ok d ∧
    d.content = "- ".toList ++ (Token.tag compactTag ++ compactRest) := by
  have hcontent : ((TemplateDefinition.ofText "compact-list".toList true
      (compactList.flatMap String.toList)).1.map (·.content)) =
      .ok ("- ".toList ++ (Token.tag compactTag ++ compactRest)) := by
    decide +kernel
  exact exists_of_map_eq_ok hcontent

/-- The compact list starts with the text of the highlight, however deep blocks may be. -/
theorem tokens_compactList (limit : Int) :
    Compiled.literals "- ".toList ++ [.lookup "highlightPlain".toList Highlight.tagFilters] <+:
      (Compiled.ofTemplate limit ("- ".toList ++ (Token.tag compactTag ++ compactRest))).tokens := by
  apply Compiled.tokens_leading limit read_compactTag
  · decide
  · decide
  · decide
  · decide

/-- A highlight without a blank line is shown trimmed and without its tags: references
are read back before tags are removed, so that no tag of the text appears as markup.
Where the text has no tag in it, every character of it is kept. -/
theorem highlight_shown_untagged (t : Text) (ht : Group.IsUnbroken t) :
    ∃ u, (∀ v, Html.Untagged (Text.strip t) v ↔ v = u) ∧
      (u = Text.strip t ↔ Html.IsTagless (Text.strip t)) ∧
      ∀ (hex : Text) (a : Annotation) (seps : List Separator) (first : Bool), a.text = .text t →
        (a.IsReadable → ∃ r, Record.ofGroup hex ⟨[a], seps⟩ first = .ok r) ∧
        ∀ r, Record.ofGroup hex ⟨[a], seps⟩ first = .ok r →
          filterValue (r.bindings "highlightPlain".toList) Highlight.tagFilters = .ok u ∧
          ∃ d, (TemplateDefinition.ofText "compact-list".toList true
              (compactList.flatMap String.toList)).1 = .ok d ∧
            ∀ limit : Int,
              [.text "- ".toList, .lookup "highlightPlain".toList Highlight.tagFilters] <+:
                (Compiled.ofTemplate limit d.content).tokens ∧
              ∀ s, (Compiled.ofTemplate limit d.content).render r.bindings = .ok s →
                "- ".toList ++ u <+: s := by
  have huntagged := Html.untagged_dropTags (Text.strip t)
  refine ⟨Html.dropTags (Text.strip t), ?_, huntagged.eq_iff, ?_⟩
  · intro v
    rw [Html.untagged_iff]
    exact eq_comm
  · intro hex a seps first ha
    refine ⟨Record.exists_ofGroup ha, fun r hr => ?_⟩
    have hplain := Record.highlightPlain_of_ofGroup ha hr
    rw [Group.paragraphs_of_isUnbroken ht] at hplain
    have hshown : (Pipeline.ofSpecs Highlight.tagFilters).run r.highlightPlain =
        .ok (Html.dropTags (Text.strip t)) := by
      rw [hplain, Highlight.run_tagFilters, Highlight.spaced_single]
    refine ⟨hshown, ?_⟩
    obtain ⟨d, hread, hcontent⟩ := exists_compactList
    refine ⟨d, hread, fun limit => ?_⟩
    have htokens := tokens_compactList limit
    rw [← hcontent] at htokens
    refine ⟨htokens, fun s hs => ?_⟩
    have hemit := Record.emit_filtered (Compiled.ofTemplate limit d.content) r
      Highlight.tagFilters
    exact Compiled.prefix_render htokens (hemit.trans hshown) hs

/-- References, and signs that make no tag in this order. -/
def crossedSigns : Text := " &lt;p&gt; & 1 > 0 < \"2\"\n".toList

theorem highlight_shown_crossedSigns :
    Group.IsUnbroken crossedSigns ∧
      ∃ r, Record.ofGroup [] ⟨[{ text := .text crossedSigns }], []⟩ true = .ok r ∧
        filterValue (r.bindings "highlightPlain".toList) Highlight.tagFilters =
          .ok "&lt;p&gt; & 1 > 0 < \"2\"".toList := by
  have hunbroken : Group.IsUnbroken crossedSigns := .of_count (by decide)
  obtain ⟨u, hu, _, h⟩ := highlight_shown_untagged crossedSigns hunbroken
  obtain ⟨hmade, hshown⟩ := h [] { text := .text crossedSigns } [] true rfl
  obtain ⟨r, hr⟩ := hmade ⟨.inl rfl, .inr ⟨[], rfl⟩, .inl rfl⟩
  have hdropped : Html.dropTags (Text.strip crossedSigns) = u :=
    (hu _).1 (Html.untagged_dropTags _)
  refine ⟨hunbroken, r, hr, (hshown r hr).1.trans ?_⟩
  rw [← hdropped]
  decide +kernel

/-- Two comparisons, which make a tag between them. -/
def comparisons : Text := "1 < 2 and 3 > 2".toList

/-- Words of a text that has a tag in it are not all shown. -/
theorem highlight_not_kept_comparisons :
    Group.IsUnbroken comparisons ∧
      ∃ r, Record.ofGroup [] ⟨[{ text := .text comparisons }], []⟩ true = .ok r ∧
        filterValue (r.bindings "highlightPlain".toList) Highlight.tagFilters =
          .ok "1  2".toList ∧
        "1  2".toList ≠ Text.strip comparisons := by
  have hunbroken : Group.IsUnbroken comparisons := .of_count (by decide)
  have hmade : ∃ r, Record.ofGroup [] ⟨[{ text := .text comparisons }], []⟩ true = .ok r :=
    Record.exists_ofGroup rfl ⟨.inl rfl, .inr ⟨[], rfl⟩, .inl rfl⟩
  obtain ⟨r, hr⟩ := hmade
  have hplain := Record.highlightPlain_of_ofGroup rfl hr
  rw [Group.paragraphs_of_isUnbroken hunbroken] at hplain
  refine ⟨hunbroken, r, hr, ?_, by decide⟩
  show (Pipeline.ofSpecs Highlight.tagFilters).run r.highlightPlain = _
  rw [hplain, Highlight.run_tagFilters, Highlight.spaced_single]
  decide +kernel

end Shipped
end Marginalia
