import Marginalia.Proofs.Highlight.Markup
import Marginalia.Proofs.Record

/-
The texts of a record as markup.  Joining the markup of several annotations keeps it
markup, so no annotation of a group can add a tag to what a template is given.
-/
namespace Marginalia

namespace Group

open Highlight

variable {allowed : Decoration → Prop} {out block : Text}

theorem isMarkup_joinBlock (hout : IsMarkup allowed out) (s : Separator)
    (hblock : IsMarkup allowed block) : IsMarkup allowed (joinBlock out s block) := by
  cases s with
  | contiguous => exact hout.append (.char (by decide) hblock)
  | gap =>
    have hgap : IsMarkup allowed gapMark := .of_avoids (by decide)
    have hbroken : IsMarkup allowed
        (if paragraphBreak.isSuffixOf out then out else out ++ paragraphBreak) := by
      split
      · exact hout
      · exact hout.append .paragraphBreak
    exact ((hbroken.append hgap).append .paragraphBreak).append hblock

theorem isMarkup_joinBlocks {blocks : List Text} (hblocks : ∀ b ∈ blocks, IsMarkup allowed b)
    (seps : List Separator) : IsMarkup allowed (joinBlocks blocks seps) := by
  by_cases hne : blocks = []
  · rw [hne]
    exact .nil
  · exact joinBlocks_induction (fun _ hb => hb) (fun _ s _ hout hb => isMarkup_joinBlock hout s hb)
      hne hblocks seps

theorem styledTexts_ensures (as : List Annotation) :
    Ensures (fun _ => True) (fun ts => ∀ t ∈ ts, IsMarkup Decoration.IsSafe t)
      (styledTexts as) :=
  (ensures_each styledTexts rfl (fun _ _ => rfl) fun a _ =>
    style_ensures a.text a.color a.drawer).mono fun _ => And.right

theorem plainText_ensures (allowed : Decoration → Prop) (v : Value) :
    Ensures (fun _ => True) (IsMarkup allowed) (plainText v) := by
  unfold plainText
  split
  · exact IsMarkup.joinParagraphs _
  · trivial

theorem plainTexts_ensures (allowed : Decoration → Prop) (as : List Annotation) :
    Ensures (fun _ => True) (fun ts => ∀ t ∈ ts, IsMarkup allowed t) (plainTexts as) :=
  (ensures_each plainTexts rfl (fun _ _ => rfl) fun a _ =>
    plainText_ensures allowed a.text).mono fun _ => And.right

end Group

namespace Record

open Highlight

/-- A group whose annotations hold texts, if anything, has a record.  Its highlight is made
of line breaks, matching tags around the texts, and characters that no tag is made of, and
its plain highlight of line breaks and such characters; every less-than sign starts a tag. -/
theorem texts_are_markup (hex : Text) (g : Group) (first : Bool) :
    (g.annotations ≠ [] → (∀ a ∈ g.annotations, a.text.IsWritten ∧ a.IsReadable) →
      ∃ r, ofGroup hex g first = .ok r) ∧
    ∀ r, ofGroup hex g first = .ok r →
      (IsMarkup Decoration.IsSafe r.highlight ∧ StartsTags Decoration.IsSafe r.highlight) ∧
      IsMarkup (fun _ => False) r.highlightPlain ∧
        StartsTags (fun _ => False) r.highlightPlain := by
  refine ⟨fun hne h => ?_, fun r hr => ?_⟩
  · exact exists_ofGroup_of_written hne (fun a ha => (h a ha).1) fun a ha => (h a ha).2
  · obtain ⟨styled, plain, hstyled, hplain, hhighlight, hhighlightPlain⟩ := texts_of_ofGroup hr
    have hmarkup : IsMarkup Decoration.IsSafe r.highlight := by
      rw [hhighlight]
      exact Group.isMarkup_joinBlocks
        ((Group.styledTexts_ensures g.annotations).of_eq_ok hstyled) g.separators
    have hmarkupPlain : IsMarkup (fun _ => False) r.highlightPlain := by
      rw [hhighlightPlain]
      exact Group.isMarkup_joinBlocks
        ((Group.plainTexts_ensures _ g.annotations).of_eq_ok hplain) g.separators
    exact ⟨⟨hmarkup, hmarkup.startsTags fun _ hd => hd⟩, hmarkupPlain,
      hmarkupPlain.startsTags fun _ hd => hd.elim⟩

/-- Texts and colours that try to be tags. -/
def hostileGroup : Group where
  annotations :=
    [{ text := .text "<u>it's \"x\" & y</mark>\\<br>".toList,
       color := .text "red\"><img".toList,
       drawer := .text "underscore".toList },
     { text := .text "</s><script>".toList, color := .text "#FF0\n".toList }]
  separators := [.gap]

/-- What is left of them. -/
def hostileText : Text :=
  "<u>&lt;u&gt;it&#39;s &quot;x&quot; &amp; y&lt;/mark&gt;<br><br>&lt;br&gt;</u>".toList ++
    "<br><br>[...]<br><br>".toList ++
    "<mark style=\"background:#FF0\n;color:#000;\">&lt;/s&gt;&lt;script&gt;</mark>".toList

theorem texts_are_markup_hostileGroup :
    ∃ r, ofGroup [] hostileGroup true = .ok r ∧
      IsMarkup Decoration.IsSafe r.highlight ∧
      r.highlight = hostileText := by
  obtain ⟨hmade, hmarkup⟩ := texts_are_markup [] hostileGroup true
  have hreadable : ∀ a ∈ hostileGroup.annotations, a.text.IsWritten ∧ a.IsReadable := by
    refine List.forall_mem_cons.2 ⟨⟨.inr ⟨_, rfl⟩, .inr ⟨_, rfl⟩, .inr ⟨[], rfl⟩, .inl rfl⟩, ?_⟩
    exact List.forall_mem_singleton.2 ⟨.inr ⟨_, rfl⟩, .inr ⟨_, rfl⟩, .inr ⟨[], rfl⟩, .inl rfl⟩
  obtain ⟨r, hr⟩ := hmade (by decide) hreadable
  obtain ⟨styled, _, hstyled, _, hhighlight, _⟩ := texts_of_ofGroup hr
  have hjoined : (Group.styledTexts hostileGroup.annotations).map
      (Group.joinBlocks · hostileGroup.separators) = .ok hostileText := by decide +kernel
  rw [hstyled] at hjoined
  exact ⟨r, hr, (hmarkup r hr).1.1, hhighlight.trans (Except.ok.inj hjoined)⟩

end Record
end Marginalia
