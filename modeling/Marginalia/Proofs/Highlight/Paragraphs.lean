import Marginalia.Proofs.Html.Escape
import Marginalia.Proofs.Highlight.Division

/-
The markup of paragraphs.  Once line-break tags are lines again and references are
decoded, the paragraphs are there as they were written.
-/
namespace Marginalia

namespace Text

theorem join_cons_cons (sep t u : Text) (rest : List Text) :
    join sep (t :: u :: rest) = t ++ (sep ++ join sep (u :: rest)) := by
  rw [join, List.append_assoc]
  exact List.cons_ne_nil u rest

theorem join_map_flatMap {f : Char → Text} {sep : Text} (hsep : sep.flatMap f = sep)
    (ts : List Text) : join sep (ts.map (·.flatMap f)) = (join sep ts).flatMap f := by
  induction ts with
  | nil => rfl
  | cons t rest ih =>
    cases rest with
    | nil => rfl
    | cons u rest =>
      rw [join_cons_cons, List.flatMap_append, List.flatMap_append, hsep, ← ih, List.map_cons,
        List.map_cons, join_cons_cons]

end Text

namespace Highlight

def blankLine : Text := ['\n', '\n']

/-- Paragraphs as plain text: trimmed, with a blank line between two. -/
def spaced (ps : List Text) : Text := Text.join blankLine (Group.trimmed ps)

theorem joinParagraphs_eq (ps : List Text) :
    joinParagraphs ps = Text.join paragraphBreak ((Group.trimmed ps).map Html.escape) := by
  unfold joinParagraphs Group.trimmed
  have hempty : ((!·.isEmpty) ∘ Html.escape : Text → Bool) = (!·.isEmpty) := by
    funext t
    rw [Function.comp_apply, Bool.eq_iff_iff]
    simp [Html.escape_eq_nil]
  rw [← hempty, ← List.filter_map, hempty, List.map_map]
  rfl

/-- Where no paragraph has markup in it, the tags between them are all the tags. -/
theorem breaksToLines_join {ts : List Text} (h : ∀ t ∈ ts, '<' ∉ t) {fuel : Nat}
    (hfuel : (Text.join paragraphBreak ts).length ≤ fuel) :
    Html.breaksToLines fuel (Text.join paragraphBreak ts) = Text.join blankLine ts := by
  induction ts generalizing fuel with
  | nil => cases fuel <;> rfl
  | cons t rest ih =>
    obtain ⟨ht, hrest⟩ := List.forall_mem_cons.1 h
    cases rest with
    | nil =>
      obtain ⟨k, rfl⟩ := Nat.exists_eq_add_of_le hfuel
      have := Html.breaksToLines_append ht k []
      rw [List.append_nil] at this
      refine this.trans ?_
      cases k <;> exact List.append_nil t
    | cons u rest =>
      have htags (s : Text) : paragraphBreak ++ s =
          '<' :: 'b' :: 'r' :: '>' :: '<' :: 'b' :: 'r' :: '>' :: s := rfl
      rw [Text.join_cons_cons, htags] at hfuel ⊢
      simp only [List.length_append, List.length_cons] at hfuel
      obtain ⟨k, rfl⟩ : ∃ k, fuel = t.length + (k + 1 + 1) := ⟨fuel - t.length - 2, by omega⟩
      rw [Text.join_cons_cons, Html.breaksToLines_append ht, Html.breaksToLines_break,
        Html.breaksToLines_break, ih hrest (by omega)]
      rfl

theorem lineBreaks_joinParagraphs (ps : List Text) :
    Html.lineBreaks (joinParagraphs ps) = Html.escape (spaced ps) := by
  rw [joinParagraphs_eq]
  unfold Html.lineBreaks
  rw [breaksToLines_join ?_ (Nat.le_refl _)]
  · exact Text.join_map_flatMap rfl (Group.trimmed ps)
  · intro t ht
    obtain ⟨u, _, rfl⟩ := List.mem_map.1 ht
    exact Html.markup_not_mem_escape u

/-- The filters that take the markup of plain text back. -/
def plainFilters : List Text := ["br2nl".toList, "unescapeHtml".toList]

theorem run_plainFilters (ps : List Text) :
    (Pipeline.ofSpecs plainFilters).run (joinParagraphs ps) = .ok (spaced ps) := by
  have hfilters : Pipeline.ofSpecs plainFilters =
      [(.breaksToLines, none), (.unescapeHtml, none)] := by decide
  have hdecoded : Filter.unescapeHtml.apply none (Html.lineBreaks (joinParagraphs ps)) =
      .ok (spaced ps) := by
    rw [lineBreaks_joinParagraphs]
    exact Html.decode_escape (spaced ps)
  rw [hfilters]
  show Pipeline.run [(.unescapeHtml, none)] (Html.lineBreaks (joinParagraphs ps)) = _
  unfold Pipeline.run
  rw [hdecoded]
  rfl

end Highlight
end Marginalia
