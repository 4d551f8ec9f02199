import Marginalia.Proofs.Highlight.Markup
import Marginalia.Proofs.Text.Cut

/-
Line breaks in the markup of a highlight.  Two of them stand between paragraphs, and none
stands at either end, so that three in a row are nowhere, and do not come about where
highlights are joined with breaks that are not doubled.
-/
namespace Marginalia
namespace Highlight

variable {c : Char} {s t content : Text}

def threeBreaks : Text := lineBreak ++ paragraphBreak

/-- Where three line breaks come apart in front of a less-than sign, both parts have whole
line breaks at the place. -/
theorem lineBreak_around {x y : Text} (h : threeBreaks = x ++ y) (hx : x ≠ [])
    (hy : '<' ∈ y.head?) : lineBreak <:+ x ∧ lineBreak <+: y := by
  have hplaces : ∀ n < threeBreaks.length, n ≠ 0 → '<' ∈ (threeBreaks.drop n).head? →
      lineBreak <:+ threeBreaks.take n ∧ lineBreak <+: threeBreaks.drop n := by decide
  have hlength := congrArg List.length h
  rw [List.length_append] at hlength
  have hpos : 0 < y.length := List.length_pos_of_mem (List.mem_of_mem_head? hy)
  have := hplaces x.length (by omega) (by simpa using hx)
  rw [h, List.take_left, List.drop_left] at this
  exact this hy

/-! ## Texts without three breaks in a row -/

/-- No three line breaks follow each other. -/
def IsCalm (t : Text) : Prop := ¬ threeBreaks <:+: t

theorem isCalm_iff : IsCalm t ↔ Text.holds threeBreaks t = false := by
  rw [IsCalm, ← Text.holds_iff_infix, Bool.not_eq_true]

instance (t : Text) : Decidable (IsCalm t) := decidable_of_iff _ isCalm_iff.symm

theorem isCalm_of_not_mem (h : '<' ∉ t) : IsCalm t :=
  fun hbreaks => h (hbreaks.subset (by decide))

/-- Three breaks that are in neither of two texts lie across the place where they meet. -/
theorem IsCalm.append (hs : IsCalm s) (ht : IsCalm t)
    (h : ∀ x y, threeBreaks = x ++ y → x ≠ [] → y ≠ [] → x <:+ s → ¬ y <+: t) :
    IsCalm (s ++ t) := by
  intro hbreaks
  rcases List.infix_append_iff.1 hbreaks with hbreaks | hbreaks | ⟨x, y, heq, hx, hy⟩
  · exact hs hbreaks
  · exact ht hbreaks
  · refine h x y heq ?_ ?_ hx hy
    · rintro rfl
      exact ht (heq ▸ hy.isInfix)
    · rintro rfl
      rw [List.append_nil] at heq
      exact hs (heq ▸ hx.isInfix)

theorem IsCalm.behind (hs : '<' ∉ s) (ht : IsCalm t) : IsCalm (s ++ t) := by
  refine (isCalm_of_not_mem hs).append ht fun x y heq hx _ hxs => ?_
  obtain ⟨d, x, rfl⟩ := List.exists_cons_of_ne_nil hx
  have hd : '<' = d := (List.cons.inj heq).1
  exact absurd (hxs.subset (hd ▸ List.mem_cons_self)) hs

theorem mem_head?_of_cons {y : Text} (h : y <+: c :: t) (hy : y ≠ []) : c ∈ y.head? := by
  obtain ⟨d, y, rfl⟩ := List.exists_cons_of_ne_nil hy
  exact congrArg some (List.cons_prefix_cons.1 h).1

theorem IsCalm.across (hs : IsCalm s) (hc : c ∉ threeBreaks) (ht : IsCalm t) :
    IsCalm (s ++ c :: t) := by
  rw [isCalm_iff] at *
  exact Text.holds_across hc hs ht

/-- A break between paragraphs can follow a text that ends in no line break. -/
theorem IsCalm.append_break (hs : IsCalm s) (h : ¬ lineBreak <:+ s) :
    IsCalm (s ++ paragraphBreak) := by
  refine hs.append (by decide) fun x y heq hx hy hxs hyt => ?_
  exact h ((lineBreak_around heq hx (mem_head?_of_cons hyt hy)).1.trans hxs)

/-- A text that starts with no line break can follow a break between paragraphs. -/
theorem IsCalm.break_append (ht : IsCalm t) (h : ¬ lineBreak <+: t) :
    IsCalm (paragraphBreak ++ t) := by
  have hstarts : ∀ n < threeBreaks.length, n ≠ 0 → threeBreaks.take n <:+ paragraphBreak →
      '<' ∈ (threeBreaks.drop n).head? := by decide
  refine IsCalm.append (by decide) ht fun x y heq hx hy hxs hyt => ?_
  have hlength := congrArg List.length heq
  rw [List.length_append] at hlength
  have hpos : 0 < y.length := List.length_pos_iff.2 hy
  have hhead := hstarts x.length (by omega) (by simpa using hx)
  rw [heq, List.take_left, List.drop_left] at hhead
  exact h ((lineBreak_around heq hx (hhead hxs)).2.trans hyt)

/-! ## Ends -/

/-- Behind a character that line breaks are not made of, a text ends in one only by itself. -/
theorem not_suffix_across (hc : c ∉ lineBreak) (h : ¬ lineBreak <:+ t) (s : Text) :
    ¬ lineBreak <:+ s ++ c :: t := by
  intro hbreak
  rcases List.suffix_or_suffix_of_suffix hbreak (List.suffix_append s (c :: t)) with hin | hout
  · rcases List.suffix_cons_iff.1 hin with heq | hin
    · exact hc (heq ▸ List.mem_cons_self)
    · exact h hin
  · exact hc (hout.subset List.mem_cons_self)

/-- So it is behind a break between paragraphs, unless nothing follows there. -/
theorem not_suffix_behind_break (hne : t ≠ []) (h : ¬ lineBreak <:+ t) (s : Text) :
    ¬ lineBreak <:+ s ++ (paragraphBreak ++ t) := by
  have hlast : s ++ (paragraphBreak ++ t) = (s ++ "<br><br".toList) ++ '>' :: t := by
    rw [List.append_assoc]
    rfl
  have hsigns : lineBreak = ['<', 'b', 'r', '>'] := rfl
  rw [hlast]
  intro hbreak
  rcases List.suffix_or_suffix_of_suffix hbreak (List.suffix_append _ ('>' :: t)) with hin | hout
  · rcases List.suffix_cons_iff.1 hin with heq | hin
    · cases heq
    · exact h hin
  · rw [hsigns] at hout
    simp [List.suffix_cons_iff] at hout
    exact hne hout

/-! ## Blocks -/

/-- A text with no line break at either end and no three in a row. -/
structure IsBlock (t : Text) : Prop where
  isCalm : IsCalm t
  start : ¬ lineBreak <+: t
  stop : ¬ lineBreak <:+ t

theorem isBlock_of_not_mem (h : '<' ∉ t) : IsBlock t :=
  ⟨isCalm_of_not_mem h, fun hbreak => h (hbreak.subset (by decide)),
    fun hbreak => h (hbreak.subset (by decide))⟩

theorem isBlock_join {ts : List Text} (h : ∀ t ∈ ts, t ≠ [] ∧ '<' ∉ t) :
    IsBlock (Text.join paragraphBreak ts) ∧ (ts ≠ [] → Text.join paragraphBreak ts ≠ []) := by
  induction ts with
  | nil => exact ⟨isBlock_of_not_mem List.not_mem_nil, fun hne => absurd rfl hne⟩
  | cons t rest ih =>
    obtain ⟨⟨hne, hmem⟩, hrest⟩ := List.forall_mem_cons.1 h
    cases rest with
    | nil => exact ⟨isBlock_of_not_mem hmem, fun _ => hne⟩
    | cons u rest =>
      obtain ⟨hblock, hmore⟩ := ih hrest
      rw [Text.join_cons_cons]
      refine ⟨⟨.behind hmem (hblock.isCalm.break_append hblock.start), ?_, ?_⟩, fun _ => ?_⟩
      · obtain ⟨c, t, rfl⟩ := List.exists_cons_of_ne_nil hne
        intro hbreak
        exact hmem ((List.cons_prefix_cons.1 hbreak).1 ▸ List.mem_cons_self)
      · exact not_suffix_behind_break (hmore (List.cons_ne_nil u rest)) hblock.stop t
      · exact List.append_ne_nil_of_left_ne_nil hne _

theorem isBlock_joinParagraphs (ps : List Text) : IsBlock (joinParagraphs ps) := by
  rw [joinParagraphs_eq]
  refine (isBlock_join fun t ht => ?_).1
  obtain ⟨p, hp, rfl⟩ := List.mem_map.1 ht
  have hne : p ≠ [] := by simpa using (List.mem_filter.1 hp).2
  exact ⟨fun hnil => hne (Html.escape_eq_nil.1 hnil), Html.markup_not_mem_escape p⟩

/-! ## Decorations -/

section

variable {e : Char} (he : e ≠ 'b')
include he

theorem not_prefix_tag (t : Text) : ¬ lineBreak <+: '<' :: e :: t := by
  intro hbreak
  obtain ⟨_, hrest⟩ := List.cons_prefix_cons.1 hbreak
  exact he (List.cons_prefix_cons.1 hrest).1.symm

theorem isCalm_tag (h : IsCalm (e :: t)) : IsCalm ('<' :: e :: t) := by
  intro hbreaks
  rcases List.infix_cons_iff.1 hbreaks with hstart | hbreaks
  · exact not_prefix_tag he t ((List.prefix_append lineBreak paragraphBreak).trans hstart)
  · exact h hbreaks

theorem IsCalm.append_tag (hs : IsCalm s) (ht : IsCalm (e :: t)) :
    IsCalm (s ++ '<' :: e :: t) := by
  refine hs.append (isCalm_tag he ht) fun x y heq hx hy _ hyt => ?_
  exact not_prefix_tag he t ((lineBreak_around heq hx (mem_head?_of_cons hyt hy)).2.trans hyt)

end

theorem opening_eq {d : Decoration} (hsafe : d.IsSafe) :
    ∃ e rest, d.opening = '<' :: e :: rest ∧ e ≠ 'b' ∧ '<' ∉ e :: rest := by
  have hmem := not_mem_tail_opening hsafe
  cases d with
  | underline => exact ⟨_, _, rfl, by decide, hmem⟩
  | strike => exact ⟨_, _, rfl, by decide, hmem⟩
  | mark background foreground => exact ⟨_, _, rfl, by decide, hmem⟩

theorem closing_eq (d : Decoration) : ∃ rest, d.closing = '<' :: '/' :: rest ∧ '<' ∉ rest := by
  cases d with
  | underline => exact ⟨_, rfl, by decide⟩
  | strike => exact ⟨_, rfl, by decide⟩
  | mark background foreground => exact ⟨_, rfl, by decide⟩

theorem IsDressed.isBlock (h : IsDressed content t) (hcontent : IsBlock content) : IsBlock t := by
  cases h with
  | plain => exact hcontent
  | @decorated d hsafe =>
    obtain ⟨e, rest, hopening, he, hrest⟩ := opening_eq hsafe
    obtain ⟨tail, hclosing, htail⟩ := closing_eq d
    have hend : IsBlock tail := isBlock_of_not_mem htail
    have hslash : IsCalm ('/' :: tail) :=
      isCalm_of_not_mem (List.not_mem_cons_of_ne_of_not_mem (by decide) htail)
    have hinner : IsCalm (content ++ '<' :: '/' :: tail) :=
      hcontent.isCalm.append_tag (by decide) hslash
    rw [hopening, hclosing, List.append_assoc]
    refine ⟨isCalm_tag he (.behind hrest hinner), not_prefix_tag he _, ?_⟩
    rw [← List.append_assoc, List.append_cons]
    exact not_suffix_across (by decide) hend.stop _

/-- The markup of a highlight is a block, whatever its text, its colour and its decoration are. -/
theorem style_isBlock (text colour drawer : Value) :
    Ensures (fun _ => True) IsBlock (style text colour drawer) :=
  (style_dressed text colour drawer).mono fun _ ⟨ps, ht⟩ =>
    ht.isBlock (isBlock_joinParagraphs ps)

end Highlight
end Marginalia
