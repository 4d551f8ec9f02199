import Marginalia.Proofs.Text.Cut
import Marginalia.Proofs.Text.Words
import Marginalia.Text.Lines

/-
Line breaks in what is trimmed.  Every line break is a blank, so that trimming may lose some;
what it takes away without losing any are blanks within a line.
-/
namespace Marginalia
namespace Text

/-- How many code points of a text break lines. -/
def breaks (t : Text) : Nat := t.countP isLineBreak

/-- Blanks within a line. -/
def IsMargin (t : Text) : Prop := ∀ c ∈ t, isSpace c ∧ isLineBreak c = false

/-- What breaks a line is a blank. -/
theorem isSpace_of_isLineBreak {c : Char} (h : isLineBreak c) : isSpace c := by
  unfold isLineBreak at h
  unfold isSpace
  generalize c.toNat = n at h ⊢
  have hn : n ∈ [10, 11, 12, 13, 0x1C, 0x1D, 0x1E, 0x85, 0x2028, 0x2029] := by
    simp only [Bool.or_eq_true, Bool.and_eq_true, decide_eq_true_eq] at h
    simp only [List.mem_cons, List.not_mem_nil, or_false]
    omega
  have hall : ∀ n ∈ [10, 11, 12, 13, 0x1C, 0x1D, 0x1E, 0x85, 0x2028, 0x2029],
      inRanges spaceRanges n := by decide
  exact hall n hn

theorem not_isLineBreak_of_isWord {c : Char} (h : isWord c) : isLineBreak c = false := by
  have hspace := not_isSpace_of_isWord h
  rw [← Bool.not_eq_true]
  intro hline
  rw [isSpace_of_isLineBreak hline] at hspace
  cases hspace

theorem breaks_append (t u : Text) : breaks (t ++ u) = breaks t + breaks u := List.countP_append

theorem breaks_cons {c : Char} (hc : isLineBreak c = false) (t : Text) :
    breaks (c :: t) = breaks t :=
  List.countP_cons_of_neg (by simp [hc])

theorem breaks_cons_eq_zero {c : Char} {t : Text} :
    breaks (c :: t) = 0 ↔ isLineBreak c = false ∧ breaks t = 0 := by
  simp [breaks, List.countP_eq_zero]

theorem isMargin_of_isBlank {t : Text} (h : isBlank t) (hbreaks : breaks t = 0) : IsMargin t := by
  intro c hc
  have hline := List.countP_eq_zero.1 hbreaks c hc
  exact ⟨List.all_eq_true.1 h c hc, by simpa using hline⟩

theorem breaks_strip_le (t : Text) : breaks (strip t) ≤ breaks t := by
  have hpart := Text.strip_infix t
  exact hpart.sublist.countP_le

/-- Trimming that loses no line break takes margins away. -/
theorem exists_margins {t : Text} (h : breaks t ≤ breaks (strip t)) :
    ∃ before after, IsMargin before ∧ IsMargin after ∧ t = before ++ strip t ++ after := by
  obtain ⟨before, after, hbefore, hafter, heq⟩ := exists_strip t
  have hsum := congrArg breaks heq
  rw [breaks_append, breaks_append] at hsum
  exact ⟨before, after, isMargin_of_isBlank hbefore (by omega),
    isMargin_of_isBlank hafter (by omega), heq⟩

theorem isBlank_of_strip {t : Text} (h : strip t = []) : isBlank t := by
  obtain ⟨before, after, hbefore, hafter, heq⟩ := exists_strip t
  rw [h, List.append_nil] at heq
  rw [heq]
  exact isBlank_append.2 ⟨hbefore, hafter⟩

/-! ## Parts of a tag -/

theorem breaks_join_cons (f : Text) (fs : List Text) :
    breaks (join ['|'] (f :: fs)) = breaks f + breaks (join ['|'] fs) := by
  cases fs with
  | nil => rfl
  | cons g rest =>
    rw [join_cons_of_ne_nil (List.cons_ne_nil g rest), breaks_append, breaks_cons (by decide)]

/-- Parts of a tag without the blanks around them, as far as any are left. -/
def trimmed (fs : List Text) : List Text := (fs.map strip).filter (!·.isEmpty)

theorem trimmed_cons (f : Text) (fs : List Text) :
    trimmed (f :: fs) = if strip f = [] then trimmed fs else strip f :: trimmed fs := by
  unfold trimmed
  rw [List.map_cons, List.filter_cons]
  split
  · rename_i h
    rw [if_neg (by simpa using h)]
  · rename_i h
    rw [if_pos (by simpa using h)]

theorem breaks_trimmed_cons (f : Text) (fs : List Text) :
    breaks (join ['|'] (trimmed (f :: fs))) =
      breaks (strip f) + breaks (join ['|'] (trimmed fs)) := by
  rw [trimmed_cons]
  split
  · rename_i h
    rw [h]
    exact (Nat.zero_add _).symm
  · exact breaks_join_cons _ _

theorem breaks_trimmed_le (fs : List Text) :
    breaks (join ['|'] (trimmed fs)) ≤ breaks (join ['|'] fs) := by
  induction fs with
  | nil => exact Nat.le_refl _
  | cons f rest ih =>
    have hf := breaks_strip_le f
    rw [breaks_trimmed_cons, breaks_join_cons]
    omega

end Text
end Marginalia
