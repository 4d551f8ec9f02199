import Marginalia.Marker
import Marginalia.Proofs.Text.Strip

/-
Blank lines left behind.  A run of blanks with three line breaks or more becomes two
line breaks and what follows the last one, so breaks next to a blank line and blanks
at the ends of a document do not show; all else stays.
-/
namespace Marginalia
namespace Marker

variable {t x y rest w : Text}

/-! ## Past the breaks of a run -/

/-- What follows the last line break among the blanks in front. -/
def pastBreaks (t : Text) : Text := t.drop (throughLastBreak (t.takeWhile Text.isSpace))

theorem collapse_nil : collapseBlankLines [] = [] := collapseBlankLines.eq_1

theorem collapse_break (rest : Text) : collapseBlankLines ('\n' :: rest) =
    if 2 ≤ (rest.takeWhile Text.isSpace).count '\n' then
      '\n' :: '\n' :: collapseBlankLines (pastBreaks rest)
    else '\n' :: collapseBlankLines rest := by
  rw [collapseBlankLines]
  rfl

theorem collapse_cons {c : Char} (h : c ≠ '\n') (rest : Text) :
    collapseBlankLines (c :: rest) = c :: collapseBlankLines rest := by
  rw [collapseBlankLines]
  exact fun hc => h hc

theorem throughLastBreak_break (w r : Text) :
    throughLastBreak (w ++ '\n' :: r) = w.length + 1 + throughLastBreak r := by
  have hle := (List.takeWhile_prefix (l := r.reverse) (· ≠ '\n')).length_le
  rw [List.length_reverse] at hle
  unfold throughLastBreak
  rw [List.reverse_append, List.reverse_cons, List.append_assoc, List.takeWhile_append]
  split
  · rename_i h
    rw [List.length_reverse] at h
    simp only [List.length_append, List.length_cons, h]
    simp
    omega
  · simp only [List.length_append, List.length_cons]
    omega

theorem throughLastBreak_of_not_mem (h : '\n' ∉ t) : throughLastBreak t = 0 := by
  have hall : ∀ c ∈ t.reverse, decide (c ≠ '\n') = true := by
    intro c hc
    rw [decide_eq_true_eq]
    rintro rfl
    exact h (List.mem_reverse.1 hc)
  unfold throughLastBreak
  rw [← List.append_nil t.reverse, List.takeWhile_append_of_pos hall, List.takeWhile_nil,
    List.append_nil, List.length_reverse, Nat.sub_self]

theorem pastBreaks_of_not_mem (h : '\n' ∉ t.takeWhile Text.isSpace) : pastBreaks t = t := by
  unfold pastBreaks
  rw [throughLastBreak_of_not_mem h, List.drop_zero]

theorem pastBreaks_break (hw : Text.isBlank w) (y : Text) :
    pastBreaks (w ++ '\n' :: y) = pastBreaks y := by
  have hrun : (w ++ '\n' :: y).takeWhile Text.isSpace = w ++ '\n' :: y.takeWhile Text.isSpace := by
    rw [List.takeWhile_append_of_pos (by simpa [Text.isBlank] using hw)]
    rfl
  unfold pastBreaks
  rw [hrun, throughLastBreak_break, Nat.add_assoc, List.drop_length_add_append, Nat.add_comm 1]
  rfl

theorem takeWhile_append_cons {c : Char} (hc : Text.isSpace c = false) (x rest : Text) :
    (x ++ c :: rest).takeWhile Text.isSpace = x.takeWhile Text.isSpace := by
  rw [List.takeWhile_append]
  split
  · rename_i h
    rw [List.takeWhile_cons_of_neg (by simp [hc]), List.append_nil]
    exact ((List.takeWhile_prefix _).eq_of_length h).symm
  · rfl

theorem pastBreaks_append_cons {c : Char} (hc : Text.isSpace c = false) (x rest : Text) :
    pastBreaks (x ++ c :: rest) = pastBreaks x ++ c :: rest := by
  have hle : throughLastBreak (x.takeWhile Text.isSpace) ≤ x.length :=
    Nat.le_trans (Nat.sub_le _ _) (List.takeWhile_prefix _).length_le
  unfold pastBreaks
  rw [takeWhile_append_cons hc, List.drop_append_of_le_length hle]

/-- Nothing but blanks is passed over. -/
theorem exists_pastBreaks (t : Text) : ∃ w, Text.isBlank w ∧ t = w ++ pastBreaks t := by
  let run := t.takeWhile Text.isSpace
  have hrun : (run ++ t.dropWhile Text.isSpace).take (throughLastBreak run) =
      run.take (throughLastBreak run) := List.take_append_of_le_length (Nat.sub_le _ _)
  rw [List.takeWhile_append_dropWhile] at hrun
  refine ⟨t.take (throughLastBreak run), ?_, (List.take_append_drop _ _).symm⟩
  have hall : run.all Text.isSpace := List.all_takeWhile
  rw [hrun]
  exact List.all_eq_true.2 fun c hc => List.all_eq_true.1 hall c (List.mem_of_mem_take hc)

/-! ## What stays -/

/-- Only blanks are dropped or put in. -/
theorem filter_collapse (t : Text) :
    (collapseBlankLines t).filter (!Text.isSpace ·) = t.filter (!Text.isSpace ·) := by
  have hbreak : ∀ s : Text, ('\n' :: s).filter (!Text.isSpace ·) = s.filter (!Text.isSpace ·) :=
    fun s => List.filter_cons_of_neg (by decide)
  induction t using collapseBlankLines.induct with
  | case1 => rw [collapse_nil]
  | case2 rest run hcount ih =>
    obtain ⟨w, hw, hrest⟩ := exists_pastBreaks rest
    have hblank := Text.isBlank_iff_filter.1 hw
    rw [collapse_break, if_pos hcount, hbreak, hbreak, hbreak]
    refine ih.trans ?_
    conv => rhs; rw [hrest, List.filter_append, hblank]
    rfl
  | case3 rest run hcount ih => rw [collapse_break, if_neg hcount, hbreak, hbreak, ih]
  | case4 c rest hc ih =>
    rw [collapse_cons hc, List.filter_cons, List.filter_cons, ih]

theorem isBlank_collapse (h : Text.isBlank t) : Text.isBlank (collapseBlankLines t) := by
  rw [Text.isBlank_iff_filter] at h ⊢
  rw [filter_collapse, h]

/-- Runs of blanks are dealt with one by one. -/
theorem collapse_append_cons {c : Char} (hc : Text.isSpace c = false) (x rest : Text) :
    collapseBlankLines (x ++ c :: rest) =
      collapseBlankLines x ++ collapseBlankLines (c :: rest) := by
  induction x using collapseBlankLines.induct with
  | case1 => rw [collapse_nil]; rfl
  | case2 x run hcount ih =>
    rw [List.cons_append, collapse_break, takeWhile_append_cons hc, if_pos hcount,
      pastBreaks_append_cons hc, collapse_break, if_pos hcount]
    exact congrArg _ (congrArg _ ih)
  | case3 x run hcount ih =>
    rw [List.cons_append, collapse_break, takeWhile_append_cons hc, if_neg hcount, ih,
      collapse_break, if_neg hcount]
    rfl
  | case4 d x hd ih =>
    rw [List.cons_append, collapse_cons hd, collapse_cons hd, ih]
    rfl

/-! ## What does not show -/

theorem pastBreaks_cons_break (y : Text) : pastBreaks ('\n' :: y) = pastBreaks y :=
  pastBreaks_break (w := []) rfl y

/-- Behind a blank line there is no further line break. -/
theorem collapse_blankLine (y : Text) :
    collapseBlankLines ('\n' :: '\n' :: y) = '\n' :: '\n' :: collapseBlankLines (pastBreaks y) := by
  have hrun : ('\n' :: y).takeWhile Text.isSpace = '\n' :: y.takeWhile Text.isSpace := rfl
  rw [collapse_break, hrun, List.count_cons_self, pastBreaks_cons_break]
  split
  · rfl
  · rename_i hcount
    have hzero : (y.takeWhile Text.isSpace).count '\n' = 0 := by omega
    rw [collapse_break, if_neg (by omega), pastBreaks_of_not_mem (List.count_eq_zero.1 hzero)]

/-- The same with a line break and blanks in front. -/
theorem collapse_blankLine_of_break (hw : Text.isBlank w) (y : Text) :
    collapseBlankLines ('\n' :: (w ++ '\n' :: '\n' :: y)) =
      '\n' :: '\n' :: collapseBlankLines (pastBreaks y) := by
  have hrun : (w ++ '\n' :: '\n' :: y).takeWhile Text.isSpace =
      w ++ '\n' :: '\n' :: y.takeWhile Text.isSpace := by
    rw [List.takeWhile_append_of_pos (by simpa [Text.isBlank] using hw)]
    rfl
  have hcount : 2 ≤ (w ++ '\n' :: '\n' :: y.takeWhile Text.isSpace).count '\n' := by
    rw [List.count_append, List.count_cons_self, List.count_cons_self]
    omega
  rw [collapse_break, hrun, if_pos hcount, pastBreaks_break hw, pastBreaks_cons_break]

theorem collapse_extra_break_of_isBlank (hw : Text.isBlank w) (y : Text) :
    collapseBlankLines (w ++ '\n' :: '\n' :: '\n' :: y) =
      collapseBlankLines (w ++ '\n' :: '\n' :: y) := by
  induction w with
  | nil =>
    rw [List.nil_append, List.nil_append, collapse_blankLine, collapse_blankLine,
      pastBreaks_cons_break]
  | cons c w ih =>
    obtain ⟨_, hw⟩ := Text.isBlank_cons.1 hw
    rw [List.cons_append, List.cons_append]
    by_cases hc : c = '\n'
    · rw [hc, collapse_blankLine_of_break hw, collapse_blankLine_of_break hw,
        pastBreaks_cons_break]
    · rw [collapse_cons hc, collapse_cons hc, ih hw]

/-- A line break behind a blank line makes no difference, whatever stands around. -/
theorem collapse_extra_break (x y : Text) :
    collapseBlankLines (x ++ '\n' :: '\n' :: '\n' :: y) =
      collapseBlankLines (x ++ '\n' :: '\n' :: y) := by
  rcases Text.blank_or_exists_last x with hx | ⟨s, c, w, rfl, hc, hw⟩
  · exact collapse_extra_break_of_isBlank hx y
  · have hbreak : c ≠ '\n' := by
      rintro rfl
      exact absurd hc (by decide)
    rw [List.append_assoc, List.append_assoc, List.cons_append, List.cons_append,
      collapse_append_cons hc, collapse_append_cons hc, collapse_cons hbreak, collapse_cons hbreak,
      collapse_extra_break_of_isBlank hw]

/-- Nor do blanks in front, once the document is trimmed. -/
theorem strip_collapse_of_isBlank (hw : Text.isBlank w) (t : Text) :
    Text.strip (collapseBlankLines (w ++ t)) = Text.strip (collapseBlankLines t) := by
  rcases Text.blank_or_exists_first t with ht | ⟨v, c, rest, rfl, hv, hc⟩
  · rw [Text.strip_of_isBlank (isBlank_collapse ht),
      Text.strip_of_isBlank (isBlank_collapse (Text.isBlank_append.2 ⟨hw, ht⟩))]
  · rw [← List.append_assoc, collapse_append_cons hc, collapse_append_cons hc,
      Text.strip_append_left (isBlank_collapse hv),
      Text.strip_append_left (isBlank_collapse (Text.isBlank_append.2 ⟨hw, hv⟩))]

/-! ## Once is enough -/

theorem not_mem_pastBreaks (t : Text) : '\n' ∉ (pastBreaks t).takeWhile Text.isSpace := by
  induction hn : t.length using Nat.strongRecOn generalizing t with
  | ind n ih =>
    subst hn
    by_cases h : '\n' ∈ t.takeWhile Text.isSpace
    · obtain ⟨w, y, hrun⟩ := List.append_of_mem h
      have ht := List.takeWhile_append_dropWhile (p := Text.isSpace) (l := t)
      rw [hrun, List.append_assoc, List.cons_append] at ht
      have hblank : Text.isBlank (w ++ '\n' :: y) := hrun ▸ List.all_takeWhile
      have hlen := congrArg List.length ht
      rw [List.length_append, List.length_cons] at hlen
      rw [← ht, pastBreaks_break (Text.isBlank_append.1 hblank).1]
      exact ih _ (by omega) _ rfl
    · rwa [pastBreaks_of_not_mem h]

theorem takeWhile_break (t : Text) :
    ('\n' :: t).takeWhile Text.isSpace = '\n' :: t.takeWhile Text.isSpace :=
  List.takeWhile_cons_of_pos (by decide)

/-- No line breaks are put in front. -/
theorem count_collapse_le (t : Text) :
    ((collapseBlankLines t).takeWhile Text.isSpace).count '\n' ≤
      (t.takeWhile Text.isSpace).count '\n' := by
  induction t using collapseBlankLines.induct with
  | case1 => exact Nat.le_of_eq (by rw [collapse_nil])
  | case2 rest run hcount ih =>
    have hzero := List.count_eq_zero.2 (not_mem_pastBreaks rest)
    have hrun : 2 ≤ (rest.takeWhile Text.isSpace).count '\n' := hcount
    rw [collapse_break, if_pos hcount, takeWhile_break, takeWhile_break, takeWhile_break]
    simp only [List.count_cons_self]
    change (List.takeWhile _ (collapseBlankLines (pastBreaks rest))).count '\n' ≤
      ((pastBreaks rest).takeWhile Text.isSpace).count '\n' at ih
    omega
  | case3 rest run hcount ih =>
    rw [collapse_break, if_neg hcount, takeWhile_break, takeWhile_break, List.count_cons_self,
      List.count_cons_self]
    exact Nat.succ_le_succ ih
  | case4 c rest hc ih =>
    rw [collapse_cons hc]
    by_cases hspace : Text.isSpace c
    · rw [List.takeWhile_cons_of_pos hspace, List.takeWhile_cons_of_pos hspace,
        List.count_cons_of_ne hc, List.count_cons_of_ne hc]
      exact ih
    · exact Nat.le_of_eq (by
        rw [List.takeWhile_cons_of_neg hspace, List.takeWhile_cons_of_neg hspace])

theorem collapse_collapse (t : Text) :
    collapseBlankLines (collapseBlankLines t) = collapseBlankLines t := by
  induction t using collapseBlankLines.induct with
  | case1 => rw [collapse_nil, collapse_nil]
  | case2 rest run hcount ih =>
    have hle := count_collapse_le (pastBreaks rest)
    rw [List.count_eq_zero.2 (not_mem_pastBreaks rest), Nat.le_zero] at hle
    change collapseBlankLines (collapseBlankLines (pastBreaks rest)) =
      collapseBlankLines (pastBreaks rest) at ih
    rw [collapse_break, if_pos hcount, collapse_blankLine,
      pastBreaks_of_not_mem (List.count_eq_zero.1 hle), ih]
  | case3 rest run hcount ih =>
    have hle := count_collapse_le rest
    have hcount' : ¬ 2 ≤ (rest.takeWhile Text.isSpace).count '\n' := hcount
    rw [collapse_break, if_neg hcount, collapse_break, if_neg (by omega), ih]
  | case4 c rest hc ih => rw [collapse_cons hc, collapse_cons hc, ih]

end Marker
end Marginalia
