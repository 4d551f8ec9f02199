import Mathlib.Data.List.DropRight
import Marginalia.Proofs.Marker.BlankLines
import Marginalia.Proofs.Marker.Scan
import Marginalia.Proofs.Text.Words

/-
Markers and blanks.  Between the signs of a marker any run of blanks can stand and none has to,
so where markers start does not depend on which blanks a run has; in particular no marker comes
up or is lost when blank lines are collapsed.
-/
namespace Marginalia
namespace Marker

open Text (collapseRuns isSpace)

variable {t u ws : Text} {c : Char}

/-! ## Signs -/

theorem isPrefixOf_collapseRuns {sign : Text} (h : Text.IsUnspaced sign) (t : Text) :
    sign.isPrefixOf (collapseRuns t) = sign.isPrefixOf t := by
  induction sign generalizing t with
  | nil => simp
  | cons d sign ih =>
    obtain ⟨hd, hsign⟩ := List.forall_mem_cons.1 h
    have hne : ∀ e, isSpace e → (d == e) = false := by
      intro e he
      rw [beq_eq_false_iff_ne]
      rintro rfl
      rw [hd] at he
      cases he
    cases t with
    | nil => rw [Text.collapseRuns_nil]
    | cons c t =>
      by_cases hc : isSpace c
      · rw [Text.collapseRuns_space hc, List.isPrefixOf, List.isPrefixOf, hne ' ' (by decide),
          hne c hc, Bool.false_and, Bool.false_and]
      · rw [Text.collapseRuns_cons (by simpa using hc), List.isPrefixOf, List.isPrefixOf, ih hsign]

/-- A sign is found with the runs behind it collapsed as they are without it. -/
theorem after?_collapseRuns {sign : Text} (h : Text.IsUnspaced sign) (t : Text) :
    after? sign (collapseRuns t) = (after? sign t).map collapseRuns := by
  cases hafter : after? sign t with
  | some r =>
    rw [eq_of_after? hafter, Text.collapseRuns_append h, after?_append]
    rfl
  | none =>
    unfold after? at hafter ⊢
    split at hafter
    · cases hafter
    · rename_i hnot
      rw [isPrefixOf_collapseRuns h, if_neg hnot]
      rfl

theorem isUnspaced_opening (style : MarkerStyle) : Text.IsUnspaced style.opening := by
  cases style <;> decide

theorem isUnspaced_closing (style : MarkerStyle) : Text.IsUnspaced style.closing := by
  cases style <;> decide

theorem opening?_collapseRuns (t : Text) :
    opening? (collapseRuns t) = (opening? t).map collapseRuns := by
  have hhtml := after?_collapseRuns (isUnspaced_opening .html) t
  have hpercent := after?_collapseRuns (isUnspaced_opening .percent) t
  unfold opening?
  change after? "<!--".toList _ = (after? "<!--".toList t).map _ at hhtml
  change after? "%%".toList _ = (after? "%%".toList t).map _ at hpercent
  rw [hhtml, hpercent]
  cases after? "<!--".toList t <;> rfl

theorem isSome_closing?_collapseRuns (t : Text) :
    (closing? (collapseRuns t)).isSome = (closing? t).isSome := by
  rw [isSome_closing?, isSome_closing?]
  exact congrArg₂ _ (isPrefixOf_collapseRuns (isUnspaced_closing .html) t)
    (isPrefixOf_collapseRuns (isUnspaced_closing .percent) t)

/-! ## Payloads -/

theorem endsHere_collapseRuns (t : Text) : EndsHere (collapseRuns t) ↔ EndsHere t := by
  unfold EndsHere
  rw [Text.dropWhile_collapseRuns, isSome_closing?_collapseRuns]

theorem isSome_payloadEnd?_blank (h : Text.isBlank ws) (t : Text) :
    (payloadEnd? (ws ++ t)).isSome = (payloadEnd? t).isSome := by
  have hbrace : '}' ∉ ws := fun hmem => absurd (List.all_eq_true.1 h _ hmem) (by decide)
  rw [payloadEnd?_append (runsOn_of_not_mem hbrace), Option.isSome_map]

theorem isSome_payloadEnd?_collapseRuns (t : Text) :
    (payloadEnd? (collapseRuns t)).isSome = (payloadEnd? t).isSome := by
  induction t using Text.collapseRuns.induct with
  | case1 => rw [Text.collapseRuns_nil]
  | case2 c t hc ih =>
    have hrun : Text.isBlank (c :: t.takeWhile isSpace) :=
      Text.isBlank_cons.2 ⟨hc, List.all_takeWhile⟩
    have hskip := isSome_payloadEnd?_blank hrun (t.dropWhile isSpace)
    rw [List.cons_append, List.takeWhile_append_dropWhile] at hskip
    rw [Text.collapseRuns_space hc, hskip, ← ih]
    exact isSome_payloadEnd?_blank (show Text.isBlank [' '] by decide) _
  | case3 c t hc ih =>
    rw [Text.collapseRuns_cons (by simpa using hc)]
    by_cases hend : c = '}' ∧ EndsHere t
    · obtain ⟨rfl, hend⟩ := hend
      obtain ⟨r, hr⟩ := Option.isSome_iff_exists.1 hend
      obtain ⟨r', hr'⟩ := Option.isSome_iff_exists.1 ((endsHere_collapseRuns t).2 hend)
      rw [payloadEnd?_brace hr, payloadEnd?_brace hr']
      rfl
    · rw [not_and] at hend
      rw [payloadEnd?_cons hend, Option.isSome_map,
        payloadEnd?_cons fun hbrace => mt (endsHere_collapseRuns t).1 (hend hbrace),
        Option.isSome_map, ih]

theorem isSome_payloadAt?_collapseRuns (t : Text) :
    (payloadAt? (collapseRuns t)).isSome = (payloadAt? t).isSome := by
  cases t with
  | nil => rw [Text.collapseRuns_nil]
  | cons c t =>
    have hother : ∀ (d : Char) (s : Text), d ≠ '{' → payloadAt? (d :: s) = none := by
      intro d s hd
      unfold payloadAt?
      split
      · rename_i heq
        exact absurd (List.cons.inj heq).1 hd
      · rfl
    by_cases hc : isSpace c
    · have hbrace : c ≠ '{' := by
        rintro rfl
        exact absurd hc (by decide)
      rw [Text.collapseRuns_space hc, hother ' ' _ (by decide), hother c t hbrace]
    · rw [Text.collapseRuns_cons (by simpa using hc)]
      by_cases hbrace : c = '{'
      · subst hbrace
        show Option.isSome ((payloadEnd? _).map _) = Option.isSome ((payloadEnd? _).map _)
        rw [Option.isSome_map, Option.isSome_map, isSome_payloadEnd?_collapseRuns]
      · rw [hother c _ hbrace, hother c t hbrace]

theorem isSome_match?_collapseRuns (t : Text) :
    (match? (collapseRuns t)).isSome = (match? t).isSome := by
  have hword : Text.IsUnspaced word := by decide
  have hmatch : ∀ s : Text, match? s = (opening? s).bind fun a =>
      (after? word (a.dropWhile isSpace)).bind fun b => payloadAt? (b.dropWhile isSpace) :=
    fun _ => rfl
  rw [hmatch, hmatch, opening?_collapseRuns]
  cases opening? t with
  | none => rfl
  | some a =>
    rw [Option.map_some, Option.bind_some, Option.bind_some, Text.dropWhile_collapseRuns,
      after?_collapseRuns hword]
    cases after? word (a.dropWhile isSpace) with
    | none => rfl
    | some b =>
      rw [Option.map_some, Option.bind_some, Option.bind_some, Text.dropWhile_collapseRuns,
        isSome_payloadAt?_collapseRuns]

/-! ## Texts without markers -/

/-- No marker starts anywhere in a text. -/
def IsBare (t : Text) : Prop := ∀ u, u <:+ t → match? u = none

theorem isBare_nil : IsBare [] := by
  rintro u hu
  rw [List.suffix_nil.1 hu]
  rfl

theorem isBare_cons : IsBare (c :: t) ↔ match? (c :: t) = none ∧ IsBare t := by
  constructor
  · exact fun h => ⟨h _ List.suffix_rfl, fun u hu => h u (hu.trans (List.suffix_cons c t))⟩
  · rintro ⟨hc, ht⟩ u hu
    rcases List.suffix_cons_iff.1 hu with rfl | hu
    · exact hc
    · exact ht u hu

theorem replace_of_isBare {f : Text → Text → Text} (h : IsBare t) : replace f t = t := by
  have hnone : ∀ u, u ≠ [] → u <:+ t → match? (u ++ []) = none := by
    intro u _ hu
    rw [List.append_nil]
    exact h u hu
  have hall := replace_append (f := f) hnone
  rwa [List.append_nil, replace_nil, List.append_nil] at hall

theorem match?_space (hc : isSpace c) (t : Text) : match? (c :: t) = none := by
  have hne : ∀ d : Char, isSpace d = false → (d == c) = false := by
    intro d hd
    rw [beq_eq_false_iff_ne]
    rintro rfl
    rw [hd] at hc
    cases hc
  refine match?_of_opening? ?_
  simp [opening?, after?, List.isPrefixOf, hne '<' (by decide), hne '%' (by decide)]

theorem isBare_blank (h : Text.isBlank ws) : IsBare (ws ++ t) ↔ IsBare t := by
  induction ws with
  | nil => rfl
  | cons c ws ih =>
    obtain ⟨hc, hws⟩ := Text.isBlank_cons.1 h
    rw [List.cons_append, isBare_cons, ih hws, and_iff_right (match?_space hc _)]

theorem isBare_collapseRuns (t : Text) : IsBare (collapseRuns t) ↔ IsBare t := by
  induction t using Text.collapseRuns.induct with
  | case1 => rw [Text.collapseRuns_nil]
  | case2 c t hc ih =>
    have hrun : Text.isBlank (c :: t.takeWhile isSpace) :=
      Text.isBlank_cons.2 ⟨hc, List.all_takeWhile⟩
    have hskip := isBare_blank (t := t.dropWhile isSpace) hrun
    rw [List.cons_append, List.takeWhile_append_dropWhile] at hskip
    rw [Text.collapseRuns_space hc, hskip, ← ih, isBare_cons,
      and_iff_right (match?_space (by decide) _)]
  | case3 c t hc ih =>
    have hsome := isSome_match?_collapseRuns (c :: t)
    rw [Text.collapseRuns_cons (by simpa using hc)] at hsome ⊢
    rw [isBare_cons, isBare_cons, ih, ← Option.not_isSome_iff_eq_none,
      ← Option.not_isSome_iff_eq_none, hsome]

/-! ## Blank lines -/

/-- A run starts with one blank, and goes on with none. -/
theorem collapseRuns_run (hc : isSpace c) (t : Text) :
    collapseRuns (c :: t) = ' ' :: (collapseRuns t).dropWhile isSpace := by
  rw [Text.collapseRuns_space hc, Text.dropWhile_collapseRuns]

theorem collapseRuns_collapse (t : Text) :
    collapseRuns (collapseBlankLines t) = collapseRuns t := by
  have hbreak : isSpace '\n' = true := by decide
  have hspace : isSpace ' ' = true := by decide
  induction t using collapseBlankLines.induct with
  | case1 => rw [collapse_nil]
  | case2 rest run hcount ih =>
    obtain ⟨w, hw, hrest⟩ := exists_pastBreaks rest
    change collapseRuns (collapseBlankLines (pastBreaks rest)) =
      collapseRuns (pastBreaks rest) at ih
    have hpast : rest.dropWhile isSpace = (pastBreaks rest).dropWhile isSpace := by
      conv_lhs => rw [hrest, dropWhile_blank hw]
    rw [collapse_break, if_pos hcount, collapseRuns_run hbreak, collapseRuns_run hbreak,
      List.dropWhile_cons_of_pos hspace, List.dropWhile_idempotent, ih,
      Text.dropWhile_collapseRuns, ← hpast, Text.collapseRuns_space hbreak]
  | case3 rest run hcount ih =>
    rw [collapse_break, if_neg hcount, collapseRuns_run hbreak, collapseRuns_run hbreak, ih]
  | case4 c rest hc ih =>
    rw [collapse_cons hc]
    by_cases hspace : isSpace c
    · rw [collapseRuns_run hspace, collapseRuns_run hspace, ih]
    · rw [Text.collapseRuns_cons (by simpa using hspace),
        Text.collapseRuns_cons (by simpa using hspace), ih]

/-- No marker comes up when blank lines are collapsed, and none is lost. -/
theorem isBare_collapse (t : Text) : IsBare (collapseBlankLines t) ↔ IsBare t := by
  rw [← isBare_collapseRuns, collapseRuns_collapse, isBare_collapseRuns]

end Marker
end Marginalia
