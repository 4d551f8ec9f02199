import Mathlib.Data.List.TakeWhile
import Marginalia.Proofs.Text.Cut
import Marginalia.Text.Word

/-
The words of a text.  Word characters are not blanks: the ranges of the two classes do not
overlap.  A text is blank, or it has a first word, with blanks around it; from that everything
about words follows by induction.  With its blanks normalized a text is its words with single
spaces between them, however they were spaced.
-/
namespace Marginalia

/-! ## Word characters -/

theorem exists_of_inRanges {ranges : List (Nat × Nat)} {n : Nat} (h : inRanges ranges n = true) :
    ∃ r ∈ ranges, r.1 ≤ n ∧ n ≤ r.2 := by
  induction ranges with
  | nil => cases h
  | cons r rest ih =>
    obtain ⟨lo, hi⟩ := r
    unfold inRanges at h
    split at h
    · cases h
    · rename_i hlo
      rw [Bool.or_eq_true, decide_eq_true_eq] at h
      rcases h with hhi | h
      · exact ⟨(lo, hi), List.mem_cons_self, Nat.not_lt.1 hlo, hhi⟩
      · obtain ⟨s, hs, hn⟩ := ih h
        exact ⟨s, List.mem_cons_of_mem _ hs, hn⟩

namespace Text

theorem spaceRanges_apart :
    ∀ r ∈ spaceRanges, ∀ s ∈ wordRanges, r.2 < s.1 ∨ s.2 < r.1 := by
  decide +kernel

theorem not_isSpace_of_isWord {c : Char} (h : isWord c) : isSpace c = false := by
  cases hspace : isSpace c with
  | false => rfl
  | true =>
    obtain ⟨r, hr, hlow, hhigh⟩ := exists_of_inRanges hspace
    obtain ⟨s, hs, hlow', hhigh'⟩ := exists_of_inRanges h
    have := spaceRanges_apart r hr s hs
    omega

/-- The marks that tags are written with, and the blank, stand in no word. -/
theorem ne_mark_of_isWord {c d : Char} (h : isWord c)
    (hd : d ∈ [' ', '#', '/', '{', '|', '}']) : c ≠ d := by
  have hmarks : ([' ', '#', '/', '{', '|', '}'].all fun m => !isWord m) = true := by decide
  rintro rfl
  have hmark := List.all_eq_true.1 hmarks c hd
  rw [h] at hmark
  cases hmark

end Text

/-! ## Blanks around words -/

namespace Text

variable {t u w ws rest : Text} {c : Char}

/-- No code point of a text is a blank. -/
def IsUnspaced (w : Text) : Prop := ∀ c ∈ w, isSpace c = false

instance (w : Text) : Decidable (IsUnspaced w) := List.decidableBAll (isSpace · = false) w

/-- A text is over, or starts with a blank. -/
def AtSpace (t : Text) : Prop := ∀ c ∈ t.head?, isSpace c

theorem AtSpace.append (ht : AtSpace t) (hu : AtSpace u) : AtSpace (t ++ u) := by
  cases t with
  | nil => exact hu
  | cons c t => exact ht

theorem atSpace_of_isBlank (h : isBlank ws) : AtSpace ws :=
  fun c hc => List.all_eq_true.1 h c (List.mem_of_mem_head? hc)

/-! ## Word by word -/

theorem words_of_isBlank (h : isBlank t) : words t = [] := by
  have hdrop : t.dropWhile isSpace = [] := List.dropWhile_eq_nil_iff.2 (List.all_eq_true.1 h)
  rw [words]
  split
  · rfl
  · rename_i hcons
    rw [hdrop] at hcons
    cases hcons

theorem words_of_dropWhile (h : t.dropWhile isSpace = c :: u) : words t =
    (c :: u).takeWhile (!isSpace ·) :: words ((c :: u).dropWhile (!isSpace ·)) := by
  rw [words]
  split
  · rename_i hnil
    rw [h] at hnil
    cases hnil
  · rename_i hcons
    rw [h] at hcons
    cases hcons
    rfl

/-- The first word of a text, and the others behind it. -/
theorem words_append (hws : isBlank ws) (hw : w ≠ []) (h : IsUnspaced w) (hrest : AtSpace rest) :
    words (ws ++ (w ++ rest)) = w :: words rest := by
  have hall : ∀ c ∈ w, (!isSpace c) = true := fun c hc => by rw [h c hc]; rfl
  have hrun := run_append hall fun c hc => by rw [hrest c hc]; rfl
  obtain ⟨c, w, rfl⟩ := List.exists_cons_of_ne_nil hw
  have hdrop : (ws ++ (c :: w ++ rest)).dropWhile isSpace = c :: (w ++ rest) :=
    (stripLeft_append hws _).trans (List.dropWhile_cons_of_neg (by simp [h c List.mem_cons_self]))
  rw [words_of_dropWhile hdrop, ← List.cons_append, hrun.1, hrun.2]

/-- What holds of blank texts, and of a text when it holds of what follows its first word. -/
theorem words_induction {P : Text → Prop} (hblank : ∀ t, isBlank t → P t)
    (hword : ∀ ws w rest, isBlank ws → w ≠ [] → IsUnspaced w → AtSpace rest → P rest →
      P (ws ++ (w ++ rest))) (t : Text) : P t := by
  induction hn : t.length using Nat.strongRecOn generalizing t with
  | ind n ih =>
    subst hn
    rcases blank_or_exists_first t with ht | ⟨ws, c, u, rfl, hws, hc⟩
    · exact hblank t ht
    · have hparts := List.takeWhile_append_dropWhile (p := (!isSpace ·)) (l := u)
      have hunspaced : IsUnspaced (c :: u.takeWhile (!isSpace ·)) := by
        refine List.forall_mem_cons.2 ⟨hc, fun d hd => ?_⟩
        simpa using List.mem_takeWhile_imp hd
      have hrest : AtSpace (u.dropWhile (!isSpace ·)) := by
        intro d hd
        have := List.head?_dropWhile_not (!isSpace ·) u
        rw [hd] at this
        simpa using this
      have hlen := congrArg List.length hparts
      rw [List.length_append] at hlen
      rw [← hparts]
      refine hword ws (c :: _) _ hws (List.cons_ne_nil _ _) hunspaced hrest (ih _ ?_ _ rfl)
      rw [List.length_append, List.length_cons]
      omega

theorem words_append_blank (h : isBlank ws) (t : Text) : words (t ++ ws) = words t := by
  induction t using words_induction with
  | hblank t ht => rw [words_of_isBlank ht, words_of_isBlank (isBlank_append.2 ⟨ht, h⟩)]
  | hword before w rest hbefore hw hunspaced hrest ih =>
    rw [List.append_assoc, List.append_assoc,
      words_append hbefore hw hunspaced (hrest.append (atSpace_of_isBlank h)), ih,
      words_append hbefore hw hunspaced hrest]

theorem words_blank_append (h : isBlank ws) (t : Text) : words (ws ++ t) = words t := by
  induction t using words_induction with
  | hblank t ht => rw [words_of_isBlank ht, words_of_isBlank (isBlank_append.2 ⟨h, ht⟩)]
  | hword before w rest hbefore hw hunspaced hrest =>
    rw [← List.append_assoc, words_append (isBlank_append.2 ⟨h, hbefore⟩) hw hunspaced hrest,
      words_append hbefore hw hunspaced hrest]

theorem words_strip (t : Text) : words (strip t) = words t := by
  obtain ⟨before, after, hbefore, hafter, h⟩ := exists_strip t
  conv => rhs; rw [h, words_append_blank hafter, words_blank_append hbefore]

/-! ## Runs of blanks -/

theorem collapseRuns_nil : collapseRuns [] = [] := collapseRuns.eq_1

theorem collapseRuns_space (hc : isSpace c) (t : Text) :
    collapseRuns (c :: t) = ' ' :: collapseRuns (t.dropWhile isSpace) := by
  rw [collapseRuns, if_pos hc]

theorem collapseRuns_cons (hc : isSpace c = false) (t : Text) :
    collapseRuns (c :: t) = c :: collapseRuns t := by
  rw [collapseRuns, if_neg (by simp [hc])]

theorem collapseRuns_append (h : IsUnspaced w) (t : Text) :
    collapseRuns (w ++ t) = w ++ collapseRuns t := by
  induction w with
  | nil => rfl
  | cons c w ih =>
    obtain ⟨hc, hw⟩ := List.forall_mem_cons.1 h
    rw [List.cons_append, collapseRuns_cons hc, ih hw, List.cons_append]

/-- Past the blanks in front, runs are collapsed as without them. -/
theorem dropWhile_collapseRuns (t : Text) :
    (collapseRuns t).dropWhile isSpace = collapseRuns (t.dropWhile isSpace) := by
  have htight : ∀ u : Text, (∀ c ∈ u.head?, isSpace c = false) →
      (collapseRuns u).dropWhile isSpace = collapseRuns u := by
    intro u hu
    cases u with
    | nil => rw [collapseRuns_nil]; rfl
    | cons c u =>
      have hc : isSpace c = false := hu c rfl
      rw [collapseRuns_cons hc]
      exact List.dropWhile_cons_of_neg (by simp [hc])
  cases t with
  | nil => rw [List.dropWhile_nil, collapseRuns_nil, List.dropWhile_nil]
  | cons c t =>
    by_cases hc : isSpace c
    · have hspace : isSpace ' ' = true := by decide
      rw [collapseRuns_space hc, List.dropWhile_cons_of_pos hspace, List.dropWhile_cons_of_pos hc]
      exact htight _ (head_stripLeft t)
    · rw [htight (c :: t) (by rintro d ⟨⟩; simpa using hc), List.dropWhile_cons_of_neg hc]

theorem words_eq_nil_iff : words t = [] ↔ isBlank t := by
  refine ⟨fun h => ?_, words_of_isBlank⟩
  induction t using words_induction with
  | hblank t ht => exact ht
  | hword before w rest hbefore hw hunspaced hrest =>
    rw [words_append hbefore hw hunspaced hrest] at h
    cases h

theorem collapseRuns_stripLeft (h : ∀ c ∈ t.getLast?, isSpace c = false) :
    collapseRuns (stripLeft t) = join [' '] (words t) := by
  induction t using words_induction with
  | hblank t ht =>
    have hleft : stripLeft t = [] := List.dropWhile_eq_nil_iff.2 (List.all_eq_true.1 ht)
    rw [hleft, collapseRuns_nil, words_of_isBlank ht]
    rfl
  | hword before w rest hbefore hw hunspaced hrest ih =>
    have hhead : ∀ c ∈ (w ++ rest).head?, isSpace c = false := by
      intro c hc
      rw [List.head?_append_of_ne_nil _ hw] at hc
      exact hunspaced c (List.mem_of_mem_head? hc)
    rw [stripLeft_append hbefore, stripLeft_eq_self hhead, collapseRuns_append hunspaced,
      words_append hbefore hw hunspaced hrest]
    cases rest with
    | nil => rw [collapseRuns_nil, words_of_isBlank rfl, List.append_nil]; rfl
    | cons d rest =>
      have hd : isSpace d := hrest d rfl
      have hlast : ∀ c ∈ (d :: rest).getLast?, isSpace c = false := fun c hc =>
        h c (List.mem_getLast?_append_of_mem_getLast? (List.mem_getLast?_append_of_mem_getLast? hc))
      have hwords : words (d :: rest) ≠ [] := by
        rw [Ne, words_eq_nil_iff]
        intro hblank
        have hne := List.cons_ne_nil d rest
        have hspace := List.all_eq_true.1 hblank _ (List.getLast_mem hne)
        rw [hlast _ (List.getLast?_eq_some_getLast hne)] at hspace
        cases hspace
      have hleft : stripLeft (d :: rest) = rest.dropWhile isSpace := List.dropWhile_cons_of_pos hd
      rw [collapseRuns_space hd, join_cons_of_ne_nil hwords, ← ih hlast, hleft]

/-- A text with its blanks normalized is its words with a space between neighbours. -/
theorem normalizeSpace_eq (t : Text) : normalizeSpace t = join [' '] (words t) := by
  have htight := tight_strip t
  rw [normalizeSpace, ← words_strip t, ← collapseRuns_stripLeft htight.last,
    stripLeft_eq_self htight.head]

/-- The only blanks that are left are spaces. -/
theorem eq_space_of_mem_collapseRuns (h : c ∈ collapseRuns t) (hc : isSpace c) : c = ' ' := by
  induction t using collapseRuns.induct with
  | case1 =>
    rw [collapseRuns_nil] at h
    cases h
  | case2 d t hd ih =>
    rw [collapseRuns_space hd] at h
    exact (List.mem_cons.1 h).elim id ih
  | case3 d t hd ih =>
    rw [collapseRuns_cons (by simpa using hd)] at h
    rcases List.mem_cons.1 h with rfl | h
    · exact absurd hc hd
    · exact ih h

end Text

end Marginalia
