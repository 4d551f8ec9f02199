import Mathlib.Data.List.Basic
import Marginalia.Text.Word

/-
Trimming.  A text is its trimmed form with blanks around it, and the trimmed form
is the only part of it that neither starts nor ends with a blank.
-/
namespace Marginalia
namespace Text

variable {t u ws : Text}

/-- A run of code points of one kind is told from what stands behind it. -/
theorem run_append {p : Char → Bool} (h : ∀ c ∈ t, p c) (hu : ∀ c ∈ u.head?, p c = false) :
    (t ++ u).takeWhile p = t ∧ (t ++ u).dropWhile p = u := by
  rw [List.takeWhile_append_of_pos h, List.dropWhile_append_of_pos h]
  cases u with
  | nil => exact ⟨List.append_nil t, rfl⟩
  | cons c u =>
    have hc : ¬ p c = true := by simp [hu c rfl]
    rw [List.takeWhile_cons_of_neg hc, List.dropWhile_cons_of_neg hc]
    exact ⟨List.append_nil t, rfl⟩

/-- Neither the first nor the last code point is a blank. -/
structure Tight (t : Text) : Prop where
  head : ∀ c ∈ t.head?, isSpace c = false
  last : ∀ c ∈ t.getLast?, isSpace c = false

theorem isBlank_cons {c : Char} : isBlank (c :: t) ↔ isSpace c ∧ isBlank t := by
  unfold isBlank
  rw [List.all_cons, Bool.and_eq_true]

theorem isBlank_append : isBlank (t ++ u) ↔ isBlank t ∧ isBlank u := by
  unfold isBlank
  rw [List.all_append, Bool.and_eq_true]

theorem isBlank_iff_filter : isBlank t ↔ t.filter (!isSpace ·) = [] := by
  simp [isBlank, List.filter_eq_nil_iff]

theorem stripLeft_append (h : isBlank ws) (t : Text) : stripLeft (ws ++ t) = stripLeft t :=
  List.dropWhile_append_of_pos (by simpa [isBlank] using h)

theorem stripLeft_eq_self (h : ∀ c ∈ t.head?, isSpace c = false) : stripLeft t = t := by
  cases t with
  | nil => rfl
  | cons c rest =>
    have hc : isSpace c = false := h c rfl
    exact List.dropWhile_cons_of_neg (by simp [hc])

theorem stripRight_append (h : isBlank ws) (t : Text) : stripRight (t ++ ws) = stripRight t := by
  unfold stripRight
  rw [List.reverse_append, List.dropWhile_append_of_pos (by simpa [isBlank] using h)]

theorem stripRight_eq_self (h : ∀ c ∈ t.getLast?, isSpace c = false) : stripRight t = t := by
  unfold stripRight
  rw [← List.head?_reverse] at h
  rw [show t.reverse.dropWhile isSpace = t.reverse from stripLeft_eq_self h, List.reverse_reverse]

theorem strip_append_left (h : isBlank ws) (t : Text) : strip (ws ++ t) = strip t := by
  unfold strip
  rw [stripLeft_append h]

theorem Tight.strip_eq (h : Tight t) : strip t = t := by
  unfold strip
  rw [stripLeft_eq_self h.head, stripRight_eq_self h.last]

theorem Tight.cons {c : Char} (hc : isSpace c = false) (hne : t ≠ []) (h : Tight t) :
    Tight (c :: t) := by
  constructor
  · intro d hd
    cases hd
    exact hc
  · rw [List.getLast?_cons_of_ne_nil hne]
    exact h.last

theorem strip_of_isBlank (h : isBlank ws) : strip ws = [] := by
  have := strip_append_left h []
  rwa [List.append_nil] at this

theorem strip_append_right (h : isBlank ws) (t : Text) : strip (t ++ ws) = strip t := by
  induction t with
  | nil =>
    rw [List.nil_append, strip_of_isBlank h]
    rfl
  | cons c rest ih =>
    by_cases hc : isSpace c
    · have hblank : isBlank [c] := by simp [isBlank, hc]
      have hleft := strip_append_left hblank (rest ++ ws)
      have hleft' := strip_append_left hblank rest
      rw [List.singleton_append] at hleft hleft'
      rw [List.cons_append, hleft, hleft', ih]
    · have hhead : ∀ s : Text, stripLeft (c :: s) = c :: s :=
        fun s => List.dropWhile_cons_of_neg (by simp [hc])
      unfold strip
      rw [List.cons_append, hhead, hhead, ← List.cons_append, stripRight_append h]

theorem exists_stripLeft (t : Text) : ∃ ws, isBlank ws ∧ t = ws ++ stripLeft t := by
  refine ⟨t.takeWhile isSpace, ?_, List.takeWhile_append_dropWhile.symm⟩
  exact List.all_takeWhile

theorem exists_stripRight (t : Text) : ∃ ws, isBlank ws ∧ t = stripRight t ++ ws := by
  obtain ⟨ws, hws, h⟩ := exists_stripLeft t.reverse
  refine ⟨ws.reverse, by simpa [isBlank] using hws, ?_⟩
  have := congrArg List.reverse h
  rwa [List.reverse_reverse, List.reverse_append] at this

/-- A text is its trimmed form with blanks around it. -/
theorem exists_strip (t : Text) :
    ∃ before after, isBlank before ∧ isBlank after ∧ t = before ++ strip t ++ after := by
  obtain ⟨before, hbefore, hleft⟩ := exists_stripLeft t
  obtain ⟨after, hafter, hright⟩ := exists_stripRight (stripLeft t)
  refine ⟨before, after, hbefore, hafter, ?_⟩
  rw [List.append_assoc]
  exact hleft.trans (congrArg _ hright)

theorem strip_infix (t : Text) : strip t <:+: t := by
  obtain ⟨before, after, _, _, h⟩ := exists_strip t
  exact ⟨before, after, h.symm⟩

theorem head_stripLeft (t : Text) : ∀ c ∈ (stripLeft t).head?, isSpace c = false := by
  intro c hc
  have := List.head?_dropWhile_not isSpace t
  rw [show t.dropWhile isSpace = stripLeft t from rfl, hc] at this
  simpa using this

theorem tight_strip (t : Text) : Tight (strip t) := by
  constructor
  · obtain ⟨ws, _, h⟩ := exists_stripRight (stripLeft t)
    intro c hc
    refine head_stripLeft t c ?_
    rw [h]
    exact List.mem_head?_append_of_mem_head? hc
  · intro c hc
    unfold strip stripRight at hc
    rw [List.getLast?_reverse] at hc
    exact head_stripLeft _ c hc

theorem tight_iff : Tight t ↔ strip t = t :=
  ⟨Tight.strip_eq, fun h => h ▸ tight_strip t⟩

theorem strip_strip (t : Text) : strip (strip t) = strip t :=
  (tight_strip t).strip_eq

/-- What follows the first code point of a trimmed text has blanks in front of it
only. -/
theorem exists_strip_of_tight_cons {c : Char} (h : Tight (c :: t)) :
    ∃ ws, isBlank ws ∧ t = ws ++ strip t := by
  obtain ⟨ws, hws, hleft⟩ := exists_stripLeft t
  refine ⟨ws, hws, hleft.trans (congrArg _ ?_)⟩
  refine (stripRight_eq_self fun d hd => h.last d ?_).symm
  have hsuffix : stripLeft t ≠ [] := by
    rintro hnil
    rw [hnil] at hd
    cases hd
  rw [hleft, ← List.cons_append]
  exact List.mem_getLast?_append_of_mem_getLast? hd

/-! ## First and last words -/

/-- A text is blank, or has a first code point that is not. -/
theorem blank_or_exists_first (t : Text) :
    isBlank t ∨ ∃ ws c rest, t = ws ++ c :: rest ∧ isBlank ws ∧ isSpace c = false := by
  induction t with
  | nil => exact .inl rfl
  | cons d t ih =>
    by_cases hd : isSpace d
    · rcases ih with ht | ⟨ws, c, rest, rfl, hws, hc⟩
      · exact .inl (isBlank_cons.2 ⟨hd, ht⟩)
      · exact .inr ⟨d :: ws, c, rest, rfl, isBlank_cons.2 ⟨hd, hws⟩, hc⟩
    · exact .inr ⟨[], d, t, rfl, rfl, by simpa using hd⟩

/-- A text is blank, or has a last code point that is not. -/
theorem blank_or_exists_last (t : Text) :
    isBlank t ∨ ∃ s c ws, t = s ++ c :: ws ∧ isSpace c = false ∧ isBlank ws := by
  induction t with
  | nil => exact .inl rfl
  | cons d t ih =>
    rcases ih with ht | ⟨s, c, ws, rfl, hc, hws⟩
    · by_cases hd : isSpace d
      · exact .inl (isBlank_cons.2 ⟨hd, ht⟩)
      · exact .inr ⟨[], d, t, rfl, by simpa using hd, ht⟩
    · exact .inr ⟨d :: s, c, ws, rfl, hc, hws⟩

theorem head?_strip {c : Char} (hws : isBlank ws) (hc : isSpace c = false) (t : Text) :
    (strip (ws ++ c :: t)).head? = some c := by
  have hleft : stripLeft (c :: t) = c :: t := stripLeft_eq_self (by rintro d ⟨⟩; exact hc)
  rw [strip_append_left hws]
  unfold strip
  rw [hleft]
  obtain ⟨v, hv, h⟩ := exists_stripRight (c :: t)
  cases hright : stripRight (c :: t) with
  | nil =>
    rw [hright, List.nil_append] at h
    rw [← h, isBlank_cons, hc] at hv
    exact absurd hv.1 Bool.false_ne_true
  | cons d s =>
    rw [hright] at h
    rw [(List.cons.inj h).1]
    rfl

theorem getLast?_strip {c : Char} (hc : isSpace c = false) (hws : isBlank ws) (t : Text) :
    (strip (t ++ c :: ws)).getLast? = some c := by
  rw [List.append_cons, strip_append_right hws]
  obtain ⟨v, hv, h⟩ := exists_stripLeft (t ++ [c])
  have hne : stripLeft (t ++ [c]) ≠ [] := by
    intro hnil
    rw [hnil, List.append_nil] at h
    rw [← h, isBlank_append, isBlank_cons, hc] at hv
    exact absurd hv.2.1 Bool.false_ne_true
  have hlast : (stripLeft (t ++ [c])).getLast? = some c := by
    have := congrArg List.getLast? h
    rwa [List.getLast?_append_of_ne_nil _ hne,
      List.getLast?_append_of_ne_nil _ (List.cons_ne_nil c []), eq_comm] at this
  unfold strip
  rw [stripRight_eq_self (by rw [hlast]; rintro d ⟨⟩; exact hc), hlast]

end Text
end Marginalia
