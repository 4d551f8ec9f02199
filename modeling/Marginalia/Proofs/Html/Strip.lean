import Marginalia.Proofs.Text.Cut
import Marginalia.Proofs.Html.Escape

/-
Tags taken out of a text.  A tag is whatever stands between a less-than sign and the
next greater-than sign; what is left of a text without its tags is unique, and it is
the text itself exactly if there is no tag in it.
-/
namespace Marginalia

namespace Html

/-! ## Reserved references -/

theorem decodeReserved_escapeChar_append (c : Char) (t : Text) :
    decodeReserved (escapeChar c ++ t) = c :: decodeReserved t := by
  unfold escapeChar
  split
  · rfl
  · rfl
  · rfl
  · rfl
  · rfl
  · rename_i h _ _ _ _
    rw [List.singleton_append, decodeReserved]
    all_goals
      intro _ hc _
      exact h hc

/-- The five references are read back as the characters they were written for. -/
theorem decodeReserved_escape (t : Text) : decodeReserved (escape t) = t := by
  induction t with
  | nil => rfl
  | cons c rest ih => rw [escape_cons, decodeReserved_escapeChar_append, ih]

/-! ## Tags -/

/-- A less-than sign with all that follows it up to the next greater-than sign. -/
def IsTag (g : Text) : Prop := ∃ b, '>' ∉ b ∧ g = '<' :: (b ++ ['>'])

def IsTagless (t : Text) : Prop := ∀ g, IsTag g → ¬ g <:+: t

/-- What is left of a text when its tags are taken out from the left. -/
inductive Untagged : Text → Text → Prop where
  | rest {t : Text} (h : IsTagless t) : Untagged t t
  | tag {p g t u : Text} (hp : '<' ∉ p) (hg : IsTag g) (h : Untagged t u) :
    Untagged (p ++ (g ++ t)) (p ++ u)

section

variable {p g t u v : Text}

theorem IsTagless.of_part (h : IsTagless t) (hpart : p <:+: t) : IsTagless p :=
  fun g hg hgp => h g hg (hgp.trans hpart)

/-- There is a tag exactly where a greater-than sign comes after a less-than sign. -/
theorem isTagless_iff :
    IsTagless t ↔ ∀ before after, t = before ++ '<' :: after → '>' ∉ after := by
  constructor
  · rintro h before after rfl hmem
    obtain ⟨b, rest, rfl, hb⟩ := List.eq_append_cons_of_mem hmem
    exact h _ ⟨b, hb, rfl⟩ ⟨before, rest, by simp⟩
  · rintro h _ ⟨b, _, rfl⟩ ⟨before, after, rfl⟩
    exact h before (b ++ '>' :: after) (by simp) (by simp)

theorem IsTagless.cons {c : Char} (hc : c ≠ '<') (h : IsTagless t) : IsTagless (c :: t) := by
  rw [isTagless_iff] at *
  intro before after heq
  cases before with
  | nil =>
    cases heq
    exact absurd rfl hc
  | cons d before =>
    cases heq
    exact h before after rfl

theorem Untagged.cons {c : Char} (hc : c ≠ '<') (h : Untagged t u) :
    Untagged (c :: t) (c :: u) := by
  cases h with
  | rest h => exact .rest (h.cons hc)
  | @tag p g t u hp hg h =>
    have hcp : '<' ∉ c :: p := List.not_mem_cons_of_ne_of_not_mem (Ne.symm hc) hp
    exact Untagged.tag hcp hg h

theorem isTagless_of_cut_eq_none (h : Text.cut ['>'] t = none) : IsTagless ('<' :: t) := by
  have hmem := Text.not_mem_of_cut_eq_none h
  rw [isTagless_iff]
  rintro before after heq hafter
  have hsuffix : after <:+ t := by
    cases before with
    | nil =>
      cases heq
      exact List.suffix_rfl
    | cons d before =>
      cases heq
      exact ⟨before ++ ['<'], by simp⟩
  exact hmem (hsuffix.subset hafter)

theorem untagged_dropTags (t : Text) : Untagged t (dropTags t) := by
  fun_induction dropTags t with
  | case1 => exact .rest (isTagless_iff.2 (by simp))
  | case2 rest hcut => exact .rest (isTagless_of_cut_eq_none hcut)
  | case3 rest before after hcut ih =>
    have hbefore := Text.not_mem_before_cut hcut
    have hrest := Text.eq_of_cut hcut
    have htag : IsTag ('<' :: (before ++ ['>'])) := ⟨before, hbefore, rfl⟩
    have := Untagged.tag (p := []) (by simp) htag ih
    rw [hrest]
    simpa using this
  | case4 c rest hc ih => exact ih.cons hc

/-! ## What is left -/

theorem dropTags_cons {c : Char} (hc : c ≠ '<') (t : Text) :
    dropTags (c :: t) = c :: dropTags t := by
  rw [dropTags]
  exact hc

theorem dropTags_append (hp : '<' ∉ p) (t : Text) : dropTags (p ++ t) = p ++ dropTags t := by
  induction p with
  | nil => rfl
  | cons c rest ih =>
    rw [List.mem_cons, not_or] at hp
    rw [List.cons_append, dropTags_cons (Ne.symm hp.1), ih hp.2, List.cons_append]

theorem dropTags_tag_append (hg : IsTag g) (t : Text) : dropTags (g ++ t) = dropTags t := by
  obtain ⟨b, hb, rfl⟩ := hg
  have hcut : Text.cut ['>'] (b ++ '>' :: t) = some (b, t) := Text.cut_single hb t
  have heq : '<' :: (b ++ ['>']) ++ t = '<' :: (b ++ '>' :: t) := by simp
  rw [heq, dropTags]
  split
  · rename_i hnone
    rw [hcut] at hnone
    cases hnone
  · rename_i hsome
    rw [hcut] at hsome
    cases hsome
    rfl

theorem dropTags_of_isTagless (h : IsTagless t) : dropTags t = t := by
  fun_induction dropTags t with
  | case1 => rfl
  | case2 rest hcut => rfl
  | case3 rest before after hcut ih =>
    have hrest := Text.eq_of_cut hcut
    have hafter : '>' ∈ rest := by
      rw [hrest]
      simp
    exact absurd hafter (isTagless_iff.1 h [] rest rfl)
  | case4 c rest hc ih => rw [ih (h.of_part (List.suffix_cons c rest).isInfix)]

theorem Untagged.dropTags_eq (h : Untagged t u) : dropTags t = u := by
  induction h with
  | rest h => exact dropTags_of_isTagless h
  | tag hp hg h ih => rw [dropTags_append hp, dropTags_tag_append hg, ih]

/-- A text without its tags is one text. -/
theorem untagged_iff : Untagged t u ↔ dropTags t = u :=
  ⟨Untagged.dropTags_eq, fun h => h ▸ untagged_dropTags t⟩

theorem Untagged.length_le (h : Untagged t u) : u.length ≤ t.length := by
  induction h with
  | rest h => exact Nat.le_refl _
  | tag hp hg h ih =>
    simp only [List.length_append]
    omega

/-- A text is left as it is exactly if there is no tag in it. -/
theorem Untagged.eq_iff (h : Untagged t u) : u = t ↔ IsTagless t := by
  constructor
  · intro heq
    cases h with
    | rest htagless => exact htagless
    | tag hp hg h =>
      -- a tag is not empty, so the text has become shorter
      obtain ⟨b, _, rfl⟩ := hg
      have hle := h.length_le
      have hlen := congrArg List.length heq
      simp only [List.length_append, List.length_cons] at hlen
      omega
  · intro htagless
    exact h.dropTags_eq.symm.trans (dropTags_of_isTagless htagless)

theorem IsTagless.append (hp : '<' ∉ p) (h : IsTagless t) : IsTagless (p ++ t) := by
  induction p with
  | nil => exact h
  | cons c rest ih =>
    rw [List.mem_cons, not_or] at hp
    exact (ih hp.2).cons (Ne.symm hp.1)

/-- Taking a tag out brings no other one together. -/
theorem Untagged.isTagless (h : Untagged t u) : IsTagless u := by
  induction h with
  | rest h => exact h
  | tag hp _ _ ih => exact ih.append hp

theorem strip_escape (t : Text) : strip (escape t) = dropTags t :=
  congrArg dropTags (decodeReserved_escape t)

/-- No tag is left in the text of any markup, and the text of an escaped text is that text without
its tags, which is the text itself exactly if no greater-than sign comes after a less-than sign. -/
theorem strip_leaves_no_tag (s : Text) :
    (∀ before after, strip s = before ++ '<' :: after → '>' ∉ after) ∧
    (∀ u, Untagged s u ↔ strip (escape s) = u) ∧
    (strip (escape s) = s ↔ ∀ before after, s = before ++ '<' :: after → '>' ∉ after) := by
  rw [strip_escape]
  refine ⟨?_, fun u => untagged_iff, ?_⟩
  · exact isTagless_iff.1 (untagged_dropTags (decodeReserved s)).isTagless
  · rw [← isTagless_iff]
    exact (untagged_dropTags s).eq_iff

end

end Html
end Marginalia
