import Marginalia.Proofs.Text.Cut
import Marginalia.Template.Parsed

/-
Cutting a template into pieces undoes putting pieces together, as long as no brace
of one piece can be taken for a brace of the next.
-/
namespace Marginalia

/-- A text without the end of a tag in it, as it stands inside a tag. -/
def Text.IsInner (t : Text) : Prop := Text.holds Token.tagClose t = false

/-- A text without the start of a tag in it. -/
def Text.IsOuter (t : Text) : Prop := Text.holds Token.tagOpen t = false

instance (t : Text) : Decidable t.IsInner := inferInstanceAs (Decidable (_ = false))

instance (t : Text) : Decidable t.IsOuter := inferInstanceAs (Decidable (_ = false))

namespace Piece

variable {t inner : Text}

theorem eq_text_of_mem_leading {p : Piece} (h : p ∈ leading t) : p = .text t := by
  unfold leading at h
  split at h
  · cases h
  · exact List.mem_singleton.1 h

/-- The inner text of a tag is what stood before the first closing braces. -/
theorem exists_cut_of_mem_ofTemplate (h : .tag inner ∈ ofTemplate t) :
    ∃ s after, Text.cut Token.tagClose s = some (inner, after) := by
  fun_induction ofTemplate t with
  | case1 t _ => cases eq_text_of_mem_leading h
  | case2 t before after _ _ =>
    rcases List.mem_append.1 h with h | h
    · cases eq_text_of_mem_leading h
    · cases List.mem_singleton.1 h
  | case3 t before after _ inner' rest hclose ih =>
    rw [List.mem_append, List.mem_cons] at h
    rcases h with h | h | h
    · cases eq_text_of_mem_leading h
    · cases h
      exact ⟨after, rest, hclose⟩
    · exact ih h

theorem isInner_of_mem_ofTemplate (h : .tag inner ∈ ofTemplate t) : inner.IsInner := by
  obtain ⟨s, after, hcut⟩ := exists_cut_of_mem_ofTemplate h
  exact Text.holds_before_cut (by decide) hcut

theorem getLast?_of_mem_ofTemplate (h : .tag inner ∈ ofTemplate t) :
    inner.getLast? ≠ some '}' := by
  obtain ⟨s, after, hcut⟩ := exists_cut_of_mem_ofTemplate h
  exact Text.getLast?_before_cut hcut

/-- Braces that open do not stand in the text between the tags. -/
theorem isOuter_of_mem_ofTemplate {v : Text} (h : .text v ∈ ofTemplate t) : v.IsOuter := by
  fun_induction ofTemplate t with
  | case1 t hopen =>
    cases eq_text_of_mem_leading h
    exact Text.holds_eq_false.2 hopen
  | case2 t before after hopen _ =>
    rcases List.mem_append.1 h with h | h
    · cases eq_text_of_mem_leading h
      exact Text.holds_before_cut (by decide) hopen
    · cases List.mem_singleton.1 h
  | case3 t before after hopen inner rest _ ih =>
    rw [List.mem_append, List.mem_cons] at h
    rcases h with h | h | h
    · cases eq_text_of_mem_leading h
      exact Text.holds_before_cut (by decide) hopen
    · cases h
    · exact ih h

/-- Braces that are never closed are the last piece, if there are any. -/
theorem ofTemplate_dangling (t : Text) : ∃ ps, (∀ rest, .dangling rest ∉ ps) ∧
    (ofTemplate t = ps ∨ ∃ rest, ofTemplate t = ps ++ [.dangling rest]) := by
  have hleading : ∀ t rest : Text, .dangling rest ∉ leading t := by
    intro t rest h
    cases eq_text_of_mem_leading h
  fun_induction ofTemplate t with
  | case1 t _ => exact ⟨leading t, hleading t, .inl rfl⟩
  | case2 t before after _ _ => exact ⟨leading before, hleading before, .inr ⟨after, rfl⟩⟩
  | case3 t before after _ inner rest _ ih =>
    obtain ⟨ps, hps, hcut⟩ := ih
    refine ⟨leading before ++ .tag inner :: ps, fun s hs => ?_, hcut.imp ?_ ?_⟩
    · rw [List.mem_append, List.mem_cons] at hs
      rcases hs with hs | hs | hs
      · exact hleading before s hs
      · cases hs
      · exact hps s hs
    · intro heq
      rw [heq]
    · rintro ⟨s, heq⟩
      exact ⟨s, by rw [heq, List.append_assoc, List.cons_append]⟩

theorem eq_nil_of_dangling {before after : List Piece} {rest : Text}
    (h : ofTemplate t = before ++ .dangling rest :: after) : after = [] := by
  obtain ⟨ps, hps, hcut⟩ := ofTemplate_dangling t
  rcases List.eq_nil_or_concat after with rfl | ⟨others, last, rfl⟩
  · rfl
  · -- the piece would stand before the last one, and there it cannot
    rcases hcut with hcut | ⟨s, hcut⟩
    · exact absurd (by rw [← hcut, h]; simp) (hps rest)
    · have hlast : ps ++ [.dangling s] = (before ++ .dangling rest :: others) ++ [last] := by
        rw [← hcut, h, List.append_assoc, List.cons_append, List.concat_eq_append]
      have hbefore := (List.append_inj' hlast rfl).1
      exact absurd (by rw [hbefore]; simp) (hps rest)

/-- Every tag ends at the first closing braces. -/
def AreClosed (ps : List Piece) : Prop :=
  ∀ inner, .tag inner ∈ ps → inner.IsInner ∧ inner.getLast? ≠ some '}'

theorem areClosed_ofTemplate (t : Text) : AreClosed (ofTemplate t) :=
  fun _ h => ⟨isInner_of_mem_ofTemplate h, getLast?_of_mem_ofTemplate h⟩

theorem ofTemplate_of_isOuter (h : t.IsOuter) : ofTemplate t = leading t := by
  have hcut := Text.holds_eq_false.1 h
  rw [ofTemplate]
  split
  · rfl
  · rename_i hsome
    rw [hcut] at hsome
    cases hsome

/-- Text in front of a tag, which does not end in half of the brace. -/
theorem ofTemplate_append_tag (ht : t.IsOuter) (hlast : t.getLast? ≠ some '{')
    (hinner : inner.IsInner) (hlast' : inner.getLast? ≠ some '}') (s : Text) :
    ofTemplate (t ++ (Token.tag inner ++ s)) = leading t ++ .tag inner :: ofTemplate s := by
  have hopen : Text.cut Token.tagOpen (t ++ (Token.tag inner ++ s)) =
      some (t, inner ++ (Token.tagClose ++ s)) := by
    have := Text.cut_pair ht hlast (inner ++ (Token.tagClose ++ s))
    simpa [Token.tag, Token.tagOpen] using this
  have hclose : Text.cut Token.tagClose (inner ++ (Token.tagClose ++ s)) = some (inner, s) := by
    have := Text.cut_pair hinner hlast' s
    simpa [Token.tagClose] using this
  rw [ofTemplate]
  split
  · rename_i hnone
    rw [hopen] at hnone
    cases hnone
  · rename_i before after hsome
    rw [hopen] at hsome
    cases hsome
    split
    · rename_i hnone
      rw [hclose] at hnone
      cases hnone
    · rename_i hsome
      rw [hclose] at hsome
      cases hsome
      rfl

theorem ofTemplate_tag (hinner : inner.IsInner) (hlast : inner.getLast? ≠ some '}') (s : Text) :
    ofTemplate (Token.tag inner ++ s) = .tag inner :: ofTemplate s :=
  ofTemplate_append_tag (Text.holds_nil (by decide) : Text.IsOuter []) nofun hinner hlast s

/-- Pieces that a template can be cut into. -/
def AreCut : List Piece → Prop
  | [] => True
  | .text t :: rest => t ≠ [] ∧ t.IsOuter ∧ (rest ≠ [] → t.getLast? ≠ some '{') ∧
      (∀ u, rest.head? ≠ some (.text u)) ∧ AreCut rest
  | .tag inner :: rest => inner.IsInner ∧ inner.getLast? ≠ some '}' ∧ AreCut rest
  | .dangling _ :: _ => False

theorem areCut_of_append {ps qs : List Piece} (h : AreCut (ps ++ qs)) : AreCut qs := by
  induction ps with
  | nil => exact h
  | cons p rest ih =>
    cases p with
    | dangling _ => exact h.elim
    | tag inner => exact ih h.2.2
    | text t => exact ih h.2.2.2.2

theorem leading_of_ne_nil (h : t ≠ []) : leading t = [.text t] := by
  unfold leading
  rw [if_neg (by simpa using h)]

/-- Such pieces are what their template is cut into. -/
theorem ofTemplate_sources {ps : List Piece} (h : AreCut ps) : ofTemplate (sources ps) = ps := by
  induction ps with
  | nil =>
    rw [sources, ofTemplate_of_isOuter (Text.holds_nil (by decide))]
    rfl
  | cons p rest ih =>
    cases p with
    | dangling _ => exact h.elim
    | tag inner =>
      obtain ⟨hinner, hlast, hrest⟩ := h
      rw [sources, source, ofTemplate_tag hinner hlast, ih hrest]
    | text t =>
      obtain ⟨hne, houter, hlast, hhead, hrest⟩ := h
      cases rest with
      | nil =>
        rw [sources, sources, List.append_nil]
        exact (ofTemplate_of_isOuter houter).trans (leading_of_ne_nil hne)
      | cons q rest =>
        cases q with
        | dangling _ => exact hrest.elim
        | text u => exact absurd rfl (hhead u)
        | tag inner =>
          have hall := ofTemplate_append_tag houter (hlast (List.cons_ne_nil _ _)) hrest.1 hrest.2.1 (sources rest)
          rw [leading_of_ne_nil hne, ← ofTemplate_tag hrest.1 hrest.2.1] at hall
          exact hall.trans (congrArg _ (ih hrest))

theorem areCut_leading {ps : List Piece} (ht : t.IsOuter)
    (hlast : ps ≠ [] → t.getLast? ≠ some '{') (hhead : ∀ u, ps.head? ≠ some (.text u))
    (h : AreCut ps) : AreCut (leading t ++ ps) := by
  unfold leading
  split
  · exact h
  · rename_i hne
    exact ⟨by simpa using hne, ht, hlast, hhead, h⟩

/-- What a template is cut into, if all its tags are closed. -/
theorem areCut_ofTemplate (h : ∀ rest, .dangling rest ∉ ofTemplate t) :
    AreCut (ofTemplate t) := by
  fun_induction ofTemplate t with
  | case1 t hopen =>
    have : AreCut (leading t ++ []) :=
      areCut_leading (Text.holds_eq_false.2 hopen) (absurd rfl) (by simp) trivial
    rwa [List.append_nil] at this
  | case2 t before after _ _ => exact absurd (List.mem_append_right _ (.head _)) (h after)
  | case3 t before after hopen inner rest hclose ih =>
    refine areCut_leading (Text.holds_before_cut (by decide) hopen)
      (fun _ => Text.getLast?_before_cut hopen) (by simp) ⟨?_, ?_, ih ?_⟩
    · exact Text.holds_before_cut (by decide) hclose
    · exact Text.getLast?_before_cut hclose
    · exact fun s hs => h s (List.mem_append_right _ (.tail _ hs))

end Piece
end Marginalia
