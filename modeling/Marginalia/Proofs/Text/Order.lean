import Mathlib.Data.List.Lex
import Mathlib.Order.Defs.LinearOrder
import Mathlib.Data.Char
import Marginalia.Template.Validation

/-
The order of texts, and texts put in order.
-/
namespace Marginalia
namespace Text

theorem lt_iff {s t : Text} : lt s t = true ↔ s < t := by
  induction s, t using lt.induct with
  | case1 s => simp [lt]
  | case2 b t => simp [lt]
  | case3 a s b t ih => simp [lt, List.cons_lt_cons_iff, ih]

theorem mem_insertNew {t u : Text} {ts : List Text} :
    u ∈ insertNew t ts ↔ u = t ∨ u ∈ ts := by
  induction ts with
  | nil => simp [insertNew]
  | cons v rest ih =>
    unfold insertNew
    split
    · rename_i h
      subst h
      simp
    · split
      · simp
      · simp only [List.mem_cons, ih]
        tauto

theorem mem_sortNew {u : Text} {ts : List Text} : u ∈ sortNew ts ↔ u ∈ ts := by
  induction ts with
  | nil => exact Iff.rfl
  | cons t rest ih => rw [sortNew, List.foldr_cons, mem_insertNew, ← sortNew, ih, List.mem_cons]

theorem pairwise_insertNew {t : Text} {ts : List Text} (h : ts.Pairwise (· < ·)) :
    (insertNew t ts).Pairwise (· < ·) := by
  induction ts with
  | nil => exact List.pairwise_singleton _ _
  | cons v rest ih =>
    obtain ⟨hv, hrest⟩ := List.pairwise_cons.1 h
    unfold insertNew
    split
    · exact h
    · rename_i hne
      split
      · rename_i hlt
        rw [lt_iff] at hlt
        refine List.pairwise_cons.2 ⟨?_, h⟩
        rintro u (_ | ⟨_, hu⟩)
        · exact hlt
        · exact hlt.trans (hv u hu)
      · rename_i hlt
        rw [lt_iff] at hlt
        refine List.pairwise_cons.2 ⟨fun u hu => ?_, ih hrest⟩
        rcases mem_insertNew.1 hu with rfl | hu
        · exact lt_of_le_of_ne (not_lt.1 hlt) (Ne.symm hne)
        · exact hv u hu

/-- Texts are put in strictly ascending order. -/
theorem pairwise_sortNew (ts : List Text) : (sortNew ts).Pairwise (· < ·) := by
  induction ts with
  | nil => exact .nil
  | cons t rest ih => exact pairwise_insertNew ih

end Text
end Marginalia
