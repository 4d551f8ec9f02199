import Mathlib.Data.List.Chain
import Marginalia.Annotation.Distance
import Marginalia.Proofs.Ensures

/-
Splitting annotations into groups loses nothing.  Put together again the groups
are the annotations, and between the annotations of a group stand as many
separators as there are gaps.
-/
namespace Marginalia
namespace Group

/-- Groups that annotations have been cut into. -/
structure Splits (as : List Annotation) (gs : List Group) : Prop where
  annotations : gs.flatMap (·.annotations) = as
  paired : ∀ g ∈ gs, g.separators.length + 1 = g.annotations.length

variable {a : Annotation} {as : List Annotation} {g : Group} {gs : List Group}

theorem Splits.ne_nil (h : Splits as gs) (hg : g ∈ gs) : g.annotations ≠ [] := by
  have := h.paired g hg
  exact List.length_pos_iff.1 (by omega)

theorem Splits.start (a : Annotation) (h : Splits as gs) : Splits (a :: as) (⟨[a], []⟩ :: gs) := by
  refine ⟨?_, ?_⟩
  · rw [List.flatMap_cons, h.annotations]
    rfl
  · intro g hg
    rcases List.mem_cons.1 hg with rfl | hg
    · rfl
    · exact h.paired g hg

theorem Splits.extend (a : Annotation) (s : Separator) (h : Splits as gs) (has : as ≠ []) :
    Splits (a :: as) (extend a s gs) := by
  cases gs with
  | nil => exact absurd h.annotations.symm has
  | cons g rest =>
    refine ⟨?_, ?_⟩
    · rw [← h.annotations]
      rfl
    · intro k hk
      rcases List.mem_cons.1 hk with rfl | hk
      · have := h.paired g List.mem_cons_self
        simp only [List.length_cons]
        omega
      · exact h.paired k (List.mem_cons_of_mem g hk)

theorem splits_of_startingWith {gap : Gap} {contiguousGap : Int}
    (h : startingWith gap contiguousGap a as = .ok gs) : Splits (a :: as) gs := by
  induction as generalizing a gs with
  | nil =>
    cases h
    exact Splits.start a ⟨rfl, nofun⟩
  | cons b rest ih =>
    obtain ⟨d, _, h⟩ := exists_of_bind_eq_ok h
    obtain ⟨ks, hks, h⟩ := exists_of_bind_eq_ok h
    have hsplits := ih hks
    by_cases hgap : gap.allows d
    · rw [if_pos hgap] at h
      cases h
      exact hsplits.extend a _ (List.cons_ne_nil b rest)
    · rw [if_neg hgap] at h
      cases h
      exact hsplits.start a

theorem splits_of_successive {gap : Gap} {contiguousGap : Int}
    (h : successive gap contiguousGap as = .ok gs) : Splits as gs := by
  cases as with
  | nil =>
    cases h
    exact ⟨rfl, nofun⟩
  | cons a rest => exact splits_of_startingWith h

/-- Annotations are split where the distance of any two neighbours is known. -/
theorem exists_startingWith {gap : Gap} {contiguousGap : Int}
    (h : (a :: as).IsChain fun b c => ∃ d, b.distance c = .ok d) :
    ∃ gs, startingWith gap contiguousGap a as = .ok gs := by
  induction as generalizing a with
  | nil => exact ⟨_, rfl⟩
  | cons b rest ih =>
    obtain ⟨hdistance, hrest⟩ := List.isChain_cons_cons.1 h
    refine exists_bind_eq_ok hdistance fun d _ => exists_bind_eq_ok (ih hrest) fun gs _ => ?_
    split <;> exact ⟨_, rfl⟩

theorem exists_successive {gap : Gap} {contiguousGap : Int}
    (h : as.IsChain fun b c => ∃ d, b.distance c = .ok d) :
    ∃ gs, successive gap contiguousGap as = .ok gs := by
  cases as with
  | nil => exact ⟨_, rfl⟩
  | cons a rest => exact exists_startingWith h

end Group
end Marginalia
