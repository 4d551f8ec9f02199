import Marginalia.Text.Case
import Marginalia.Proofs.Number.Reading

/-
Lower case and signs.  Every code point that is lowered to another one becomes letters and
marks, so signs, digits and control characters come only from themselves.
-/
namespace Marginalia
namespace Text

variable {c d : Char} {t : Text}

/-- A code point that comes before the letters. -/
def IsLow (c : Char) : Prop := c.toNat < 0x41

instance (c : Char) : Decidable (IsLow c) := inferInstanceAs (Decidable (_ < _))

/-- Where a run of a table of cases leads, all code points are such, and none is low. -/
def LeadsHigh (run : Nat × Nat × Nat × Int) : Prop :=
  0x41 ≤ run.1 + run.2.2.2 ∧
    (run.2.1 + run.2.2.2 < 0xD800 ∨
      0xE000 ≤ run.1 + run.2.2.2 ∧ run.2.1 + run.2.2.2 < 0x110000)

instance (run : Nat × Nat × Nat × Int) : Decidable (LeadsHigh run) :=
  inferInstanceAs (Decidable (_ ∧ _))

theorem lowerRuns_high : ∀ run ∈ lowerRuns, LeadsHigh run := by decide +kernel

theorem lowerExpansions_high :
    ∀ e ∈ lowerExpansions, ∀ c ∈ e.2.map Char.ofNat, ¬ IsLow c := by
  simp only [lowerExpansions, List.forall_mem_singleton, List.forall_mem_map,
    List.forall_mem_cons]
  decide

theorem LeadsHigh.not_isLow {lo hi step n : Nat} {delta : Int} (h : LeadsHigh (lo, hi, step, delta))
    (hlo : lo ≤ n) (hhi : n ≤ hi) : ¬ IsLow (Char.ofNat (n + delta).toNat) := by
  obtain ⟨hlow, hvalid⟩ := h
  have hn : (n + delta).toNat.isValidChar := by
    simp only [Nat.isValidChar] at *
    omega
  unfold IsLow
  rw [Char.ofNat, dif_pos hn]
  show ¬ (UInt32.toNat (UInt32.ofNatLT (n + delta).toNat _)) < 0x41
  rw [UInt32.toNat_ofNatLT]
  simp only at hlow
  omega

theorem eq_of_mem_lowerChar (h : c ∈ lowerChar d) (hc : IsLow c) : c = d := by
  unfold lowerChar mapCase at h
  dsimp only at h
  split at h
  · rename_i n cs hfind
    exact absurd hc (lowerExpansions_high _ (List.mem_of_find?_eq_some hfind) c h)
  · split at h
    · rename_i lo hi step delta hfind
      have hrun := List.find?_some hfind
      simp only [Bool.and_eq_true, decide_eq_true_eq] at hrun
      rw [List.mem_singleton.1 h] at hc
      exact absurd hc ((lowerRuns_high _ (List.mem_of_find?_eq_some hfind)).not_isLow
        hrun.1.1 hrun.1.2)
    · exact List.mem_singleton.1 h

theorem exists_of_mem_lowerAfter {before : Text} (h : c ∈ lowerAfter before t) :
    ∃ d ∈ t, c ∈ lowerChar d ∨ d = 'Σ' ∧ (c = 'ς' ∨ c = 'σ') := by
  induction t generalizing before with
  | nil => cases h
  | cons d t ih =>
    rw [lowerAfter, List.mem_append] at h
    rcases h with h | h
    · refine ⟨d, List.mem_cons_self, ?_⟩
      split at h
      · rename_i hsigma
        refine .inr ⟨hsigma, ?_⟩
        split at h
        · exact .inl (List.mem_singleton.1 h)
        · exact .inr (List.mem_singleton.1 h)
      · exact .inl h
    · obtain ⟨e, he, hc⟩ := ih h
      exact ⟨e, List.mem_cons_of_mem d he, hc⟩

/-- What comes before the letters is not made by lowering. -/
theorem mem_of_mem_lower (h : c ∈ lower t) (hc : IsLow c) : c ∈ t := by
  obtain ⟨d, hd, hfrom | ⟨_, rfl | rfl⟩⟩ := exists_of_mem_lowerAfter h
  · exact eq_of_mem_lowerChar hfrom hc ▸ hd
  · exact absurd hc (by decide)
  · exact absurd hc (by decide)

/-- No digit of any script has a case. -/
theorem lowerChar_of_isDigit (h : isDigit c) : lowerChar c = [c] := by
  have hruns : ∀ run ∈ lowerRuns, ∀ z ∈ digitZeros, run.2.1 < z ∨ z + 9 < run.1 := by
    decide +kernel
  have hexpansions : ∀ e ∈ lowerExpansions, ∀ z ∈ digitZeros, e.1 < z ∨ z + 9 < e.1 := by
    decide
  obtain ⟨z, hz, hlow, hhigh, _⟩ := exists_of_isDigit h
  unfold lowerChar mapCase
  dsimp only
  split
  · rename_i e cs hfind
    have he := List.find?_some hfind
    have := hexpansions _ (List.mem_of_find?_eq_some hfind) z hz
    rw [decide_eq_true_eq] at he
    simp only at he this
    omega
  · split
    · rename_i lo hi step delta hfind
      have hrun := List.find?_some hfind
      have := hruns _ (List.mem_of_find?_eq_some hfind) z hz
      simp only [Bool.and_eq_true, decide_eq_true_eq] at hrun this
      omega
    · rfl

end Text
end Marginalia
