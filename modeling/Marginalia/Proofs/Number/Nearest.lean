import Marginalia.Proofs.Number.Range

/-
Numbers of 53 significant bits.  What is rounded is one of them, and not below one that was
reached; and what lies next below one of them, much nearer than the other ones do, is rounded
to it.  So they are the whole numbers that rounding leaves alone.
-/
namespace Marginalia

variable {u w num den : Nat}

/-- A whole number of at most 53 significant bits. -/
def IsSignificand (u : Nat) : Prop := ∃ m k, u = m * 2 ^ k ∧ m ≤ 2 ^ 53

theorem div_lt_of_log2 {q k : Nat} (h : q.log2 ≤ k + 52) : q / 2 ^ k < 2 ^ 53 := by
  rw [Nat.div_lt_iff_lt_mul (Nat.two_pow_pos k), ← Nat.pow_add]
  exact Nat.lt_of_lt_of_le Nat.lt_log2_self (Nat.pow_le_pow_right (by decide) (by omega))

/-- Rounding yields 53 significant bits. -/
theorem isSignificand_roundSignificand (num den : Nat) :
    IsSignificand (roundSignificand num den) := by
  refine ⟨_, (num / den).log2 - 52, rfl, ?_⟩
  show roundHalfEven num (den * 2 ^ ((num / den).log2 - 52)) ≤ 2 ^ 53
  have hbits : num / den / 2 ^ ((num / den).log2 - 52) < 2 ^ 53 := div_lt_of_log2 (by omega)
  rw [Nat.div_div_eq_div_mul] at hbits
  exact Nat.le_trans (roundHalfEven_le _ _) hbits

/-! ## Near numbers -/

theorem roundHalfEven_of_near (hle : num ≤ w * den) (h : 2 * (w * den - num) < den) :
    roundHalfEven num den = w := by
  unfold roundHalfEven
  by_cases heq : num = w * den
  · have hden : 0 < den := Nat.pos_of_ne_zero fun h0 => by simp [h0] at h
    rw [heq, Nat.mul_div_cancel w hden, Nat.mul_mod_left]
    dsimp only
    rw [if_pos (by omega)]
  · have hw : w ≠ 0 := by
      rintro rfl
      rw [Nat.zero_mul] at hle heq
      exact heq (Nat.le_zero.1 hle)
    obtain ⟨v, rfl⟩ := Nat.exists_eq_add_one_of_ne_zero hw
    have hmul : (v + 1) * den = v * den + den := Nat.succ_mul v den
    rw [hmul] at hle h heq
    -- the number lies in the upper half between two neighbours
    obtain ⟨r, rfl⟩ : ∃ r, num = r + v * den := ⟨num - v * den, by omega⟩
    have hr : r < den := by omega
    rw [Nat.add_mul_div_right _ _ (Nat.lt_of_le_of_lt (Nat.zero_le r) hr), Nat.div_eq_of_lt hr,
      Nat.zero_add, Nat.add_mul_mod_self_right, Nat.mod_eq_of_lt hr]
    dsimp only
    rw [if_neg (by omega), if_pos (by omega)]

/-- The last bit that rounding keeps, for a number next below one of 53 significant bits, is a
bit of that one. -/
theorem dvd_of_log2 {k : Nat} (hu : IsSignificand u) (hk : k = 0 ∨ k + 52 ≤ u.log2) :
    2 ^ k ∣ u := by
  rcases hk with rfl | hk
  · exact Nat.one_dvd u
  · obtain ⟨m, j, rfl, hm⟩ := hu
    have hle : m * 2 ^ j ≤ 2 ^ (53 + j) := by
      rw [Nat.pow_add]
      exact Nat.mul_le_mul_right _ hm
    by_cases htop : k ≤ j
    · exact Nat.dvd_mul_left_of_dvd (Nat.pow_dvd_pow 2 htop) m
    · have hne : m * 2 ^ j ≠ 0 := by
        intro h
        rw [h] at hk
        exact absurd hk (by simp)
      have hlow : 2 ^ (53 + j) ≤ m * 2 ^ j :=
        Nat.le_trans (Nat.pow_le_pow_right (by decide) (by omega)) (Nat.log2_self_le hne)
      have hlog : (m * 2 ^ j).log2 = 53 + j := by
        rw [Nat.le_antisymm hle hlow, Nat.log2_two_pow]
      rw [Nat.le_antisymm hle hlow]
      exact Nat.pow_dvd_pow 2 (by omega)

/-- A number of 53 significant bits that a ratio reaches is reached by what it is rounded to. -/
theorem le_roundSignificand (hu : IsSignificand u) (hden : 0 < den) (h : u * den ≤ num) :
    u ≤ roundSignificand num den := by
  let k := (num / den).log2 - 52
  have hquotient : u ≤ num / den := (Nat.le_div_iff_mul_le hden).2 h
  by_cases hlow : k = 0 ∨ k + 52 ≤ u.log2
  · obtain ⟨v, rfl⟩ := dvd_of_log2 hu hlow
    have hv : v ≤ roundHalfEven num (den * 2 ^ k) := by
      refine Nat.le_trans ?_ (le_roundHalfEven _ _)
      rw [← Nat.div_div_eq_div_mul, Nat.le_div_iff_mul_le (Nat.two_pow_pos k), Nat.mul_comm]
      exact hquotient
    show 2 ^ k * v ≤ roundHalfEven num (den * 2 ^ k) * 2 ^ k
    rw [Nat.mul_comm]
    exact Nat.mul_le_mul_right _ hv
  · -- then the ratio has more binary digits
    have hlog : u.log2 + 1 ≤ (num / den).log2 := by omega
    have hlt : u < 2 ^ (num / den).log2 :=
      Nat.lt_of_lt_of_le Nat.lt_log2_self (Nat.pow_le_pow_right (by decide) hlog)
    exact Nat.le_trans (Nat.le_of_lt hlt) (pow_log2_le_roundSignificand (by omega))

/-- A ratio is rounded to a number of 53 significant bits when it lies below it, by no more than
a small part of it. -/
theorem roundSignificand_of_near (hu : IsSignificand u) (hden : 0 < den) (hle : num ≤ u * den)
    (h : 2 ^ 56 * (u * den - num) ≤ u * den) : roundSignificand num den = u := by
  let k := (num / den).log2 - 52
  have hquotient : num / den ≤ u := Nat.div_le_of_le_mul (by rwa [Nat.mul_comm])
  have hhalf : u / 2 ≤ num / den := by
    rw [Nat.le_div_iff_mul_le hden]
    have := Nat.mul_le_mul_right den (Nat.div_mul_le_self u 2)
    have hmul : u / 2 * 2 * den = 2 * (u / 2 * den) := by
      rw [Nat.mul_comm (u / 2) 2, Nat.mul_assoc]
    omega
  have hlog : u.log2 ≤ (num / den).log2 + 1 := by
    by_cases hone : u.log2 ≤ 1
    · omega
    · have hne : u ≠ 0 := by
        rintro rfl
        exact hone (by simp)
      have hpow : 2 ^ (u.log2 - 1) ≤ num / den := by
        have hself := Nat.log2_self_le hne
        have hsplit : 2 ^ u.log2 = 2 * 2 ^ (u.log2 - 1) := by
          rw [← Nat.pow_succ', Nat.succ_eq_add_one, Nat.sub_add_cancel (by omega)]
        omega
      have hq : num / den ≠ 0 := by
        have := Nat.two_pow_pos (u.log2 - 1)
        omega
      have := (Nat.le_log2 hq).2 hpow
      omega
  have hlog' : (num / den).log2 ≤ u.log2 := by
    by_cases hq : num / den = 0
    · rw [hq]
      simp
    · exact (Nat.le_log2 (by omega)).2 (Nat.le_trans (Nat.log2_self_le hq) hquotient)
  obtain ⟨v, rfl⟩ : 2 ^ k ∣ u := dvd_of_log2 hu (by omega)
  have hbound : 2 ^ k * v < 2 ^ 54 * 2 ^ k := by
    rw [← Nat.pow_add]
    exact Nat.lt_of_lt_of_le Nat.lt_log2_self (Nat.pow_le_pow_right (by decide) (by omega))
  have hassoc : v * (den * 2 ^ k) = 2 ^ k * v * den := by
    rw [Nat.mul_comm den, ← Nat.mul_assoc, Nat.mul_comm v]
  have hround : roundHalfEven num (den * 2 ^ k) = v := by
    refine roundHalfEven_of_near (by rwa [hassoc]) ?_
    rw [hassoc]
    have hgap : 2 ^ k * v * den < 2 ^ 54 * (den * 2 ^ k) := by
      have := Nat.mul_lt_mul_of_pos_right hbound hden
      rwa [Nat.mul_assoc (2 ^ 54), Nat.mul_comm (2 ^ k) den] at this
    omega
  show roundHalfEven num (den * 2 ^ k) * 2 ^ k = 2 ^ k * v
  rw [hround, Nat.mul_comm]

/-- The whole numbers that rounding leaves alone. -/
theorem roundSignificand_eq_self_iff : roundSignificand u 1 = u ↔ IsSignificand u := by
  constructor
  · intro h
    rw [← h]
    exact isSignificand_roundSignificand u 1
  · intro hu
    refine roundSignificand_of_near hu Nat.one_pos ?_ ?_
    · rw [Nat.mul_one]
    · rw [Nat.mul_one, Nat.sub_self, Nat.mul_zero]
      exact Nat.zero_le u

end Marginalia
