import Mathlib.Algebra.Order.Ring.Nat
import Marginalia.Number.Binary64

/-
The range of floating-point numbers.  A ratio has a nearest one as long as it is less than
half way from the greatest of them to the number that would follow it.
-/
namespace Marginalia

/-! ## Rounding -/

theorem le_roundHalfEven (num den : Nat) : num / den ≤ roundHalfEven num den := by
  unfold roundHalfEven
  dsimp only
  split_ifs <;> omega

theorem roundHalfEven_le (num den : Nat) : roundHalfEven num den ≤ num / den + 1 := by
  unfold roundHalfEven
  dsimp only
  split_ifs <;> omega

/-- An odd quotient stays where the remainder is less than a half. -/
theorem roundHalfEven_eq_iff {num den : Nat} (hodd : num / den % 2 = 1) :
    roundHalfEven num den = num / den ↔ 2 * (num % den) < den := by
  unfold roundHalfEven
  dsimp only
  split_ifs <;> omega

variable {num den k : Nat}

theorem roundSignificand_eq (num den : Nat) : roundSignificand num den =
    roundHalfEven num (den * 2 ^ ((num / den).log2 - 52)) * 2 ^ ((num / den).log2 - 52) :=
  rfl

theorem roundSignificand_le (num den : Nat) :
    roundSignificand num den ≤ num / den + 2 ^ ((num / den).log2 - 52) := by
  rw [roundSignificand_eq]
  generalize 2 ^ ((num / den).log2 - 52) = d
  calc roundHalfEven num (den * d) * d ≤ (num / (den * d) + 1) * d :=
        Nat.mul_le_mul_right d (roundHalfEven_le num (den * d))
    _ = num / den / d * d + d := by rw [Nat.succ_mul, Nat.div_div_eq_div_mul]
    _ ≤ num / den + d := Nat.add_le_add_right (Nat.div_mul_le_self _ d) d

theorem pow_log2_le_roundSignificand (h : 52 ≤ (num / den).log2) :
    2 ^ (num / den).log2 ≤ roundSignificand num den := by
  have hquotient : num / den ≠ 0 := by
    intro hzero
    rw [hzero] at h
    cases h
  have hsplit : 2 ^ 52 * 2 ^ ((num / den).log2 - 52) = 2 ^ (num / den).log2 := by
    rw [← Nat.pow_add, Nat.add_sub_cancel' h]
  rw [roundSignificand_eq, ← hsplit]
  refine Nat.mul_le_mul_right _ (Nat.le_trans ?_ (le_roundHalfEven _ _))
  rw [← Nat.div_div_eq_div_mul, Nat.le_div_iff_mul_le (Nat.two_pow_pos _), hsplit]
  exact Nat.log2_self_le hquotient

/-- Between two powers of two the significand has 53 digits, and it overflows when the
last one is rounded up. -/
theorem roundSignificand_lt_of_log2 (hden : 0 < den) (h : (num / den).log2 = k + 52) :
    roundSignificand num den < 2 ^ 53 * 2 ^ k ↔ 2 * num < (2 ^ 54 - 1) * (den * 2 ^ k) := by
  have hquotient : num / den / 2 ^ k < 2 ^ 53 := by
    rw [Nat.div_lt_iff_lt_mul (Nat.two_pow_pos k), ← Nat.pow_add, Nat.add_comm 53 k]
    have := Nat.lt_log2_self (n := num / den)
    rwa [h] at this
  have hpos : 0 < den * 2 ^ k := Nat.mul_pos hden (Nat.two_pow_pos k)
  rw [Nat.div_div_eq_div_mul] at hquotient
  rw [roundSignificand_eq, h, Nat.add_sub_cancel, Nat.mul_lt_mul_right (Nat.two_pow_pos k)]
  generalize den * 2 ^ k = d at hquotient hpos ⊢
  have hnum : num < 2 ^ 53 * d := (Nat.div_lt_iff_lt_mul hpos).1 hquotient
  by_cases hlast : num / d = 2 ^ 53 - 1
  · have hodd : roundHalfEven num d = num / d ↔ 2 * (num % d) < d :=
      roundHalfEven_eq_iff (by omega)
    have hle := le_roundHalfEven num d
    have hparts := Nat.div_add_mod' num d
    rw [hlast] at hodd hle hparts
    constructor
    · intro hlt
      have := hodd.1 (by omega)
      omega
    · intro hlt
      have := hodd.2 (by omega)
      omega
  · have hle := roundHalfEven_le num d
    have hlt : num < (2 ^ 53 - 1) * d := (Nat.div_lt_iff_lt_mul hpos).1 (by omega)
    exact ⟨fun _ => by omega, fun _ => by omega⟩

theorem roundSignificand_lt_iff (hden : 0 < den) (num k : Nat) :
    roundSignificand num den < 2 ^ 53 * 2 ^ k ↔ 2 * num < (2 ^ 54 - 1) * (den * 2 ^ k) := by
  have hpow (n : Nat) : 2 ^ (k + n) = 2 ^ n * 2 ^ k := by rw [Nat.pow_add, Nat.mul_comm]
  have hscale (n : Nat) : n * 2 ^ k * den = n * (den * 2 ^ k) := by
    rw [Nat.mul_assoc, Nat.mul_comm den]
  rcases Nat.lt_trichotomy (num / den).log2 (k + 52) with hlog | hlog | hlog
  · have hquotient : num / den < 2 ^ 52 * 2 ^ k := by
      rw [← hpow]
      exact Nat.lt_of_lt_of_le Nat.lt_log2_self (Nat.pow_le_pow_right (by decide) hlog)
    have hshift : 2 ^ ((num / den).log2 - 52) ≤ 2 ^ k :=
      Nat.pow_le_pow_right (by decide) (by omega)
    have hle := roundSignificand_le num den
    have hnum := (Nat.div_lt_iff_lt_mul hden).1 hquotient
    rw [hscale] at hnum
    generalize den * 2 ^ k = e at *
    generalize 2 ^ k = d at *
    exact ⟨fun _ => by omega, fun _ => by omega⟩
  · exact roundSignificand_lt_of_log2 hden hlog
  · have hquotient : num / den ≠ 0 := by
      intro hzero
      rw [hzero] at hlog
      cases hlog
    have hbig : 2 ^ 53 * 2 ^ k ≤ 2 ^ (num / den).log2 := by
      rw [← hpow]
      exact Nat.pow_le_pow_right (by decide) hlog
    have hle : 2 ^ (num / den).log2 ≤ roundSignificand num den :=
      pow_log2_le_roundSignificand (by omega)
    have hself := Nat.le_trans hbig (Nat.log2_self_le hquotient)
    have hnum := (Nat.le_div_iff_mul_le hden).1 hself
    rw [hscale] at hnum
    generalize den * 2 ^ k = e at *
    generalize 2 ^ k = d at *
    exact ⟨fun _ => by omega, fun _ => by omega⟩

/-! ## Whole numbers -/

namespace Binary64

/-- The least whole number without a nearest floating-point one. -/
def overflow : Nat := (Nat.pow 2 54 - 1) * Nat.pow 2 970

-- The exponents are variables here, since powers of this size are not to be computed.

theorem limit_eq {k : Nat} (h : 53 + k = 2098) : limit = 2 ^ 53 * 2 ^ k := by
  unfold limit
  rw [← h]
  exact Nat.pow_add 2 53 k

theorem one_mul_overflow {j k l : Nat} (hj : j = 970) (hk : k = 1074) (hl : 1 + k + j = l) :
    2 * (one * overflow) = (2 ^ 54 - 1) * 2 ^ l := by
  have hpow : 2 ^ l = 2 * 2 ^ k * 2 ^ j := by rw [← hl, Nat.pow_add, Nat.pow_add]
  have hone : one = 2 ^ k := by
    unfold one
    rw [← hk]
    rfl
  have hoverflow : overflow = (2 ^ 54 - 1) * 2 ^ j := by
    unfold overflow
    rw [← hj]
    rfl
  rw [hpow, hone, hoverflow, Nat.mul_left_comm (2 ^ 54 - 1), ← Nat.mul_assoc,
    Nat.mul_left_comm]

theorem pos_one : 0 < one := by decide +kernel

/-- A ratio has a nearest floating-point number when it is below the first whole number that
has none. -/
theorem roundSignificand_lt_limit {den : Nat} (hden : 0 < den) (num : Nat) :
    roundSignificand (one * num) den < limit ↔ num < overflow * den := by
  obtain ⟨k, hk⟩ : ∃ k, 53 + k = 2098 := ⟨2045, rfl⟩
  have hscale : (2 ^ 54 - 1) * (den * 2 ^ k) = 2 * (one * (overflow * den)) := by
    rw [Nat.mul_left_comm _ den, ← one_mul_overflow rfl rfl (by omega), Nat.mul_left_comm den,
      Nat.mul_left_comm den, Nat.mul_comm den]
  rw [limit_eq hk, roundSignificand_lt_iff hden, hscale, Nat.mul_lt_mul_left (by decide),
    Nat.mul_lt_mul_left pos_one]

theorem ofInt?_eq_none_iff {n : Int} : ofInt? n = none ↔ overflow ≤ n.natAbs := by
  have hlimit := roundSignificand_lt_limit Nat.one_pos n.natAbs
  rw [Nat.mul_one] at hlimit
  rw [← Nat.not_lt, ← hlimit]
  unfold ofInt? ofRatio
  dsimp only
  split_ifs with h
  · exact ⟨nofun, fun hnot => absurd h hnot⟩
  · exact ⟨fun _ => h, fun _ => rfl⟩

end Binary64
end Marginalia
