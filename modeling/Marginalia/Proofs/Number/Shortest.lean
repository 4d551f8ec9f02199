import Marginalia.Number.Decimal
import Marginalia.Proofs.Number.Nearest

/-
The fewest digits that read back.  A decimal numeral is read as the number next to its value,
however its zeros are written; with 18 digits the numeral next below a number is so near to it
that it reads back, so one that does is always found.
-/
namespace Marginalia

/-! ## Decimal values -/

namespace Binary64

variable {s : Bool} {num den c u : Nat}

theorem roundHalfEven_mul (hc : 0 < c) (num den : Nat) :
    roundHalfEven (c * num) (c * den) = roundHalfEven num den := by
  unfold roundHalfEven
  rw [Nat.mul_div_mul_left _ _ hc, Nat.mul_mod_mul_left]
  dsimp only
  simp only [Nat.mul_left_comm 2 c, Nat.mul_lt_mul_left hc]

theorem roundSignificand_mul (hc : 0 < c) (num den : Nat) :
    roundSignificand (c * num) (c * den) = roundSignificand num den := by
  unfold roundSignificand
  rw [Nat.mul_div_mul_left _ _ hc]
  dsimp only
  rw [Nat.mul_assoc, roundHalfEven_mul hc]

/-- A ratio in other terms is the same ratio. -/
theorem ofRatio_mul (hc : 0 < c) (s : Bool) (num den : Nat) :
    ofRatio s (c * num) (c * den) = ofRatio s num den := by
  unfold ofRatio
  rw [Nat.mul_left_comm one, roundSignificand_mul hc]

theorem ofRatio_eq_finite : ofRatio s num den = .finite s u ↔
    roundSignificand (one * num) den = u ∧ u < limit := by
  unfold ofRatio
  dsimp only
  split_ifs with h
  · constructor
    · intro heq
      cases heq
      exact ⟨rfl, h⟩
    · rintro ⟨rfl, _⟩
      rfl
  · refine ⟨nofun, ?_⟩
    rintro ⟨rfl, hu⟩
    exact absurd hu h

theorem roundSignificand_of_small (h : 2 * num < den) : roundSignificand num den = 0 := by
  have hquotient : num / den = 0 := Nat.div_eq_of_lt (by omega)
  have hzero : roundHalfEven num den = 0 := by
    unfold roundHalfEven
    rw [hquotient, Nat.mod_eq_of_lt (by omega)]
    exact if_pos h
  unfold roundSignificand
  rw [hquotient]
  show roundHalfEven num (den * 1) * 1 = 0
  rw [Nat.mul_one, Nat.mul_one, hzero]

/-- The units in one, with the exponent as a variable: powers of this size are not to be
computed. -/
theorem one_eq {k : Nat} (hk : k = 1074) : one = 2 ^ k := by
  unfold one
  rw [← hk]
  rfl

theorem pow_two_le_pow_ten (n : Nat) : 2 ^ (3 * n) ≤ 10 ^ n := by
  rw [Nat.pow_mul]
  exact Nat.pow_le_pow_left (by decide) n

theorem limit_eq_pow {k : Nat} (hk : k = 2098) : limit = 2 ^ k := by
  unfold limit
  rw [← hk]
  rfl

/-- What has 2098 binary digits or more is too large. -/
theorem limit_le_roundSignificand {k m : Nat} (hk : 2098 ≤ k) (h : 2 ^ k ≤ m) :
    limit ≤ roundSignificand m 1 := by
  obtain ⟨l, hl⟩ : ∃ l, l = 2098 := ⟨_, rfl⟩
  have hm : m ≠ 0 := Nat.ne_of_gt (Nat.lt_of_lt_of_le (Nat.two_pow_pos k) h)
  have hlog : k ≤ (m / 1).log2 := by
    rw [Nat.div_one]
    exact (Nat.le_log2 hm).2 h
  rw [limit_eq_pow hl]
  exact Nat.le_trans (Nat.pow_le_pow_right (by decide) (by omega))
    (pow_log2_le_roundSignificand (by omega))

theorem ofRatio_of_large {n d : Nat} (hd : d ≠ 0) (hn : 400 < n) (s : Bool) :
    ofRatio s (d * 10 ^ n) 1 = .infinity s := by
  obtain ⟨k, hk⟩ : ∃ k, k = 1074 := ⟨_, rfl⟩
  have hlarge : 2 ^ (k + 3 * n) ≤ one * (d * 10 ^ n) := by
    rw [Nat.pow_add, one_eq hk]
    refine Nat.mul_le_mul_left _ (Nat.le_trans (pow_two_le_pow_ten n) ?_)
    exact Nat.le_mul_of_pos_left _ (Nat.pos_of_ne_zero hd)
  have hlimit := limit_le_roundSignificand (by omega) hlarge
  unfold ofRatio
  dsimp only
  rw [if_neg (Nat.not_lt.2 hlimit)]

theorem ofRatio_of_small {n d : Nat} (hn : 400 + d.log2 < n) (s : Bool) :
    ofRatio s d (10 ^ n) = .finite s 0 := by
  obtain ⟨k, hk⟩ : ∃ k, k = 1074 := ⟨_, rfl⟩
  refine ofRatio_eq_finite.2 ⟨roundSignificand_of_small ?_, by decide +kernel⟩
  have hsmall : one * d < 2 ^ (k + (d.log2 + 1)) := by
    rw [Nat.pow_add, one_eq hk]
    exact Nat.mul_lt_mul_of_pos_left Nat.lt_log2_self (Nat.two_pow_pos k)
  calc 2 * (one * d) < 2 * 2 ^ (k + (d.log2 + 1)) := by omega
    _ = 2 ^ (k + (d.log2 + 1) + 1) := by rw [Nat.pow_succ, Nat.mul_comm]
    _ ≤ 2 ^ (3 * n) := Nat.pow_le_pow_right (by decide) (by omega)
    _ ≤ 10 ^ n := pow_two_le_pow_ten n

/-- A number that rounding yields. -/
inductive IsRounded : Binary64 → Prop
  | nan : IsRounded .nan
  | infinity (s : Bool) : IsRounded (.infinity s)
  | finite (s : Bool) {u : Nat} : IsSignificand u → u < limit → IsRounded (.finite s u)

theorem isRounded_ofRatio (s : Bool) (num den : Nat) : (ofRatio s num den).IsRounded := by
  unfold ofRatio
  dsimp only
  split_ifs with h
  · exact .finite s (isSignificand_roundSignificand _ _) h
  · exact .infinity s

end Binary64

namespace Decimal

open Binary64

/-- A decimal numeral is read as the number next to its value, also where that is settled
without a power of ten. -/
theorem toBinary64_eq_ofRatio (s : Bool) (d : Nat) (e : Int) :
    toBinary64 ⟨s, d, e⟩ = .ofRatio s (d * 10 ^ e.toNat) (10 ^ (-e).toNat) := by
  unfold toBinary64
  dsimp only
  split_ifs with hd hbig hwhole hsmall
  · rw [hd, Nat.zero_mul]
    refine (ofRatio_eq_finite.2 ⟨roundSignificand_of_small ?_, by decide +kernel⟩).symm
    rw [Nat.mul_zero]
    exact Nat.pow_pos (by decide)
  · have hone : (-e).toNat = 0 := by omega
    rw [hone]
    exact (ofRatio_of_large hd (by omega) s).symm
  · have hone : (-e).toNat = 0 := by omega
    rw [hone]
    rfl
  · have hone : e.toNat = 0 := by omega
    rw [hone, Nat.pow_zero, Nat.mul_one]
    exact (ofRatio_of_small (by omega) s).symm
  · have hone : e.toNat = 0 := by omega
    rw [hone, Nat.pow_zero, Nat.mul_one]
    rfl

theorem isRounded_toBinary64 (d : Decimal) : d.toBinary64.IsRounded := by
  obtain ⟨s, d, e⟩ := d
  rw [toBinary64_eq_ofRatio]
  exact isRounded_ofRatio s _ _

/-- Zeros at the end of the digits count as much in the exponent. -/
theorem toBinary64_zeros (s : Bool) (d j : Nat) (e : Int) :
    toBinary64 ⟨s, d * 10 ^ j, e⟩ = toBinary64 ⟨s, d, e + j⟩ := by
  have hpos : ∀ n, 0 < 10 ^ n := fun n => Nat.pow_pos (by decide)
  rw [toBinary64_eq_ofRatio, toBinary64_eq_ofRatio]
  -- both ratios are brought over the denominators of both
  have hpow : 10 ^ j * 10 ^ e.toNat * 10 ^ (-(e + j)).toNat =
      10 ^ (e + j).toNat * 10 ^ (-e).toNat := by
    rw [← Nat.pow_add, ← Nat.pow_add, ← Nat.pow_add]
    congr 1
    omega
  rw [← ofRatio_mul (hpos (-(e + j)).toNat) s, ← ofRatio_mul (hpos (-e).toNat) s _
    (10 ^ (-(e + j)).toNat), Nat.mul_comm (10 ^ (-(e + j)).toNat) (10 ^ (-e).toNat)]
  congr 1
  calc 10 ^ (-(e + j)).toNat * (d * 10 ^ j * 10 ^ e.toNat)
      = d * (10 ^ j * 10 ^ e.toNat * 10 ^ (-(e + j)).toNat) := by
        rw [Nat.mul_comm, Nat.mul_assoc d, Nat.mul_assoc d]
    _ = 10 ^ (-e).toNat * (d * 10 ^ (e + j).toNat) := by
        rw [hpow, ← Nat.mul_assoc, Nat.mul_comm]

/-! ## The digits that read back -/

variable {u : Nat} {digits count : Nat} {e leading : Int}

theorem readsBack_iff : readsBack u digits e ↔
    roundSignificand (one * (digits * 10 ^ e.toNat)) (10 ^ (-e).toNat) = u ∧ u < limit := by
  unfold readsBack
  rw [decide_eq_true_eq, toBinary64_eq_ofRatio, ofRatio_eq_finite]

theorem toBinary64_of_readsBack (h : readsBack u digits e) (s : Bool) :
    toBinary64 ⟨s, digits, e⟩ = .finite s u := by
  rw [toBinary64_eq_ofRatio, ofRatio_eq_finite]
  exact readsBack_iff.1 h

/-- Ten to the power `e` is at most the number. -/
def Reaches (u : Nat) (e : Int) : Prop := 10 ^ e.toNat * one ≤ u * 10 ^ (-e).toNat

/-- The power of ten that is tried first is too great by one at the most. -/
theorem reaches_guess : ∀ l : Nat, l < 2098 →
    Reaches (2 ^ l) (((l : Int) - 1074) * 30103 / 100000 - 1) := by
  unfold Reaches
  decide +kernel

theorem Reaches.mono {v : Nat} (h : Reaches u e) (huv : u ≤ v) : Reaches v e :=
  Nat.le_trans h (Nat.mul_le_mul_right _ huv)

theorem reaches_leadingExponent (hpos : 0 < u) (h : u < limit) :
    Reaches u (leadingExponent u) := by
  have hreaches : ∀ e : Int, (if 0 ≤ e then decide (Nat.pow 10 e.toNat * one ≤ u)
      else decide (one ≤ u * Nat.pow 10 (-e).toNat)) = true → Reaches u e := by
    intro e he
    unfold Reaches
    split at he
    · have hnone : (-e).toNat = 0 := by omega
      rw [hnone, Nat.pow_zero, Nat.mul_one]
      exact of_decide_eq_true he
    · have hnone : e.toNat = 0 := by omega
      rw [hnone, Nat.pow_zero, Nat.one_mul]
      exact of_decide_eq_true he
  unfold leadingExponent
  extract_lets guess reaches
  split_ifs with hguess hnext
  · obtain ⟨k, hk⟩ : ∃ k, k = 2098 := ⟨_, rfl⟩
    rw [limit_eq_pow hk] at h
    have hlog : u.log2 < 2098 := hk ▸ (Nat.log2_lt (by omega)).2 h
    exact (reaches_guess _ hlog).mono (Nat.log2_self_le (by omega))
  · exact hreaches _ hnext
  · refine hreaches guess ?_
    rwa [Bool.not_eq_true', Bool.not_eq_false] at hguess

/-- The numeral with 18 digits next below a number is so near to it that it reads back. -/
theorem readsBack_lower (hu : IsSignificand u) (h : u < limit) (hleading : Reaches u leading)
    (he : e = leading - 17) : readsBack u (u * 10 ^ (-e).toNat / (10 ^ e.toNat * one)) e := by
  have hpos : ∀ n, 0 < 10 ^ n := fun n => Nat.pow_pos (by decide)
  let scale := 10 ^ e.toNat * one
  have hscale : 0 < scale := Nat.mul_pos (hpos _) pos_one
  have hsmall : 10 ^ 17 * scale ≤ u * 10 ^ (-e).toNat := by
    refine Nat.le_of_mul_le_mul_right ?_ (hpos (-leading).toNat)
    have hexponents : 10 ^ 17 * 10 ^ e.toNat * 10 ^ (-leading).toNat =
        10 ^ leading.toNat * 10 ^ (-e).toNat := by
      rw [← Nat.pow_add, ← Nat.pow_add, ← Nat.pow_add]
      congr 1
      omega
    calc 10 ^ 17 * (10 ^ e.toNat * one) * 10 ^ (-leading).toNat
        = 10 ^ 17 * 10 ^ e.toNat * 10 ^ (-leading).toNat * one := by
          rw [← Nat.mul_assoc, Nat.mul_right_comm]
      _ = 10 ^ leading.toNat * one * 10 ^ (-e).toNat := by
          rw [hexponents, Nat.mul_right_comm]
      _ ≤ u * 10 ^ (-leading).toNat * 10 ^ (-e).toNat := Nat.mul_le_mul_right _ hleading
      _ = u * 10 ^ (-e).toNat * 10 ^ (-leading).toNat := Nat.mul_right_comm ..
  generalize hn : u * 10 ^ (-e).toNat = n at hsmall
  have hnum : one * (n / scale * 10 ^ e.toNat) = n / scale * scale := by
    rw [Nat.mul_left_comm, Nat.mul_comm one]
  have hparts := Nat.div_add_mod' n scale
  have hrest := Nat.mod_lt n hscale
  refine readsBack_iff.2 ⟨roundSignificand_of_near hu (hpos _) ?_ ?_, h⟩
  · rw [hn, hnum]
    exact Nat.div_mul_le_self n scale
  · rw [hn, hnum]
    have hbits : 2 ^ 56 * scale ≤ 10 ^ 17 * scale := Nat.mul_le_mul_right _ (by decide)
    have hgap : 2 ^ 56 * (n - n / scale * scale) ≤ 2 ^ 56 * scale :=
      Nat.mul_le_mul_left _ (by omega)
    omega

theorem readsBack_onGrid? {x : Nat × Int} (h : onGrid? u leading count = some x) :
    readsBack u x.1 x.2 := by
  unfold onGrid? at h
  extract_lets e lower at h
  split at h
  · cases h
  · obtain rfl := Option.some.inj h
    assumption
  · obtain rfl := Option.some.inj h
    assumption
  · rename_i hlower hupper
    split at h
    · obtain rfl := Option.some.inj h
      exact hlower
    · obtain rfl := Option.some.inj h
      exact hupper
    · obtain rfl := Option.some.inj h
      dsimp only
      split
      · exact hlower
      · exact hupper

theorem lower_eq (u : Nat) (e : Int) :
    (if 0 ≤ e then u / (Nat.pow 10 e.toNat * one) else u * Nat.pow 10 (-e).toNat / one) =
      u * 10 ^ (-e).toNat / (10 ^ e.toNat * one) := by
  split
  · have hnone : (-e).toNat = 0 := by omega
    rw [hnone, Nat.pow_zero, Nat.mul_one]
    rfl
  · have hnone : e.toNat = 0 := by omega
    rw [hnone, Nat.pow_zero, Nat.one_mul]
    rfl

theorem isSome_onGrid? (hu : IsSignificand u) (h : u < limit) (hleading : Reaches u leading) :
    (onGrid? u leading 18).isSome := by
  unfold onGrid?
  extract_lets e lower
  have hlower : lower = u * 10 ^ (-e).toNat / (10 ^ e.toNat * one) := lower_eq u e
  have hback : readsBack u lower e = true :=
    hlower ▸ readsBack_lower hu h hleading (by omega)
  rw [hback]
  cases readsBack u (lower + 1) e with
  | false => rfl
  | true =>
    dsimp only
    split <;> rfl

/-- One of the counts from `count` on is enough, when the last one is. -/
theorem readsBack_shortestFrom {fuel : Nat} (h : (onGrid? u leading (count + fuel)).isSome) :
    readsBack u (shortestFrom u leading fuel count).1 (shortestFrom u leading fuel count).2 := by
  have hfound : ∀ x, onGrid? u leading count = some x → readsBack u x.1 x.2 :=
    fun x hx => readsBack_onGrid? hx
  induction fuel generalizing count with
  | zero =>
    obtain ⟨x, hx⟩ := Option.isSome_iff_exists.1 h
    rw [Nat.add_zero] at hx
    rw [shortestFrom, hx]
    exact hfound x hx
  | succ fuel ih =>
    rw [shortestFrom]
    cases hx : onGrid? u leading count with
    | some x => exact hfound x hx
    | none =>
      refine ih ?_ fun x hx => readsBack_onGrid? hx
      rwa [Nat.add_assoc, Nat.add_comm 1]

/-- The fewest digits read back. -/
theorem readsBack_shortest (hu : IsSignificand u) (hpos : 0 < u) (h : u < limit) :
    readsBack u (shortest u).1 (shortest u).2 :=
  readsBack_shortestFrom (isSome_onGrid? hu h (reaches_leadingExponent hpos h))

end Decimal
end Marginalia
