import Marginalia.Proofs.Filter.Length
import Marginalia.Proofs.Number.Comparison
import Marginalia.Proofs.Number.Spelling

/-
Texts that fit.  A length that is given as a decimal numeral is the number next to the value of
the numeral, so a text that fits into the value is left alone; but a numeral out of the range of
floating-point numbers is cut off behind its first digits, and what these stand for can be too
short for the text, or refused.
-/
namespace Marginalia
namespace Truncate

open Binary64 (overflow units nearest one)
open Decimal (Numeral)
open Text (digitsValue maxNumeralDigits)

variable {a t : Text} {c : Char}

/-! ## Cuts -/

/-- A text is the same with a cut at a length: none is made, the text fits, or it ends in the
mark of the cut. -/
def Keeps (t : Text) (x : ℚ) : Prop :=
  x ≤ 0 ∨ t.length ≤ x ∨ t.take ⌊x⌋₊ ++ [ellipsis] = t

theorem apply_of_length {u : Nat} (h : length? (some a) = .ok (some (.finite false u))) :
    apply t (some a) = .ok (if u = 0 ∨ t.length * one ≤ u then t
      else t.take (u / one) ++ [ellipsis]) := by
  have hzero : ((Binary64.finite false u).compareInt? 0).any (· ≠ .gt) = decide (u = 0) := by
    rw [Binary64.compareInt?_finite, Int.zero_mul, Option.any_some, decide_eq_decide,
      Int.compare_ne_gt]
    omega
  have hfits : ((Binary64.finite false u).compareInt? t.length).any (· ≠ .lt) =
      decide (t.length * one ≤ u) := by
    rw [Binary64.compareInt?_finite, Option.any_some, decide_eq_decide, Int.compare_ne_lt,
      ← Int.natCast_mul, Int.ofNat_le]
  unfold apply
  rw [h]
  dsimp only [bind, Except.bind]
  rw [hzero, hfits]
  simp only [decide_eq_true_eq, ite_or]
  split_ifs <;> rfl

theorem apply_eq_self_iff {u : Nat} (h : length? (some a) = .ok (some (.finite false u))) :
    apply t (some a) = .ok t ↔ Keeps t ((u : ℚ) / one) := by
  have hone : (0 : ℚ) < one := Nat.cast_pos.2 Binary64.pos_one
  have hzero : (u : ℚ) / one ≤ 0 ↔ u = 0 := by
    rw [div_le_iff₀ hone, zero_mul, ← Nat.cast_zero, Nat.cast_le, Nat.le_zero]
  have hfits : (t.length : ℚ) ≤ (u : ℚ) / one ↔ t.length * one ≤ u := by
    rw [le_div_iff₀ hone, ← Nat.cast_mul, Nat.cast_le]
  rw [apply_of_length h, Except.ok.injEq]
  unfold Keeps
  rw [hzero, hfits, Rat.natFloor_natCast_div_natCast, ← or_assoc]
  split
  · exact iff_of_true rfl (.inl ‹_›)
  · exact (or_iff_right ‹_›).symm

/-! ## Lengths from numerals -/

theorem not_isSpace_of_mem_text {n : Numeral} (h : c ∈ n.text) : Text.isSpace c = false := by
  have hsigns : ∀ c ∈ Numeral.signs, Text.isSpace c = false :=
    Decimal.Numeral.forall_mem_signs.2 (by decide)
  exact (Decimal.Numeral.mem_text h).elim Text.not_isSpace_of_isDigit (hsigns c)

theorem tight_text (n : Numeral) : n.text.Tight :=
  ⟨fun _ hc => not_isSpace_of_mem_text (List.mem_of_mem_head? hc),
    fun _ hc => not_isSpace_of_mem_text (List.mem_of_getLast? hc)⟩

theorem sign_text (n : Numeral) : Text.sign n.text = [] := by
  obtain ⟨c, w, hw⟩ := List.exists_cons_of_ne_nil n.ne_nil
  unfold Decimal.Numeral.text
  rw [hw]
  exact Text.sign_of_digit (n.areDigits c (hw ▸ List.mem_cons_self)) (w ++ n.tail)

theorem leadingDigits_text (n : Numeral) : leadingDigits n.text = n.whole := by
  have hhead : ∀ c ∈ n.tail.head?, Text.isDigit c = false := by
    intro c hc
    rcases Decimal.Numeral.head_tail hc with rfl | rfl | rfl <;> decide
  unfold leadingDigits
  rw [sign_text]
  exact (Text.run_append n.areDigits hhead).1

/-- The length that a numeral asks for; out of range, that of its first digits. -/
theorem length?_text (n : Numeral) : length? (some n.text) =
    if n.value < overflow then .ok (some (.finite false (units n.value)))
    else if maxNumeralDigits < n.whole.length then .error (.numeralTooLong n.whole.length)
    else if digitsValue n.whole < overflow then
      .ok (some (.finite false (units (digitsValue n.whole))))
    else .error .tooLarge := by
  have hread : Value.readWhole n.whole =
      if maxNumeralDigits < n.whole.length then .error (.numeralTooLong n.whole.length)
      else .ok (digitsValue n.whole : Int) :=
    Value.readWhole_signed (t := []) n.ne_nil n.areDigits
  have hleading := leadingWhole_of_head (tight_text n).head
  rw [leadingDigits_text, sign_text, if_neg (by simpa using n.ne_nil), List.nil_append] at hleading
  unfold length?
  dsimp only
  rw [(tight_text n).strip_eq, Decimal.Numeral.read?_text, hleading]
  by_cases hvalue : n.value < overflow
  · rw [if_pos hvalue, if_pos hvalue]
    rfl
  · rw [if_neg hvalue, if_neg hvalue]
    dsimp only [Option.filter, Binary64.isFinite]
    rw [hread]
    by_cases hlong : maxNumeralDigits < n.whole.length
    · rw [if_pos hlong, if_pos hlong]
      rfl
    · rw [if_neg hlong, if_neg hlong]
      dsimp only [bind, Except.bind]
      rw [Binary64.ofInt?_natCast]
      by_cases hlarge : digitsValue n.whole < overflow
      · rw [if_pos hlarge, if_pos hlarge]
        rfl
      · rw [if_neg hlarge, if_neg hlarge]
        rfl

theorem apply_of_error {e : Fault} (h : length? (some a) = .error e) :
    apply t (some a) = .error e := by
  unfold apply
  rw [h]
  rfl

theorem apply_text_iff (t : Text) (n : Numeral) : apply t (some n.text) = .ok t ↔
    if n.value < overflow then Keeps t (nearest n.value)
    else n.whole.length ≤ maxNumeralDigits ∧ digitsValue n.whole < overflow ∧
      Keeps t (nearest (digitsValue n.whole)) := by
  have hlength := length?_text n
  by_cases hvalue : n.value < overflow
  · rw [if_pos hvalue] at hlength ⊢
    exact apply_eq_self_iff hlength
  · rw [if_neg hvalue] at hlength ⊢
    by_cases hlong : maxNumeralDigits < n.whole.length
    · rw [if_pos hlong] at hlength
      rw [apply_of_error hlength]
      exact ⟨nofun, fun h => absurd h.1 (Nat.not_le.2 hlong)⟩
    · rw [if_neg hlong] at hlength
      rw [and_iff_right (Nat.le_of_not_lt hlong)]
      by_cases hlarge : digitsValue n.whole < overflow
      · rw [if_pos hlarge] at hlength
        rw [and_iff_right hlarge]
        exact apply_eq_self_iff hlength
      · rw [if_neg hlarge] at hlength
        rw [apply_of_error hlength]
        exact ⟨nofun, fun h => absurd h.1 hlarge⟩

/-- A text is left alone by a length in the range of floating-point numbers that it fits into,
as far as lengths are exact there; and these are the only numerals that are read as a whole. -/
theorem apply_fits (t : Text) (n : Numeral) :
    (t.length ≤ 2 ^ 53 → t.length ≤ n.value → n.value < overflow →
      apply t (some n.text) = .ok t) ∧
    (apply t (some n.text) = .ok t ↔
      if n.value < overflow then Keeps t (nearest n.value)
      else n.whole.length ≤ maxNumeralDigits ∧ digitsValue n.whole < overflow ∧
        Keeps t (nearest (digitsValue n.whole))) := by
  refine ⟨fun hexact hfits hrange => ?_, apply_text_iff t n⟩
  rw [apply_text_iff, if_pos hrange]
  exact .inr (.inl (Binary64.le_nearest hexact hfits))

/-- The numeral `1.2E+1`. -/
def twelve : Numeral where
  whole := ['1']
  fraction := some ['2']
  exponent := some {
    letter := 'E', sign := ['+'], digits := ['1'], isLetter := .inr rfl, isSign := .inr (.inl rfl),
    ne_nil := List.cons_ne_nil _ _, areDigits := List.all_eq_true.1 (by decide) }
  ne_nil := List.cons_ne_nil _ _
  areDigits := List.all_eq_true.1 (by decide)
  areFraction := fun | _, rfl => List.all_eq_true.1 (by decide)

theorem value_twelve : twelve.value = 12 := by
  have hwhole : digitsValue twelve.whole = 1 := rfl
  have hplaces : digitsValue twelve.places = 2 := rfl
  have hlength : twelve.places.length = 1 := rfl
  have hpower : twelve.power = 1 := rfl
  unfold Numeral.value
  rw [hwhole, hplaces, hlength, hpower]
  norm_num

theorem apply_fits_twelve : "twelve signs".toList.length ≤ 2 ^ 53 ∧
    ("twelve signs".toList.length : ℚ) ≤ twelve.value ∧ twelve.value < overflow ∧
      apply "twelve signs".toList (some "1.2E+1".toList) = .ok "twelve signs".toList := by
  have hexact : "twelve signs".toList.length ≤ 2 ^ 53 := by decide
  have hfits : ("twelve signs".toList.length : ℚ) ≤ twelve.value := by
    rw [value_twelve]
    exact Nat.cast_le.2 (show 12 ≤ 12 from le_rfl)
  have hrange : twelve.value < overflow := by
    have hlarge : 12 < overflow := by decide +kernel
    rw [value_twelve]
    exact Nat.cast_lt.2 hlarge
  exact ⟨hexact, hfits, hrange, (apply_fits _ twelve).1 hexact hfits hrange⟩

/-- The numeral `1e999`, which is read as infinity and then by its first digit. -/
def beyondRange : Numeral where
  whole := ['1']
  fraction := none
  exponent := some {
    letter := 'e', sign := [], digits := ['9', '9', '9'], isLetter := .inl rfl, isSign := .inl rfl,
    ne_nil := List.cons_ne_nil _ _, areDigits := List.all_eq_true.1 (by decide) }
  ne_nil := List.cons_ne_nil _ _
  areDigits := List.all_eq_true.1 (by decide)
  areFraction := nofun

theorem apply_cuts_fitting : ("ab".toList.length : ℚ) ≤ beyondRange.value ∧
    apply "ab".toList (some beyondRange.text) = .ok ['a', ellipsis] := by
  have hwhole : digitsValue beyondRange.whole = 1 := rfl
  have hplaces : digitsValue beyondRange.places = 0 := rfl
  have hpower : beyondRange.power = 999 := by decide
  refine ⟨?_, by decide +kernel⟩
  unfold Numeral.value
  rw [hwhole, hplaces, hpower, Nat.cast_zero, zero_div, add_zero, Nat.cast_one, one_mul]
  have hlength : "ab".toList.length = 2 := rfl
  calc ("ab".toList.length : ℚ) = 2 := by rw [hlength]; rfl
    _ ≤ 10 ^ (1 : Int) := by norm_num
    _ ≤ 10 ^ (999 : Int) := zpow_le_zpow_right₀ (by norm_num) (by norm_num)

end Truncate
end Marginalia
