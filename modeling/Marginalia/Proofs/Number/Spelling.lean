import Mathlib.Algebra.Order.Field.Power
import Mathlib.Data.Rat.Floor
import Mathlib.Data.Rat.Lemmas
import Mathlib.Tactic.Positivity
import Marginalia.Proofs.Number.Layout
import Marginalia.Proofs.Number.Reading
import Marginalia.Proofs.Number.Shortest
import Marginalia.Proofs.Text.Strip

/-
Decimal numerals and what they are read as.  A numeral has digits of any script, as many as it
likes, a fraction behind a point and an exponent; it is read as the floating-point number next
to its value, or as infinity where that is out of range.  Which ratio a rational number is given
as makes no difference, and below that range every whole number of 53 significant bits that it
reaches is reached by the number next to it.
-/
namespace Marginalia

/-! ## Floating-point numbers next to rational ones -/

namespace Binary64

variable {q : ℚ} {den n : Nat}

/-- The units of the floating-point number next to a number that is not negative. -/
def units (q : ℚ) : Nat := roundSignificand (one * q.num.toNat) q.den

/-- The floating-point number next to a number that is not negative, as if their range had no
end. -/
def nearest (q : ℚ) : ℚ := units q / one

/-- A ratio is one in lowest terms, with a common factor. -/
theorem exists_lowest (hden : 0 < den) (num : Nat) : ∃ c, 0 < c ∧
    num = c * ((num : ℚ) / den).num.toNat ∧ den = c * ((num : ℚ) / den).den := by
  have hpos : 0 ≤ ((num : ℚ) / den).num := Rat.num_nonneg.2 (by positivity)
  obtain ⟨c, hnum, hden'⟩ := Rat.exists_eq_mul_div_num_and_eq_mul_div_den (num : Int)
    (d := (den : Int)) (by omega)
  rw [Int.cast_natCast, Int.cast_natCast] at hnum hden'
  have hc : 0 < c := by
    by_contra hnot
    have := Int.mul_nonpos_of_nonpos_of_nonneg (Int.not_lt.1 hnot)
      (Int.natCast_nonneg ((num : ℚ) / den).den)
    omega
  obtain ⟨c, rfl⟩ := Int.eq_ofNat_of_zero_le (Int.le_of_lt hc)
  refine ⟨c, by omega, Int.natCast_inj.1 ?_, Int.natCast_inj.1 ?_⟩
  · rw [Int.natCast_mul, Int.toNat_of_nonneg hpos]
    exact hnum
  · rw [Int.natCast_mul]
    exact hden'

theorem units_div (hden : 0 < den) (num : Nat) :
    units ((num : ℚ) / den) = roundSignificand (one * num) den := by
  obtain ⟨c, hc, hnum, hden'⟩ := exists_lowest hden num
  unfold units
  generalize ((num : ℚ) / den).num.toNat = a at *
  generalize ((num : ℚ) / den).den = b at *
  rw [hnum, hden', Nat.mul_left_comm, roundSignificand_mul hc]

/-- A ratio below the range has a floating-point number next to it. -/
theorem ofRatio_eq (hden : 0 < den) (negative : Bool) (num : Nat) : ofRatio negative num den =
    if (num : ℚ) / den < overflow then .finite negative (units ((num : ℚ) / den))
    else .infinity negative := by
  have hrange : (num : ℚ) / den < overflow ↔ num < overflow * den := by
    rw [div_lt_iff₀ (Nat.cast_pos.2 hden), ← Nat.cast_mul, Nat.cast_lt]
  unfold ofRatio
  rw [units_div hden]
  simp only [roundSignificand_lt_limit hden, hrange]

theorem ofInt?_natCast (n : Nat) : ofInt? n =
    if n < overflow then some (.finite false (units n)) else none := by
  have hratio := ofRatio_eq Nat.one_pos false n
  simp only [Nat.cast_one, div_one, Nat.cast_lt] at hratio
  unfold ofInt?
  rw [Int.natAbs_natCast, decide_eq_false (Int.not_lt.2 (Int.natCast_nonneg n)), hratio]
  by_cases hn : n < overflow
  · rw [if_pos hn, if_pos hn]
  · rw [if_neg hn, if_neg hn]

theorem isSignificand_natCast (hn : n ≤ 2 ^ 53) : IsSignificand (n * one) := by
  obtain ⟨k, hk⟩ : ∃ k, k = 1074 := ⟨_, rfl⟩
  exact ⟨n, k, by rw [one_eq hk], hn⟩

theorem roundSignificand_natCast (hn : n ≤ 2 ^ 53) : roundSignificand (one * n) 1 = n * one := by
  rw [Nat.mul_comm]
  exact roundSignificand_eq_self_iff.2 (isSignificand_natCast hn)

/-- The whole numbers of 53 bits are floating-point numbers themselves. -/
theorem units_natCast (hn : n ≤ 2 ^ 53) : units (n : ℚ) = n * one := by
  have hratio := units_div Nat.one_pos n
  rw [Nat.cast_one, div_one] at hratio
  rw [hratio, roundSignificand_natCast hn]

theorem log2_one_mul (hn : n ≠ 0) : (one * n).log2 = n.log2 + 1074 := by
  obtain ⟨k, hk⟩ : ∃ k, k = 1074 := ⟨_, rfl⟩
  have hpow : ∀ j, 2 ^ (j + k) = one * 2 ^ j := fun j => by
    rw [one_eq hk, Nat.mul_comm, ← Nat.pow_add]
  rw [← hk, Nat.log2_eq_iff (Nat.mul_ne_zero (Nat.ne_of_gt pos_one) hn),
    Nat.add_right_comm, hpow, hpow, Nat.mul_le_mul_left_iff pos_one,
    Nat.mul_lt_mul_left pos_one]
  exact ⟨Nat.log2_self_le hn, Nat.lt_log2_self⟩

/-- The floating-point number next to a whole one is the whole number that it is rounded to. -/
theorem units_natCast_eq (n : Nat) : units (n : ℚ) = roundSignificand n 1 * one := by
  by_cases hn : n ≤ 2 ^ 53
  · have hsame : roundSignificand n 1 = n :=
      roundSignificand_eq_self_iff.2 ⟨n, 0, (Nat.mul_one n).symm, hn⟩
    rw [units_natCast hn, hsame]
  · obtain ⟨k, hk⟩ : ∃ k, k = 1074 := ⟨_, rfl⟩
    have hlog : 53 ≤ n.log2 := (Nat.le_log2 (by omega)).2 (by omega)
    have hshift : (one * n / 1).log2 - 52 = (n / 1).log2 - 52 + k := by
      rw [Nat.div_one, Nat.div_one, log2_one_mul (by omega)]
      omega
    have hratio := units_div Nat.one_pos n
    rw [Nat.cast_one, div_one] at hratio
    have hscale : 1 * 2 ^ ((n / 1).log2 - 52 + k) = one * (1 * 2 ^ ((n / 1).log2 - 52)) := by
      rw [one_eq hk, Nat.pow_add, Nat.one_mul, Nat.one_mul, Nat.mul_comm]
    rw [hratio, roundSignificand_eq, roundSignificand_eq, hshift, hscale,
      roundHalfEven_mul pos_one, Nat.pow_add, Nat.mul_assoc, one_eq hk]

theorem mul_one_lt_limit (hn : n ≤ 2 ^ 53) : n * one < limit := by
  obtain ⟨j, hj⟩ : ∃ j, 53 + j = 2098 := ⟨2045, rfl⟩
  obtain ⟨k, hk⟩ : ∃ k, k = 1074 := ⟨_, rfl⟩
  have hpow : 2 ^ k < 2 ^ j := Nat.pow_lt_pow_right (by decide) (by omega)
  rw [limit_eq hj, one_eq hk]
  calc n * 2 ^ k ≤ 2 ^ 53 * 2 ^ k := Nat.mul_le_mul_right _ hn
    _ < 2 ^ 53 * 2 ^ j := Nat.mul_lt_mul_of_pos_left hpow (by decide)

theorem ofRatio_natCast (negative : Bool) (hn : n ≤ 2 ^ 53) :
    ofRatio negative n 1 = .finite negative (n * one) := by
  unfold ofRatio
  rw [roundSignificand_natCast hn]
  exact if_pos (mul_one_lt_limit hn)

theorem ofInt?_of_short {z : Int} (hz : z.natAbs ≤ 2 ^ 53) :
    ofInt? z = some (.finite (z < 0) (z.natAbs * one)) := by
  unfold ofInt?
  rw [ofRatio_natCast _ hz]

/-- What a number reaches in the range of exact whole numbers, the number next to it reaches. -/
theorem le_nearest (hn : n ≤ 2 ^ 53) (h : (n : ℚ) ≤ q) : (n : ℚ) ≤ nearest q := by
  have hone : (0 : ℚ) < one := Nat.cast_pos.2 pos_one
  have hreach : (n * q.den : Int) ≤ q.num := by
    have hnonneg : (0 : ℚ) ≤ q.den := Nat.cast_nonneg q.den
    have hmul := mul_le_mul_of_nonneg_right h hnonneg
    rw [Rat.mul_den_eq_num] at hmul
    exact_mod_cast hmul
  unfold nearest
  rw [le_div_iff₀ hone, ← Nat.cast_mul, Nat.cast_le]
  refine le_roundSignificand (isSignificand_natCast hn) q.den_pos ?_
  rw [Nat.mul_right_comm, Nat.mul_comm]
  exact Nat.mul_le_mul_left one (by omega)

end Binary64

namespace Decimal

open Text (isDigit isBasicDigit basicDigit basicDigits digitsValue)

/-! ## Numerals -/

/-- An exponent: the letter, a sign or none, and digits. -/
structure Exponent where
  letter : Char
  sign : Text
  digits : Text
  isLetter : letter = 'e' ∨ letter = 'E'
  isSign : sign = [] ∨ sign = ['+'] ∨ sign = ['-']
  ne_nil : digits ≠ []
  areDigits : ∀ c ∈ digits, isDigit c

/-- Digits, with a fraction behind a point and an exponent, or without. -/
structure Numeral where
  whole : Text
  fraction : Option Text
  exponent : Option Exponent
  ne_nil : whole ≠ []
  areDigits : ∀ c ∈ whole, isDigit c
  areFraction : ∀ ds ∈ fraction, ∀ c ∈ ds, isDigit c

def Exponent.text (e : Exponent) : Text := e.letter :: (e.sign ++ e.digits)

def Exponent.value (e : Exponent) : Int :=
  if e.sign = ['-'] then -(digitsValue e.digits : Int) else digitsValue e.digits

namespace Numeral

variable {n : Numeral} {c : Char}

/-- What stands behind the digits in front. -/
def tail (n : Numeral) : Text :=
  (n.fraction.map ('.' :: ·)).getD [] ++ (n.exponent.map Exponent.text).getD []

def text (n : Numeral) : Text := n.whole ++ n.tail

/-- The digits behind the point. -/
def places (n : Numeral) : Text := n.fraction.getD []

def power (n : Numeral) : Int := (n.exponent.map Exponent.value).getD 0

/-- The exact number that a numeral stands for. -/
def value (n : Numeral) : ℚ :=
  (digitsValue n.whole + digitsValue n.places / 10 ^ n.places.length) * 10 ^ n.power

/-- What stands in a numeral besides digits. -/
def signs : List Char := ['.', 'e', 'E', '+', '-']

theorem forall_mem_signs {P : Char → Prop} :
    (∀ c ∈ signs, P c) ↔ P '.' ∧ P 'e' ∧ P 'E' ∧ P '+' ∧ P '-' := by
  simp [signs]

theorem mem_exponent {e : Exponent} (h : c ∈ e.text) : isDigit c ∨ c ∈ signs := by
  have hletter : e.letter ∈ signs := by
    rcases e.isLetter with h | h <;> rw [h] <;> decide
  have hsign : ∀ d ∈ e.sign, d ∈ signs := by
    rcases e.isSign with h | h | h <;> simp [h, signs]
  rcases List.mem_cons.1 h with rfl | h
  · exact .inr hletter
  rcases List.mem_append.1 h with h | h
  · exact .inr (hsign c h)
  · exact .inl (e.areDigits c h)

theorem mem_text (h : c ∈ n.text) : isDigit c ∨ c ∈ signs := by
  rcases List.mem_append.1 h with h | h
  · exact .inl (n.areDigits c h)
  rcases List.mem_append.1 h with h | h
  · cases hfraction : n.fraction with
    | none =>
      rw [hfraction] at h
      cases h
    | some ds =>
      rw [hfraction] at h
      rcases List.mem_cons.1 h with rfl | h
      · exact .inr (by decide)
      · exact .inl (n.areFraction ds hfraction c h)
  · cases hexponent : n.exponent with
    | none =>
      rw [hexponent] at h
      cases h
    | some e =>
      rw [hexponent] at h
      exact mem_exponent h

/-- Behind its first digits a numeral goes on with another sign. -/
theorem head_tail (h : c ∈ n.tail.head?) : c = '.' ∨ c = 'e' ∨ c = 'E' := by
  unfold tail at h
  cases hfraction : n.fraction with
  | some ds =>
    rw [hfraction] at h
    cases h
    exact .inl rfl
  | none =>
    rw [hfraction] at h
    cases hexponent : n.exponent with
    | none =>
      rw [hexponent] at h
      cases h
    | some e =>
      rw [hexponent] at h
      cases h
      exact .inr e.isLetter

/-! ## Values -/

theorem zpow_eq_div (e : Int) : (10 : ℚ) ^ e = 10 ^ e.toNat / 10 ^ (-e).toNat := by
  conv_lhs => rw [← Int.toNat_sub_toNat_neg e]
  rw [zpow_sub₀ (by decide), zpow_natCast, zpow_natCast]

/-- The value of a numeral is the ratio that it is read as. -/
theorem value_eq (n : Numeral) : n.value =
    ((digitsValue (n.whole ++ n.places) * 10 ^ (n.power - n.places.length).toNat : Nat) : ℚ) /
      ((10 ^ (-(n.power - n.places.length)).toNat : Nat) : ℚ) := by
  have hten : (10 : ℚ) ≠ 0 := by decide
  rw [Nat.cast_mul, Nat.cast_pow, Nat.cast_pow, Nat.cast_ofNat, mul_div_assoc, ← zpow_eq_div,
    Text.digitsValue_append, zpow_sub₀ hten, zpow_natCast]
  unfold value
  push_cast
  field_simp

end Numeral

/-! ## Reading -/

variable {t : Text}

theorem ungroup?_of_not_mem (h : '_' ∉ t) : ungroup? t = some t := by
  fun_induction ungroup? t with
  | case1 => rfl
  | case2 rest => exact absurd List.mem_cons_self h
  | case3 c hc => rfl
  | case4 c d rest => exact absurd (List.mem_cons_of_mem c List.mem_cons_self) h
  | case5 c d rest => exact absurd (List.mem_cons_of_mem c List.mem_cons_self) h
  | case6 c rest _ _ _ ih => rw [ih fun hmem => h (List.mem_cons_of_mem c hmem)]; rfl

theorem takeSign_digits (h : ∀ c ∈ t.head?, isBasicDigit c) : takeSign t = (false, t) := by
  unfold takeSign
  split
  · exact absurd (h '-' rfl) (by decide)
  · exact absurd (h '+' rfl) (by decide)
  · rfl

theorem basicDigit_of_mem_signs : ∀ c ∈ Numeral.signs, basicDigit c = c :=
  Numeral.forall_mem_signs.2 (by decide)

theorem basicDigits_exponent (e : Exponent) :
    basicDigits e.text = e.letter :: (e.sign ++ basicDigits e.digits) := by
  have hletter : basicDigit e.letter = e.letter := by
    rcases e.isLetter with h | h <;> rw [h] <;> rfl
  have hsign : e.sign.map basicDigit = e.sign := by
    rcases e.isSign with h | h | h <;> rw [h] <;> rfl
  unfold Exponent.text
  rw [Text.basicDigits_eq, Text.basicDigits_eq, List.map_cons, List.map_append, hletter, hsign]

theorem exponent?_text (e : Exponent) : exponent? (basicDigits e.text) = some e.value := by
  obtain ⟨hdigits, hvalue⟩ := Text.basicDigits_of_digits e.areDigits
  have hread :
      (!(basicDigits e.digits).isEmpty && (basicDigits e.digits).all isBasicDigit) = true := by
    rw [Bool.and_eq_true, List.all_eq_true]
    refine ⟨?_, hdigits⟩
    simpa [basicDigits] using e.ne_nil
  have hletter : (e.letter = 'e' || e.letter = 'E') = true := by
    simpa using e.isLetter
  have hsign : takeSign (e.sign ++ basicDigits e.digits) =
      (decide (e.sign = ['-']), basicDigits e.digits) := by
    rcases e.isSign with h | h | h
    · rw [h]
      exact takeSign_digits fun c hc => hdigits c (List.mem_of_mem_head? hc)
    · rw [h]
      rfl
    · rw [h]
      rfl
  rw [basicDigits_exponent, exponent?, if_pos hletter, hsign]
  dsimp only
  rw [if_pos hread, hvalue]
  simp [Exponent.value]

theorem lowerBasic_digit {c : Char} (h : isBasicDigit c) : lowerBasic c = c := by
  have hlow := Text.isBasicDigit_iff.1 h
  unfold lowerBasic
  refine if_neg ?_
  rw [Bool.and_eq_true, decide_eq_true_eq, decide_eq_true_eq, not_and, Char.le_def]
  intro hcase
  exact absurd (show 65 ≤ c.toNat from hcase) (by omega)

/-- A minus sign, or none. -/
def signText (negative : Bool) : Text := if negative then ['-'] else []

/-- What starts with a digit, behind a sign or not, is none of the names. -/
theorem read?_signed_of_digit (negative : Bool) {c : Char} {u : Text} (hc : isBasicDigit c)
    (ht : basicDigits t = c :: u) (hlast : ∀ d ∈ (basicDigits t).getLast?, Text.isPadding d = false)
    (hgroup : '_' ∉ basicDigits t) :
    read? (signText negative ++ t) = (unsigned? negative (basicDigits t)).map toBinary64 := by
  have hsigned : basicDigits (signText negative ++ t) = signText negative ++ basicDigits t := by
    cases negative <;> rfl
  have hhead : ∀ d ∈ (signText negative ++ basicDigits t).head?, Text.isPadding d = false := by
    rw [ht]
    cases negative <;> rintro d ⟨⟩
    · exact Text.isPadding_of_isBasicDigit hc
    · rfl
  have hlast' : ∀ d ∈ (signText negative ++ basicDigits t).getLast?, Text.isPadding d = false := by
    rwa [List.getLast?_append_of_ne_nil _ (ht ▸ List.cons_ne_nil c u)]
  have hgroup' : '_' ∉ signText negative ++ basicDigits t := by
    cases negative
    · exact hgroup
    · exact List.not_mem_cons_of_ne_of_not_mem (by decide) hgroup
  have hname : ∀ {d : Char} {name : Text}, isBasicDigit d = false →
      (c :: u).map lowerBasic ≠ d :: name := by
    intro d name hd heq
    rw [List.map_cons, lowerBasic_digit hc] at heq
    rw [← (List.cons.inj heq).1, hc] at hd
    cases hd
  have hinf : (c :: u).map lowerBasic ≠ "inf".toList := hname (d := 'i') rfl
  have hinfinity : (c :: u).map lowerBasic ≠ "infinity".toList := hname (d := 'i') rfl
  have hnan : (c :: u).map lowerBasic ≠ "nan".toList := hname (d := 'n') rfl
  have hsign : takeSign (signText negative ++ c :: u) = (negative, c :: u) := by
    cases negative
    · exact takeSign_digits (by rintro d ⟨⟩; exact hc)
    · rfl
  unfold read?
  rw [hsigned, Text.stripPadding_eq_self hhead hlast', ungroup?_of_not_mem hgroup', ht]
  simp only [Option.bind_eq_bind, Option.bind_some, hsign]
  rw [if_neg, if_neg hnan]
  rw [Bool.or_eq_true, decide_eq_true_eq, decide_eq_true_eq, not_or]
  exact ⟨hinf, hinfinity⟩

theorem read?_of_digit {c : Char} {u : Text} (hc : isBasicDigit c) (ht : basicDigits t = c :: u)
    (hlast : ∀ d ∈ (basicDigits t).getLast?, Text.isPadding d = false)
    (hgroup : '_' ∉ basicDigits t) :
    read? t = (unsigned? false (basicDigits t)).map toBinary64 :=
  read?_signed_of_digit false hc ht hlast hgroup

theorem unsigned?_signed (negative : Bool) (t : Text) :
    unsigned? negative t = (unsigned? false t).map fun d => { d with negative := negative } := by
  unfold unsigned?
  dsimp only
  split_ifs
  · rfl
  · rw [Option.map_map]
    rfl

/-! ### In basic digits -/

variable {w f x : Text} {e : Int}

theorem exponent?_of_head {c : Char} (h : c ≠ 'e' ∧ c ≠ 'E') (t : Text) :
    exponent? (c :: t) = none := by
  unfold exponent?
  exact if_neg (by simpa using h)

theorem unsigned?_whole (hne : w ≠ []) (hw : ∀ c ∈ w, isBasicDigit c)
    (hhead : ∀ c ∈ x.head?, isBasicDigit c = false ∧ c ≠ '.') :
    unsigned? false (w ++ x) = (exponent? x).map fun e => ⟨false, digitsValue w, e⟩ := by
  have hrun := Text.run_append hw fun c hc => (hhead c hc).1
  have hempty : w.isEmpty = false := by simpa using hne
  unfold unsigned?
  rw [hrun.1, hrun.2]
  cases x with
  | nil => simp [hempty]
  | cons c x => simp [hempty, (hhead c rfl).2]

theorem unsigned?_fraction (hne : w ≠ []) (hw : ∀ c ∈ w, isBasicDigit c)
    (hf : ∀ c ∈ f, isBasicDigit c) (hx : exponent? x = some e)
    (hhead : ∀ c ∈ x.head?, isBasicDigit c = false) :
    unsigned? false (w ++ '.' :: (f ++ x)) =
      some ⟨false, digitsValue (w ++ f), e - f.length⟩ := by
  have hpoint : ∀ c ∈ ('.' :: (f ++ x)).head?, isBasicDigit c = false := by
    rintro c ⟨⟩
    rfl
  have hrun := Text.run_append hw hpoint
  have hrun' := Text.run_append hf hhead
  have hempty : w.isEmpty = false := by simpa using hne
  unfold unsigned?
  rw [hrun.1, hrun.2]
  simp only [hrun'.1, hrun'.2, hempty, hx]
  rfl

namespace Numeral

variable {n : Numeral}

theorem exponent?_power (n : Numeral) :
    exponent? (basicDigits ((n.exponent.map Exponent.text).getD [])) = some n.power := by
  unfold power
  cases n.exponent with
  | none => rfl
  | some e => exact exponent?_text e

/-- Behind the point, or in its place, no digit and no other point stands. -/
theorem head_exponent {c : Char}
    (h : c ∈ (basicDigits ((n.exponent.map Exponent.text).getD [])).head?) :
    isBasicDigit c = false ∧ c ≠ '.' := by
  cases hexponent : n.exponent with
  | none =>
    rw [hexponent] at h
    cases h
  | some e =>
    rw [hexponent, Option.map_some, Option.getD_some, basicDigits_exponent] at h
    cases h
    rcases e.isLetter with h | h <;> rw [h] <;> decide

theorem basicDigits_tail (n : Numeral) : basicDigits n.tail =
    (n.fraction.map fun ds => '.' :: basicDigits ds).getD [] ++
      basicDigits ((n.exponent.map Exponent.text).getD []) := by
  unfold tail
  rw [Text.basicDigits_eq, List.map_append]
  cases n.fraction <;> rfl

theorem unsigned?_text (n : Numeral) : unsigned? false (basicDigits n.text) =
    some ⟨false, digitsValue (n.whole ++ n.places), n.power - n.places.length⟩ := by
  obtain ⟨hwhole, hvalue⟩ := Text.basicDigits_of_digits n.areDigits
  have hne : basicDigits n.whole ≠ [] := by simpa [basicDigits] using n.ne_nil
  have hpower := exponent?_power n
  have hsplit : basicDigits n.text = basicDigits n.whole ++ basicDigits n.tail := List.map_append
  rw [hsplit, basicDigits_tail]
  unfold places
  cases hfraction : n.fraction with
  | none =>
    rw [Option.map_none, Option.getD_none, List.nil_append,
      unsigned?_whole hne hwhole fun c hc => head_exponent hc, hpower, hvalue]
    simp
  | some ds =>
    have hds := n.areFraction ds hfraction
    obtain ⟨hplaces, _⟩ := Text.basicDigits_of_digits hds
    have hboth := Text.basicDigits_of_digits (List.forall_mem_append.2 ⟨n.areDigits, hds⟩)
    have happend : basicDigits (n.whole ++ ds) = basicDigits n.whole ++ basicDigits ds :=
      List.map_append
    have hlength : (basicDigits ds).length = ds.length := List.length_map _
    rw [Option.map_some, Option.getD_some, Option.getD_some, List.cons_append,
      unsigned?_fraction hne hwhole hplaces hpower fun c hc => (head_exponent hc).1, ← happend,
      hboth.2, hlength]

theorem mem_basicDigits {c : Char} (h : c ∈ basicDigits n.text) : isBasicDigit c ∨ c ∈ signs := by
  rw [Text.basicDigits_eq] at h
  obtain ⟨d, hd, rfl⟩ := List.mem_map.1 h
  rcases mem_text hd with hd | hd
  · exact .inl (Text.basicDigit_of_isDigit hd).1
  · rw [basicDigit_of_mem_signs d hd]
    exact .inr hd

/-- A numeral starts with a digit. -/
theorem exists_basicDigits (n : Numeral) : ∃ c t, isBasicDigit c ∧ basicDigits n.text = c :: t := by
  obtain ⟨c, w, hw⟩ := List.exists_cons_of_ne_nil n.ne_nil
  refine ⟨basicDigit c, basicDigits (w ++ n.tail), ?_, ?_⟩
  · exact (Text.basicDigit_of_isDigit (n.areDigits c (hw ▸ List.mem_cons_self))).1
  · unfold text
    rw [hw]
    rfl

theorem read?_signed_eq (negative : Bool) (n : Numeral) :
    read? (signText negative ++ n.text) =
      (unsigned? negative (basicDigits n.text)).map toBinary64 := by
  obtain ⟨c, t, hc, htext⟩ := exists_basicDigits n
  have hsigns : ∀ c ∈ signs, Text.isPadding c = false := forall_mem_signs.2 (by decide)
  refine read?_signed_of_digit negative hc htext (fun c hlast => ?_) fun hmem => ?_
  · exact (mem_basicDigits (List.mem_of_getLast? hlast)).elim Text.isPadding_of_isBasicDigit
      (hsigns c)
  · rcases mem_basicDigits hmem with h | h <;> exact absurd h (by decide)

/-- A numeral is read as the number next to its value, or as infinity, with its sign. -/
theorem read?_signed (negative : Bool) (n : Numeral) : read? (signText negative ++ n.text) = some
    (if n.value < Binary64.overflow then .finite negative (Binary64.units n.value)
    else .infinity negative) := by
  have hden : ∀ k : Nat, 0 < 10 ^ k := fun k => Nat.pow_pos (by decide)
  rw [read?_signed_eq, unsigned?_signed, unsigned?_text, Option.map_some, Option.map_some,
    toBinary64_eq_ofRatio, Binary64.ofRatio_eq (hden _), ← value_eq]

theorem read?_text (n : Numeral) : read? n.text = some
    (if n.value < Binary64.overflow then .finite false (Binary64.units n.value)
    else .infinity false) :=
  read?_signed false n

end Numeral
/-! ### With blanks around -/

open Text (isBlank isInformationSeparator)

/-- Blanks around a number are padding, but for the separators of units of information. -/
theorem read?_blank {before after : Text} (hbefore : isBlank before) (hafter : isBlank after)
    (h : (before ++ after).any isInformationSeparator = false) (t : Text) :
    read? (before ++ (t ++ after)) = read? t := by
  have hnone : ∀ c ∈ before ++ after, isInformationSeparator c = false := fun c hc => by
    simpa using List.any_eq_false.1 h c hc
  have hpadding : ∀ {ws : Text}, isBlank ws → (∀ c ∈ ws, c ∈ before ++ after) →
      ∀ c ∈ basicDigits ws, Text.isPadding c := fun hws hmem =>
    Text.isPadding_of_mem_basicDigits (List.all_eq_true.1 hws) fun c hc => hnone c (hmem c hc)
  have hfront := hpadding hbefore fun c hc => List.mem_append_left _ hc
  have hback := hpadding hafter fun c hc => List.mem_append_right _ hc
  unfold read?
  rw [Text.basicDigits_append, Text.basicDigits_append, Text.stripPadding_append hfront,
    Text.stripPadding_append_right hback]

theorem mem_of_ungroup? {u : Text} {c : Char} (h : ungroup? t = some u) (hc : c ∈ t)
    (hne : c ≠ '_') : c ∈ u := by
  fun_induction ungroup? t generalizing u with
  | case1 => cases hc
  | case2 => cases h
  | case3 d =>
    cases h
    exact hc
  | case4 d e rest _ _ ih =>
    obtain ⟨v, hv, rfl⟩ := Option.map_eq_some_iff.1 h
    rcases List.mem_cons.1 hc with rfl | hc
    · exact List.mem_cons_self
    rcases List.mem_cons.1 hc with rfl | hc
    · exact absurd rfl hne
    · exact List.mem_cons_of_mem d (ih hv hc)
  | case5 => cases h
  | case6 d rest _ _ _ ih =>
    obtain ⟨v, hv, rfl⟩ := Option.map_eq_some_iff.1 h
    rcases List.mem_cons.1 hc with rfl | hc
    · exact List.mem_cons_self
    · exact List.mem_cons_of_mem d (ih hv hc)

theorem mem_takeSign {c : Char} (h : c ∈ t) : c = '-' ∨ c = '+' ∨ c ∈ (takeSign t).2 := by
  unfold takeSign
  split
  · exact (List.mem_cons.1 h).imp_right .inr
  · exact .inr (List.mem_cons.1 h)
  · exact .inr (.inr h)

theorem mem_of_exponent? {c : Char} (h : exponent? t = some e) (hc : c ∈ t) :
    isBasicDigit c ∨ c ∈ Numeral.signs := by
  cases t with
  | nil => cases hc
  | cons d rest =>
    rw [exponent?] at h
    split at h
    · rename_i hletter
      have hd : d ∈ Numeral.signs := by
        rw [Bool.or_eq_true, decide_eq_true_eq, decide_eq_true_eq] at hletter
        rcases hletter with rfl | rfl <;> decide
      dsimp only at h
      split at h
      · rename_i hdigits
        rw [Bool.and_eq_true, List.all_eq_true] at hdigits
        rcases List.mem_cons.1 hc with rfl | hc
        · exact .inr hd
        rcases mem_takeSign hc with rfl | rfl | hc
        · exact .inr (by decide)
        · exact .inr (by decide)
        · exact .inl (hdigits.2 c hc)
      · cases h
    · cases h

/-- A numeral holds nothing but digits and its signs. -/
theorem mem_of_unsigned? {c : Char} {negative : Bool} {d : Decimal}
    (h : unsigned? negative t = some d) (hc : c ∈ t) : isBasicDigit c ∨ c ∈ Numeral.signs := by
  have hrun : ∀ u : Text, c ∈ u → isBasicDigit c ∨ c ∈ u.dropWhile isBasicDigit := by
    intro u hu
    rw [← List.takeWhile_append_dropWhile (p := isBasicDigit) (l := u)] at hu
    exact (List.mem_append.1 hu).imp_left List.mem_takeWhile_imp
  rcases hrun t hc with hc | hc
  · exact .inl hc
  unfold unsigned? at h
  dsimp only at h
  generalize t.dropWhile isBasicDigit = rest at h hc
  split at h
  · obtain ⟨_, hmap⟩ := Option.ite_none_left_eq_some.1 h
    obtain ⟨e, he, _⟩ := Option.map_eq_some_iff.1 hmap
    rcases List.mem_cons.1 hc with rfl | hc
    · exact .inr (by decide)
    · exact (hrun _ hc).elim .inl (mem_of_exponent? he)
  · obtain ⟨_, hmap⟩ := Option.ite_none_left_eq_some.1 h
    obtain ⟨e, he, _⟩ := Option.map_eq_some_iff.1 hmap
    exact mem_of_exponent? he hc

theorem ne_of_separator {c d : Char} (hc : isInformationSeparator c)
    (hd : isInformationSeparator d = false) : c ≠ d := by
  rintro rfl
  rw [hc] at hd
  cases hd

theorem lowerBasic_separator {c : Char} (hc : isInformationSeparator c) : lowerBasic c = c := by
  have hrange := Text.isInformationSeparator_iff.1 hc
  refine if_neg ?_
  rw [Bool.and_eq_true, decide_eq_true_eq, decide_eq_true_eq, not_and, Char.le_def]
  intro hcase
  exact absurd (show 65 ≤ c.toNat from hcase) (by omega)

theorem unsigned?_of_separator {c : Char} (h : c ∈ t) (hc : isInformationSeparator c)
    (negative : Bool) : unsigned? negative t = none := by
  have hsigns : ∀ d ∈ Numeral.signs, isInformationSeparator d = false :=
    Numeral.forall_mem_signs.2 (by decide)
  refine Option.eq_none_iff_forall_ne_some.2 fun d hd => ?_
  rcases mem_of_unsigned? hd h with hdigit | hsign
  · have hlow := Text.isBasicDigit_iff.1 hdigit
    have hrange := Text.isInformationSeparator_iff.1 hc
    omega
  · exact ne_of_separator hc (hsigns c hsign) rfl

/-- A separator of units of information is no part of a number and no padding of one. -/
theorem read?_of_separator {c : Char} (h : c ∈ t) (hc : isInformationSeparator c) :
    read? t = none := by
  have hrange := Text.isInformationSeparator_iff.1 hc
  have hpadding : Text.isPadding c = false := by
    rw [← Bool.not_eq_true, Text.isPadding_iff]
    omega
  have hbasic : c ∈ basicDigits t := by
    rw [← Text.basicDigit_of_lt (c := c) (by omega)]
    exact List.mem_map_of_mem h
  unfold read?
  cases hungroup : ungroup? (Text.stripPadding (basicDigits t)) with
  | none => rfl
  | some u =>
    have hu := mem_of_ungroup? hungroup (Text.mem_stripPadding hbasic hpadding)
      (ne_of_separator hc rfl)
    have hbody : c ∈ (takeSign u).2 :=
      ((mem_takeSign hu).resolve_left (ne_of_separator hc rfl)).resolve_left
        (ne_of_separator hc rfl)
    simp only [Option.bind_eq_bind, Option.bind_some]
    generalize takeSign u = x at hbody
    obtain ⟨negative, body⟩ := x
    have hname : ∀ name : Text, name.all (!isInformationSeparator ·) →
        body.map lowerBasic ≠ name := by
      rintro name hall rfl
      have hmem := List.mem_map_of_mem (f := lowerBasic) hbody
      rw [lowerBasic_separator hc] at hmem
      have := List.all_eq_true.1 hall c hmem
      rw [hc] at this
      cases this
    rw [if_neg, if_neg (hname _ rfl), unsigned?_of_separator hbody hc]
    · rfl
    · rw [Bool.or_eq_true, decide_eq_true_eq, decide_eq_true_eq, not_or]
      exact ⟨hname _ rfl, hname _ rfl⟩

end Decimal

end Marginalia
