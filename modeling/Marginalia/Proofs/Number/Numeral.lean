import Mathlib.Data.List.Basic
import Mathlib.Data.List.Induction
import Marginalia.Value.Literal

/-
The decimal text of a whole number.  It is made of basic digits, has no zero in
front, and its value is the number again.
-/
namespace Marginalia
namespace Text

theorem ofNat_eq (n : Nat) : ofNat n = Nat.toDigits 10 n :=
  Nat.toList_repr

theorem isBasicDigit_iff {c : Char} : isBasicDigit c ↔ 48 ≤ c.toNat ∧ c.toNat ≤ 57 := by
  unfold isBasicDigit
  rw [Bool.and_eq_true, decide_eq_true_eq, decide_eq_true_eq]
  exact Iff.rfl

theorem digit?_of_isBasicDigit {c : Char} (h : isBasicDigit c) :
    digit? c = some (c.toNat - '0'.toNat) := by
  obtain ⟨hlow, hhigh⟩ := isBasicDigit_iff.1 h
  unfold digit? digitZeros
  rw [List.find?_cons_of_pos (by simpa using ⟨hlow, hhigh⟩)]
  rfl

theorem isDigit_of_isBasicDigit {c : Char} (h : isBasicDigit c) : isDigit c := by
  rw [isDigit, digit?_of_isBasicDigit h]
  rfl

theorem digitsValue_eq {t : Text} (h : ∀ c ∈ t, isBasicDigit c) :
    digitsValue t = Nat.ofDigitChars 10 t 0 := by
  unfold digitsValue Nat.ofDigitChars
  refine List.foldl_ext _ _ _ fun n c hc => ?_
  rw [digit?_of_isBasicDigit (h c hc)]
  rfl

theorem digit?_le {c : Char} {d : Nat} (h : digit? c = some d) : d ≤ 9 := by
  obtain ⟨z, hz, rfl⟩ := Option.map_eq_some_iff.1 h
  have := List.find?_some hz
  rw [Bool.and_eq_true, decide_eq_true_eq, decide_eq_true_eq] at this
  omega

theorem digitsValue_concat (t : Text) (c : Char) :
    digitsValue (t ++ [c]) = 10 * digitsValue t + (digit? c).getD 0 := by
  unfold digitsValue
  rw [List.foldl_concat]

/-- A run of digits is less than the power of ten that has one digit more. -/
theorem digitsValue_lt (t : Text) : digitsValue t < Nat.pow 10 t.length := by
  induction t using List.reverseRecOn with
  | nil => decide
  | append_singleton t c ih =>
    have hdigit : (digit? c).getD 0 ≤ 9 := by
      cases h : digit? c with
      | none => exact Nat.zero_le 9
      | some d => exact digit?_le h
    have hpow : Nat.pow 10 (t.length + 1) = Nat.pow 10 t.length * 10 := rfl
    rw [digitsValue_concat, List.length_append, List.length_singleton, hpow]
    omega

variable {n k : Nat}

theorem isBasicDigit_of_mem_ofNat {c : Char} (h : c ∈ ofNat n) : isBasicDigit c := by
  rw [ofNat_eq] at h
  have := Nat.isDigit_of_mem_toDigits (by omega) (by omega) h
  simpa [Char.isDigit, isBasicDigit, Char.le_def] using this

theorem not_mem_ofNat {c : Char} (h : isBasicDigit c = false) : c ∉ ofNat n := by
  intro hmem
  rw [isBasicDigit_of_mem_ofNat hmem] at h
  cases h

theorem digitsValue_ofNat (n : Nat) : digitsValue (ofNat n) = n := by
  rw [digitsValue_eq fun c hc => isBasicDigit_of_mem_ofNat hc, ofNat_eq]
  exact Nat.ofDigitChars_toDigits (by omega) (by omega)

theorem ofNat_injective : Function.Injective ofNat :=
  Function.LeftInverse.injective digitsValue_ofNat

theorem length_ofNat_le_iff (hk : 0 < k) : (ofNat n).length ≤ k ↔ n < Nat.pow 10 k := by
  rw [ofNat_eq]
  exact Nat.length_toDigits_le_iff (by omega) hk

theorem lt_pow_of_lt (h : n < 10) (hk : 0 < k) : n < Nat.pow 10 k :=
  Nat.lt_of_lt_of_le h (Nat.pow_le_pow_right (n := 10) (by decide) hk)

theorem ofNat_ne_nil (n : Nat) : ofNat n ≠ [] := by
  rw [ofNat_eq]
  exact Nat.toDigits_ne_nil

/-- Only the text of zero starts with a zero. -/
theorem ofNat_of_head? (h : (ofNat n).head? = some '0') : ofNat n = ['0'] := by
  rw [ofNat_eq] at *
  induction n using Nat.strongRecOn with
  | ind n ih =>
    by_cases hn : n < 10
    · rw [Nat.toDigits_of_lt_base hn] at h ⊢
      rw [List.head?_cons, Option.some.injEq] at h
      rw [h]
    · rw [Nat.toDigits_of_base_le (by omega) (by omega)] at h
      rw [List.head?_append_of_ne_nil _ Nat.toDigits_ne_nil] at h
      -- the tenth part is not zero, so its text does not start with a zero
      have hzero := ih (n / 10) (by omega) h
      have hvalue : n / 10 = Nat.ofDigitChars 10 ['0'] 0 := by
        rw [← hzero, Nat.ofDigitChars_toDigits (by omega) (by omega)]
      have hnone : Nat.ofDigitChars 10 ['0'] 0 = 0 := rfl
      omega

end Text

namespace Value

/-- The text of a whole number is that of its size, after a sign if it is
negative. -/
theorem toList_toString (n : Int) :
    (toString n).toList = if n < 0 then '-' :: Text.ofNat n.natAbs else Text.ofNat n.natAbs := by
  cases n with
  | ofNat k => rfl
  | negSucc k =>
    rw [if_pos (Int.negSucc_lt_zero k)]
    show ("-" ++ toString (k + 1)).toList = _
    rw [String.toList_append]
    rfl

/-- Different whole numbers are written differently. -/
theorem eq_of_toList_toString {m n : Int} (h : (toString m).toList = (toString n).toList) :
    m = n := by
  have hsign : ∀ {j k : Nat}, '-' :: Text.ofNat j ≠ Text.ofNat k := fun heq =>
    absurd (Text.isBasicDigit_of_mem_ofNat (heq ▸ List.mem_cons_self)) (by decide)
  rw [toList_toString, toList_toString] at h
  split at h <;> split at h
  · have := Text.ofNat_injective (List.cons.inj h).2
    omega
  · exact absurd h hsign
  · exact absurd h.symm hsign
  · have := Text.ofNat_injective h
    omega

/-- A whole number is short enough to be written out. -/
def IsShort (n : Int) : Prop := n.natAbs < Nat.pow 10 Text.maxNumeralDigits

theorem isShort_of_lt {n : Int} (h : n.natAbs < 10) : IsShort n :=
  Text.lt_pow_of_lt h (by decide)

theorem wholeText_eq_ok {n : Int} {t : Text} :
    wholeText n = .ok t ↔ IsShort n ∧ t = (toString n).toList := by
  unfold wholeText IsShort
  split
  · rename_i h
    rw [Except.ok.injEq]
    exact ⟨fun ht => ⟨h, ht.symm⟩, fun ht => ht.2.symm⟩
  · rename_i h
    exact ⟨nofun, fun ht => absurd ht.1 h⟩

theorem exists_wholeText {n : Int} (h : IsShort n) : ∃ t, wholeText n = .ok t :=
  ⟨_, wholeText_eq_ok.2 ⟨h, rfl⟩⟩

/-- A whole number is written without signs but the one in front. -/
theorem not_mem_wholeText {n : Int} {t : Text} {c : Char} (h : wholeText n = .ok t)
    (hdigit : Text.isBasicDigit c = false) (hsign : c ≠ '-') : c ∉ t := by
  obtain ⟨_, rfl⟩ := wholeText_eq_ok.1 h
  rw [toList_toString]
  split
  · exact List.not_mem_cons_of_ne_of_not_mem hsign (Text.not_mem_ofNat hdigit)
  · exact Text.not_mem_ofNat hdigit

end Value
end Marginalia
