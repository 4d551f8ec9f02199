import Marginalia.Proofs.Filter.Fitting

/-
Lengths with a unit.  A whole number is a length by itself, and so are the digits at the start of
a text like `12px`; either way a text is cut after exactly that many code points, and one that has
been cut is not cut again.  By itself the number may have any number of digits and any blanks
around it, but in front of a unit it is read as a whole number, which refuses too many digits and
some of the blanks.
-/
namespace Marginalia

/-! ## Letters -/

namespace Text

variable {c : Char}

theorem isAlpha_iff : c.isAlpha ↔
    (65 ≤ c.toNat ∧ c.toNat ≤ 90) ∨ (97 ≤ c.toNat ∧ c.toNat ≤ 122) := by
  unfold Char.isAlpha Char.isUpper Char.isLower
  simp only [Bool.or_eq_true, Bool.and_eq_true, decide_eq_true_eq, ge_iff_le]
  rfl

theorem not_isSpace_of_isAlpha (h : c.isAlpha) : isSpace c = false := by
  have hrange := isAlpha_iff.1 h
  cases hspace : isSpace c with
  | false => rfl
  | true =>
    have := toNat_of_isSpace hspace (by omega)
    omega

theorem not_isDigit_of_isAlpha (h : c.isAlpha) : isDigit c = false := by
  have hrange := isAlpha_iff.1 h
  cases hdigit : isDigit c with
  | false => rfl
  | true =>
    obtain ⟨z, hz, hlow, hhigh, _⟩ := exists_of_isDigit hdigit
    have := digitZeros_low z hz (by omega)
    omega

end Text

namespace Truncate

open Binary64 (overflow units one)
open Decimal (Numeral)
open Text (isBlank isBasicDigit isInformationSeparator basicDigits digitsValue maxNumeralDigits)

/-! ## Lengths in a unit -/

/-- Digits with blanks around them, and in front of a unit or of nothing.  A unit does not start
like an exponent. -/
structure Measure where
  before : Text
  digits : Text
  between : Text
  unit : Text
  after : Text
  isBlank_before : isBlank before
  isBlank_between : isBlank between
  isBlank_after : isBlank after
  ne_nil : digits ≠ []
  areDigits : ∀ c ∈ digits, isBasicDigit c
  areLetters : ∀ c ∈ unit, c.isAlpha
  head_unit : ∀ c ∈ unit.head?, c ≠ 'e' ∧ c ≠ 'E'

namespace Measure

variable {m : Measure}

def text (m : Measure) : Text := m.before ++ (m.digits ++ (m.between ++ (m.unit ++ m.after)))

/-- How many code points a measure asks for. -/
def length (m : Measure) : Nat := digitsValue m.digits

/-- By itself every number of digits is read; in front of a unit they must not be too many, nor
stand behind a separator. -/
def IsRead (m : Measure) : Prop :=
  m.unit = [] ∨ (m.before.any isInformationSeparator = false ∧ m.digits.length ≤ maxNumeralDigits)

theorem isDigit_of_mem {c : Char} (h : c ∈ m.digits) : Text.isDigit c :=
  Text.isDigit_of_isBasicDigit (m.areDigits c h)

theorem areFraction_none : ∀ ds ∈ (none : Option Text), ∀ c ∈ ds, Text.isDigit c :=
  fun ds hds => absurd hds (Option.not_mem_none ds)

/-- A measure without a unit, as a numeral. -/
def numeral (m : Measure) : Numeral where
  whole := m.digits
  fraction := none
  exponent := none
  ne_nil := m.ne_nil
  areDigits := fun _ hc => isDigit_of_mem hc
  areFraction := areFraction_none

theorem text_numeral (m : Measure) : m.numeral.text = m.digits := List.append_nil m.digits

theorem value_numeral (m : Measure) : m.numeral.value = m.length := by
  show (digitsValue m.digits + digitsValue [] / 10 ^ 0 : ℚ) * 10 ^ (0 : Int) = digitsValue m.digits
  have hnil : digitsValue [] = 0 := rfl
  rw [hnil, Nat.cast_zero, zero_div, add_zero, zpow_zero, mul_one]

/-! ### Without a unit -/

theorem strip_text_bare (h : m.unit = []) : Text.strip m.text = m.digits := by
  have htight : m.digits.Tight := m.text_numeral ▸ tight_text m.numeral
  have hafter : isBlank (m.between ++ m.after) :=
    Text.isBlank_append.2 ⟨m.isBlank_between, m.isBlank_after⟩
  unfold text
  rw [h, List.nil_append, Text.strip_append_left m.isBlank_before, Text.strip_append_right hafter,
    htight.strip_eq]

theorem length?_bare (h : m.unit = []) (hm : m.length < 2 ^ 53) :
    length? (some m.text) = .ok (some (.finite false (m.length * one))) := by
  have hlarge : 2 ^ 53 < overflow := by decide +kernel
  have hread : Decimal.read? m.digits = some (.finite false (m.length * one)) := by
    have hrange : (m.length : ℚ) < overflow := Nat.cast_lt.2 (Nat.lt_trans hm hlarge)
    rw [← text_numeral, Numeral.read?_text, value_numeral, if_pos hrange,
      Binary64.units_natCast (Nat.le_of_lt hm)]
  unfold length?
  dsimp only
  rw [strip_text_bare h, hread]
  rfl

/-! ### In front of a unit -/

theorem exists_digits (m : Measure) : ∃ c ds, m.digits = c :: ds ∧ isBasicDigit c := by
  obtain ⟨c, ds, hds⟩ := List.exists_cons_of_ne_nil m.ne_nil
  exact ⟨c, ds, hds, m.areDigits c (hds ▸ List.mem_cons_self)⟩

theorem toNat_of_mem_unit {c : Char} (h : c ∈ m.unit) :
    (65 ≤ c.toNat ∧ c.toNat ≤ 90) ∨ (97 ≤ c.toNat ∧ c.toNat ≤ 122) :=
  Text.isAlpha_iff.1 (m.areLetters c h)

theorem basicDigits_unit (m : Measure) : basicDigits m.unit = m.unit := by
  refine Text.basicDigits_of_lt fun c hc => ?_
  have := toNat_of_mem_unit hc
  omega

theorem strip_text_unit (h : m.unit ≠ []) :
    Text.strip m.text = m.digits ++ (m.between ++ m.unit) := by
  have htight : (m.digits ++ (m.between ++ m.unit)).Tight := by
    constructor
    · obtain ⟨c, ds, hds, hc⟩ := m.exists_digits
      rw [hds]
      rintro d ⟨⟩
      exact Text.not_isSpace_of_isDigit (Text.isDigit_of_isBasicDigit hc)
    · intro c hc
      rw [← List.append_assoc, List.getLast?_append_of_ne_nil _ h] at hc
      exact Text.not_isSpace_of_isAlpha (m.areLetters c (List.mem_of_getLast? hc))
  have hbody : m.text = m.before ++ ((m.digits ++ (m.between ++ m.unit)) ++ m.after) := by
    unfold text
    rw [List.append_assoc, List.append_assoc]
  rw [hbody, Text.strip_append_left m.isBlank_before, Text.strip_append_right m.isBlank_after,
    htight.strip_eq]

/-- Behind the digits stands no other digit, and neither a point nor an exponent. -/
theorem head_rest {c : Char} (h : c ∈ (basicDigits m.between ++ m.unit).head?) :
    isBasicDigit c = false ∧ c ≠ '.' ∧ c ≠ 'e' ∧ c ≠ 'E' := by
  cases hbetween : m.between with
  | nil =>
    rw [hbetween] at h
    have hletter := m.areLetters c (List.mem_of_mem_head? h)
    refine ⟨Text.not_isBasicDigit_of_isDigit (Text.not_isDigit_of_isAlpha hletter), ?_,
      m.head_unit c h⟩
    rintro rfl
    exact absurd hletter (by decide)
  | cons b bs =>
    rw [hbetween] at h
    obtain rfl : Text.basicDigit b = c := Option.some.inj h
    have hb : Text.isSpace b := (Text.isBlank_cons.1 (hbetween ▸ m.isBlank_between)).1
    have hblank := Text.isSpace_basicDigit hb
    refine ⟨Text.not_isBasicDigit_of_isDigit (Text.not_isDigit_of_isSpace hblank), ?_, ?_, ?_⟩
    all_goals
      intro heq
      rw [heq] at hblank
      exact absurd hblank (by decide)

theorem mem_body {c : Char} (h : c ∈ m.digits ++ (basicDigits m.between ++ m.unit)) :
    isBasicDigit c ∨ Text.isSpace c ∨ c.isAlpha := by
  rcases List.mem_append.1 h with h | h
  · exact .inl (m.areDigits c h)
  rcases List.mem_append.1 h with h | h
  · obtain ⟨b, hb, rfl⟩ := List.mem_map.1 h
    exact .inr (.inl (Text.isSpace_basicDigit (List.all_eq_true.1 m.isBlank_between b hb)))
  · exact .inr (.inr (m.areLetters c h))

/-- With a unit behind them the digits are no number. -/
theorem read?_unit (h : m.unit ≠ []) :
    Decimal.read? (m.digits ++ (m.between ++ m.unit)) = none := by
  have hbasic : basicDigits (m.digits ++ (m.between ++ m.unit)) =
      m.digits ++ (basicDigits m.between ++ m.unit) := by
    rw [Text.basicDigits_append, Text.basicDigits_append,
      Text.basicDigits_of_isBasicDigit m.areDigits, basicDigits_unit]
  have hlast : ∀ c ∈ (m.digits ++ (basicDigits m.between ++ m.unit)).getLast?,
      Text.isPadding c = false := by
    intro c hc
    rw [← List.append_assoc, List.getLast?_append_of_ne_nil _ h] at hc
    have hrange := toNat_of_mem_unit (List.mem_of_getLast? hc)
    rw [← Bool.not_eq_true, Text.isPadding_iff]
    omega
  have hgroup : '_' ∉ m.digits ++ (basicDigits m.between ++ m.unit) := by
    intro hmem
    rcases mem_body hmem with h | h | h <;> exact absurd h (by decide)
  have hnone : Decimal.unsigned? false (m.digits ++ (basicDigits m.between ++ m.unit)) = none := by
    rw [Decimal.unsigned?_whole m.ne_nil m.areDigits fun c hc =>
      ⟨(head_rest hc).1, (head_rest hc).2.1⟩]
    cases hrest : basicDigits m.between ++ m.unit with
    | nil => exact absurd (List.append_eq_nil_iff.1 hrest).2 h
    | cons c rest =>
      have hc : c ≠ 'e' ∧ c ≠ 'E' := (head_rest (by rw [hrest]; rfl)).2.2
      rw [Decimal.exponent?_of_head hc]
      rfl
  obtain ⟨c, ds, hds, hc⟩ := m.exists_digits
  rw [Decimal.read?_of_digit hc (by rw [hbasic, hds]; rfl) (hbasic ▸ hlast) (hbasic ▸ hgroup),
    hbasic, hnone]
  rfl

theorem leadingWhole_text (m : Measure) : leadingWhole m.text = some (m.before ++ m.digits) := by
  obtain ⟨c, ds, hds, hc⟩ := m.exists_digits
  have hdigit := Text.isDigit_of_isBasicDigit hc
  have hrest : ∀ d ∈ (m.between ++ (m.unit ++ m.after)).head?, Text.isDigit d = false := by
    intro d hd
    rcases List.mem_append.1 (List.mem_of_mem_head? hd) with hd | hd
    · exact Text.not_isDigit_of_isSpace (List.all_eq_true.1 m.isBlank_between d hd)
    rcases List.mem_append.1 hd with hd | hd
    · exact Text.not_isDigit_of_isAlpha (m.areLetters d hd)
    · exact Text.not_isDigit_of_isSpace (List.all_eq_true.1 m.isBlank_after d hd)
  have hsign : Text.sign (m.digits ++ (m.between ++ (m.unit ++ m.after))) = [] := by
    rw [hds]
    exact Text.sign_of_digit hdigit _
  have hleading : leadingDigits (m.digits ++ (m.between ++ (m.unit ++ m.after))) = m.digits := by
    unfold leadingDigits
    rw [hsign]
    exact (Text.run_append (fun _ => isDigit_of_mem) hrest).1
  have hhead : ∀ d ∈ (m.digits ++ (m.between ++ (m.unit ++ m.after))).head?,
      Text.isSpace d = false := by
    rw [hds]
    rintro d ⟨⟩
    exact Text.not_isSpace_of_isDigit hdigit
  unfold text
  rw [leadingWhole_append m.isBlank_before, leadingWhole_of_head hhead, hleading, hsign,
    if_neg (by simpa using m.ne_nil)]
  rfl

theorem length?_unit (h : m.unit ≠ []) (hm : m.length < 2 ^ 53) : length? (some m.text) =
    if m.before.any isInformationSeparator then
      .error (.badNumeral 10 (Text.quoted (m.before ++ m.digits)))
    else if maxNumeralDigits < m.digits.length then .error (.numeralTooLong m.digits.length)
    else .ok (some (.finite false (m.length * one))) := by
  have hlarge : 2 ^ 53 < overflow := by decide +kernel
  have hof : Binary64.ofInt? m.length = some (.finite false (m.length * one)) := by
    rw [Binary64.ofInt?_natCast, if_pos (Nat.lt_trans hm hlarge),
      Binary64.units_natCast (Nat.le_of_lt hm)]
  unfold length?
  dsimp only
  rw [strip_text_unit h, read?_unit h, leadingWhole_text]
  dsimp only [Option.filter]
  rw [Value.readWhole_blank m.isBlank_before m.ne_nil m.areDigits]
  split_ifs
  · rfl
  · rfl
  · dsimp only [bind, Except.bind]
    rw [show (digitsValue m.digits : Int) = m.length from rfl, hof]

/-! ### Both -/

theorem length?_read (h : m.IsRead) (hm : m.length < 2 ^ 53) :
    length? (some m.text) = .ok (some (.finite false (m.length * one))) := by
  by_cases hunit : m.unit = []
  · exact length?_bare hunit hm
  · obtain ⟨hseparator, hlong⟩ := h.resolve_left hunit
    rw [length?_unit hunit hm, if_neg (by rw [hseparator]; nofun), if_neg (Nat.not_lt.2 hlong)]

theorem length?_refused (h : ¬ m.IsRead) (hm : m.length < 2 ^ 53) :
    ∃ e, length? (some m.text) = .error e := by
  have hunit : m.unit ≠ [] := fun hunit => h (.inl hunit)
  rw [length?_unit hunit hm]
  split_ifs with hseparator hlong
  · exact ⟨_, rfl⟩
  · exact ⟨_, rfl⟩
  · exact absurd (.inr ⟨by simpa using hseparator, Nat.le_of_not_lt hlong⟩) h

end Measure

/-! ## Cuts at whole numbers -/

variable {a t : Text} {n : Nat}

theorem apply_of_whole (h : length? (some a) = .ok (some (.finite false (n * one)))) (t : Text) :
    apply t (some a) = .ok (if n = 0 ∨ t.length ≤ n then t else t.take n ++ [ellipsis]) := by
  have hzero : n * one = 0 ↔ n = 0 := by
    rw [Nat.mul_eq_zero, or_iff_left (Nat.ne_of_gt Binary64.pos_one)]
  rw [apply_of_length h, Nat.mul_div_cancel n Binary64.pos_one]
  simp only [hzero, Nat.mul_le_mul_right_iff Binary64.pos_one]

theorem length_cut (h : n < t.length) : (t.take n ++ [ellipsis]).length = n + 1 := by
  rw [List.length_append, List.length_take, Nat.min_eq_left (Nat.le_of_lt h)]
  rfl

/-- The mark of a cut stands where the next cut is made. -/
theorem take_cut (h : n < t.length) : (t.take n ++ [ellipsis]).take n = t.take n := by
  have hlength : (t.take n).length = n := by
    rw [List.length_take, Nat.min_eq_left (Nat.le_of_lt h)]
  rw [List.take_append_of_le_length (Nat.le_of_eq hlength.symm), List.take_of_length_le
    (Nat.le_of_eq hlength)]

/-- A measure that is read cuts a text after exactly as many code points as it says, once and
for all; one that is not read is refused. -/
theorem apply_measure (t : Text) (m : Measure) (hm : m.length < 2 ^ 53) :
    (m.IsRead →
      (m.length = 0 ∨ t.length ≤ m.length → apply t (some m.text) = .ok t) ∧
      (m.length ≠ 0 → m.length < t.length →
        ∃ s, s = t.take m.length ++ [ellipsis] ∧ s.length = m.length + 1 ∧
          apply t (some m.text) = .ok s ∧ apply s (some m.text) = .ok s)) ∧
    (¬ m.IsRead → ∃ e, apply t (some m.text) = .error e) := by
  refine ⟨fun hread => ?_, fun hrefused => ?_⟩
  · have happly := apply_of_whole (m.length?_read hread hm)
    refine ⟨fun hfits => by rw [happly, if_pos hfits], fun hpos hlong => ?_⟩
    have hcut : ¬ (m.length = 0 ∨ t.length ≤ m.length) := by omega
    have hcut' : ¬ (m.length = 0 ∨ (t.take m.length ++ [ellipsis]).length ≤ m.length) := by
      rw [length_cut hlong]
      omega
    refine ⟨_, rfl, length_cut hlong, by rw [happly, if_neg hcut], ?_⟩
    rw [happly, if_neg hcut', take_cut hlong]
  · obtain ⟨e, he⟩ := m.length?_refused hrefused hm
    exact ⟨e, apply_of_error he⟩

/-- The measure `012px` with blanks around it. -/
def twelvePixels : Measure where
  before := [' ']
  digits := ['0', '1', '2']
  between := []
  unit := ['p', 'x']
  after := ['\n']
  isBlank_before := rfl
  isBlank_between := rfl
  isBlank_after := rfl
  ne_nil := List.cons_ne_nil _ _
  areDigits := List.all_eq_true.1 (by decide)
  areLetters := List.all_eq_true.1 (by decide)
  head_unit := by
    rintro c ⟨⟩
    decide

theorem apply_twelvePixels : twelvePixels.length = 12 ∧ twelvePixels.length < 2 ^ 53 ∧
    twelvePixels.IsRead ∧
    apply "fifteen letters".toList (some " 012px\n".toList) = .ok "fifteen lett…".toList ∧
    apply "fifteen lett…".toList (some " 012px\n".toList) = .ok "fifteen lett…".toList := by
  have hlength : twelvePixels.length = 12 := rfl
  have hread : twelvePixels.IsRead := .inr ⟨rfl, by decide⟩
  have hsmall : twelvePixels.length < 2 ^ 53 := by
    rw [hlength]
    decide
  obtain ⟨s, rfl, _, hcut, hagain⟩ := ((apply_measure "fifteen letters".toList twelvePixels
    hsmall).1 hread).2 (by decide) (by decide)
  exact ⟨hlength, hsmall, hread, hcut, hagain⟩

/-- The measure `12px` behind so many zeros that its digits are refused. -/
def paddedPixels : Measure where
  before := []
  digits := List.replicate 4299 '0' ++ ['1', '2']
  between := []
  unit := ['p', 'x']
  after := []
  isBlank_before := rfl
  isBlank_between := rfl
  isBlank_after := rfl
  ne_nil := List.append_ne_nil_of_right_ne_nil _ (List.cons_ne_nil _ _)
  areDigits := by
    intro c hc
    rcases List.mem_append.1 hc with hc | hc
    · rw [List.eq_of_mem_replicate hc]
      rfl
    · exact List.all_eq_true.1 (show ['1', '2'].all isBasicDigit from rfl) c hc
  areLetters := List.all_eq_true.1 (by decide)
  head_unit := by
    rintro c ⟨⟩
    decide

theorem apply_refuses_paddedPixels : paddedPixels.length = 12 ∧ "ab".toList.length ≤ 12 ∧
    ∃ e, apply "ab".toList (some paddedPixels.text) = .error e := by
  have hlength : paddedPixels.length = 12 := by
    show digitsValue (List.replicate 4299 '0' ++ ['1', '2']) = 12
    rw [Text.digitsValue_append, Text.digitsValue_zeros]
    rfl
  have hsmall : paddedPixels.length < 2 ^ 53 := by
    rw [hlength]
    decide
  have hrefused : ¬ paddedPixels.IsRead := by
    rintro (hunit | ⟨_, hlong⟩)
    · cases hunit
    · exact absurd hlong (by decide +kernel)
  obtain ⟨e, he⟩ := paddedPixels.length?_refused hrefused hsmall
  exact ⟨hlength, by decide, e, apply_of_error he⟩

end Truncate
end Marginalia
