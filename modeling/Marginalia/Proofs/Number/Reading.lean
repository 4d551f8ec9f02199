import Marginalia.Proofs.Number.Numeral
import Marginalia.Proofs.Text.Words

/-
Reading whole numbers.  A sign and digits of any script are read as the number they
stand for, unless there are too many of them.  Blanks around a number are padding, but
for the separators of units of information.
-/
namespace Marginalia
namespace Text

/-! ## Digits of every script -/

theorem exists_of_isDigit {c : Char} (h : isDigit c) :
    ∃ z ∈ digitZeros, z ≤ c.toNat ∧ c.toNat ≤ z + 9 ∧ digit? c = some (c.toNat - z) := by
  unfold isDigit digit? at *
  cases hz : digitZeros.find? fun z => z ≤ c.toNat && c.toNat ≤ z + 9 with
  | none =>
    rw [hz] at h
    cases h
  | some z =>
    have hin := List.find?_some hz
    rw [Bool.and_eq_true, decide_eq_true_eq, decide_eq_true_eq] at hin
    exact ⟨z, List.mem_of_find?_eq_some hz, hin.1, hin.2, rfl⟩

theorem digitZeros_apart :
    ∀ z ∈ digitZeros, ∀ r ∈ spaceRanges, r.2 < z ∨ z + 9 < r.1 := by
  decide

theorem not_isSpace_of_isDigit {c : Char} (h : isDigit c) : isSpace c = false := by
  cases hspace : isSpace c with
  | false => rfl
  | true =>
    obtain ⟨r, hr, hlow, hhigh⟩ := exists_of_inRanges hspace
    obtain ⟨z, hz, hlow', hhigh', _⟩ := exists_of_isDigit h
    have := digitZeros_apart z hz r hr
    omega

theorem digitZeros_low : ∀ z ∈ digitZeros, z < 127 → z = 48 := by
  decide

/-- The basic form of a digit. -/
def basicDigit (c : Char) : Char :=
  if c.toNat < 127 then c
  else if isSpace c then ' '
  else match digit? c with
    | some d => Char.ofNat (48 + d)
    | none => c

theorem basicDigits_eq (t : Text) : basicDigits t = t.map basicDigit := rfl

theorem toNat_basic {d : Nat} (h : d ≤ 9) : (Char.ofNat (48 + d)).toNat = 48 + d := by
  have hvalid : (48 + d).isValidChar := .inl (by omega)
  rw [Char.ofNat, dif_pos hvalid]
  rfl

theorem basicDigit_of_isDigit {c : Char} (h : isDigit c) :
    isBasicDigit (basicDigit c) ∧ digit? (basicDigit c) = digit? c := by
  obtain ⟨z, hz, hlow, hhigh, hdigit⟩ := exists_of_isDigit h
  unfold basicDigit
  by_cases hbasic : c.toNat < 127
  · have hzero : z = 48 := digitZeros_low z hz (by omega)
    rw [if_pos hbasic]
    exact ⟨isBasicDigit_iff.2 (by omega), rfl⟩
  · have hd : c.toNat - z ≤ 9 := by omega
    have hvalue := toNat_basic hd
    have hdigits : isBasicDigit (Char.ofNat (48 + (c.toNat - z))) :=
      isBasicDigit_iff.2 (by omega)
    rw [if_neg hbasic, not_isSpace_of_isDigit h, hdigit]
    refine ⟨hdigits, ?_⟩
    dsimp only
    rw [if_neg (by decide), digit?_of_isBasicDigit hdigits, hvalue]
    show some (48 + (c.toNat - z) - 48) = _
    rw [Nat.add_sub_cancel_left]

theorem basicDigits_of_digits {ds : Text} (h : ∀ c ∈ ds, isDigit c) :
    (∀ c ∈ basicDigits ds, isBasicDigit c) ∧ digitsValue (basicDigits ds) = digitsValue ds := by
  constructor
  · intro d hd
    obtain ⟨c, hc, rfl⟩ := List.mem_map.1 hd
    exact (basicDigit_of_isDigit (h c hc)).1
  · unfold digitsValue
    rw [basicDigits_eq, List.foldl_map]
    refine List.foldl_ext _ _ _ fun n c hc => ?_
    rw [(basicDigit_of_isDigit (h c hc)).2]

theorem groupedDigits?_digits {ds : Text} (hne : ds ≠ []) (h : ∀ c ∈ ds, isBasicDigit c) :
    groupedDigits? ds = some ds := by
  induction ds with
  | nil => exact absurd rfl hne
  | cons c rest ih =>
    have hc : isBasicDigit c := h c List.mem_cons_self
    have hrest : ∀ d ∈ rest, isBasicDigit d := fun d hd => h d (List.mem_cons_of_mem _ hd)
    cases rest with
    | nil =>
      unfold groupedDigits?
      rw [if_pos hc]
    | cons d rest =>
      have hd : d ≠ '_' := by
        rintro rfl
        exact absurd (hrest '_' List.mem_cons_self) (by decide)
      rw [groupedDigits?]
      · rw [if_pos hc, ih (List.cons_ne_nil d rest) hrest]
        rfl
      · nofun
      · intro rest' heq
        cases heq
        exact hd rfl

/-! ## Whole numbers -/

/-- The sign that a text starts with. -/
def sign : Text → Text
  | '+' :: _ => ['+']
  | '-' :: _ => ['-']
  | _ => []

theorem sign_cases (t : Text) : sign t = [] ∨ sign t = ['+'] ∨ sign t = ['-'] := by
  unfold sign
  split
  · exact .inr (.inl rfl)
  · exact .inr (.inr rfl)
  · exact .inl rfl

theorem sign_of_digit {c : Char} (h : isDigit c) (t : Text) : sign (c :: t) = [] := by
  unfold sign
  split
  · cases ‹_ = _›
    exact absurd h (by decide)
  · cases ‹_ = _›
    exact absurd h (by decide)
  · rfl

theorem isPadding_of_isBasicDigit {c : Char} (h : isBasicDigit c) : isPadding c = false := by
  have := isBasicDigit_iff.1 h
  have hspace : c ≠ ' ' := by
    rintro rfl
    exact absurd h (by decide)
  simp only [isPadding, hspace, decide_false, Bool.false_or, Bool.and_eq_false_iff,
    decide_eq_false_iff_not]
  omega

theorem stripPadding_eq_self {t : Text} (h : ∀ c ∈ t.head?, isPadding c = false)
    (h' : ∀ c ∈ t.getLast?, isPadding c = false) : stripPadding t = t := by
  have hdrop : ∀ u : Text, (∀ c ∈ u.head?, isPadding c = false) → u.dropWhile isPadding = u := by
    intro u hu
    cases u with
    | nil => rfl
    | cons c rest => exact List.dropWhile_cons_of_neg (by simp [hu c rfl])
  unfold stripPadding
  rw [hdrop t h, hdrop t.reverse (by rwa [List.head?_reverse]), List.reverse_reverse]

theorem stripPadding_signed {bs : Text} (hne : bs ≠ []) (h : ∀ c ∈ bs, isBasicDigit c) (t : Text) :
    stripPadding (sign t ++ bs) = sign t ++ bs := by
  apply stripPadding_eq_self
  · intro c hc
    rcases sign_cases t with hsign | hsign | hsign <;> rw [hsign] at hc
    · exact isPadding_of_isBasicDigit (h c (List.mem_of_mem_head? hc))
    · cases hc
      rfl
    · cases hc
      rfl
  · intro c hc
    rw [List.getLast?_append_of_ne_nil _ hne] at hc
    exact isPadding_of_isBasicDigit (h c (List.mem_of_getLast? hc))

/-- A sign and digits of any script are a whole number. -/
theorem wholeDigits?_signed {t ds : Text} (hne : ds ≠ []) (h : ∀ c ∈ ds, isDigit c) :
    wholeDigits? (sign t ++ ds) = some (decide (sign t = ['-']), basicDigits ds) := by
  obtain ⟨hbasic, _⟩ := basicDigits_of_digits h
  have hne' : basicDigits ds ≠ [] := by simpa [basicDigits] using hne
  have hgrouped := groupedDigits?_digits hne' hbasic
  have hsigned : basicDigits (sign t ++ ds) = sign t ++ basicDigits ds := by
    rcases sign_cases t with hsign | hsign | hsign <;> rw [hsign] <;> rfl
  unfold wholeDigits?
  rw [hsigned, stripPadding_signed hne' hbasic t]
  generalize basicDigits ds = bs at hbasic hgrouped ⊢
  rcases sign_cases t with hsign | hsign | hsign
  · rw [hsign, List.nil_append]
    split
    · exact absurd (hbasic '-' List.mem_cons_self) (by decide)
    · exact absurd (hbasic '+' List.mem_cons_self) (by decide)
    · rw [hgrouped]
      rfl
  · rw [hsign]
    show (groupedDigits? bs).map _ = _
    rw [hgrouped]
    rfl
  · rw [hsign]
    show (groupedDigits? bs).map _ = _
    rw [hgrouped]
    rfl

end Text

theorem Value.readWhole_signed {t ds : Text} (hne : ds ≠ []) (h : ∀ c ∈ ds, Text.isDigit c) :
    readWhole (Text.sign t ++ ds) =
      if Text.maxNumeralDigits < ds.length then .error (.numeralTooLong ds.length)
      else .ok (if Text.sign t = ['-'] then -(Text.digitsValue ds : Int)
        else Text.digitsValue ds) := by
  unfold readWhole
  rw [Text.wholeDigits?_signed hne h]
  dsimp only
  rw [(Text.basicDigits_of_digits h).2, Text.basicDigits_eq, List.length_map]
  simp only [decide_eq_true_eq]

/-! ## Blanks around a number -/

namespace Text

variable {c : Char} {ws ds t : Text}

/-- The separators of units of information are blanks, but no padding of a whole number. -/
def isInformationSeparator (c : Char) : Bool := 0x1C ≤ c.toNat && c.toNat ≤ 0x1F

theorem isInformationSeparator_iff : isInformationSeparator c ↔ 28 ≤ c.toNat ∧ c.toNat ≤ 31 := by
  simp [isInformationSeparator]

theorem isPadding_iff : isPadding c ↔ c.toNat = 32 ∨ 9 ≤ c.toNat ∧ c.toNat ≤ 13 := by
  have hspace : c = ' ' ↔ c.toNat = 32 := by
    rw [← Char.toNat_inj]
    rfl
  simp [isPadding, hspace]

theorem toNat_of_isSpace (h : isSpace c) (hc : c.toNat < 127) :
    (9 ≤ c.toNat ∧ c.toNat ≤ 13) ∨ (28 ≤ c.toNat ∧ c.toNat ≤ 32) := by
  obtain ⟨r, hr, hlow, hhigh⟩ := exists_of_inRanges h
  have hbasic : ∀ r ∈ spaceRanges, r.1 < 127 → r = (9, 13) ∨ r = (28, 32) := by decide
  rcases hbasic r hr (by omega) with rfl | rfl
  · exact .inl ⟨hlow, hhigh⟩
  · exact .inr ⟨hlow, hhigh⟩

theorem not_isDigit_of_isSpace (h : isSpace c) : isDigit c = false := by
  cases hdigit : isDigit c with
  | false => rfl
  | true =>
    rw [not_isSpace_of_isDigit hdigit] at h
    cases h

theorem not_isBasicDigit_of_isDigit (h : isDigit c = false) : isBasicDigit c = false := by
  cases hbasic : isBasicDigit c with
  | false => rfl
  | true =>
    rw [isDigit_of_isBasicDigit hbasic] at h
    cases h

theorem basicDigit_of_lt (hc : c.toNat < 127) : basicDigit c = c := if_pos hc

theorem isSpace_basicDigit (h : isSpace c) : isSpace (basicDigit c) := by
  unfold basicDigit
  rw [if_pos h]
  split
  · exact h
  · rfl

theorem isPadding_basicDigit (h : isSpace c) (hc : isInformationSeparator c = false) :
    isPadding (basicDigit c) := by
  by_cases hbasic : c.toNat < 127
  · rw [← Bool.not_eq_true, isInformationSeparator_iff] at hc
    have := toNat_of_isSpace h hbasic
    rw [basicDigit_of_lt hbasic, isPadding_iff]
    omega
  · rw [basicDigit, if_neg hbasic, if_pos h]
    rfl

theorem isPadding_of_mem_basicDigits (hws : ∀ c ∈ ws, isSpace c)
    (h : ∀ c ∈ ws, isInformationSeparator c = false) : ∀ c ∈ basicDigits ws, isPadding c := by
  intro c hc
  obtain ⟨d, hd, rfl⟩ := List.mem_map.1 hc
  exact isPadding_basicDigit (hws d hd) (h d hd)

theorem basicDigits_append (t u : Text) : basicDigits (t ++ u) = basicDigits t ++ basicDigits u :=
  List.map_append

theorem basicDigits_of_lt (h : ∀ c ∈ t, c.toNat < 127) : basicDigits t = t := by
  have hmap : t.map basicDigit = t.map id :=
    List.map_congr_left fun c hc => basicDigit_of_lt (h c hc)
  rw [basicDigits_eq, hmap, List.map_id]

theorem basicDigits_of_isBasicDigit (h : ∀ c ∈ ds, isBasicDigit c) : basicDigits ds = ds := by
  refine basicDigits_of_lt fun c hc => ?_
  have := isBasicDigit_iff.1 (h c hc)
  omega

theorem stripPadding_append (h : ∀ c ∈ ws, isPadding c) (t : Text) :
    stripPadding (ws ++ t) = stripPadding t := by
  unfold stripPadding
  rw [List.dropWhile_append_of_pos h]

theorem stripPadding_append_right (h : ∀ c ∈ ws, isPadding c) (t : Text) :
    stripPadding (t ++ ws) = stripPadding t := by
  induction t with
  | nil =>
    have hnil := stripPadding_append h []
    rwa [List.append_nil] at hnil
  | cons c t ih =>
    by_cases hc : isPadding c
    · have hfront := fun u => stripPadding_append (List.forall_mem_singleton.2 hc) u
      rw [List.cons_append, ← List.singleton_append, hfront, ih, ← List.singleton_append, hfront]
    · have hreverse : ∀ c ∈ ws.reverse, isPadding c := fun c hc => h c (List.mem_reverse.1 hc)
      unfold stripPadding
      rw [List.cons_append, List.dropWhile_cons_of_neg hc, List.dropWhile_cons_of_neg hc,
        ← List.cons_append, List.reverse_append, List.dropWhile_append_of_pos hreverse]

theorem mem_stripPadding (h : c ∈ t) (hc : isPadding c = false) : c ∈ stripPadding t := by
  have hdrop : ∀ u : Text, c ∈ u → c ∈ u.dropWhile isPadding := by
    intro u hu
    rw [← List.takeWhile_append_dropWhile (p := isPadding) (l := u)] at hu
    rcases List.mem_append.1 hu with hu | hu
    · rw [List.mem_takeWhile_imp hu] at hc
      cases hc
    · exact hu
  unfold stripPadding
  rw [List.mem_reverse]
  exact hdrop _ (List.mem_reverse.2 (hdrop t h))

theorem groupedDigits?_eq_none (h : isBasicDigit c = false) (t : Text) :
    groupedDigits? (c :: t) = none := by
  unfold groupedDigits?
  split <;> simp_all

variable (hws : isBlank ws) (hne : ds ≠ []) (hds : ∀ c ∈ ds, isBasicDigit c)

include hne hds in
theorem stripPadding_digits (h : ∀ c ∈ (t ++ ds).head?, isPadding c = false) :
    stripPadding (t ++ ds) = t ++ ds := by
  refine stripPadding_eq_self h fun c hc => ?_
  rw [List.getLast?_append_of_ne_nil _ hne] at hc
  exact isPadding_of_isBasicDigit (hds c (List.mem_of_getLast? hc))

include hne hds in
/-- Padding ends at a separator, which is no digit. -/
theorem wholeDigits?_separator {before : Text} (hbefore : ∀ c ∈ basicDigits before, isPadding c)
    (hc : isInformationSeparator c) (after : Text) :
    wholeDigits? (before ++ c :: (after ++ ds)) = none := by
  have hbounds := isInformationSeparator_iff.1 hc
  have hnot : isPadding c = false := by
    rw [← Bool.not_eq_true, isPadding_iff]
    omega
  have hdigit : isBasicDigit c = false := by
    rw [← Bool.not_eq_true, isBasicDigit_iff]
    omega
  have hbasic : basicDigits (c :: (after ++ ds)) = c :: (basicDigits after ++ ds) := by
    show basicDigit c :: basicDigits (after ++ ds) = _
    rw [basicDigit_of_lt (by omega), basicDigits_append, basicDigits_of_isBasicDigit hds]
  have hhead : ∀ d ∈ ((c :: basicDigits after) ++ ds).head?, isPadding d = false := by
    rintro d ⟨⟩
    exact hnot
  have hstrip := stripPadding_digits hne hds hhead
  unfold wholeDigits?
  rw [basicDigits_append, hbasic, stripPadding_append hbefore, ← List.cons_append, hstrip,
    List.cons_append]
  -- the separator is no sign either
  split
  · cases ‹_ = _›
    exact absurd hc (by decide)
  · cases ‹_ = _›
    exact absurd hc (by decide)
  · rw [groupedDigits?_eq_none hdigit]
    rfl

include hws hne hds

/-- Blanks in front of digits are padding, unless a separator is among them. -/
theorem wholeDigits?_blank : wholeDigits? (ws ++ ds) =
    if ws.any isInformationSeparator then none else some (false, ds) := by
  have hspace : ∀ c ∈ ws, isSpace c := List.all_eq_true.1 hws
  cases hfind : ws.find? isInformationSeparator with
  | none =>
    have hnone : ∀ c ∈ ws, isInformationSeparator c = false := by
      simpa using List.find?_eq_none.1 hfind
    have hpadding := isPadding_of_mem_basicDigits hspace hnone
    have hany : ws.any isInformationSeparator = false := by simpa using hnone
    have hdigits : wholeDigits? ds = some (false, basicDigits ds) :=
      wholeDigits?_signed (t := []) hne fun c hc => isDigit_of_isBasicDigit (hds c hc)
    have hsame : wholeDigits? (ws ++ ds) = wholeDigits? ds := by
      unfold wholeDigits?
      rw [basicDigits_append, stripPadding_append hpadding]
    rw [hsame, hdigits, basicDigits_of_isBasicDigit hds, hany]
    rfl
  | some s =>
    obtain ⟨hs, before, after, rfl, hbefore⟩ := List.find?_eq_some_iff_append.1 hfind
    have hpadding := isPadding_of_mem_basicDigits (fun c hc => hspace c (List.mem_append_left _ hc))
      fun c hc => by simpa using hbefore c hc
    have hany : (before ++ s :: after).any isInformationSeparator = true := by simp [hs]
    rw [hany, if_pos rfl, List.append_assoc, List.cons_append]
    exact wholeDigits?_separator hne hds hpadding hs after

end Text

/-- Blanks and digits are a whole number, unless it has too many digits or a separator in front. -/
theorem Value.readWhole_blank {ws ds : Text} (hws : Text.isBlank ws) (hne : ds ≠ [])
    (hds : ∀ c ∈ ds, Text.isBasicDigit c) : readWhole (ws ++ ds) =
      if ws.any Text.isInformationSeparator then .error (.badNumeral 10 (Text.quoted (ws ++ ds)))
      else if Text.maxNumeralDigits < ds.length then .error (.numeralTooLong ds.length)
      else .ok (Text.digitsValue ds : Int) := by
  unfold readWhole
  rw [Text.wholeDigits?_blank hws hne hds]
  by_cases hany : ws.any Text.isInformationSeparator = true
  · rw [if_pos hany, if_pos hany]
  · rw [if_neg hany, if_neg hany]
    rfl

end Marginalia
