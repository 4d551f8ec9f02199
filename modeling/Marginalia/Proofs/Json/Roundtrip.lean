import Marginalia.Proofs.Json.Induction
import Marginalia.Proofs.Number.Layout

/-
Whatever is read is read back.  A floating-point number is written with the fewest digits that
read back, and wherever they are laid out the numeral is read as the number again; lists and
objects are read back with their parts.
-/
namespace Marginalia
namespace Json

open Decimal (numeral exponentText AreParts)
open Text (isBasicDigit digitsValue)

variable {w f rest : Text} {x : Option Int}

/-! ## Numerals -/

theorem not_isBasicDigit_of_ends (h : Ends rest) : ∀ c ∈ rest.head?, isBasicDigit c = false := by
  intro c hc
  rcases h c hc with rfl | rfl | rfl <;> rfl

theorem exponent_written (n : Int) (h : Ends rest) :
    exponent (exponentText n ++ rest) = (some n, rest) := by
  obtain ⟨ds, hne, hds, hn, htext⟩ := Decimal.exists_exponentText n
  have htake := (Text.run_append hds (not_isBasicDigit_of_ends h)).1
  have hempty : ds.isEmpty = false := by simpa using hne
  rw [htext]
  by_cases hneg : n < 0
  · have hback : -(digitsValue ds : Int) = n := by omega
    simp [exponent, Decimal.takeSign, hneg, htake, hempty, hback]
  · have hback : (digitsValue ds : Int) = n := by omega
    simp [exponent, Decimal.takeSign, hneg, htake, hempty, hback]

theorem exponent_option (x : Option Int) (h : Ends rest) :
    exponent ((x.map exponentText).getD [] ++ rest) = (x, rest) := by
  cases x with
  | none => exact exponent_of_ends h
  | some n => exact exponent_written n h

/-- What follows the digits before the point. -/
def afterWhole (f : Text) (x : Option Int) (rest : Text) : Text :=
  (if f = [] then [] else '.' :: f) ++ ((x.map exponentText).getD [] ++ rest)

theorem fraction_afterWhole (h : AreParts w f x) (hrest : Ends rest) :
    fraction (afterWhole f x rest) = (f, (x.map exponentText).getD [] ++ rest) := by
  have hnext : ∀ c ∈ ((x.map exponentText).getD [] ++ rest).head?, isBasicDigit c = false := by
    cases x with
    | none => exact not_isBasicDigit_of_ends hrest
    | some n =>
      rintro c ⟨⟩
      rfl
  unfold afterWhole
  by_cases hf : f = []
  · subst hf
    obtain ⟨n, rfl⟩ := Option.ne_none_iff_exists'.1 (h.broken.resolve_left fun hnot => hnot rfl)
    rfl
  · have hempty : f.isEmpty = false := by simpa using hf
    rw [if_neg hf, List.cons_append, fraction, (Text.run_append h.fraction hnext).1, hempty,
      if_neg Bool.false_ne_true, List.drop_left]

theorem takeWhile_whole (h : AreParts w f x) (rest : Text) :
    (w ++ afterWhole f x rest).takeWhile isBasicDigit = w := by
  refine (Text.run_append h.whole ?_).1
  unfold afterWhole
  by_cases hf : f = []
  · subst hf
    obtain ⟨n, rfl⟩ := Option.ne_none_iff_exists'.1 (h.broken.resolve_left fun hnot => hnot rfl)
    rintro c ⟨⟩
    rfl
  · rw [if_neg hf]
    rintro c ⟨⟩
    rfl

/-- A numeral is read as the number of its digits. -/
theorem number?_numeral (h : AreParts w f x) (hrest : Ends rest) (negative : Bool) :
    number? ((if negative then ['-'] else []) ++ (numeral w f x ++ rest)) =
      some (.float (Decimal.toBinary64 ⟨negative, digitsValue (w ++ f), x.getD 0 - f.length⟩),
        rest) := by
  have hfraction := fraction_afterWhole h hrest
  have hexponent := exponent_option x hrest
  have htake := takeWhile_whole h rest
  have hbroken : f = [] → x ≠ none := fun hf => h.broken.resolve_left fun hnot => hnot hf
  have htext : numeral w f x ++ rest = w ++ afterWhole f x rest := by simp [numeral, afterWhole]
  rw [htext]
  generalize afterWhole f x rest = tail at hfraction htake
  generalize (x.map exponentText).getD [] ++ rest = more at hfraction hexponent
  obtain ⟨c, w, rfl⟩ := List.exists_cons_of_ne_nil h.ne_nil
  have hsign : c ≠ '-' := by
    rintro rfl
    exact absurd (h.whole '-' List.mem_cons_self) (by decide)
  have hdrop : (c :: (w ++ tail)).drop (w.length + 1) = tail := by
    rw [List.drop_succ_cons, List.drop_left]
  rw [List.cons_append] at htake ⊢
  by_cases hc : c = '0'
  · subst hc
    obtain rfl : w = [] := (List.cons.inj (h.lead rfl)).2
    cases negative <;> simpa [number?, hfraction, hexponent] using hbroken
  · cases negative <;>
      simpa [number?, hc, hsign, htake, hdrop, hfraction, hexponent] using hbroken

theorem exists_digit (h : AreParts w f x) (s : Text) :
    ∃ c r, isBasicDigit c ∧ numeral w f x ++ s = c :: r := by
  obtain ⟨c, w, rfl⟩ := List.exists_cons_of_ne_nil h.ne_nil
  exact ⟨c, _, h.whole c List.mem_cons_self, rfl⟩

/-- Between its sign and what ends it, a numeral is what is read. -/
theorem value?_numeralText (h : AreParts w f x) (hrest : Ends rest) (negative : Bool) (fuel : Nat) :
    value? (fuel + 1) (skipBlanks ((if negative then ['-'] else []) ++ numeral w f x ++ rest)) =
      some (.float (Decimal.toBinary64 ⟨negative, digitsValue (w ++ f), x.getD 0 - f.length⟩),
        rest) := by
  rw [List.append_assoc, ← number?_numeral h hrest negative]
  obtain ⟨c, r, hc, hr⟩ := exists_digit h rest
  rw [hr]
  obtain ⟨hplain, hminus⟩ := value?_numeral hc r fuel
  cases negative with
  | false =>
    rw [if_neg Bool.false_ne_true, List.nil_append, skipBlanks_cons (not_isBlank_of_digit hc)]
    exact hplain
  | true =>
    rw [if_pos rfl, List.singleton_append, skipBlanks_cons (by decide)]
    exact hminus

/-! ## Words -/

/-- Words are read as what they stand for. -/
theorem readsBack_word : ∀ p ∈ wordValues, ReadsBack p.2 := by
  have hword : ∀ {t : Text} {v : Value}, t ≠ [] → write v = .ok t →
      (∀ rest fuel, value? (fuel + 1) (skipBlanks (t ++ rest)) = some (v, rest)) →
      ReadsBack v := by
    intro t v hne hwrite hread u hu rest _ fuel hfuel
    obtain rfl : t = u := Except.ok.inj (hwrite.symm.trans hu)
    have hpos := List.length_pos_iff.2 hne
    obtain ⟨fuel, rfl⟩ := Nat.exists_eq_succ_of_ne_zero (by omega : fuel ≠ 0)
    exact hread rest fuel
  unfold wordValues
  simp only [List.forall_mem_cons]
  exact ⟨hword (by decide) rfl fun _ _ => rfl, hword (by decide) rfl fun _ _ => rfl,
    hword (by decide) rfl fun _ _ => rfl, hword (by decide) rfl fun _ _ => rfl,
    hword (by decide) rfl fun _ _ => rfl, hword (by decide) rfl fun _ _ => rfl, nofun⟩

theorem readsBack_float {y : Binary64} (h : y.IsRounded) : ReadsBack (.float y) := by
  have hword := readsBack_word
  unfold wordValues at hword
  simp only [List.forall_mem_cons] at hword
  obtain ⟨_, _, _, hnan, hinfinity, hminus, _⟩ := hword
  cases h with
  | nan => exact hnan
  | infinity s =>
    cases s with
    | false => exact hinfinity
    | true => exact hminus
  | @finite s u hu hlimit =>
    rintro _ ⟨⟩ rest hrest fuel hfuel
    obtain ⟨w, f, x, hparts, htext, hvalue⟩ := Decimal.exists_text hu hlimit
    have hwritten : float (.finite s u) = _ := htext s
    rw [hwritten] at hfuel ⊢
    have hpos := List.length_pos_iff.2 hparts.ne_nil
    rw [List.length_append, numeral, List.length_append] at hfuel
    obtain ⟨fuel, rfl⟩ := Nat.exists_eq_succ_of_ne_zero (by omega : fuel ≠ 0)
    rw [value?_numeralText hparts hrest, hvalue]

/-! ## Lists -/

variable {v : Value} {vs : List Value} {ps : List Text}

theorem writeItems_cons (h : writeItems (v :: vs) = .ok ps) :
    ∃ t qs, write v = .ok t ∧ writeItems vs = .ok qs ∧ ps = t :: qs := by
  obtain ⟨t, ht, h⟩ := exists_of_bind_eq_ok h
  obtain ⟨qs, hqs, h⟩ := exists_of_bind_eq_ok h
  cases h
  exact ⟨t, qs, ht, hqs, rfl⟩

theorem writeItems_ne_nil (h : writeItems vs = .ok ps) (hne : vs ≠ []) : ps ≠ [] := by
  obtain ⟨v, vs, rfl⟩ := List.exists_cons_of_ne_nil hne
  obtain ⟨_, _, _, _, rfl⟩ := writeItems_cons h
  exact List.cons_ne_nil _ _

theorem write_list {t : Text} (h : write (.list vs) = .ok t) :
    ∃ ps, writeItems vs = .ok ps ∧ t = '[' :: (Text.join [','] ps ++ [']']) := by
  obtain ⟨ps, hps, h⟩ := exists_of_bind_eq_ok h
  cases h
  exact ⟨ps, hps, rfl⟩

theorem items?_written (hvs : ∀ v ∈ vs, ReadsBack v) (hne : vs ≠ [])
    (h : writeItems vs = .ok ps) {fuel : Nat} (hfuel : (Text.join [','] ps).length < fuel)
    (rest : Text) :
    items? fuel (skipBlanks (Text.join [','] ps ++ ']' :: rest)) = some (vs, rest) := by
  induction vs generalizing ps fuel with
  | nil => exact absurd rfl hne
  | cons v vs ih =>
    obtain ⟨hv, hvs⟩ := List.forall_mem_cons.1 hvs
    obtain ⟨t, qs, ht, hqs, rfl⟩ := writeItems_cons h
    obtain ⟨fuel, rfl⟩ := Nat.exists_eq_succ_of_ne_zero (by omega : fuel ≠ 0)
    cases vs with
    | nil =>
      cases hqs
      rw [Text.join] at hfuel
      have hvalue := hv t ht (']' :: rest) (ends_cons (.inr (.inr rfl)) rest) fuel (by omega)
      rw [Text.join, items?, hvalue]
      simp [skipBlanks_cons (c := ']') (by decide)]
    | cons w vs =>
      have hqs' : qs ≠ [] := writeItems_ne_nil hqs (List.cons_ne_nil w vs)
      rw [Text.join_cons_of_ne_nil hqs'] at hfuel ⊢
      simp only [List.length_append, List.length_cons] at hfuel
      have hmore := ih hvs (List.cons_ne_nil w vs) hqs (by omega : _ < fuel)
      have hvalue := hv t ht (',' :: (Text.join [','] qs ++ ']' :: rest))
        (ends_cons (.inl rfl) _) fuel (by omega)
      rw [List.append_assoc, List.cons_append, items?, hvalue]
      simp [skipBlanks_cons (c := ',') (by decide), hmore]

/-- The end of a list is no value. -/
theorem value?_bracket (fuel : Nat) (s : Text) : value? fuel (']' :: s) = none := by
  cases fuel <;> rfl

theorem items?_of_value? {fuel : Nat} {s : Text} (h : value? fuel s = none) :
    items? (fuel + 1) s = none := by
  rw [items?, h]
  rfl

theorem readsBack_list (hvs : ∀ v ∈ vs, ReadsBack v) : ReadsBack (.list vs) := by
  intro t ht rest _ fuel hfuel
  obtain ⟨ps, hps, rfl⟩ := write_list ht
  simp only [List.length_cons, List.length_append, List.length_nil] at hfuel
  obtain ⟨fuel, rfl⟩ := Nat.exists_eq_succ_of_ne_zero (by omega : fuel ≠ 0)
  have hsplit : '[' :: (Text.join [','] ps ++ [']']) ++ rest =
      '[' :: (Text.join [','] ps ++ ']' :: rest) := by simp
  rw [hsplit, skipBlanks_cons (by decide)]
  cases vs with
  | nil =>
    cases hps
    rfl
  | cons v vs =>
    obtain ⟨fuel, rfl⟩ := Nat.exists_eq_succ_of_ne_zero (by omega : fuel ≠ 0)
    have hitems := items?_written hvs (List.cons_ne_nil v vs) hps (by omega : _ < fuel + 1) rest
    rw [value?]
    split
    · rename_i r hr
      rw [hr, items?_of_value? (value?_bracket fuel r)] at hitems
      cases hitems
    · rw [hitems, Option.map_some]

/-! ## All values -/

theorem passesUp_readsBack : PassesUp ReadsBack where
  word := readsBack_word
  text := readsBack_text
  int _ := readsBack_int _
  float d := readsBack_float (Decimal.isRounded_toBinary64 d)
  list := readsBack_list
  object := readsBack_object

/-- Whatever is read is read back from what is written for it. -/
theorem readsBack_of_read? {t : Text} (h : read? t = some v) : ReadsBack v :=
  passesUp_readsBack.of_read? h

end Json
end Marginalia
