import Mathlib.Data.List.TakeWhile
import Marginalia.Proofs.Number.Numeral
import Marginalia.Proofs.Number.Shortest

/-
The layout of a number.  Digits are laid out as a numeral with a fraction, an exponent or
both, and wherever its point stands the numeral has the value of the digits.
-/
namespace Marginalia

namespace Text

theorem digitsValue_append (t u : Text) :
    digitsValue (t ++ u) = digitsValue t * 10 ^ u.length + digitsValue u := by
  induction u using List.reverseRecOn with
  | nil =>
    rw [List.append_nil, List.length_nil, Nat.pow_zero, Nat.mul_one]
    rfl
  | append_singleton u c ih =>
    rw [← List.append_assoc, digitsValue_concat, digitsValue_concat, ih, List.length_append,
      List.length_singleton, Nat.pow_succ, ← Nat.mul_assoc]
    omega

theorem digitsValue_zeros (n : Nat) : digitsValue (List.replicate n '0') = 0 := by
  induction n with
  | zero => rfl
  | succ n ih =>
    rw [List.replicate_succ', digitsValue_concat, ih]
    rfl

theorem isBasicDigit_of_mem_zeros {n : Nat} {c : Char} (h : c ∈ List.replicate n '0') :
    isBasicDigit c := by
  rw [List.eq_of_mem_replicate h]
  rfl

end Text

namespace Decimal

open Text (isBasicDigit digitsValue)

/-! ## Numerals -/

/-- An exponent as it is written: a sign, and two digits or more. -/
def exponentText (e : Int) : Text :=
  let t := Text.ofNat e.natAbs
  'e' :: (if e < 0 then '-' else '+') :: (if t.length < 2 then '0' :: t else t)

theorem exists_exponentText (e : Int) : ∃ ds : Text, ds ≠ [] ∧ (∀ c ∈ ds, isBasicDigit c) ∧
    digitsValue ds = e.natAbs ∧ exponentText e = 'e' :: (if e < 0 then '-' else '+') :: ds := by
  have hvalue := Text.digitsValue_ofNat e.natAbs
  have hdigits : ∀ c ∈ Text.ofNat e.natAbs, isBasicDigit c :=
    fun c hc => Text.isBasicDigit_of_mem_ofNat hc
  by_cases hlen : (Text.ofNat e.natAbs).length < 2
  · refine ⟨'0' :: Text.ofNat e.natAbs, List.cons_ne_nil _ _,
      List.forall_mem_cons.2 ⟨rfl, hdigits⟩, ?_, by simp [exponentText, hlen]⟩
    rw [← List.singleton_append, Text.digitsValue_append, hvalue, ← List.replicate_one,
      Text.digitsValue_zeros, Nat.zero_mul, Nat.zero_add]
  · exact ⟨_, Text.ofNat_ne_nil _, hdigits, hvalue, by simp [exponentText, hlen]⟩

/-- One digit, and the others behind a point. -/
def mantissa : Text → Text
  | [] => []
  | [d] => [d]
  | d :: rest => d :: '.' :: rest

/-- The text of a numeral without sign. -/
def numeral (w f : Text) (e : Option Int) : Text :=
  w ++ ((if f = [] then [] else '.' :: f) ++ (e.map exponentText).getD [])

/-- Digits before and behind the point, and an exponent, of what is not written as a whole
number. -/
structure AreParts (w f : Text) (e : Option Int) : Prop where
  ne_nil : w ≠ []
  whole : ∀ c ∈ w, isBasicDigit c
  fraction : ∀ c ∈ f, isBasicDigit c
  lead : w.head? = some '0' → w = ['0']
  broken : f ≠ [] ∨ e ≠ none

theorem mem_numeral {w f : Text} {e : Option Int} (h : AreParts w f e) {c : Char}
    (hc : c ∈ numeral w f e) : isBasicDigit c ∨ c ∈ ['.', 'e', '+', '-'] := by
  unfold numeral at hc
  rcases List.mem_append.1 hc with hc | hc
  · exact .inl (h.whole c hc)
  rcases List.mem_append.1 hc with hc | hc
  · split at hc
    · cases hc
    · rcases List.mem_cons.1 hc with rfl | hc
      · exact .inr (by decide)
      · exact .inl (h.fraction c hc)
  · cases e with
    | none => cases hc
    | some n =>
      obtain ⟨ds, _, hds, _, htext⟩ := exists_exponentText n
      rw [Option.map_some, Option.getD_some, htext] at hc
      rcases List.mem_cons.1 hc with rfl | hc
      · exact .inr (by decide)
      rcases List.mem_cons.1 hc with rfl | hc
      · right
        split <;> decide
      · exact .inl (hds c hc)

/-! ## Layouts -/

variable {ds : Text}

/-- Digits are those that are laid out, and zeros. -/
theorem exists_zeros (ds : Text) : ∃ n, ds = trimZeros ds ++ List.replicate n '0' := by
  let zeros := ds.reverse.takeWhile (· = '0')
  have hzeros : zeros = List.replicate zeros.length '0' :=
    List.eq_replicate_iff.2 ⟨rfl, fun c hc => by simpa using List.mem_takeWhile_imp hc⟩
  refine ⟨zeros.length, ?_⟩
  have hparts := List.takeWhile_append_dropWhile (p := (· = '0')) (l := ds.reverse)
  calc ds = (zeros ++ ds.reverse.dropWhile (· = '0')).reverse := by
        rw [hparts, List.reverse_reverse]
    _ = trimZeros ds ++ zeros.reverse := List.reverse_append
    _ = trimZeros ds ++ List.replicate zeros.length '0' := by
        rw [hzeros, List.reverse_replicate, List.length_replicate]

/-- A numeral that has the digits `ds`, the first of them at the place `leading`. -/
def LaysOut (ds : Text) (leading : Int) (t : Text) : Prop :=
  ∃ (w f : Text) (e : Option Int) (n : Nat), t = numeral w f e ∧ AreParts w f e ∧
    digitsValue (w ++ f) = digitsValue ds * 10 ^ n ∧
    e.getD 0 - f.length + n = leading + 1 - ds.length

section

variable {leading : Int} (hne : ds ≠ []) (hds : ∀ c ∈ ds, isBasicDigit c)
  (hhead : ds.head? ≠ some '0')

include hne hds hhead

theorem laysOut_whole {n : Nat} (hn : ds.length ≤ n) (hleading : (n : Int) = leading + 1) :
    LaysOut ds leading (ds ++ List.replicate (n - ds.length) '0' ++ ['.', '0']) := by
  refine ⟨ds ++ List.replicate (n - ds.length) '0', ['0'], none, n - ds.length + 1, ?_, ?_, ?_, ?_⟩
  · rfl
  · refine ⟨?_, ?_, List.forall_mem_singleton.2 rfl, ?_, .inl (by decide)⟩
    · exact List.append_ne_nil_of_left_ne_nil hne _
    · intro c hc
      exact (List.mem_append.1 hc).elim (hds c) Text.isBasicDigit_of_mem_zeros
    · intro hzero
      rw [List.head?_append_of_ne_nil _ hne] at hzero
      exact absurd hzero hhead
  · rw [List.append_assoc, ← List.replicate_succ', Text.digitsValue_append, Text.digitsValue_zeros,
      List.length_replicate, Nat.add_zero]
  · simp only [Option.getD_none, List.length_singleton]
    omega

theorem laysOut_point {n : Nat} (hn : n < ds.length) (hleading : (n : Int) = leading + 1)
    (hpos : 0 < n) : LaysOut ds leading (ds.take n ++ '.' :: ds.drop n) := by
  have hdrop : ds.drop n ≠ [] := by simpa using hn
  refine ⟨ds.take n, ds.drop n, none, 0, ?_, ?_, ?_, ?_⟩
  · simp [numeral, hdrop]
  · refine ⟨by simp [hne]; omega, fun c hc => hds c (List.mem_of_mem_take hc),
      fun c hc => hds c (List.mem_of_mem_drop hc), fun hzero => ?_, .inl hdrop⟩
    rw [List.head?_take, if_neg (by omega)] at hzero
    exact absurd hzero hhead
  · rw [List.take_append_drop, Nat.pow_zero, Nat.mul_one]
  · simp only [Option.getD_none, List.length_drop]
    omega

omit hhead in
theorem laysOut_small (hleading : leading < 0) :
    LaysOut ds leading ('0' :: '.' :: (List.replicate (-leading - 1).toNat '0' ++ ds)) := by
  have hfraction : List.replicate (-leading - 1).toNat '0' ++ ds ≠ [] :=
    List.append_ne_nil_of_right_ne_nil _ hne
  refine ⟨['0'], List.replicate (-leading - 1).toNat '0' ++ ds, none, 0, ?_, ?_, ?_, ?_⟩
  · simp [numeral, hne]
  · refine ⟨by decide, List.forall_mem_singleton.2 rfl, fun c hc => ?_, fun _ => rfl,
      .inl hfraction⟩
    exact (List.mem_append.1 hc).elim Text.isBasicDigit_of_mem_zeros (hds c)
  · rw [← List.append_assoc, ← List.replicate_one, ← List.replicate_add, Text.digitsValue_append,
      Text.digitsValue_zeros]
    omega
  · simp only [Option.getD_none, List.length_append, List.length_replicate]
    omega

theorem laysOut_exponent : LaysOut ds leading (mantissa ds ++ exponentText leading) := by
  obtain ⟨d, rest, rfl⟩ := List.exists_cons_of_ne_nil hne
  obtain ⟨hd, hrest⟩ := List.forall_mem_cons.1 hds
  refine ⟨[d], rest, some leading, 0, ?_, ?_, ?_, ?_⟩
  · cases rest <;> rfl
  · exact ⟨List.cons_ne_nil d [], by simpa using hd, hrest, fun h => absurd h hhead, .inr nofun⟩
  · rw [Nat.pow_zero, Nat.mul_one]
    rfl
  · simp only [Option.getD_some, List.length_cons]
    omega

end

theorem layout_eq (ds : Text) (e leading : Int) (h : leading = e + ds.length - 1) : layout ds e =
    if -4 ≤ leading && leading < 16 then
      if 0 ≤ leading then
        let n := leading.toNat + 1
        let whole := (trimZeros ds).take n
        let fraction := (trimZeros ds).drop n
        whole ++ List.replicate (n - whole.length) '0' ++ ['.'] ++
          (if fraction.isEmpty then ['0'] else fraction)
      else ['0', '.'] ++ List.replicate (-leading - 1).toNat '0' ++ trimZeros ds
    else mantissa (trimZeros ds) ++ exponentText leading := by
  subst h
  unfold layout exponentText
  dsimp only
  split
  · rfl
  · rw [List.append_assoc]
    congr 1
    unfold mantissa
    generalize trimZeros ds = ts
    rcases ts with _ | ⟨d, _ | ⟨d', rest⟩⟩ <;> rfl

theorem laysOut_layout (hne : ds ≠ []) (hds : ∀ c ∈ ds, isBasicDigit c)
    (hhead : ds.head? ≠ some '0') {e leading : Int} (hleading : leading = e + ds.length - 1) :
    LaysOut (trimZeros ds) leading (layout ds e) := by
  obtain ⟨j, hj⟩ := exists_zeros ds
  have hne' : trimZeros ds ≠ [] := by
    intro hnil
    rw [hnil, List.nil_append] at hj
    cases j with
    | zero => exact hne hj
    | succ j => exact hhead (hj ▸ rfl)
  have hds' : ∀ c ∈ trimZeros ds, isBasicDigit c := fun c hc =>
    hds c (hj ▸ List.mem_append_left _ hc)
  have hhead' : (trimZeros ds).head? ≠ some '0' := by
    rwa [hj, List.head?_append_of_ne_nil _ hne'] at hhead
  rw [layout_eq ds e leading hleading]
  generalize trimZeros ds = ts at hne' hds' hhead'
  dsimp only
  split_ifs with hrange hsign hfraction
  · have hlen : ts.length ≤ leading.toNat + 1 := by simpa using hfraction
    rw [List.take_of_length_le hlen, List.append_assoc]
    exact laysOut_whole hne' hds' hhead' hlen (by omega)
  · have hlen : leading.toNat + 1 < ts.length := by simpa using hfraction
    rw [List.length_take, Nat.min_eq_left (Nat.le_of_lt hlen), Nat.sub_self, List.replicate_zero,
      List.append_nil, List.append_assoc]
    exact laysOut_point hne' hds' hhead' hlen (by omega) (by omega)
  · exact laysOut_small hne' hds' (by omega)
  · exact laysOut_exponent hne' hds' hhead'

/-- A layout is a numeral of the same value. -/
theorem exists_layout (hne : ds ≠ []) (hds : ∀ c ∈ ds, isBasicDigit c)
    (hhead : ds.head? ≠ some '0') (e : Int) : ∃ (w f : Text) (x : Option Int),
      layout ds e = numeral w f x ∧ AreParts w f x ∧ ∀ s,
        toBinary64 ⟨s, digitsValue (w ++ f), x.getD 0 - f.length⟩ =
          toBinary64 ⟨s, digitsValue ds, e⟩ := by
  obtain ⟨j, hj⟩ := exists_zeros ds
  obtain ⟨w, f, x, n, hlayout, hparts, hvalue, hexponent⟩ := laysOut_layout hne hds hhead rfl
  refine ⟨w, f, x, hlayout, hparts, fun s => ?_⟩
  have hlen := congrArg List.length hj
  rw [List.length_append, List.length_replicate] at hlen
  have hdigits : digitsValue ds = digitsValue (trimZeros ds) * 10 ^ j := by
    conv_lhs => rw [hj, Text.digitsValue_append, Text.digitsValue_zeros, List.length_replicate,
      Nat.add_zero]
  rw [hvalue, hdigits, toBinary64_zeros, toBinary64_zeros]
  congr 2
  omega

/-- A finite number is written as a numeral that reads back. -/
theorem exists_text {u : Nat} (hu : IsSignificand u) (h : u < Binary64.limit) :
    ∃ (w f : Text) (x : Option Int), AreParts w f x ∧
      (∀ s, (Binary64.finite s u).text = (if s then ['-'] else []) ++ numeral w f x) ∧
      ∀ s, toBinary64 ⟨s, digitsValue (w ++ f), x.getD 0 - f.length⟩ = .finite s u := by
  have htext : ∀ s, (Binary64.finite s u).text = (if s then ['-'] else []) ++
      (if u = 0 then ['0', '.', '0']
        else layout (Text.ofNat (shortest u).1) (shortest u).2) := by
    intro s
    cases s <;> rfl
  by_cases hzero : u = 0
  · subst hzero
    refine ⟨['0'], ['0'], none, ?_, htext, fun s => rfl⟩
    have hdigit : ∀ c ∈ ['0'], isBasicDigit c := List.forall_mem_singleton.2 rfl
    exact ⟨by decide, hdigit, hdigit, fun _ => rfl, .inl (by decide)⟩
  · have hback := readsBack_shortest hu (Nat.pos_of_ne_zero hzero) h
    have hhead : (Text.ofNat (shortest u).1).head? ≠ some '0' := by
      intro hhead
      have hdigits := Text.digitsValue_ofNat (shortest u).1
      rw [Text.ofNat_of_head? hhead] at hdigits
      -- the digits of zero read back as zero
      have hnone := toBinary64_of_readsBack hback false
      rw [← hdigits] at hnone
      cases hnone
      exact hzero rfl
    obtain ⟨w, f, x, hlayout, hparts, hvalue⟩ := exists_layout (Text.ofNat_ne_nil _)
      (fun c hc => Text.isBasicDigit_of_mem_ofNat hc) hhead (shortest u).2
    refine ⟨w, f, x, hparts, fun s => ?_, fun s => ?_⟩
    · rw [htext, if_neg hzero, hlayout]
    · rw [hvalue, Text.digitsValue_ofNat]
      exact toBinary64_of_readsBack hback s

end Decimal
end Marginalia
