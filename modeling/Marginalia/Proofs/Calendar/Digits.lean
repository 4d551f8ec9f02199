import Marginalia.Calendar.Reading
import Marginalia.Proofs.Number.Numeral
import Marginalia.Proofs.Text.Strip

/-
Dates are written with digits.  Every notation has a year in it, and a year is four digits; so
a text without digits stands for no moment, unless a final `Z` brings the digits of an offset
with it.
-/
namespace Marginalia

/-- No digit of any script stands in a text. -/
def Text.IsDigitless (t : Text) : Prop := ∀ c ∈ t, isDigit c = false

theorem Text.IsDigitless.of_subset {t t' : Text} (h : t.IsDigitless) (hsub : t' ⊆ t) :
    t'.IsDigitless :=
  fun c hc => h c (hsub hc)

/-! ## The international notation -/

namespace Iso

variable {t : Text}

theorem takeDigits_of_isDigitless (h : t.IsDigitless) {n : Nat} (hn : n ≠ 0) :
    takeDigits n t = none := by
  unfold takeDigits
  dsimp only
  refine if_neg fun hdigits => ?_
  rw [Bool.and_eq_true, decide_eq_true_eq, List.all_eq_true] at hdigits
  obtain ⟨hlength, hall⟩ := hdigits
  obtain ⟨c, hc⟩ := List.exists_mem_of_length_pos (Nat.pos_of_ne_zero (hlength ▸ hn))
  have hdigit := Text.isDigit_of_isBasicDigit (hall c hc)
  rw [h c (List.mem_of_mem_take hc)] at hdigit
  cases hdigit

theorem read?_of_isDigitless (h : t.IsDigitless) : read? t = none := by
  have hdate : ∀ n, date? (t.take n) = none := fun n => by
    rw [date?, takeDigits_of_isDigitless (h.of_subset (List.take_subset n t)) (by decide)]
    rfl
  unfold read?
  dsimp only
  rw [hdate]
  split <;> rfl

end Iso

/-! ## The everyday layouts -/

namespace LayoutItem

/-- What an item stands for is written with digits. -/
def isNumeral : LayoutItem → Bool
  | .literal _ | .gap | .monthName _ => false
  | .year | .month | .day | .hour | .minute | .second => true

end LayoutItem

namespace DateLayout

variable {f f' : Fields} {t t' : Text}

theorem isDigit_of_among {first last c : Char} (hfirst : '0' ≤ first) (hlast : last ≤ '9')
    (h : among first last c) : Text.isDigit c := by
  rw [among, Bool.and_eq_true, decide_eq_true_eq, decide_eq_true_eq] at h
  refine Text.isDigit_of_isBasicDigit ?_
  rw [Text.isBasicDigit, Bool.and_eq_true, decide_eq_true_eq, decide_eq_true_eq]
  exact ⟨Char.le_trans hfirst h.1, Char.le_trans h.2 hlast⟩

/-- A number starts with a digit. -/
theorem number_of_isDigitless (h : t.IsDigitless) {p : Char → Bool}
    (hp : ∀ c, p c → Text.isDigit c) (ps : List (Char → Bool)) : number (p :: ps) t = [] := by
  cases t with
  | nil => rfl
  | cons c rest =>
    have hc : p c = false := by
      rw [← Bool.not_eq_true]
      intro hpc
      have hdigit := hp c hpc
      rw [h c (.head _)] at hdigit
      cases hdigit
    simp [number, hc]

theorem isDigit_of_eq {d : Char} (hd : Text.isDigit d) (c : Char) (h : decide (c = d) = true) :
    Text.isDigit c :=
  of_decide_eq_true h ▸ hd

theorem dayNumbers_of_isDigitless (h : t.IsDigitless) : dayNumbers t = [] := by
  have hamong : ∀ c, among '1' '9' c → Text.isDigit c := fun _ =>
    isDigit_of_among (by decide) (by decide)
  unfold dayNumbers
  rw [number_of_isDigitless h (isDigit_of_eq (by decide)),
    number_of_isDigitless h fun _ => isDigit_of_among (by decide) (by decide),
    number_of_isDigitless h (isDigit_of_eq (by decide)), number_of_isDigitless h hamong]
  split
  · exact number_of_isDigitless (h.of_subset (List.subset_cons_self _ _)) hamong []
  · rfl

theorem minuteNumbers_of_isDigitless (h : t.IsDigitless) : minuteNumbers t = [] := by
  rw [minuteNumbers,
    number_of_isDigitless h fun _ => isDigit_of_among (by decide) (by decide),
    number_of_isDigitless h fun _ => id]
  rfl

/-- The text does not start with what an item of digits stands for. -/
theorem item_of_isDigitless (h : t.IsDigitless) {i : LayoutItem} (hi : i.isNumeral) :
    item f t i = [] := by
  cases i with
  | literal c => cases hi
  | gap => cases hi
  | monthName names => cases hi
  | year =>
    rw [item, yearNumbers, number_of_isDigitless h fun _ => id]
    rfl
  | month =>
    rw [item, monthNumbers, number_of_isDigitless h (isDigit_of_eq (by decide)),
      number_of_isDigitless h (isDigit_of_eq (by decide)),
      number_of_isDigitless h fun _ => isDigit_of_among (by decide) (by decide)]
    rfl
  | day =>
    rw [item, dayNumbers_of_isDigitless h]
    rfl
  | hour =>
    rw [item, hourNumbers, number_of_isDigitless h (isDigit_of_eq (by decide)),
      number_of_isDigitless h fun _ => isDigit_of_among (by decide) (by decide),
      number_of_isDigitless h fun _ => id]
    rfl
  | minute =>
    rw [item, minuteNumbers_of_isDigitless h]
    rfl
  | second =>
    rw [item, secondNumbers, minuteNumbers_of_isDigitless h,
      number_of_isDigitless h (isDigit_of_eq (by decide))]
    rfl

/-- What an item without digits leaves of a text is its end. -/
theorem isSuffix_of_item {i : LayoutItem} (hi : i.isNumeral = false)
    (h : (f', t') ∈ item f t i) : t' <:+ t := by
  cases i with
  | literal c =>
    cases t with
    | nil => cases h
    | cons d rest =>
      rw [item] at h
      split at h
      · cases List.mem_singleton.1 h
        exact List.suffix_cons _ _
      · cases h
  | gap =>
    obtain ⟨rest, hrest, heq⟩ := List.mem_map.1 h
    obtain ⟨n, _, rfl⟩ := List.mem_map.1 hrest
    cases heq
    exact List.drop_suffix _ _
  | monthName names =>
    obtain ⟨⟨n, rest⟩, hrest, heq⟩ := List.mem_map.1 h
    obtain ⟨⟨name, m⟩, _, hname⟩ := List.mem_filterMap.1 hrest
    dsimp only at hname
    split at hname
    · cases hname
      cases heq
      exact List.drop_suffix _ _
    · cases hname
  | year => cases hi
  | month => cases hi
  | day => cases hi
  | hour => cases hi
  | minute => cases hi
  | second => cases hi

theorem first?_of_isDigitless {layout : DateLayout} (h : t.IsDigitless)
    (hlayout : ∃ i ∈ layout, i.isNumeral) : first? layout f t = none := by
  induction layout generalizing f t with
  | nil => obtain ⟨i, hi, _⟩ := hlayout; cases hi
  | cons i rest ih =>
    rw [first?]
    cases hi : i.isNumeral with
    | true =>
      rw [item_of_isDigitless h hi]
      rfl
    | false =>
      have hrest : ∃ i ∈ rest, i.isNumeral := by
        obtain ⟨j, hj, hnumeral⟩ := hlayout
        rcases List.mem_cons.1 hj with rfl | hj
        · cases hi.symm.trans hnumeral
        · exact ⟨j, hj, hnumeral⟩
      rw [List.findSome?_eq_none_iff]
      rintro ⟨f', t'⟩ hmem
      exact ih (h.of_subset (isSuffix_of_item hi hmem).subset) hrest

end DateLayout

/-- A text without digits, which does not end in a `Z`, stands for no moment. -/
theorem Moment.ofText?_of_isDigitless {t : Text} (h : t.IsDigitless) (hzulu : 'Z' ∉ t) :
    ofText? t = none := by
  have hsub : Text.strip t ⊆ t := (Text.strip_infix t).subset
  have hlast : (Text.strip t).getLast? ≠ some 'Z' := fun hlast =>
    hzulu (hsub (List.mem_of_getLast? hlast))
  have hknown : ∀ layout ∈ DateLayout.known, ∃ i ∈ layout, i.isNumeral := by decide
  have hstrip := h.of_subset hsub
  unfold ofText?
  dsimp only
  rw [if_neg hlast, Iso.read?_of_isDigitless hstrip]
  split
  · rfl
  · rw [List.findSome?_eq_none_iff]
    intro layout hlayout
    rw [DateLayout.read?, DateLayout.first?_of_isDigitless hstrip (hknown layout hlayout)]
    rfl

end Marginalia
