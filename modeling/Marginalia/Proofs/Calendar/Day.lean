import Mathlib.Algebra.Order.Ring.Nat
import Marginalia.Calendar.Mask

/-
Moments that are on the calendar.  A count of days from the first one leads to a day of the years
from 1 to 9999 with a month of that year, and whatever a value is read as lies on a day and in a
second of it.
-/
namespace Marginalia
namespace Day

/-! ## Days by their number -/

variable {year month n k : Nat}

/-- The days from the start of a month to the end of the `k`th month behind it. -/
def daysThrough (year : Nat) : Nat → Nat → Nat
  | 0, month => monthLength year month
  | k + 1, month => monthLength year month + daysThrough year k (month + 1)

theorem daysThrough_year (year : Nat) :
    daysThrough year 11 1 = if isLeap year then 366 else 365 := by
  cases hleap : isLeap year <;> simp [daysThrough, monthLength, hleap]

/-- Months are counted off as long as the days reach. -/
theorem monthOf_spec (h : n < daysThrough year k month) :
    month ≤ (monthOf year k month n).1 ∧ (monthOf year k month n).1 ≤ month + k ∧
      1 ≤ (monthOf year k month n).2 ∧
      (monthOf year k month n).2 ≤ monthLength year (monthOf year k month n).1 := by
  induction k generalizing month n with
  | zero => exact ⟨Nat.le_refl _, Nat.le_refl _, Nat.le_add_left 1 n, h⟩
  | succ k ih =>
    rw [daysThrough] at h
    rw [monthOf]
    split
    · exact ⟨Nat.le_refl _, Nat.le_add_right _ _, Nat.le_add_left 1 n, ‹_›⟩
    · have hleft : n - monthLength year month < daysThrough year k (month + 1) := by omega
      have hrest := ih hleft
      exact ⟨by omega, by omega, hrest.2.2⟩

/-- Years by their place in the cycle of four hundred. -/
theorem isLeap_cycle {a b c d : Nat} (hb : b ≤ 3) (hc : c ≤ 24) (hd : d ≤ 3) :
    isLeap (a * 400 + b * 100 + c * 4 + d + 1) = decide (d = 3 ∧ (c ≠ 24 ∨ b = 3)) := by
  rw [Bool.eq_iff_iff]
  simp only [isLeap, Bool.and_eq_true, Bool.or_eq_true, decide_eq_true_eq]
  omega

theorem isValid_ofOrdinal (hpos : 1 ≤ n) (hlast : n ≤ 3652059) : (ofOrdinal n).isValid := by
  -- the days left behind whole cycles, and the years in front of them
  obtain ⟨a, ha⟩ : ∃ a, a = (n - 1) / 146097 := ⟨_, rfl⟩
  obtain ⟨x, hx⟩ : ∃ x, x = (n - 1) % 146097 := ⟨_, rfl⟩
  obtain ⟨b, hb⟩ : ∃ b, b = min (x / 36524) 3 := ⟨_, rfl⟩
  obtain ⟨c, hc⟩ : ∃ c, c = (x - b * 36524) / 1461 := ⟨_, rfl⟩
  obtain ⟨y, hy⟩ : ∃ y, y = (x - b * 36524) % 1461 := ⟨_, rfl⟩
  obtain ⟨d, hd⟩ : ∃ d, d = min (y / 365) 3 := ⟨_, rfl⟩
  obtain ⟨year, hyear⟩ : ∃ year, year = a * 400 + b * 100 + c * 4 + d + 1 := ⟨_, rfl⟩
  have hleap := isLeap_cycle (a := a) (b := b) (c := c) (d := d) (by omega) (by omega) (by omega)
  have hdays : y - d * 365 < daysThrough year 11 1 := by
    rw [daysThrough_year, hyear, hleap]
    split <;> rename_i hlong <;> rw [decide_eq_true_eq] at hlong <;> omega
  obtain ⟨hmonth, hmonth', hday, hday'⟩ := monthOf_spec hdays
  have hday'' : ofOrdinal n = ⟨year, (monthOf year 11 1 (y - d * 365)).1,
      (monthOf year 11 1 (y - d * 365)).2⟩ := by
    rw [hyear, hd, hy, hc, hb, hx, ha]
    rfl
  have hrange : 1 ≤ year ∧ year ≤ maxYear := by
    unfold maxYear
    omega
  rw [hday'']
  simp only [isValid, Bool.and_eq_true, decide_eq_true_eq]
  exact ⟨⟨⟨⟨hrange, hmonth⟩, hmonth'⟩, hday⟩, hday'⟩

theorem bounds_of_isValid {d : Day} (h : d.isValid) :
    d.year < 10 ^ 4 ∧ (1 ≤ d.month ∧ d.month ≤ 12) ∧ 1 ≤ d.day ∧ d.day ≤ 31 := by
  have hlength : monthLength d.year d.month ≤ 31 := by
    unfold monthLength
    split
    · split <;> decide
    · split <;> decide
  have hmax : maxYear = 9999 := rfl
  simp only [isValid, Bool.and_eq_true, decide_eq_true_eq] at h
  omega

end Day

/-! ## Moments on the calendar -/

namespace Moment

variable {m : Moment} {t : Text}

/-- A moment to the second, and without an offset: all of it that a pattern can show. -/
def toSecond (m : Moment) : Moment := { m with micro := 0, offset := none }

theorem text_toSecond (m : Moment) (f : DateField) : f.text m.toSecond = f.text m := by
  cases f <;> rfl

theorem render_toSecond (m : Moment) (mask : DateMask) :
    mask.render m.toSecond = mask.render m := by
  unfold DateMask.render
  simp only [text_toSecond]

theorem format_toSecond (m : Moment) (p : Option Text) : m.toSecond.format p = m.format p := by
  have hshort : m.toSecond.shortDate = m.shortDate := rfl
  have hlocal : m.toSecond.localDate = m.localDate := rfl
  have hnote : m.toSecond.dailyNote = m.dailyNote := rfl
  unfold format
  simp only [hshort, hlocal, hnote, render_toSecond]

theorem isValid_toSecond_iff : m.toSecond.isValid ↔
    m.day.isValid ∧ m.hour < 24 ∧ m.minute < 60 ∧ m.second < 60 := by
  have hmicro : 0 < microsPerSecond := by decide
  show (m.day.isValid && decide (m.hour < 24) && decide (m.minute < 60) && decide (m.second < 60) &&
    decide (0 < microsPerSecond) && true) = true ↔ _
  simp only [hmicro, Bool.and_eq_true, decide_eq_true_eq, and_true, and_assoc]

theorem isValid_toSecond (h : m.isValid) : m.toSecond.isValid := by
  rw [isValid_toSecond_iff]
  simp only [isValid, Bool.and_eq_true, decide_eq_true_eq] at h
  exact ⟨h.1.1.1.1.1, h.1.1.1.1.2, h.1.1.1.2, h.1.1.2⟩

theorem isValid_ofSeconds? {seconds : Int} {micro : Nat} (h : ofSeconds? seconds micro = some m) :
    m.toSecond.isValid := by
  unfold ofSeconds? at h
  split at h
  · cases h
  · rename_i hrange
    rw [Bool.or_eq_true, decide_eq_true_eq, decide_eq_true_eq] at hrange
    dsimp only at h
    obtain ⟨n, hn⟩ : ∃ n, n = (seconds + (epochDay : Int) * 86400).toNat := ⟨_, rfl⟩
    have hday : 1 ≤ n / 86400 ∧ n / 86400 ≤ 3652059 := by
      unfold epochDay at hn
      omega
    have hhour : n % 86400 / 3600 < 24 := by omega
    have hminute : n % 86400 / 60 % 60 < 60 := by omega
    have hsecond : n % 86400 % 60 < 60 := by omega
    rw [← hn] at h
    cases h
    exact isValid_toSecond_iff.2
      ⟨Day.isValid_ofOrdinal hday.1 hday.2, hhour, hminute, hsecond⟩

/-- A number that is taken apart is a finite one.  (It stays a variable here: with units in its
place, their products would be computed.) -/
theorem exists_of_finite {f : Bool → Nat → Option Moment} {x : Binary64}
    (h : (match x with
      | .finite s u => f s u
      | _ => none) = some m) : ∃ s u, f s u = some m := by
  cases x with
  | nan => cases h
  | infinity s => cases h
  | finite s u => exact ⟨s, u, h⟩

theorem isValid_ofFloat? {x : Binary64} (h : ofFloat? x = some m) : m.toSecond.isValid := by
  unfold ofFloat? at h
  obtain ⟨s, u, h⟩ := exists_of_finite h
  dsimp only at h
  generalize Binary64.round? _ = micros at h
  generalize Binary64.signedUnits _ _ = whole at h
  cases micros with
  | none => cases h
  | some micros =>
    dsimp only at h
    split at h
    · exact isValid_ofSeconds? h
    · split at h <;> exact isValid_ofSeconds? h

theorem isValid_read?_iso (h : Iso.read? t = some m) : m.isValid := by
  unfold Iso.read? at h
  split at h
  · cases h
  · obtain ⟨day, _, h⟩ := Option.bind_eq_some_iff.1 h
    have hchecked : ∃ p : Iso.Fields × Option Int,
        (let m : Moment := ⟨day, p.1.hour, p.1.minute, p.1.second, p.1.micro, p.2⟩
        if m.isValid then some m else none) = some m := by
      dsimp only at h
      split at h
      · exact ⟨_, h⟩
      · obtain ⟨p, _, h⟩ := Option.bind_eq_some_iff.1 h
        exact ⟨p, h⟩
    obtain ⟨p, h⟩ := hchecked
    dsimp only at h
    split at h
    · cases h
      assumption
    · cases h

theorem isValid_read?_layout {layout : DateLayout} (h : layout.read? t = some m) :
    m.isValid := by
  unfold DateLayout.read? at h
  simp only [Option.bind_eq_bind, Option.bind_eq_some_iff] at h
  obtain ⟨⟨f, rest⟩, _, h⟩ := h
  split at h
  · rename_i hvalid
    cases h
    exact (Bool.and_eq_true_iff.1 hvalid).2
  · cases h

/-- What a text is read as is checked to be a moment. -/
theorem isValid_ofText? (h : ofText? t = some m) : m.isValid := by
  unfold ofText? at h
  dsimp only at h
  split at h
  · cases h
  · split at h
    · rename_i hread
      cases h
      exact isValid_read?_iso hread
    · obtain ⟨layout, _, hread⟩ := List.exists_of_findSome?_eq_some h
      exact isValid_read?_layout hread

/-- What a value is read as is on the calendar. -/
theorem isValid_ofValue? {v : Value} (hv : ∀ m, v = .moment m → m.isValid)
    (h : ofValue? v = .ok (some m)) : m.toSecond.isValid := by
  unfold ofValue? at h
  split at h
  · cases h
  · cases h
  · cases h
    exact isValid_toSecond (hv m rfl)
  · exact isValid_ofSeconds? (Except.ok.inj h)
  · exact isValid_ofFloat? (Except.ok.inj h)
  · cases hshown : v.shown with
    | error e =>
      rw [hshown] at h
      cases h
    | ok t =>
      rw [hshown] at h
      exact isValid_toSecond (isValid_ofText? (Except.ok.inj h))

end Moment
end Marginalia
