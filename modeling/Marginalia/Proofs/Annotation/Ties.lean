import Mathlib.Data.List.Basic
import Marginalia.Proofs.Annotation.Order

/-
Annotations that compare alike.  Comparing the other way round gives the opposite
answer, but being alike is not transitive: where the time of one annotation cannot be
compared with the times of two others, it is alike to both, whatever the order of
those two.  That is the only way in which two steps up can fail to make one.
-/
namespace Marginalia

open Std

namespace Moment

theorem compare?_isLE_trans {m n k : Moment} {o o' : Ordering} (hmn : m.compare? n = some o)
    (hnk : n.compare? k = some o') (ho : o.isLE) (ho' : o'.isLE) :
    ∃ o'', m.compare? k = some o'' ∧ o''.isLE := by
  unfold compare? at *
  cases hm : m.offset <;> cases hn : n.offset <;> cases hk : k.offset <;>
    simp only [hm, hn, hk, Option.some.injEq, reduceCtorEq] at *
  · subst hmn hnk
    exact ⟨_, rfl, TransCmp.isLE_trans ho ho'⟩
  · subst hmn hnk
    exact ⟨_, rfl, TransCmp.isLE_trans ho ho'⟩

/-- A moment that can be compared with one of two comparable moments can be compared
with the other. -/
theorem exists_compare? {m n k : Moment} {o o' : Ordering} (hmk : m.compare? k = some o)
    (hmn : m.compare? n = some o') : ∃ o'', n.compare? k = some o'' := by
  unfold compare? at *
  cases hm : m.offset <;> cases hn : n.offset <;> cases hk : k.offset <;> simp_all

/-- The first of two times is the later one, and a time in between, if there is one,
cannot be compared with it. -/
def Skips (s t u : Option Moment) : Prop :=
  ∃ m k, s = some m ∧ u = some k ∧ m.compare? k = some .gt ∧ ∀ n, t = some n → m.compare? n = none

end Moment

namespace Annotation

open Moment (Skips)

theorem timeOrder_eq_gt {s t : Option Moment} (h : timeOrder s t = .gt) :
    ∃ m n, s = some m ∧ t = some n ∧ m.compare? n = some .gt := by
  have hlt : timeOrder t s = .lt := by
    rw [timeOrder_swap s t, h]
    rfl
  obtain ⟨n, m, rfl, rfl, hnm⟩ := timeOrder_eq_lt hlt
  refine ⟨m, n, rfl, rfl, ?_⟩
  rw [Moment.compare?_swap n m, hnm]
  rfl

/-- Two steps up in time make one, unless the middle time is skipped. -/
theorem timeOrder_isLE_iff {s t u : Option Moment} (hst : (timeOrder s t).isLE)
    (htu : (timeOrder t u).isLE) : (timeOrder s u).isLE ↔ ¬ Skips s t u := by
  constructor
  · rintro hsu ⟨m, k, rfl, rfl, hmk, _⟩
    simp [timeOrder, hmk] at hsu
  · intro hskips
    cases hsu : timeOrder s u with
    | lt => rfl
    | eq => rfl
    | gt =>
      obtain ⟨m, k, rfl, rfl, hmk⟩ := timeOrder_eq_gt hsu
      refine absurd ⟨m, k, rfl, rfl, hmk, ?_⟩ hskips
      rintro n rfl
      cases ho : m.compare? n with
      | none => rfl
      | some o =>
        -- all three can be compared, and then the steps do make one
        obtain ⟨o', ho'⟩ := Moment.exists_compare? hmk ho
        obtain ⟨o'', ho'', hle⟩ := Moment.compare?_isLE_trans ho ho'
          (by simpa [timeOrder, ho] using hst) (by simpa [timeOrder, ho'] using htu)
        rw [hmk] at ho''
        cases ho''
        cases hle

variable {a b c : Annotation} {o o' : Ordering}

/-- An annotation stands on one page and one place with two others, the first of which
is the later one, and its own time says nothing about them. -/
structure PassedOver (b a c : Annotation) : Prop where
  pages : a.pageno = b.pageno ∧ b.pageno = c.pageno
  places : comparePlaces a b = .ok .eq ∧ comparePlaces b c = .ok .eq
  times : ∃ s t u, Moment.ofValue? a.datetime = .ok s ∧ Moment.ofValue? b.datetime = .ok t ∧
    Moment.ofValue? c.datetime = .ok u ∧ Skips s t u

/-- On one page, not after means an earlier place, or no later time on the same
place. -/
theorem places_of_compare (hpage : a.pageno = b.pageno) (h : compare a b = .ok o)
    (ho : o.isLE) :
    (comparePlaces a b = .ok .lt ∧ o = .lt) ∨
      (comparePlaces a b = .ok .eq ∧ compareTimes a b = .ok o) := by
  rcases compare_eq_ok.1 h with ⟨hne, _⟩ | ⟨_, hne, hplaces⟩ | ⟨_, hplaces, htimes⟩
  · exact absurd hpage hne
  · cases o with
    | lt => exact .inl ⟨hplaces, rfl⟩
    | eq => exact absurd rfl hne
    | gt => cases ho
  · exact .inr ⟨hplaces, htimes⟩

theorem compare_of_places_lt (hpage : a.pageno = b.pageno)
    (hplaces : comparePlaces a b = .ok .lt) : compare a b = .ok .lt :=
  compare_eq_ok.2 (.inr (.inl ⟨hpage, nofun, hplaces⟩))

theorem comparePlaces_of_passedOver (h : PassedOver b a c) :
    comparePlaces a c = .ok .eq :=
  comparePlaces_trans h.places.1 h.places.2 rfl rfl

/-- Two steps up that are not both on one place. -/
theorem isLE_iff_of_places_lt (hpage : a.pageno = c.pageno)
    (hplaces : comparePlaces a c = .ok .lt) :
    ∃ o, compare a c = .ok o ∧ (o.isLE ↔ ¬ PassedOver b a c) := by
  refine ⟨.lt, compare_of_places_lt hpage hplaces, iff_of_true rfl fun h => ?_⟩
  rw [comparePlaces_of_passedOver h] at hplaces
  cases hplaces

/-- Two steps up on one place. -/
theorem isLE_iff_of_times (hpages : a.pageno = b.pageno ∧ b.pageno = c.pageno)
    (hplaces : comparePlaces a b = .ok .eq ∧ comparePlaces b c = .ok .eq)
    (hab : compareTimes a b = .ok o) (hbc : compareTimes b c = .ok o') (ho : o.isLE)
    (ho' : o'.isLE) : ∃ o'', compare a c = .ok o'' ∧ (o''.isLE ↔ ¬ PassedOver b a c) := by
  obtain ⟨s, t, hs, ht, rfl⟩ := compareTimes_eq_ok.1 hab
  obtain ⟨t', u, ht', hu, rfl⟩ := compareTimes_eq_ok.1 hbc
  rw [ht] at ht'
  cases ht'
  have hac : compare a c = .ok (timeOrder s u) :=
    compare_eq_ok.2 (.inr (.inr ⟨hpages.1.trans hpages.2,
      comparePlaces_trans hplaces.1 hplaces.2 rfl rfl, compareTimes_eq_ok.2 ⟨s, u, hs, hu, rfl⟩⟩))
  refine ⟨_, hac, (timeOrder_isLE_iff ho ho').trans (not_congr ⟨fun h => ?_, fun h => ?_⟩)⟩
  · exact ⟨hpages, hplaces, s, t, u, hs, ht, hu, h⟩
  · obtain ⟨s', t', u', hs', ht', hu', h⟩ := h.times
    rw [hs] at hs'
    rw [ht] at ht'
    rw [hu] at hu'
    cases hs'
    cases ht'
    cases hu'
    exact h

/-- Comparing two annotations the other way round gives the opposite answer, and two
steps that do not go down make one, except over an annotation that is passed over. -/
theorem compare_consistent (hab : compare a b = .ok o) (hbc : compare b c = .ok o') :
    compare b a = .ok o.swap ∧
      (o.isLE → o'.isLE →
        ∃ o'', compare a c = .ok o'' ∧ (o''.isLE ↔ ¬ PassedOver b a c)) := by
  refine ⟨compare_swap hab, fun ho ho' => ?_⟩
  have hle := pageno_le_of_compare hab (by rintro rfl; cases ho)
  have hle' := pageno_le_of_compare hbc (by rintro rfl; cases ho')
  by_cases hac : a.pageno = c.pageno
  · have hpages : a.pageno = b.pageno ∧ b.pageno = c.pageno := by omega
    rcases places_of_compare hpages.1 hab ho with ⟨hp, _⟩ | ⟨hp, ht⟩
    · refine isLE_iff_of_places_lt hac ?_
      rcases places_of_compare hpages.2 hbc ho' with ⟨hp', _⟩ | ⟨hp', _⟩
      · exact comparePlaces_trans hp hp' rfl rfl
      · exact comparePlaces_trans hp hp' rfl rfl
    · rcases places_of_compare hpages.2 hbc ho' with ⟨hp', _⟩ | ⟨hp', ht'⟩
      · exact isLE_iff_of_places_lt hac (comparePlaces_trans hp hp' rfl rfl)
      · exact isLE_iff_of_times hpages ⟨hp, hp'⟩ ht ht' ho ho'
  · refine ⟨.lt, compare_eq_ok.2 (.inl ⟨hac, (Std.compare_eq_lt.2 (by omega)).symm⟩), ?_⟩
    exact iff_of_true rfl fun h => hac (h.pages.1.trans h.pages.2)

/-- A highlight on the first page, without a position. -/
def onFirstPage (datetime : Value) : Annotation := { pageno := 1, datetime }

def newYear : Annotation := onFirstPage (.text "2024-01-01 10:00:00".toList)

def dayAfter : Annotation := onFirstPage (.text "2024-01-02 10:00:00".toList)

def undated : Annotation := onFirstPage .null

/-- A highlight without a date is alike to every other on its place. -/
theorem compare_consistent_undated :
    (compare dayAfter undated = .ok .eq ∧ compare undated newYear = .ok .eq) ∧
      compare undated dayAfter = .ok .eq ∧
      ∃ o, compare dayAfter newYear = .ok o ∧ (o.isLE ↔ ¬ PassedOver undated dayAfter newYear) := by
  have hab : compare dayAfter undated = .ok .eq := by decide +kernel
  have hbc : compare undated newYear = .ok .eq := by decide +kernel
  obtain ⟨hswap, htrans⟩ := compare_consistent hab hbc
  exact ⟨⟨hab, hbc⟩, hswap, htrans rfl rfl⟩

/-- Two steps that do not go down may go down together. -/
theorem compare_not_transitive :
    ¬ ∀ (a b c : Annotation) (o o' o'' : Ordering), compare a b = .ok o →
      compare b c = .ok o' → compare a c = .ok o'' → o.isLE → o'.isLE → o''.isLE := by
  intro h
  have hab : compare dayAfter undated = .ok .eq := by decide +kernel
  have hbc : compare undated newYear = .ok .eq := by decide +kernel
  have hac : compare dayAfter newYear = .ok .gt := by decide +kernel
  have hle := h dayAfter undated newYear .eq .eq .gt hab hbc hac rfl rfl
  cases hle

end Annotation
end Marginalia
