import Mathlib.Data.List.Chain
import Marginalia.Proofs.Ensures
import Marginalia.Sorting.Search

/-
Where a search ends.  A test need not be consistent, so nothing is known of the
items in the middle of either part.  The last item before the place has been
tested and passes, the first one behind it has been tested and fails.
-/
namespace Marginalia
namespace Sorting

variable {α ε : Type} {E : ε → Prop}

theorem negated_eq_ok {test : α → Except ε Bool} {y : α} {b : Bool} :
    negated test y = .ok b ↔ test y = .ok (!b) := by
  unfold negated
  cases h : test y with
  | error e => exact ⟨nofun, nofun⟩
  | ok c =>
    show Except.ok (!c) = Except.ok b ↔ Except.ok c = Except.ok (!b)
    cases b <;> cases c <;> simp

theorem negated_eq_error {test : α → Except ε Bool} {y : α} {e : ε} :
    negated test y = .error e ↔ test y = .error e := by
  unfold negated
  cases h : test y with
  | error f => exact Iff.rfl
  | ok c => exact ⟨nofun, nofun⟩

/-- The two sides of a place, with the tests of the items next to it. -/
structure Parts (test : α → Except ε Bool) (before after : List α) : Prop where
  passes : ∀ y ∈ before.getLast?, test y = .ok true
  fails : ∀ y ∈ after.head?, test y = .ok false

/-- A count of items that go before a place. -/
def IsPlace (test : α → Except ε Bool) (xs : List α) (n : Nat) : Prop :=
  ∃ before after, xs = before ++ after ∧ n = before.length ∧ Parts test before after

namespace IsPlace

variable {test : α → Except ε Bool}

theorem nil : IsPlace test [] 0 := ⟨[], [], rfl, rfl, by simp, by simp⟩

theorem of_passes (xs : List α) {ys : List α} {y : α} {n : Nat} (hy : test y = .ok true)
    (h : IsPlace test ys n) : IsPlace test (xs ++ y :: ys) (xs.length + 1 + n) := by
  obtain ⟨before, after, rfl, rfl, hp⟩ := h
  refine ⟨xs ++ y :: before, after, by simp, by simp; omega, ?_, hp.fails⟩
  cases hb : before.getLast? with
  | none =>
    have : before = [] := List.getLast?_eq_none_iff.1 hb
    simpa [this] using hy
  | some z =>
    have := hp.passes
    simp_all [List.getLast?_append, List.getLast?_cons]

theorem of_fails {xs : List α} (ys : List α) {y : α} {n : Nat} (hy : test y = .ok false)
    (h : IsPlace test xs n) : IsPlace test (xs ++ y :: ys) n := by
  obtain ⟨before, after, rfl, rfl, hp⟩ := h
  refine ⟨before, after ++ y :: ys, by simp, rfl, hp.passes, ?_⟩
  cases after with
  | nil => simpa using hy
  | cons z zs => simpa using hp.fails

/-- The place from the other end, for the opposite test. -/
theorem reversed {xs : List α} {n : Nat} (h : IsPlace (negated test) xs.reverse n) :
    IsPlace test xs (xs.length - n) := by
  obtain ⟨before, after, hx, rfl, hp⟩ := h
  have hxs : xs = after.reverse ++ before.reverse := by
    rw [← List.reverse_append, ← hx, List.reverse_reverse]
  refine ⟨after.reverse, before.reverse, hxs, by simp [hxs], ?_, ?_⟩
  · intro y hy
    exact negated_eq_ok.1 (hp.fails y (by simpa using hy))
  · intro y hy
    exact negated_eq_ok.1 (hp.passes y (by simpa using hy))

end IsPlace

/-- A search that finds a place, and fails only with an error of a test. -/
def Finds (search : (α → Except ε Bool) → List α → Except ε Nat) : Prop :=
  ∀ {E : ε → Prop} {test : α → Except ε Bool} {xs : List α},
    (∀ y ∈ xs, ∀ e, test y = .error e → E e) → Ensures E (IsPlace test xs) (search test xs)

/-- Test one item and search the side of it that its answer points to. -/
theorem ensures_testing {test : α → Except ε Bool} {xs above : List α} {y : α} {k : Nat}
    {upper lower : Except ε Nat} (h : xs.drop k = y :: above)
    (hE : ∀ e, test y = .error e → E e) (hupper : Ensures E (IsPlace test above) upper)
    (hlower : Ensures E (IsPlace test (xs.take k)) lower) :
    Ensures E (IsPlace test xs) (do
      if ← test y then return k + 1 + (← upper)
      else lower) := by
  have hxs : xs.take k ++ y :: above = xs := by rw [← h, List.take_append_drop]
  have hlen : (xs.take k).length = k := by
    have := congrArg List.length h
    simp only [List.length_drop, List.length_cons] at this
    simp only [List.length_take]
    omega
  refine Ensures.bind (Ensures.self hE) fun b hb => ?_
  cases b with
  | true =>
    refine Ensures.bind hupper fun n hn => ?_
    have hplace := IsPlace.of_passes (xs.take k) hb hn
    rw [hlen, hxs] at hplace
    exact hplace
  | false =>
    refine Ensures.mono hlower fun n hn => ?_
    have hplace := IsPlace.of_fails above hb hn
    rw [hxs] at hplace
    exact hplace

theorem mem_of_drop_eq {xs above : List α} {y : α} {k : Nat} (h : xs.drop k = y :: above) :
    y ∈ xs ∧ ∀ z ∈ above, z ∈ xs := by
  have hsub : ∀ z ∈ y :: above, z ∈ xs := fun z hz => List.mem_of_mem_drop (h ▸ hz)
  exact ⟨hsub y (by simp), fun z hz => hsub z (by simp [hz])⟩

theorem finds_halve : Finds (α := α) (ε := ε) halve := by
  intro E test xs hE
  fun_induction halve test xs with
  | case1 xs mid h =>
    have hlen := congrArg List.length h
    simp only [List.length_drop, List.length_nil] at hlen
    have hxs : xs = [] := List.eq_nil_of_length_eq_zero (by omega)
    subst hxs
    exact IsPlace.nil
  | case2 xs mid y above h ihAbove ihBelow =>
    have hmem := mem_of_drop_eq h
    exact ensures_testing h (hE y hmem.1)
      (ihAbove fun z hz => hE z (hmem.2 z hz))
      (ihBelow fun z hz => hE z (List.mem_of_mem_take hz))

theorem finds_halveReversed : Finds (α := α) (ε := ε) halveReversed := by
  intro E test xs hE
  have hnegated : ∀ y ∈ xs.reverse, ∀ e, negated test y = .error e → E e := by
    intro y hy e he
    exact hE y (by simpa using hy) e (negated_eq_error.1 he)
  exact Ensures.bind (finds_halve hnegated) fun n hn => hn.reversed

theorem finds_leap {narrow : Narrowing α ε} (hnarrow : Finds narrow) (width : Nat) :
    Finds (α := α) (ε := ε) fun test xs => leap narrow test width xs := by
  intro E test xs hE
  show Ensures E (IsPlace test xs) (leap narrow test width xs)
  fun_induction leap narrow test width xs with
  | case1 width xs h => exact hnarrow hE
  | case2 width xs y above h ih =>
    have hmem := mem_of_drop_eq h
    exact ensures_testing h (hE y hmem.1)
      (ih fun z hz => hE z (hmem.2 z hz))
      (hnarrow fun z hz => hE z (List.mem_of_mem_take hz))

theorem finds_gallop {narrow : Narrowing α ε} (hnarrow : Finds narrow) :
    Finds (α := α) (ε := ε) (gallop narrow) := by
  intro E test xs hE
  cases xs with
  | nil => exact IsPlace.nil
  | cons y rest =>
    have hdrop : (y :: rest).drop 0 = y :: rest := rfl
    have hrest := finds_leap hnarrow 0 fun z hz => hE z (List.mem_cons_of_mem y hz)
    exact ensures_testing hdrop (hE y (by simp)) hrest IsPlace.nil

end Sorting
end Marginalia
