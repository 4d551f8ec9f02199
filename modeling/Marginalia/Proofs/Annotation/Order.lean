import Marginalia.Annotation.Order
import Marginalia.Proofs.Ensures

/-
The order of annotations as an order.  Positions have a total order of their own,
by the numbers in the node, its text, and the offset; comparing two positions
gives that order whenever it gives anything.  Times do not: one with a known
offset and one without are alike, whatever else is known of them.
-/
namespace Marginalia

open Std

/-! ## Texts and lists of numbers -/

theorem Text.compare_eq (s t : Text) :
    Text.compare s t = Ord.compare (s.map Char.toNat) (t.map Char.toNat) := by
  induction s generalizing t with
  | nil => cases t <;> rfl
  | cons a s ih =>
    cases t with
    | nil => rfl
    | cons b t =>
      simp only [Text.compare, ih, List.map_cons]
      exact List.compareLex_cons_cons.symm

/-- The first difference, and then the length, order lists by their beginnings. -/
theorem firstDifference_then (ms ns : List Nat) :
    (firstDifference ms ns).then (Ord.compare ms.length ns.length) = Ord.compare ms ns := by
  induction ms generalizing ns with
  | nil => cases ns <;> rfl
  | cons m ms ih =>
    cases ns with
    | nil => rfl
    | cons n ns =>
      have hlen : Ord.compare (ms.length + 1) (ns.length + 1) =
          Ord.compare ms.length ns.length := by
        simp [Nat.compare_eq_ite_lt]
      simp only [firstDifference, List.length_cons, hlen, Ordering.then_assoc, ih]
      exact List.compareLex_cons_cons.symm

theorem then_of_ne_eq {o : Ordering} (next : Ordering) (h : o ≠ .eq) : o.then next = o := by
  cases o
  · rfl
  · exact absurd rfl h
  · rfl

namespace Position

/-- The numbers in a node, read without a limit on their length. -/
def numbers (p : Position) : List Nat := (digitRuns p.node).map Text.digitsValue

def codes (p : Position) : List Nat := p.node.map Char.toNat

/-- The order of positions, whether or not they can be compared. -/
def order : Position → Position → Ordering :=
  compareLex (compareOn numbers) (compareLex (compareOn codes) (compareOn offset))

instance : TransCmp order := inferInstanceAs (TransCmp (compareLex _ _))

theorem node_eq_of_codes {p q : Position} (h : p.codes = q.codes) : p.node = q.node :=
  (List.map_inj_right fun _ _ => Char.toNat_inj.1).1 h

instance : LawfulEqCmp order where
  eq_of_compare := by
    intro p q h
    simp only [order, compareLex_eq_eq, compareOn] at h
    obtain ⟨_, hcodes, hoffset⟩ := h
    have hnode := node_eq_of_codes (LawfulEqOrd.eq_of_compare hcodes)
    cases p
    cases q
    simp_all

/-- The numbers in the node are short enough to be read. -/
def IsReadable (p : Position) : Prop :=
  ∀ ds ∈ digitRuns p.node, ds.length ≤ Text.maxNumeralDigits

/-- What two positions need in order to be compared. -/
def AreComparable (p q : Position) : Prop := p.node = q.node ∨ p.IsReadable ∧ q.IsReadable

theorem runValues_eq_ok {runs : List Text} {ns : List Nat} :
    runValues runs = .ok ns ↔
      (∀ ds ∈ runs, ds.length ≤ Text.maxNumeralDigits) ∧ ns = runs.map Text.digitsValue := by
  induction runs generalizing ns with
  | nil => simp [runValues, eq_comm]
  | cons ds rest ih =>
    unfold runValues
    split
    · simp only [reduceCtorEq, List.mem_cons, forall_eq_or_imp, false_iff]
      omega
    · rename_i hlen
      have hlen : ds.length ≤ Text.maxNumeralDigits := by omega
      simp only [List.mem_cons, forall_eq_or_imp, hlen, true_and, List.map_cons]
      cases hr : runValues rest with
      | error e =>
        refine ⟨nofun, fun h => ?_⟩
        have := ih.2 ⟨h.1, rfl⟩
        rw [hr] at this
        cases this
      | ok ms =>
        obtain ⟨hall, rfl⟩ := ih.1 hr
        show Except.ok _ = Except.ok ns ↔ _
        rw [Except.ok.injEq, eq_comm]
        exact ⟨fun h => ⟨hall, h⟩, fun h => h.2⟩

theorem compareNodes_eq_ok {p q : Position} {o : Ordering} :
    compareNodes p.node q.node = .ok o ↔
      (p.IsReadable ∧ q.IsReadable) ∧
        o = (Ord.compare p.numbers q.numbers).then (Ord.compare p.codes q.codes) := by
  unfold compareNodes
  constructor
  · intro h
    obtain ⟨ms, hms, h⟩ := exists_of_bind_eq_ok h
    obtain ⟨ns, hns, h⟩ := exists_of_bind_eq_ok h
    obtain ⟨hp, rfl⟩ := runValues_eq_ok.1 hms
    obtain ⟨hq, rfl⟩ := runValues_eq_ok.1 hns
    cases h
    rw [firstDifference_then, Text.compare_eq]
    exact ⟨⟨hp, hq⟩, rfl⟩
  · rintro ⟨⟨hp, hq⟩, rfl⟩
    have hms : nodeNumbers p.node = .ok p.numbers := runValues_eq_ok.2 ⟨hp, rfl⟩
    have hns : nodeNumbers q.node = .ok q.numbers := runValues_eq_ok.2 ⟨hq, rfl⟩
    rw [hms, hns]
    show Except.ok _ = _
    rw [firstDifference_then, Text.compare_eq]
    rfl

/-- Comparing two positions gives their order, when it gives anything. -/
theorem compare_eq_ok {p q : Position} {o : Ordering} :
    compare p q = .ok o ↔ AreComparable p q ∧ o = order p q := by
  unfold compare AreComparable
  by_cases hnode : p.node = q.node
  · have hnumbers : p.numbers = q.numbers := by rw [numbers, numbers, hnode]
    have hcodes : p.codes = q.codes := by rw [codes, codes, hnode]
    simp only [hnode, if_true, true_or, true_and, Except.ok.injEq, order, compareLex, compareOn,
      hnumbers, hcodes, ReflOrd.compare_self, Ordering.eq_then]
    exact eq_comm
  · have hcodes : Ord.compare p.codes q.codes ≠ .eq :=
      fun h => hnode (node_eq_of_codes (LawfulEqOrd.eq_of_compare h))
    simp only [hnode, if_false, false_or, compareNodes_eq_ok, order, compareLex, compareOn]
    refine and_congr_right fun _ => ?_
    rw [← Ordering.then_assoc, then_of_ne_eq _ fun h => hcodes (Ordering.then_eq_eq.1 h).2]

theorem AreComparable.symm {p q : Position} (h : AreComparable p q) : AreComparable q p :=
  h.imp Eq.symm And.symm

theorem AreComparable.trans {p q r : Position} (hpq : AreComparable p q)
    (hqr : AreComparable q r) : AreComparable p r := by
  have hreadable : ∀ {s t : Position}, s.node = t.node → s.IsReadable → t.IsReadable := by
    intro s t h hs ds hds
    exact hs ds (h ▸ hds)
  rcases hpq with hpq | ⟨hp, hq⟩
  · rcases hqr with hqr | ⟨hq, hr⟩
    · exact .inl (hpq.trans hqr)
    · exact .inr ⟨hreadable hpq.symm hq, hr⟩
  · rcases hqr with hqr | ⟨_, hr⟩
    · exact .inr ⟨hp, hreadable hqr hq⟩
    · exact .inr ⟨hp, hr⟩

end Position

namespace Annotation

/-! ## Places -/

/-- The order of places; a place that is known comes first. -/
def placeOrder : Option Position → Option Position → Ordering
  | some p, some q => p.order q
  | some _, none => .lt
  | none, some _ => .gt
  | none, none => .eq

instance : TransCmp placeOrder where
  eq_swap := by
    intro p q
    cases p <;> cases q <;> simp [placeOrder, ← OrientedCmp.eq_swap]
  isLE_trans := by
    intro p q r hpq hqr
    cases p <;> cases q <;> cases r <;> simp_all [placeOrder]
    exact TransCmp.isLE_trans hpq hqr

instance : LawfulEqCmp placeOrder where
  eq_of_compare := by
    intro p q h
    cases p <;> cases q <;> simp_all [placeOrder]

/-- What two places need in order to be compared. -/
def PlacesComparable (p q : Option Position) : Prop :=
  ∀ x ∈ p, ∀ y ∈ q, Position.AreComparable x y

theorem comparePlaces_eq_ok {a b : Annotation} {o : Ordering} :
    comparePlaces a b = .ok o ↔
      ∃ p q, Position.ofValue? a.pos0 = .ok p ∧ Position.ofValue? b.pos0 = .ok q ∧
        PlacesComparable p q ∧ o = placeOrder p q := by
  unfold comparePlaces
  constructor
  · intro h
    obtain ⟨p, hp, h⟩ := exists_of_bind_eq_ok h
    obtain ⟨q, hq, h⟩ := exists_of_bind_eq_ok h
    refine ⟨p, q, hp, hq, ?_⟩
    rcases p with _ | p <;> rcases q with _ | q
    · cases h
      exact ⟨nofun, rfl⟩
    · cases h
      exact ⟨nofun, rfl⟩
    · cases h
      exact ⟨by simp [PlacesComparable], rfl⟩
    · obtain ⟨hpq, ho⟩ := Position.compare_eq_ok.1 h
      exact ⟨by simpa [PlacesComparable] using hpq, ho⟩
  · rintro ⟨p, q, hp, hq, hpq, rfl⟩
    rw [hp, hq]
    rcases p with _ | p <;> rcases q with _ | q
    · rfl
    · rfl
    · rfl
    · exact Position.compare_eq_ok.2 ⟨hpq p rfl q rfl, rfl⟩

theorem comparePlaces_swap {a b : Annotation} {o : Ordering} (h : comparePlaces a b = .ok o) :
    comparePlaces b a = .ok o.swap := by
  obtain ⟨p, q, hp, hq, hpq, rfl⟩ := comparePlaces_eq_ok.1 h
  refine comparePlaces_eq_ok.2 ⟨q, p, hq, hp, ?_, OrientedCmp.eq_swap.symm⟩
  exact fun y hy x hx => (hpq x hx y hy).symm

/-- Two steps up, or two steps on one place, make one such step. -/
theorem comparePlaces_trans {a b c : Annotation} {o o' : Ordering}
    (hab : comparePlaces a b = .ok o) (hbc : comparePlaces b c = .ok o')
    (ho : o.isLE) (ho' : o'.isLE) : comparePlaces a c = .ok (o.then o') := by
  obtain ⟨p, q, hp, hq, hpq, rfl⟩ := comparePlaces_eq_ok.1 hab
  obtain ⟨q', r, hq', hr, hqr, rfl⟩ := comparePlaces_eq_ok.1 hbc
  rw [hq] at hq'
  cases hq'
  refine comparePlaces_eq_ok.2 ⟨p, r, hp, hr, ?_, ?_⟩
  · intro x hx z hz
    cases q with
    | none =>
      cases hz
      cases ho'
    | some y => exact (hpq x hx y rfl).trans (hqr y rfl z hz)
  · cases h : placeOrder p q with
    | lt => exact (TransCmp.lt_of_lt_of_isLE h ho').symm
    | eq =>
      rw [LawfulEqCmp.eq_of_compare h]
      rfl
    | gt =>
      rw [h] at ho
      cases ho

end Annotation

/-! ## Times -/

namespace Moment

theorem compare?_swap (m n : Moment) : n.compare? m = (m.compare? n).map Ordering.swap := by
  unfold compare?
  cases m.offset <;> cases n.offset <;> simp [← OrientedOrd.eq_swap]

theorem compare?_trans {m n k : Moment} (hmn : m.compare? n = some .lt)
    (hnk : n.compare? k = some .lt) : m.compare? k = some .lt := by
  unfold compare? at *
  cases hm : m.offset <;> cases hn : n.offset <;> cases hk : k.offset <;>
    simp only [hm, hn, hk, Option.some.injEq, reduceCtorEq] at *
  · exact TransCmp.lt_trans hmn hnk
  · exact TransCmp.lt_trans hmn hnk

end Moment

namespace Annotation

/-- The order of times; those that cannot be compared are alike. -/
def timeOrder : Option Moment → Option Moment → Ordering
  | some m, some n => (m.compare? n).getD .eq
  | _, _ => .eq

theorem timeOrder_swap (s t : Option Moment) : timeOrder t s = (timeOrder s t).swap := by
  rcases s with _ | m <;> rcases t with _ | n <;> try rfl
  show (n.compare? m).getD .eq = ((m.compare? n).getD .eq).swap
  rw [Moment.compare?_swap m n]
  cases m.compare? n <;> rfl

theorem timeOrder_eq_lt {s t : Option Moment} (h : timeOrder s t = .lt) :
    ∃ m n, s = some m ∧ t = some n ∧ m.compare? n = some .lt := by
  rcases s with _ | m <;> rcases t with _ | n <;> try cases h
  refine ⟨m, n, rfl, rfl, ?_⟩
  cases hc : m.compare? n with
  | none => simp [timeOrder, hc] at h
  | some o => simpa [timeOrder, hc] using h

theorem timeOrder_trans {s t u : Option Moment} (hst : timeOrder s t = .lt)
    (htu : timeOrder t u = .lt) : timeOrder s u = .lt := by
  obtain ⟨m, n, rfl, rfl, hmn⟩ := timeOrder_eq_lt hst
  obtain ⟨n', k, hn, rfl, hnk⟩ := timeOrder_eq_lt htu
  cases hn
  simp [timeOrder, Moment.compare?_trans hmn hnk]

theorem compareTimes_eq_ok {a b : Annotation} {o : Ordering} :
    compareTimes a b = .ok o ↔
      ∃ s t, Moment.ofValue? a.datetime = .ok s ∧ Moment.ofValue? b.datetime = .ok t ∧
        o = timeOrder s t := by
  unfold compareTimes
  constructor
  · intro h
    obtain ⟨s, hs, h⟩ := exists_of_bind_eq_ok h
    obtain ⟨t, ht, h⟩ := exists_of_bind_eq_ok h
    refine ⟨s, t, hs, ht, ?_⟩
    rcases s with _ | m <;> rcases t with _ | n <;> cases h <;> rfl
  · rintro ⟨s, t, hs, ht, rfl⟩
    rw [hs, ht]
    rcases s with _ | m <;> rcases t with _ | n <;> rfl

/-! ## Annotations -/

/-- How two annotations come to compare as they do. -/
theorem compare_eq_ok {a b : Annotation} {o : Ordering} :
    compare a b = .ok o ↔
      (a.pageno ≠ b.pageno ∧ o = Ord.compare a.pageno b.pageno) ∨
      (a.pageno = b.pageno ∧ o ≠ .eq ∧ comparePlaces a b = .ok o) ∨
      (a.pageno = b.pageno ∧ comparePlaces a b = .ok .eq ∧ compareTimes a b = .ok o) := by
  unfold compare
  by_cases hpage : a.pageno = b.pageno
  · simp only [hpage, ne_eq, not_true_eq_false, if_false, false_and, true_and, false_or]
    constructor
    · intro h
      obtain ⟨o', hplaces, h⟩ := exists_of_bind_eq_ok h
      cases o' with
      | eq => exact .inr ⟨hplaces, h⟩
      | lt =>
        cases h
        exact .inl ⟨nofun, hplaces⟩
      | gt =>
        cases h
        exact .inl ⟨nofun, hplaces⟩
    · rintro (⟨ho, hplaces⟩ | ⟨hplaces, htimes⟩)
      · rw [hplaces]
        cases o
        · rfl
        · exact absurd rfl ho
        · rfl
      · rw [hplaces]
        exact htimes
  · simp only [hpage, ne_eq, not_false_eq_true, if_true, true_and, false_and, or_false,
      Except.ok.injEq]
    exact eq_comm

theorem compare_swap {a b : Annotation} {o : Ordering} (h : compare a b = .ok o) :
    compare b a = .ok o.swap := by
  rcases compare_eq_ok.1 h with ⟨hpage, rfl⟩ | ⟨hpage, ho, hplaces⟩ | ⟨hpage, hplaces, htimes⟩
  · exact compare_eq_ok.2 (.inl ⟨hpage.symm, OrientedOrd.eq_swap.symm⟩)
  · refine compare_eq_ok.2 (.inr (.inl ⟨hpage.symm, ?_, comparePlaces_swap hplaces⟩))
    cases o <;> simp_all
  · refine compare_eq_ok.2 (.inr (.inr ⟨hpage.symm, comparePlaces_swap hplaces, ?_⟩))
    obtain ⟨s, t, hs, ht, rfl⟩ := compareTimes_eq_ok.1 htimes
    exact compareTimes_eq_ok.2 ⟨t, s, ht, hs, (timeOrder_swap s t).symm⟩

/-- Annotations that do not come after each other stand on pages that do not. -/
theorem pageno_le_of_compare {a b : Annotation} {o : Ordering} (h : compare a b = .ok o)
    (ho : o ≠ .gt) : a.pageno ≤ b.pageno := by
  rcases compare_eq_ok.1 h with ⟨_, rfl⟩ | ⟨hpage, _⟩ | ⟨hpage, _⟩
  · exact Std.isLE_compare.1 (by cases hc : Ord.compare a.pageno b.pageno <;> simp_all)
  · exact Int.le_of_eq hpage
  · exact Int.le_of_eq hpage

theorem compareTimes_trans {a b c : Annotation} (hab : compareTimes a b = .ok .lt)
    (hbc : compareTimes b c = .ok .lt) : compareTimes a c = .ok .lt := by
  obtain ⟨s, t, hs, ht, hst⟩ := compareTimes_eq_ok.1 hab
  obtain ⟨t', u, ht', hu, htu⟩ := compareTimes_eq_ok.1 hbc
  rw [ht] at ht'
  cases ht'
  exact compareTimes_eq_ok.2 ⟨s, u, hs, hu, (timeOrder_trans hst.symm htu.symm).symm⟩

/-- On one page, strictly before means an earlier place, or an earlier time on
the same place. -/
theorem compare_eq_lt_iff {a b : Annotation} (hpage : a.pageno = b.pageno) :
    compare a b = .ok .lt ↔
      ∃ o, comparePlaces a b = .ok o ∧ o.isLE ∧ (o = .eq → compareTimes a b = .ok .lt) := by
  rw [compare_eq_ok]
  constructor
  · rintro (⟨hne, _⟩ | ⟨_, _, hplaces⟩ | ⟨_, hplaces, htimes⟩)
    · exact absurd hpage hne
    · exact ⟨.lt, hplaces, rfl, nofun⟩
    · exact ⟨.eq, hplaces, rfl, fun _ => htimes⟩
  · rintro ⟨o, hplaces, ho, htimes⟩
    cases o with
    | lt => exact .inr (.inl ⟨hpage, nofun, hplaces⟩)
    | eq => exact .inr (.inr ⟨hpage, hplaces, htimes rfl⟩)
    | gt => cases ho

/-- Strictly before is transitive, and where two steps can be decided, so can the
step over both. -/
theorem compare_lt_trans {a b c : Annotation} (hab : compare a b = .ok .lt)
    (hbc : compare b c = .ok .lt) : compare a c = .ok .lt := by
  have hpages := pageno_le_of_compare hab nofun
  have hpages' := pageno_le_of_compare hbc nofun
  by_cases hac : a.pageno = c.pageno
  · obtain ⟨o, hplaces, ho, htimes⟩ := (compare_eq_lt_iff (by omega)).1 hab
    obtain ⟨o', hplaces', ho', htimes'⟩ := (compare_eq_lt_iff (by omega)).1 hbc
    have hboth := comparePlaces_trans hplaces hplaces' ho ho'
    refine (compare_eq_lt_iff hac).2 ⟨_, hboth, Ordering.isLE_then_iff_and.2 ⟨ho, .inr ho'⟩, ?_⟩
    intro heq
    obtain ⟨h, h'⟩ := Ordering.then_eq_eq.1 heq
    exact compareTimes_trans (htimes h) (htimes' h')
  · refine compare_eq_ok.2 (.inl ⟨hac, ?_⟩)
    exact (Std.compare_eq_lt.2 (by omega)).symm

end Annotation
end Marginalia
