import Mathlib.Data.Char
import Mathlib.Data.List.Lex
import Mathlib.Data.Prod.Lex
import Mathlib.Order.Compare
import Marginalia.Proofs.Annotation.Order

/-
The key that annotations are ordered by: the page, then a place that is known before one
that is not, then the numbers in the node, the node, and the offset.  Where keys differ
they decide the comparison; where they are the same, the times do.  The one exception is
a node with a number that is too long to be read.
-/
namespace Marginalia

open Std

/-! ## Comparisons as orders -/

/-- A comparison of first parts, and of second parts where that is undecided, compares
pairs. -/
theorem compares_then {α β : Type} [LinearOrder α] [LinearOrder β] {o o' : Ordering}
    {x x' : α} {y y' : β} (h : o.Compares x x') (h' : o'.Compares y y') :
    (o.then o').Compares (toLex (x, y)) (toLex (x', y')) := by
  cases o with
  | lt => exact Prod.Lex.toLex_lt_toLex.2 (.inl h)
  | gt => exact Prod.Lex.toLex_lt_toLex.2 (.inl h)
  | eq =>
    obtain rfl : x = x' := h
    cases o' with
    | lt => exact Prod.Lex.toLex_lt_toLex.2 (.inr ⟨rfl, h'⟩)
    | gt => exact Prod.Lex.toLex_lt_toLex.2 (.inr ⟨rfl, h'⟩)
    | eq => exact congrArg (fun z => toLex (x, z)) h'

/-- Lists are compared member by member, a beginning before the whole. -/
theorem compares_cons {α : Type} [LinearOrder α] {o o' : Ordering} {x y : α} {xs ys : List α}
    (h : o.Compares x y) (h' : o'.Compares xs ys) :
    (o.then o').Compares (x :: xs) (y :: ys) := by
  cases o with
  | lt => exact List.Lex.rel h
  | gt => exact List.Lex.rel h
  | eq =>
    obtain rfl : x = y := h
    cases o' with
    | lt => exact List.Lex.cons h'
    | gt => exact List.Lex.cons h'
    | eq => exact congrArg (x :: ·) h'

theorem compares_numbers (ms ns : List Nat) : (Ord.compare ms ns).Compares ms ns := by
  induction ms generalizing ns with
  | nil =>
    cases ns with
    | nil => rfl
    | cons n ns => exact List.Lex.nil
  | cons m ms ih =>
    cases ns with
    | nil => exact List.Lex.nil
    | cons n ns =>
      show (List.compareLex Ord.compare (m :: ms) (n :: ns)).Compares _ _
      rw [List.compareLex_cons_cons]
      exact compares_cons ((compare_iff m n).1 rfl) (ih ns)

theorem Text.compares_compare (s t : Text) : (Text.compare s t).Compares s t := by
  induction s generalizing t with
  | nil =>
    cases t with
    | nil => rfl
    | cons b t => exact List.Lex.nil
  | cons a s ih =>
    cases t with
    | nil => exact List.Lex.nil
    | cons b t =>
      refine compares_cons ?_ (ih t)
      have hcode : (Ord.compare a.toNat b.toNat).Compares a.toNat b.toNat :=
        (compare_iff _ _).1 rfl
      generalize Ord.compare a.toNat b.toNat = o at hcode ⊢
      cases o with
      | lt => exact hcode
      | eq => exact Char.toNat_inj.1 hcode
      | gt => exact hcode

/-! ## Keys -/

namespace Annotation

/-- What an annotation is ordered by, given its place: the page; zero for a place that is
known and one for none; the numbers in the node, the node itself, and the offset. -/
def key (a : Annotation) (p : Option Position) :
    Int ×ₗ Nat ×ₗ List Nat ×ₗ Text ×ₗ Nat :=
  match p with
  | some p => toLex (a.pageno, toLex (0, toLex (p.numbers, toLex (p.node, p.offset))))
  | none => toLex (a.pageno, toLex (1, toLex ([], toLex ([], 0))))

theorem compares_position (p q : Position) : (p.order q).Compares
    (toLex (p.numbers, toLex (p.node, p.offset))) (toLex (q.numbers, toLex (q.node, q.offset))) := by
  have hnodes : (compareOn Position.codes p q).Compares p.node q.node := by
    have := Text.compares_compare p.node q.node
    rwa [Text.compare_eq] at this
  exact compares_then (compares_numbers _ _) (compares_then hnodes ((compare_iff _ _).1 rfl))

/-- The page and then the place compare annotations by their keys. -/
theorem compares_key (a b : Annotation) (p q : Option Position) :
    ((Ord.compare a.pageno b.pageno).then (placeOrder p q)).Compares (a.key p) (b.key q) := by
  rcases p with _ | p <;> rcases q with _ | q <;>
    refine compares_then ((compare_iff _ _).1 rfl) ?_
  · rfl
  · exact Prod.Lex.toLex_lt_toLex.2 (.inl Nat.zero_lt_one)
  · exact Prod.Lex.toLex_lt_toLex.2 (.inl Nat.zero_lt_one)
  · have hplace := compares_then ((compare_iff 0 0).1 rfl) (compares_position p q)
    rwa [ReflOrd.compare_self] at hplace

end Annotation

/-! ## Nodes that cannot be read -/

/-- A number is refused for the count of its digits. -/
def Fault.IsTooLong (e : Fault) : Prop :=
  ∃ digits, Text.maxNumeralDigits < digits ∧ e = .numeralTooLong digits

namespace Position

@[simp] theorem digitRuns_nil : digitRuns [] = [] := by
  rw [digitRuns]
  rfl

theorem digitRuns_cons_of_not {c : Char} {t : Text} (h : ¬ Text.isDigit c) :
    digitRuns (c :: t) = digitRuns t := by
  have hskip : ((c :: t).dropWhile fun c => !Text.isDigit c) =
      t.dropWhile fun c => !Text.isDigit c := List.dropWhile_cons_of_pos (by simpa using h)
  rw [digitRuns, digitRuns, hskip]

/-- A run of digits that goes no further comes first. -/
theorem digitRuns_append {ds rest : Text} (hne : ds ≠ []) (h : ∀ c ∈ ds, Text.isDigit c)
    (hrest : ∀ c ∈ rest.head?, ¬ Text.isDigit c) :
    digitRuns (ds ++ rest) = ds :: digitRuns rest := by
  cases ds with
  | nil => exact absurd rfl hne
  | cons d ds =>
    have hds : ∀ c ∈ ds, Text.isDigit c := fun c hc => h c (List.mem_cons_of_mem _ hc)
    have hfirst : ((d :: ds ++ rest).dropWhile fun c => !Text.isDigit c) = d :: (ds ++ rest) :=
      List.dropWhile_cons_of_neg (by simp [h d List.mem_cons_self])
    have hend : rest.takeWhile Text.isDigit = [] ∧ rest.dropWhile Text.isDigit = rest := by
      cases rest with
      | nil => exact ⟨rfl, rfl⟩
      | cons c rest =>
        have hc := hrest c rfl
        exact ⟨List.takeWhile_cons_of_neg hc, List.dropWhile_cons_of_neg hc⟩
    rw [digitRuns]
    split
    · rename_i hnone
      rw [hfirst] at hnone
      cases hnone
    · rename_i hsome
      rw [hfirst] at hsome
      cases hsome
      rw [List.takeWhile_append_of_pos hds, List.dropWhile_append_of_pos hds, hend.1, hend.2,
        List.append_nil]

theorem runValues_ensures (runs : List Text) :
    Ensures Fault.IsTooLong (fun _ => True) (runValues runs) := by
  induction runs with
  | nil => trivial
  | cons ds rest ih =>
    unfold runValues
    split
    · rename_i hlen
      exact ⟨ds.length, hlen, rfl⟩
    · exact ih.bind fun _ _ => trivial

theorem compare_ensures (p q : Position) :
    Ensures Fault.IsTooLong (fun _ => True) (compare p q) := by
  unfold compare
  split
  · trivial
  · refine (runValues_ensures _).bind fun _ _ => ?_
    exact (runValues_ensures _).bind fun _ _ => trivial

/-- The offset is what stands behind the last point, whatever the node looks like. -/
theorem split?_append {node ds : Text} (hnode : node ≠ []) (hline : '\n' ∉ node) (hne : ds ≠ [])
    (hds : ∀ c ∈ ds, Text.isDigit c) : split? (node ++ '.' :: ds) = some (node, ds) := by
  have hlast : (node ++ '.' :: ds).getLast? ≠ some '\n' := by
    rw [List.getLast?_append_of_ne_nil _ (List.cons_ne_nil '.' ds), List.getLast?_cons_of_ne_nil hne]
    intro hbreak
    exact absurd (hds _ (List.mem_of_getLast? hbreak)) (by decide)
  -- the digits are read from the back, and the point before them is the first that is no digit
  have hback : (node ++ '.' :: ds).reverse = ds.reverse ++ '.' :: node.reverse := by
    rw [List.reverse_append, List.reverse_cons, List.append_assoc, List.singleton_append]
  have hdigits : ∀ c ∈ ds.reverse, Text.isDigit c := fun c hc => hds c (List.mem_reverse.1 hc)
  have htake : (ds.reverse ++ '.' :: node.reverse).takeWhile Text.isDigit = ds.reverse := by
    rw [List.takeWhile_append_of_pos hdigits, List.takeWhile_cons_of_neg (by decide),
      List.append_nil]
  have hdrop : (ds.reverse ++ '.' :: node.reverse).dropWhile Text.isDigit =
      '.' :: node.reverse := by
    rw [List.dropWhile_append_of_pos hdigits, List.dropWhile_cons_of_neg (by decide)]
  unfold split?
  rw [if_neg hlast]
  dsimp only
  rw [hback, hdrop, htake]
  simp only [List.reverse_reverse]
  rw [if_neg]
  simp [hne, hnode, hline]

/-- A node with the digits of an offset behind it is read as these. -/
theorem ofValue?_append {node ds : Text} (hnode : node ≠ []) (hline : '\n' ∉ node) (hne : ds ≠ [])
    (hds : ∀ c ∈ ds, Text.isDigit c) (hlen : ds.length ≤ Text.maxNumeralDigits) :
    ofValue? (.text (node ++ '.' :: ds)) = .ok (some ⟨node, Text.digitsValue ds⟩) := by
  have htruthy : (Value.text (node ++ '.' :: ds)).isTruthy = true := by simp [Value.isTruthy]
  unfold ofValue?
  rw [htruthy]
  show ofText? (node ++ '.' :: ds) = _
  unfold ofText?
  rw [split?_append hnode hline hne hds]
  exact if_neg (Nat.not_lt.2 hlen)

end Position

namespace Annotation

theorem comparePlaces_eq {a b : Annotation} {p q : Option Position}
    (hp : Position.ofValue? a.pos0 = .ok p) (hq : Position.ofValue? b.pos0 = .ok q)
    (hpq : PlacesComparable p q) : comparePlaces a b = .ok (placeOrder p q) :=
  comparePlaces_eq_ok.2 ⟨p, q, hp, hq, hpq, rfl⟩

theorem comparePlaces_refuses {a b : Annotation} {p q : Option Position}
    (hp : Position.ofValue? a.pos0 = .ok p) (hq : Position.ofValue? b.pos0 = .ok q)
    (hpq : ¬ PlacesComparable p q) : ∃ e, e.IsTooLong ∧ comparePlaces a b = .error e := by
  have hcmp : Ensures Fault.IsTooLong (fun _ => True) (comparePlaces a b) := by
    unfold comparePlaces
    rw [hp, hq]
    rcases p with _ | p <;> rcases q with _ | q
    · trivial
    · trivial
    · trivial
    · exact Position.compare_ensures p q
  cases h : comparePlaces a b with
  | error e => exact ⟨e, hcmp.of_eq_error h, rfl⟩
  | ok o =>
    obtain ⟨p', q', hp', hq', hpq', _⟩ := comparePlaces_eq_ok.1 h
    rw [hp] at hp'
    rw [hq] at hq'
    cases hp'
    cases hq'
    exact absurd hpq' hpq

theorem compareTimes_eq (a b : Annotation) :
    compareTimes a b = do
      let s ← Moment.ofValue? a.datetime
      let t ← Moment.ofValue? b.datetime
      return timeOrder s t := by
  unfold compareTimes
  cases Moment.ofValue? a.datetime with
  | error e => rfl
  | ok s =>
    cases Moment.ofValue? b.datetime with
    | error e => rfl
    | ok t => rcases s with _ | m <;> rcases t with _ | n <;> rfl

/-! ## The order by keys -/

/-- Where the places are known and can be compared, the page and the place decide, and
the times where these are alike. -/
theorem compare_eq_then {a b : Annotation} {p q : Option Position}
    (hp : Position.ofValue? a.pos0 = .ok p) (hq : Position.ofValue? b.pos0 = .ok q)
    (hpq : a.pageno = b.pageno → PlacesComparable p q) :
    compare a b =
      match (Ord.compare a.pageno b.pageno).then (placeOrder p q) with
      | .eq => compareTimes a b
      | o => .ok o := by
  unfold compare
  by_cases hpage : a.pageno = b.pageno
  · rw [if_neg (not_not_intro hpage), comparePlaces_eq hp hq (hpq hpage), hpage,
      ReflOrd.compare_self]
    cases placeOrder p q <;> rfl
  · have hne : Ord.compare a.pageno b.pageno ≠ .eq :=
      fun h => hpage (LawfulEqOrd.eq_of_compare h)
    rw [if_pos hpage, then_of_ne_eq _ hne]
    cases h : Ord.compare a.pageno b.pageno with
    | eq => exact absurd h hne
    | lt => rfl
    | gt => rfl

/-- Annotations whose places are known are ordered by their keys, whatever their times
are; the times order those with the same key.  Only annotations on one page with
different nodes, one of which has a number that is too long to be read, are not ordered. -/
theorem compare_by_key {a b : Annotation} {p q : Option Position}
    (hp : Position.ofValue? a.pos0 = .ok p) (hq : Position.ofValue? b.pos0 = .ok q) :
    ((a.pageno = b.pageno → PlacesComparable p q) →
      (a.key p < b.key q → compare a b = .ok .lt) ∧
      (b.key q < a.key p → compare a b = .ok .gt) ∧
      (a.key p = b.key q → compare a b = do
        let s ← Moment.ofValue? a.datetime
        let t ← Moment.ofValue? b.datetime
        return timeOrder s t)) ∧
    ((a.pageno = b.pageno ∧ ¬ PlacesComparable p q) →
      ∃ digits, Text.maxNumeralDigits < digits ∧
        compare a b = .error (.numeralTooLong digits)) := by
  refine ⟨fun hpq => ?_, fun ⟨hpage, hpq⟩ => ?_⟩
  · have hkeys := compares_key a b p q
    rw [compare_eq_then hp hq hpq, compareTimes_eq]
    refine ⟨fun h => ?_, fun h => ?_, fun h => ?_⟩
    · rw [hkeys.eq_lt.2 h]
    · rw [hkeys.eq_gt.2 h]
    · rw [hkeys.eq_eq.2 h]
  · obtain ⟨e, ⟨digits, hdigits, rfl⟩, h⟩ := comparePlaces_refuses hp hq hpq
    refine ⟨digits, hdigits, ?_⟩
    unfold compare
    rw [if_neg (not_not_intro hpage), h]
    rfl

/-- The second paragraph, however late it was marked, stands before the tenth. -/
def secondParagraph : Annotation :=
  { datetime := .text "2024-06-01 10:00:00".toList
    pos0 := .text "/body/p[2]/text().15".toList }

def tenthParagraph : Annotation :=
  { datetime := .text "2024-01-01 10:00:00".toList
    pos0 := .text "/body/p[10]/text().3".toList }

theorem compare_paragraphs : compare secondParagraph tenthParagraph = .ok .lt := by
  have hsecond : Position.ofValue? secondParagraph.pos0 =
      .ok (some ⟨"/body/p[2]/text()".toList, 15⟩) := by decide +kernel
  have htenth : Position.ofValue? tenthParagraph.pos0 =
      .ok (some ⟨"/body/p[10]/text()".toList, 3⟩) := by decide +kernel
  refine ((compare_by_key hsecond htenth).1 fun _ => ?_).1 ?_
  · rintro _ ⟨⟩ _ ⟨⟩
    refine .inr ⟨?_, ?_⟩ <;> unfold Position.IsReadable <;> decide +kernel
  · decide +kernel

/-- A highlight in the node that is named. -/
def inNode (node : Text) : Annotation := { pos0 := .text (node ++ ".1".toList) }

theorem ofValue?_inNode {node : Text} (hne : node ≠ []) (hline : '\n' ∉ node) :
    Position.ofValue? (inNode node).pos0 = .ok (some ⟨node, 1⟩) :=
  Position.ofValue?_append hne hline (List.cons_ne_nil '1' []) (List.forall_mem_singleton.2 (by decide))
    (by decide)

/-- A chapter and a verse, whose number has the given count of digits. -/
def verse (digits : Nat) : Text := ['2'] ++ '/' :: List.replicate digits '2'

theorem digitRuns_verse {digits : Nat} (h : digits ≠ 0) :
    Position.digitRuns (verse digits) = [['2'], List.replicate digits '2'] := by
  have hdigits : ∀ c ∈ List.replicate digits '2', Text.isDigit c := by
    intro c hc
    rw [List.eq_of_mem_replicate hc]
    rfl
  have hverse : Position.digitRuns (List.replicate digits '2') = [List.replicate digits '2'] := by
    have hrun : Position.digitRuns (List.replicate digits '2' ++ []) =
        List.replicate digits '2' :: Position.digitRuns [] :=
      Position.digitRuns_append (by simpa using h) hdigits nofun
    rwa [List.append_nil, Position.digitRuns_nil] at hrun
  have hslash : ∀ c ∈ ('/' :: List.replicate digits '2').head?, ¬ Text.isDigit c := by
    rintro _ ⟨⟩
    decide
  have hchapter : ∀ c ∈ ['2'], Text.isDigit c := List.forall_mem_singleton.2 (by decide)
  rw [verse, Position.digitRuns_append (List.cons_ne_nil _ _) hchapter hslash,
    Position.digitRuns_cons_of_not (by decide), hverse]

theorem ofValue?_verse (digits : Nat) :
    Position.ofValue? (inNode (verse digits)).pos0 = .ok (some ⟨verse digits, 1⟩) := by
  refine ofValue?_inNode (List.cons_ne_nil _ _) fun h => ?_
  have hdigit : '\n' ∈ List.replicate digits '2' :=
    List.mem_of_ne_of_mem (by decide) (List.mem_of_ne_of_mem (by decide) h)
  exact absurd (List.eq_of_mem_replicate hdigit) (by decide)

theorem key_verse_lt {digits : Nat} (h : digits ≠ 0) :
    (inNode (verse digits)).key (some ⟨verse digits, 1⟩) <
      (inNode "3/1".toList).key (some ⟨"3/1".toList, 1⟩) := by
  have hnumbers : (Position.mk (verse digits) 1).numbers =
      [2, Text.digitsValue (List.replicate digits '2')] := by
    rw [Position.numbers, digitRuns_verse h]
    rfl
  have hnumbers' : (Position.mk "3/1".toList 1).numbers = [3, 1] := by decide +kernel
  simp only [key]
  rw [hnumbers, hnumbers']
  refine Prod.Lex.toLex_lt_toLex.2 (.inr ⟨rfl, Prod.Lex.toLex_lt_toLex.2 (.inr ⟨rfl, ?_⟩)⟩)
  exact Prod.Lex.toLex_lt_toLex.2 (.inl (List.Lex.rel (by decide)))

theorem nodeNumbers_verse {digits : Nat} (h : Text.maxNumeralDigits < digits) :
    Position.nodeNumbers (verse digits) = .error (.numeralTooLong digits) := by
  have hrun : Text.maxNumeralDigits < (List.replicate digits '2').length := by
    rwa [List.length_replicate]
  rw [Position.nodeNumbers, digitRuns_verse (by omega)]
  show (Position.runValues [List.replicate digits '2'] >>= _) = _
  rw [Position.runValues, if_pos hrun, List.length_replicate]
  rfl

/-- The first numbers of two nodes differ, and still the second number of one of them,
which is too long to be read, leaves them without an order. -/
theorem compare_verse_refuses :
    ∃ p q, Position.ofValue? (inNode (verse 4301)).pos0 = .ok p ∧
      Position.ofValue? (inNode "3/1".toList).pos0 = .ok q ∧
      (inNode (verse 4301)).key p < (inNode "3/1".toList).key q ∧
      compare (inNode (verse 4301)) (inNode "3/1".toList) = .error (.numeralTooLong 4301) := by
  have hverse := ofValue?_verse 4301
  have hthird : Position.ofValue? (inNode "3/1".toList).pos0 = .ok (some ⟨"3/1".toList, 1⟩) :=
    ofValue?_inNode (by decide) (by decide)
  refine ⟨_, _, hverse, hthird, key_verse_lt (by decide), ?_⟩
  have hnode : verse 4301 ≠ "3/1".toList := fun h => by cases congrArg List.head? h
  have hplaces : comparePlaces (inNode (verse 4301)) (inNode "3/1".toList) =
      .error (.numeralTooLong 4301) := by
    unfold comparePlaces
    rw [hverse, hthird]
    show Position.compare ⟨verse 4301, 1⟩ ⟨"3/1".toList, 1⟩ = _
    rw [Position.compare, if_neg hnode, Position.compareNodes, nodeNumbers_verse (by decide)]
    rfl
  show (comparePlaces (inNode (verse 4301)) (inNode "3/1".toList) >>= _) = _
  rw [hplaces]
  rfl

end Annotation
end Marginalia
