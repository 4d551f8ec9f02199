import Mathlib.Algebra.Order.Ring.Int
import Mathlib.Order.Compare
import Marginalia.Proofs.Annotation.Reach
import Marginalia.Proofs.Number.Numeral
import Marginalia.Proofs.Number.Spelling

/-
Places in a text.  A place is written as a node and a count of characters behind a point; whatever
points and numbers the node has in itself, the place is read back, and two places in one node are
as far apart as their counts are.
-/
namespace Marginalia

/-! ## Whole numbers as floating-point ones -/

namespace Binary64

theorem signedUnits_natAbs (z : Int) (k : Nat) : signedUnits (z < 0) (z.natAbs * k) = z * k := by
  unfold signedUnits
  rw [Int.natCast_mul, Int.natCast_natAbs]
  split
  · rename_i hneg
    rw [decide_eq_true_eq] at hneg
    rw [abs_of_neg hneg, Int.neg_mul, Int.neg_neg]
  · rename_i hnonneg
    rw [decide_eq_true_eq, Int.not_lt] at hnonneg
    rw [abs_of_nonneg hnonneg]

/-- A whole number as a floating-point one compares as it does itself. -/
theorem compareInt?_whole (z n : Int) :
    (finite (z < 0) (z.natAbs * one)).compareInt? n = some (Ord.compare z n) := by
  have hone : (0 : Int) < one := Int.natCast_pos.2 pos_one
  show some (compare (signedUnits _ _) (n * one)) = _
  rw [signedUnits_natAbs, ← cmp_eq_compare, ← cmp_eq_compare,
    (strictMono_mul_right_of_pos hone).cmp_map_eq z n]

end Binary64

namespace Position

variable {node : Text} {n : Nat}

/-- The text that stands for a place in a text. -/
def text (p : Position) : Text := p.node ++ '.' :: Text.ofNat p.offset

theorem ofValue?_text (hnode : node ≠ []) (hline : '\n' ∉ node)
    (hlen : (Text.ofNat n).length ≤ Text.maxNumeralDigits) :
    ofValue? (.text (text ⟨node, n⟩)) = .ok (some ⟨node, n⟩) := by
  have hdigits : ∀ c ∈ Text.ofNat n, Text.isDigit c := fun c hc =>
    Text.isDigit_of_isBasicDigit (Text.isBasicDigit_of_mem_ofNat hc)
  rw [text, ofValue?_append hnode hline (Text.ofNat_ne_nil n) hdigits hlen,
    Text.digitsValue_ofNat]

end Position

namespace Annotation

variable {a b : Annotation} {node : Text}

/-- Two positions in one node are measured by their offsets, whatever text the first annotation
starts at. -/
theorem distance_of_positions {t u : Text} {last first : Position} (hpage : a.pageno = b.pageno)
    (ha : a.pos0 = .text t) (hb : b.pos0 = .text u)
    (hlast : Position.ofValue? a.pos1 = .ok (some last))
    (hfirst : Position.ofValue? b.pos0 = .ok (some first)) (hnode : last.node = first.node) :
    a.distance b = wholeDistance ((first.offset : Int) - last.offset) := by
  have hpositioned : ¬ (a.isPositioned = false ∧ b.isPositioned = false) := by
    rintro ⟨hunplaced, _⟩
    have habsent : a.pos1.isTruthy = false := (Bool.or_eq_false_iff.1 hunplaced).2
    rw [Position.ofValue?_of_absent habsent] at hlast
    cases hlast
  rw [distance_of_positioned hpositioned, if_neg (not_not_intro hpage), ha, hb]
  show textDistance a b = _
  rw [textDistance_of_some hlast hfirst, if_pos hnode]

theorem wholeDistance_of_short {z : Int} (hz : z.natAbs ≤ 2 ^ 53) :
    wholeDistance z = .ok (.finite (z < 0) (z.natAbs * Binary64.one)) := by
  unfold wholeDistance
  rw [Binary64.ofInt?_of_short hz]

/-- Places in a text are read back whatever their node is called, and from the end of one
annotation to the start of another in the same node it is as far as the counts of characters say,
exactly. -/
theorem distance_within_node (hnode : node ≠ []) (hline : '\n' ∉ node) :
    (∀ n, (Text.ofNat n).length ≤ Text.maxNumeralDigits →
      Position.ofValue? (.text (Position.text ⟨node, n⟩)) = .ok (some ⟨node, n⟩)) ∧
    ∀ (a b : Annotation) (start : Text) (s e : Nat), a.pageno = b.pageno → a.pos0 = .text start →
      a.pos1 = .text (Position.text ⟨node, e⟩) → b.pos0 = .text (Position.text ⟨node, s⟩) →
      (Text.ofNat s).length ≤ Text.maxNumeralDigits →
      (Text.ofNat e).length ≤ Text.maxNumeralDigits → ((s : Int) - e).natAbs < 2 ^ 53 →
      ∃ d, a.distance b = .ok d ∧ d.isFinite ∧
        ∀ n : Int, d.compareInt? n = some (Ord.compare ((s : Int) - e) n) := by
  refine ⟨fun n => Position.ofValue?_text hnode hline, ?_⟩
  intro a b start s e hpage hstart hlast hfirst hs he hshort
  have hlast' := hlast ▸ Position.ofValue?_text hnode hline he
  have hfirst' := hfirst ▸ Position.ofValue?_text hnode hline hs
  refine ⟨_, ?_, rfl, Binary64.compareInt?_whole _⟩
  rw [distance_of_positions hpage hstart hfirst hlast' hfirst' rfl]
  exact wholeDistance_of_short (Nat.le_of_lt hshort)

/-- An annotation that ends behind the start of the next one, in a node that looks like a place
itself. -/
def overlong : Annotation :=
  { pos0 := .text "elsewhere".toList, pos1 := .text "a.1.2.15".toList }

def overlapped : Annotation := { pos0 := .text "a.1.2.3".toList }

theorem distance_within_node_overlap :
    Position.ofValue? overlong.pos1 = .ok (some ⟨"a.1.2".toList, 15⟩) ∧
      ∃ d, overlong.distance overlapped = .ok d ∧ d.compareInt? (-12) = some .eq := by
  obtain ⟨hread, hdistance⟩ := distance_within_node (List.cons_ne_nil 'a' ".1.2".toList)
    (by decide)
  refine ⟨hread 15 (by decide), ?_⟩
  obtain ⟨d, hd, _, hcompare⟩ := hdistance overlong overlapped "elsewhere".toList 3 15 rfl rfl rfl
    rfl (by decide) (by decide) (by decide)
  exact ⟨d, hd, hcompare (-12)⟩

end Annotation
end Marginalia
