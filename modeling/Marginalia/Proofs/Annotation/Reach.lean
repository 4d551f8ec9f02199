import Marginalia.Annotation.Distance
import Marginalia.Proofs.Annotation.Key
import Marginalia.Proofs.Annotation.Loading
import Marginalia.Proofs.Number.Range
import Marginalia.Proofs.Record

/-
Annotations that cannot be told apart, or measured.  Loading keeps places as they are found,
so some of them turn out only later to hold numbers that are not to be had.
-/
namespace Marginalia

/-! ## Coordinates -/

namespace Coordinates

/-- A whole number out of the range of floating-point numbers. -/
def IsVast (v : Value) : Prop := ∃ n, v.whole? = some n ∧ Binary64.overflow ≤ n.natAbs

theorem number?_int_refuses_iff (n : Int) :
    (∃ e, number? (.int n) = .error e) ↔ Binary64.overflow ≤ n.natAbs := by
  rw [← Binary64.ofInt?_eq_none_iff]
  unfold number?
  dsimp only [Value.whole?]
  cases Binary64.ofInt? n with
  | none => exact ⟨fun _ => rfl, fun _ => ⟨_, rfl⟩⟩
  | some x => exact ⟨nofun, nofun⟩

theorem number?_refuses_iff (v : Value) : (∃ e, number? v = .error e) ↔ IsVast v := by
  have hwhole : ∀ n : Int, (∃ e, number? (.int n) = .error e) ↔
      ∃ m, some n = some m ∧ Binary64.overflow ≤ m.natAbs := by
    intro n
    rw [number?_int_refuses_iff]
    simp only [Option.some.injEq, exists_eq_left']
  cases v with
  | bool b =>
    -- a truth value is read as the number it counts as
    have hbool : number? (.bool b) = number? (.int (if b then 1 else 0)) := by
      simp only [number?, Value.whole?]
    rw [hbool]
    exact hwhole _
  | int n => exact hwhole n
  | _ => exact ⟨nofun, nofun⟩

/-- Coordinates of which one is out of range; the second one is looked at only where the first
is a number. -/
inductive AreVast : Value → Prop
  | first {es : List (Value × Value)} {vx vy : Value} : Value.lookup ['x'] es = some vx →
      Value.lookup ['y'] es = some vy → IsVast vx → AreVast (.map es)
  | second {es : List (Value × Value)} {vx vy : Value} {x : Binary64} :
      Value.lookup ['x'] es = some vx → Value.lookup ['y'] es = some vy →
      number? vx = .ok (some x) → IsVast vy → AreVast (.map es)

theorem ofValue?_refuses_iff (v : Value) : (∃ e, ofValue? v = .error e) ↔ AreVast v := by
  cases v with
  | map es =>
    unfold ofValue?
    dsimp only
    split
    · rename_i vx vy hx hy
      rw [exists_bind_eq_error, number?_refuses_iff]
      constructor
      · rintro (hvast | ⟨x, hnumber, h⟩)
        · exact .first hx hy hvast
        · cases x with
          | none =>
            obtain ⟨e, h⟩ := h
            cases h
          | some x =>
            dsimp only at h
            rw [exists_bind_eq_error, number?_refuses_iff] at h
            rcases h with hvast | ⟨y, _, e, he⟩
            · exact .second hx hy hnumber hvast
            · cases y <;> cases he
      · intro h
        cases h with
        | first hx' hy' hvast =>
          cases hx.symm.trans hx'
          exact .inl hvast
        | second hx' hy' hnumber hvast =>
          cases hx.symm.trans hx'
          cases hy.symm.trans hy'
          refine .inr ⟨_, hnumber, ?_⟩
          dsimp only
          rw [exists_bind_eq_error, number?_refuses_iff]
          exact .inl hvast
    · rename_i hnone
      refine ⟨nofun, fun h => ?_⟩
      cases h with
      | first hx hy => exact absurd hy (hnone _ _ hx)
      | second hx hy => exact absurd hy (hnone _ _ hx)
  | _ => exact ⟨nofun, nofun⟩

theorem ofValue?_of_absent {v : Value} (h : v.isTruthy = false) : ofValue? v = .ok none := by
  cases v with
  | map es =>
    cases es with
    | nil => rfl
    | cons e es => cases h
  | _ => rfl

theorem rounded_refuses_iff (x : Binary64) : (∃ e, rounded x = .error e) ↔ x.isFinite = false := by
  cases x with
  | nan => exact ⟨fun _ => rfl, fun _ => ⟨_, rfl⟩⟩
  | infinity s => exact ⟨fun _ => rfl, fun _ => ⟨_, rfl⟩⟩
  | finite s u => exact ⟨nofun, nofun⟩

/-- Coordinates of which one is infinite, or not a number. -/
def AreEndless (c : Coordinates) : Prop := c.x.isFinite = false ∨ c.y.isFinite = false

theorem node_refuses_iff (c : Coordinates) : (∃ e, c.node = .error e) ↔ c.AreEndless := by
  unfold node AreEndless
  rw [← rounded_refuses_iff, ← rounded_refuses_iff]
  exact exists_both_eq_error

end Coordinates

/-! ## Places -/

namespace Position

/-- A place that cannot be worked out: coordinates that are no numbers of the page, or a
count of characters with too many digits. -/
inductive IsBroken : Value → Prop
  | vast {v : Value} : Coordinates.AreVast v → IsBroken v
  | endless {v : Value} {c : Coordinates} : Coordinates.ofValue? v = .ok (some c) →
      c.AreEndless → IsBroken v
  | long {t node ds : Text} : split? t = some (node, ds) → Text.maxNumeralDigits < ds.length →
      IsBroken (.text t)

theorem ofText?_refuses_iff (t : Text) :
    (∃ e, ofText? t = .error e) ↔
      ∃ node ds, split? t = some (node, ds) ∧ Text.maxNumeralDigits < ds.length := by
  unfold ofText?
  split
  · rename_i hsplit
    rw [hsplit]
    exact ⟨nofun, nofun⟩
  · rename_i node ds hsplit
    split_ifs with hlen
    · exact ⟨fun _ => ⟨node, ds, hsplit, hlen⟩, fun _ => ⟨_, rfl⟩⟩
    · refine ⟨nofun, ?_⟩
      rintro ⟨node', ds', hsplit', hlen'⟩
      cases hsplit.symm.trans hsplit'
      exact absurd hlen' hlen

theorem IsBroken.isTruthy {v : Value} (h : IsBroken v) : v.isTruthy := by
  by_contra habsent
  have hnone := Coordinates.ofValue?_of_absent (Bool.eq_false_of_not_eq_true habsent)
  cases h with
  | vast hvast =>
    obtain ⟨e, he⟩ := (Coordinates.ofValue?_refuses_iff v).2 hvast
    rw [hnone] at he
    cases he
  | endless hsome =>
    rw [hnone] at hsome
    cases hsome
  | @long t node ds hsplit =>
    cases t with
    | nil => cases hsplit
    | cons c t => exact habsent rfl

theorem ofValue?_of_absent {v : Value} (h : v.isTruthy = false) : ofValue? v = .ok none := by
  unfold ofValue?
  rw [h]
  rfl

theorem ofValue?_of_present {v : Value} (h : v.isTruthy) :
    ofValue? v = Coordinates.ofValue? v >>= fun c =>
      match c with
      | some c => c.node >>= fun node => .ok (some ⟨node, 0⟩)
      | none =>
        match v with
        | .text t => ofText? t
        | _ => .ok none := by
  unfold ofValue?
  rw [h]
  rfl

/-- The places that cannot be worked out are the broken ones. -/
theorem ofValue?_refuses_iff (v : Value) : (∃ e, ofValue? v = .error e) ↔ IsBroken v := by
  by_cases hpresent : v.isTruthy = true
  · rw [ofValue?_of_present hpresent, exists_bind_eq_error, Coordinates.ofValue?_refuses_iff]
    constructor
    · rintro (hvast | ⟨c, hc, h⟩)
      · exact .vast hvast
      · cases c with
        | some c =>
          dsimp only at h
          rw [exists_bind_eq_error, Coordinates.node_refuses_iff] at h
          rcases h with hendless | ⟨node, _, e, he⟩
          · exact .endless hc hendless
          · cases he
        | none =>
          dsimp only at h
          split at h
          · obtain ⟨node, ds, hsplit, hlen⟩ := (ofText?_refuses_iff _).1 h
            exact .long hsplit hlen
          · obtain ⟨e, he⟩ := h
            cases he
    · intro h
      cases h with
      | vast hvast => exact .inl hvast
      | endless hc hendless =>
        refine .inr ⟨_, hc, ?_⟩
        dsimp only
        rw [exists_bind_eq_error, Coordinates.node_refuses_iff]
        exact .inl hendless
      | long hsplit hlen =>
        exact .inr ⟨none, rfl, (ofText?_refuses_iff _).2 ⟨_, _, hsplit, hlen⟩⟩
  · have habsent := ofValue?_of_absent (Bool.eq_false_of_not_eq_true hpresent)
    refine ⟨?_, fun h => absurd h.isTruthy hpresent⟩
    rintro ⟨e, he⟩
    rw [habsent] at he
    cases he

theorem exists_ofValue?_iff (v : Value) : (∃ p, ofValue? v = .ok p) ↔ ¬ IsBroken v := by
  rw [exists_ok_iff, ofValue?_refuses_iff]

instance (v : Value) : Decidable (IsBroken v) :=
  decidable_of_iff ((ofValue? v).isOk = false) <| by
    rw [← ofValue?_refuses_iff]
    cases ofValue? v with
    | error e => exact ⟨fun _ => ⟨e, rfl⟩, fun _ => rfl⟩
    | ok p => exact ⟨nofun, nofun⟩

theorem not_isBroken_of_absent {v : Value} (h : v.isTruthy = false) : ¬ IsBroken v := by
  intro hbroken
  rw [hbroken.isTruthy] at h
  cases h

/-- Where a place is not broken it can be asked for coordinates. -/
theorem exists_coordinates {v : Value} (h : ¬ IsBroken v) :
    ∃ c, Coordinates.ofValue? v = .ok c := by
  rw [exists_ok_iff, Coordinates.ofValue?_refuses_iff]
  exact fun hvast => h (.vast hvast)

end Position

/-! ## Two annotations -/

namespace Annotation

variable {a b : Annotation}

/-- On one page the nodes of two places are the same, or the numbers in both can be read. -/
def CanBeCompared (a b : Annotation) : Prop :=
  a.pageno = b.pageno → ∀ p q, Position.ofValue? a.pos0 = .ok (some p) →
    Position.ofValue? b.pos0 = .ok (some q) → p.AreComparable q

/-- Annotations of one page are compared by their places first. -/
theorem exists_comparePlaces {o : Ordering} (hpage : a.pageno = b.pageno)
    (h : compare a b = .ok o) : ∃ o', comparePlaces a b = .ok o' := by
  rcases compare_eq_ok.1 h with ⟨hne, _⟩ | ⟨_, _, h⟩ | ⟨_, h, _⟩
  · exact absurd hpage hne
  · exact ⟨_, h⟩
  · exact ⟨_, h⟩

theorem exists_compare_iff (ha : a.IsData) (hb : b.IsData) (hp : ¬ Position.IsBroken a.pos0)
    (hq : ¬ Position.IsBroken b.pos0) : (∃ o, compare a b = .ok o) ↔ CanBeCompared a b := by
  obtain ⟨p, hp⟩ := (Position.exists_ofValue?_iff _).2 hp
  obtain ⟨q, hq⟩ := (Position.exists_ofValue?_iff _).2 hq
  obtain ⟨s, hs⟩ := ha.datetime.exists_moment
  obtain ⟨t, ht⟩ := hb.datetime.exists_moment
  have hplaces : CanBeCompared a b ↔ (a.pageno = b.pageno → PlacesComparable p q) := by
    unfold CanBeCompared PlacesComparable
    rw [hp, hq]
    simp only [Except.ok.injEq, Option.mem_def]
    exact ⟨fun h hpage x hx y hy => h hpage x y hx hy, fun h hpage x y hx hy => h hpage x hx y hy⟩
  rw [hplaces]
  constructor
  · rintro ⟨o, ho⟩ hpage
    obtain ⟨o, ho⟩ := exists_comparePlaces hpage ho
    obtain ⟨p', q', hp', hq', hpq, _⟩ := comparePlaces_eq_ok.1 ho
    cases hp.symm.trans hp'
    cases hq.symm.trans hq'
    exact hpq
  · intro h
    by_cases hpage : a.pageno = b.pageno
    · rw [compare_eq_then hp hq h]
      split
      · exact ⟨_, compareTimes_eq_ok.2 ⟨s, t, hs, ht, rfl⟩⟩
      · exact ⟨_, rfl⟩
    · exact ⟨_, compare_eq_ok.2 (.inl ⟨hpage, rfl⟩)⟩

/-- The places of both annotations are given by coordinates. -/
def AreByCoordinates (a b : Annotation) : Prop :=
  ∃ c d, Coordinates.ofValue? a.pos0 = .ok (some c) ∧ Coordinates.ofValue? b.pos0 = .ok (some d)

/-- The end of one annotation and the start of another are not so far apart that the way
between them is no floating-point number. -/
def EndsInReach (a b : Annotation) : Prop :=
  ∀ last first, Position.ofValue? a.pos1 = .ok (some last) →
    Position.ofValue? b.pos0 = .ok (some first) → last.node = first.node →
      ((first.offset : Int) - last.offset).natAbs < Binary64.overflow

/-- What the way from one annotation to another is measured by can be worked out: pages
where neither has a place, or else, on one page and but for coordinates, places. -/
structure CanBeMeasured (a b : Annotation) : Prop where
  pages : a.isPositioned = false → b.isPositioned = false →
    (b.pageno - a.pageno).natAbs < Binary64.overflow
  ends : a.pageno = b.pageno → ¬ AreByCoordinates a b →
    ¬ Position.IsBroken a.pos1 ∧ EndsInReach a b

theorem exists_wholeDistance_iff (n : Int) :
    (∃ d, wholeDistance n = .ok d) ↔ n.natAbs < Binary64.overflow := by
  rw [← Nat.not_le, ← Binary64.ofInt?_eq_none_iff]
  unfold wholeDistance
  cases Binary64.ofInt? n with
  | none => exact ⟨nofun, fun h => absurd rfl h⟩
  | some x => exact ⟨fun _ => nofun, fun _ => ⟨x, rfl⟩⟩

theorem textDistance_of_some {last first : Position}
    (hlast : Position.ofValue? a.pos1 = .ok (some last))
    (hfirst : Position.ofValue? b.pos0 = .ok (some first)) :
    textDistance a b =
      if last.node = first.node then wholeDistance ((first.offset : Int) - last.offset)
      else .ok (.infinity false) := by
  unfold textDistance
  rw [hlast, hfirst]
  rfl

theorem exists_textDistance_iff (hb : ¬ Position.IsBroken b.pos0) :
    (∃ d, textDistance a b = .ok d) ↔ ¬ Position.IsBroken a.pos1 ∧ EndsInReach a b := by
  rw [← Position.exists_ofValue?_iff]
  constructor
  · rintro ⟨d, hd⟩
    obtain ⟨p, hp, _⟩ := exists_of_bind_eq_ok hd
    refine ⟨⟨p, hp⟩, fun last first hlast hfirst hnode => ?_⟩
    rw [textDistance_of_some hlast hfirst, if_pos hnode] at hd
    exact (exists_wholeDistance_iff _).1 ⟨d, hd⟩
  · rintro ⟨⟨p, hp⟩, hreach⟩
    obtain ⟨q, hq⟩ := (Position.exists_ofValue?_iff _).2 hb
    cases p with
    | none =>
      unfold textDistance
      rw [hp, hq]
      exact ⟨_, rfl⟩
    | some last =>
      cases q with
      | none =>
        unfold textDistance
        rw [hp, hq]
        exact ⟨_, rfl⟩
      | some first =>
        rw [textDistance_of_some hp hq]
        split_ifs with hnode
        · exact (exists_wholeDistance_iff _).2 (hreach last first hp hq hnode)
        · exact ⟨_, rfl⟩

theorem distance_of_unpositioned (ha : a.isPositioned = false) (hb : b.isPositioned = false) :
    a.distance b = wholeDistance (b.pageno - a.pageno).natAbs := by
  simp only [distance, ha, hb, Bool.not_false, Bool.and_self, if_true]

theorem distance_of_positioned (h : ¬ (a.isPositioned = false ∧ b.isPositioned = false)) :
    a.distance b =
      if a.pageno ≠ b.pageno then .ok (.infinity false)
      else Coordinates.ofValue? a.pos0 >>= fun c => Coordinates.ofValue? b.pos0 >>= fun d =>
        match c, d with
        | some c, some d =>
          if ((c.y.sub d.y).abs.compareInt? nearby).any (· = .lt) then .ok .zero
          else .ok (.infinity false)
        | _, _ => textDistance a b := by
  have hnot : ¬ (!a.isPositioned && !b.isPositioned) = true := by simpa using h
  unfold distance
  rw [if_neg hnot]
  rfl

theorem exists_distance_iff_of_unpositioned (ha : a.isPositioned = false)
    (hb : b.isPositioned = false) : (∃ d, a.distance b = .ok d) ↔ CanBeMeasured a b := by
  have habsent : a.pos1.isTruthy = false := (Bool.or_eq_false_iff.1 ha).2
  rw [distance_of_unpositioned ha hb, exists_wholeDistance_iff, Int.natAbs_natCast]
  refine ⟨fun h => ⟨fun _ _ => h, fun _ _ => ⟨?_, ?_⟩⟩, fun h => h.pages ha hb⟩
  · exact Position.not_isBroken_of_absent habsent
  · intro last first hlast
    rw [Position.ofValue?_of_absent habsent] at hlast
    cases hlast

theorem exists_distance_iff_of_positioned (ha : ¬ Position.IsBroken a.pos0)
    (hb : ¬ Position.IsBroken b.pos0) (h : ¬ (a.isPositioned = false ∧ b.isPositioned = false)) :
    (∃ d, a.distance b = .ok d) ↔ (a.pageno = b.pageno → ¬ AreByCoordinates a b →
      ¬ Position.IsBroken a.pos1 ∧ EndsInReach a b) := by
  rw [distance_of_positioned h]
  by_cases hpage : a.pageno = b.pageno
  · rw [if_neg (not_not_intro hpage)]
    by_cases hboth : AreByCoordinates a b
    · refine ⟨fun _ _ h => absurd hboth h, fun _ => ?_⟩
      obtain ⟨c, d, hc, hd⟩ := hboth
      rw [hc, hd]
      dsimp only [bind, Except.bind]
      split_ifs <;> exact ⟨_, rfl⟩
    · have htext := exists_textDistance_iff (a := a) hb
      obtain ⟨c, hc⟩ := Position.exists_coordinates ha
      obtain ⟨d, hd⟩ := Position.exists_coordinates hb
      have hends : (a.pageno = b.pageno → ¬ AreByCoordinates a b →
          ¬ Position.IsBroken a.pos1 ∧ EndsInReach a b) ↔ ∃ e, textDistance a b = .ok e :=
        ⟨fun h => htext.2 (h hpage hboth), fun h _ _ => htext.1 h⟩
      rw [hends, hc, hd]
      rcases c with _ | c
      · exact Iff.rfl
      rcases d with _ | d
      · exact Iff.rfl
      · exact absurd ⟨c, d, hc, hd⟩ hboth
  · rw [if_pos hpage]
    exact ⟨fun _ h => absurd h hpage, fun _ => ⟨_, rfl⟩⟩

/-- The distance of two annotations is known exactly where it can be measured. -/
theorem exists_distance_iff (ha : ¬ Position.IsBroken a.pos0) (hb : ¬ Position.IsBroken b.pos0) :
    (∃ d, a.distance b = .ok d) ↔ CanBeMeasured a b := by
  by_cases h : a.isPositioned = false ∧ b.isPositioned = false
  · exact exists_distance_iff_of_unpositioned h.1 h.2
  · rw [exists_distance_iff_of_positioned ha hb h]
    exact ⟨fun hends => ⟨fun ha hb => absurd ⟨ha, hb⟩ h, hends⟩, fun hmeasured => hmeasured.ends⟩

/-- What an annotation needs by itself: text, colour and chapter are texts, if they are there,
and its place is not broken. -/
structure IsSound (a : Annotation) : Prop where
  text : a.text.IsTextual
  color : a.color.IsTextual
  chapter : a.chapter.IsTextual
  pos0 : ¬ Position.IsBroken a.pos0

instance (a : Annotation) : Decidable a.IsSound :=
  decidable_of_iff
    (a.text.IsTextual ∧ a.color.IsTextual ∧ a.chapter.IsTextual ∧ ¬ Position.IsBroken a.pos0)
    ⟨fun ⟨ht, hc, hch, hp⟩ => ⟨ht, hc, hch, hp⟩, fun h => ⟨h.text, h.color, h.chapter, h.pos0⟩⟩

/-- One annotation can be told apart from another, and measured to it unless it comes later. -/
structure IsInReach (a b : Annotation) : Prop where
  compared : CanBeCompared a b
  measured : compare a b ≠ .ok .gt → CanBeMeasured a b

/-- Where the places are not broken, this is what comparing and measuring take. -/
theorem isInReach_iff (ha : a.IsData) (hb : b.IsData) (hp : ¬ Position.IsBroken a.pos0)
    (hq : ¬ Position.IsBroken b.pos0) :
    IsInReach a b ↔ ∃ o, compare a b = .ok o ∧ (o ≠ .gt → ∃ d, a.distance b = .ok d) := by
  rw [exists_distance_iff hp hq]
  constructor
  · intro h
    obtain ⟨o, ho⟩ := (exists_compare_iff ha hb hp hq).2 h.compared
    exact ⟨o, ho, fun hgt => h.measured fun hcmp => hgt (Except.ok.inj (ho.symm.trans hcmp))⟩
  · rintro ⟨o, ho, h⟩
    refine ⟨(exists_compare_iff ha hb hp hq).1 ⟨o, ho⟩, fun hgt => h fun heq => hgt ?_⟩
    rw [ho, heq]

end Annotation
end Marginalia
