import Marginalia.Proofs.Sorting.Search
import Marginalia.Sorting.Merge

/-
What a merge makes of two runs.  Nothing is assumed of the comparison, so the
result need not be in order.  It interleaves the runs, and any two neighbours in
it have been compared and found to follow each other.
-/
namespace Marginalia
namespace Sorting

variable {α ε : Type} {E : ε → Prop} {S : α → α → Prop}

/-- A comparison has found that `v` may stand right behind `u`. -/
def Follows (lt : α → α → Except ε Bool) (u v : α) : Prop :=
  lt v u = .ok false ∨ lt u v = .ok true

/-- Comparing two items, either way, fails with no error but those in `E`. -/
def Comparable (E : ε → Prop) (lt : α → α → Except ε Bool) (a b : α) : Prop :=
  ∀ e, lt a b = .error e ∨ lt b a = .error e → E e

theorem Comparable.symm {lt : α → α → Except ε Bool} {a b : α} (h : Comparable E lt a b) :
    Comparable E lt b a :=
  fun e he => h e he.symm

/-- The items of two lists, each in its order. -/
inductive Interleaves : List α → List α → List α → Prop where
  | nil : Interleaves [] [] []
  | left {xs ys zs : List α} (x : α) : Interleaves xs ys zs → Interleaves (x :: xs) ys (x :: zs)
  | right {xs ys zs : List α} (y : α) : Interleaves xs ys zs → Interleaves xs (y :: ys) (y :: zs)

namespace Interleaves

variable {xs ys zs xs' ys' zs' : List α}

theorem of_left (xs : List α) : Interleaves xs [] xs := by
  induction xs with
  | nil => exact .nil
  | cons x xs ih => exact .left x ih

theorem of_right (ys : List α) : Interleaves [] ys ys := by
  induction ys with
  | nil => exact .nil
  | cons y ys ih => exact .right y ih

theorem append (h : Interleaves xs ys zs) (h' : Interleaves xs' ys' zs') :
    Interleaves (xs ++ xs') (ys ++ ys') (zs ++ zs') := by
  induction h with
  | nil => exact h'
  | left x _ ih => exact .left x ih
  | right y _ ih => exact .right y ih

theorem symm (h : Interleaves xs ys zs) : Interleaves ys xs zs := by
  induction h with
  | nil => exact .nil
  | left x _ ih => exact .right x ih
  | right y _ ih => exact .left y ih

theorem reverse (h : Interleaves xs ys zs) :
    Interleaves xs.reverse ys.reverse zs.reverse := by
  induction h with
  | nil => exact .nil
  | left x _ ih => simpa using ih.append (of_left [x])
  | right y _ ih => simpa using ih.append (of_right [y])

theorem perm (h : Interleaves xs ys zs) : zs.Perm (xs ++ ys) := by
  induction h with
  | nil => exact .nil
  | left x _ ih => exact ih.cons x
  | right y _ ih => exact (ih.cons y).trans List.perm_middle.symm

theorem head? (h : Interleaves xs ys zs) : ∀ z ∈ zs.head?, z ∈ xs.head? ∨ z ∈ ys.head? := by
  cases h with
  | nil => simp
  | left x _ => simp
  | right y _ => simp

theorem getLast? (h : Interleaves xs ys zs) :
    ∀ z ∈ zs.getLast?, z ∈ xs.getLast? ∨ z ∈ ys.getLast? := by
  simpa using h.reverse.head?

end Interleaves

/-- A direction agrees with a relation between items that go out and those that
go out next. -/
structure Direction.Respects (d : Direction α ε) (S : α → α → Prop) : Prop where
  passes : ∀ {y x}, d.passes y x = .ok true → S y x
  waits : ∀ {y x}, d.passes y x = .ok false → S x y
  finds : Finds d.narrow

theorem Direction.upward_respects (lt : α → α → Except ε Bool) :
    (Direction.upward lt).Respects (Follows lt) :=
  ⟨fun h => .inr h, fun h => .inl h, finds_halve⟩

theorem Direction.downward_respects (lt : α → α → Except ε Bool) :
    (Direction.downward lt).Respects fun u v => Follows lt v u :=
  ⟨fun h => .inr h, fun h => .inl h, finds_halveReversed⟩

/-- What went out and what is left of two runs fit together, and the held run
has the item that goes out last. -/
structure Joins (S : α → α → Prop) (out held other : List α) : Prop where
  heldChain : (out ++ held).IsChain S
  otherChain : (out ++ other).IsChain S
  last : ∀ y ∈ other.getLast?, ∀ x ∈ held.getLast?, S y x

namespace Merging

variable {d : Direction α ε} {s : Merging α} {out xs ys : List α} {x y : α}

/-- No comparison between what is left of the runs fails but with an error in
`E`. -/
def Guarded (E : ε → Prop) (d : Direction α ε) (held other : List α) : Prop :=
  ∀ x ∈ held, ∀ y ∈ other, ∀ e, d.passes y x = .error e → E e

/-- A step puts out items from the front of both runs. -/
structure Emits (S : α → α → Prop) (out held other : List α) (r : List α × Merging α) :
    Prop where
  split : ∃ hs os, held = hs ++ r.2.held ∧ other = os ++ r.2.other ∧ Interleaves hs os r.1
  joins : Joins S (out ++ r.1) r.2.held r.2.other

/-- A stretch of one run and the first item of the other go out. -/
theorem isChain_stretch (before : List α) {after bs : List α} {b : α}
    (ha : (out ++ (before ++ after)).IsChain S) (hb : (out ++ b :: bs).IsChain S)
    (hbefore : ∀ u ∈ before.getLast?, S u b) (hafter : ∀ v ∈ after.head?, S b v) :
    (out ++ (before ++ [b]) ++ after).IsChain S ∧ (out ++ (before ++ [b]) ++ bs).IsChain S := by
  have hb' : (b :: bs).IsChain S := hb.right_of_append
  have hout : (out ++ (before ++ [b])).IsChain S := by
    rw [← List.append_assoc] at ha ⊢
    refine List.IsChain.append ha.left_of_append (.singleton b) fun u hu v hv => ?_
    have hv : v = b := by simpa using hv.symm
    subst hv
    cases hl : before.getLast? with
    | some w =>
      have hu : u = w := by simpa [hl] using hu.symm
      exact hu ▸ hbefore w hl
    | none =>
      have hu : u ∈ out.getLast? := by simpa [hl] using hu
      exact (List.isChain_append.1 hb).2.2 u hu v rfl
  have hlast : ∀ u ∈ (out ++ (before ++ [b])).getLast?, u = b := by
    intro u hu
    simpa using hu.symm
  constructor
  · refine hout.append ha.right_of_append.right_of_append fun u hu v hv => ?_
    exact hlast u hu ▸ hafter v hv
  · refine hout.append hb'.tail fun u hu v hv => ?_
    exact hlast u hu ▸ hb'.rel_head? hv

theorem leapHeld_emits (hd : d.Respects S) (hy : s.other = y :: ys)
    (hj : Joins S out s.held s.other) (hE : Guarded E d s.held s.other) :
    Ensures E (Emits S out s.held s.other) (leapHeld d s y ys) := by
  have htest : ∀ x ∈ s.held, ∀ e, negated (d.passes y) x = .error e → E e := by
    intro x hx e he
    exact hE x hx y (by simp [hy]) e (negated_eq_error.1 he)
  refine Ensures.bind (finds_gallop hd.finds htest) fun n hn => ?_
  obtain ⟨before, after, hheld, rfl, hp⟩ := hn
  have hchains := isChain_stretch before (hheld ▸ hj.heldChain) (hy ▸ hj.otherChain)
    (fun u hu => hd.waits (negated_eq_ok.1 (hp.passes u hu)))
    (fun v hv => hd.passes (negated_eq_ok.1 (hp.fails v hv)))
  show Emits S out s.held s.other (s.held.take before.length ++ [y], _)
  rw [hheld, List.take_left, List.drop_left]
  refine ⟨⟨before, [y], rfl, hy, ?_⟩, hchains.1, hchains.2, ?_⟩
  · simpa using (Interleaves.of_left before).append (Interleaves.of_right [y])
  · intro v hv u hu
    refine hj.last v ?_ u ?_
    · exact hy ▸ List.mem_getLast?_cons hv
    · exact hheld ▸ List.mem_getLast?_append_of_mem_getLast? hu

theorem leapOther_emits (hd : d.Respects S) (hx : s.held = x :: xs)
    (hj : Joins S out s.held s.other) (hE : Guarded E d s.held s.other) :
    Ensures E (Emits S out s.held s.other) (leapOther d s x xs) := by
  have htest : ∀ y ∈ s.other, ∀ e, d.passes y x = .error e → E e := by
    intro y hy e he
    exact hE x (by simp [hx]) y hy e he
  refine Ensures.bind (finds_gallop hd.finds htest) fun n hn => ?_
  obtain ⟨before, after, hother, rfl, hp⟩ := hn
  have hchains := isChain_stretch before (hother ▸ hj.otherChain) (hx ▸ hj.heldChain)
    (fun u hu => hd.passes (hp.passes u hu)) (fun v hv => hd.waits (hp.fails v hv))
  show Emits S out s.held s.other (s.other.take before.length ++ [x], _)
  rw [hother, List.take_left, List.drop_left]
  refine ⟨⟨[x], before, hx, rfl, ?_⟩, hchains.2, hchains.1, ?_⟩
  · simpa using (Interleaves.of_right before).append (Interleaves.of_left [x])
  · intro v hv u hu
    refine hj.last v ?_ u ?_
    · exact hother ▸ List.mem_getLast?_append_of_mem_getLast? hv
    · exact hx ▸ List.mem_getLast?_cons hu

theorem single_emits {helds others : Nat} (hd : d.Respects S) (hx : s.held = x :: xs)
    (hy : s.other = y :: ys) (hj : Joins S out s.held s.other) (hE : Guarded E d s.held s.other) :
    Ensures E (Emits S out s.held s.other) (single d s helds others x xs y ys) := by
  have hpasses := hE x (by simp [hx]) y (by simp [hy])
  refine Ensures.bind (Ensures.self hpasses) fun b hb => ?_
  cases b with
  | true =>
    have hchains := isChain_stretch [] hj.heldChain (hy ▸ hj.otherChain)
      (by simp) (by simpa [hx] using hd.passes hb)
    refine ⟨⟨[], [y], rfl, hy, .of_right [y]⟩, hchains.1, hchains.2, ?_⟩
    intro v hv u hu
    exact hj.last v (hy ▸ List.mem_getLast?_cons hv) u hu
  | false =>
    have hchains := isChain_stretch [] hj.otherChain (hx ▸ hj.heldChain)
      (by simp) (by simpa [hy] using hd.waits hb)
    refine ⟨⟨[x], [], hx, rfl, .of_left [x]⟩, hchains.2, hchains.1, ?_⟩
    intro v hv u hu
    exact hj.last v hv u (hx ▸ List.mem_getLast?_cons hu)

theorem step_emits (hd : d.Respects S) (hx : s.held = x :: xs) (hy : s.other = y :: ys)
    (hj : Joins S out s.held s.other) (hE : Guarded E d s.held s.other) :
    Ensures E (Emits S out s.held s.other) (step d s x xs y ys) := by
  have hheld := leapHeld_emits (s := { s with kept := s.bar }) hd hy hj hE
  have hother := leapOther_emits (s := { s with kept := s.bar }) hd hx hj hE
  unfold step advance
  split
  · exact single_emits (s := { s with kept := s.bar }) hd hx hy hj hE
  · split
    · exact hheld
    · exact hother
  · split
    · exact hother
    · exact hheld

/-- A whole merge, after `out` went out. -/
theorem run_ensures (hd : d.Respects S) (hj : Joins S out s.held s.other)
    (hE : Guarded E d s.held s.other) :
    Ensures E (fun r => Interleaves s.held s.other r.1 ∧ (out ++ r.1).IsChain S) (run d s) := by
  fun_induction run d s generalizing out with
  | case1 s hheld => exact ⟨hheld ▸ .of_right s.other, hj.otherChain⟩
  | case2 s hother => exact ⟨hother ▸ .of_left s.held, hj.heldChain⟩
  | case3 s x hheld hne =>
    refine ⟨by simpa [hheld] using (Interleaves.of_right s.other).append (.of_left [x]), ?_⟩
    show (out ++ (s.other ++ [x])).IsChain S
    rw [← List.append_assoc]
    refine hj.otherChain.append (.singleton x) fun u hu v hv => ?_
    have hv : v = x := by simpa using hv.symm
    subst hv
    refine hj.last u ?_ v (by simp [hheld])
    rwa [List.getLast?_append_of_ne_nil out hne] at hu
  | case4 s x xs y ys _ hheld hother e h =>
    exact (step_emits hd hheld hother hj hE).of_eq_error h
  | case5 s x xs y ys _ hheld hother o t h ih =>
    have hemits := (step_emits hd hheld hother hj hE).of_eq_ok h
    obtain ⟨hs, os, hsplit, osplit, hio⟩ := hemits.split
    have hguard : Guarded E d t.held t.other := by
      intro x hx y hy
      exact hE x (by simp [hsplit, hx]) y (by simp [osplit, hy])
    refine Ensures.bind (ih hemits.joins hguard) fun r hr => ⟨?_, ?_⟩
    · rw [hsplit, osplit]
      exact hio.append hr.1
    · simpa using hr.2

end Merging

/-- Two runs such that the other one starts and the held one ends. -/
structure Facing (S : α → α → Prop) (held other : List α) : Prop where
  heldChain : held.IsChain S
  otherChain : other.IsChain S
  first : ∀ y ∈ other.head?, ∀ x ∈ held.head?, S y x
  last : ∀ y ∈ other.getLast?, ∀ x ∈ held.getLast?, S y x

/-- The result of a merge of two runs. -/
def Merges (S : α → α → Prop) (xs ys zs : List α) : Prop :=
  Interleaves xs ys zs ∧ zs.IsChain S

theorem mergeToward_ensures {d : Direction α ε} {bar : Nat} {held other : List α}
    (hd : d.Respects S) (hf : Facing S held other) (hE : Merging.Guarded E d held other) :
    Ensures E (fun r => Merges S held other r.1) (mergeToward d bar held other) := by
  cases other with
  | nil => exact ⟨.of_left held, hf.heldChain⟩
  | cons y ys =>
    have hj : Joins S [y] held ys := by
      refine ⟨hf.heldChain.cons fun x hx => hf.first y rfl x hx, hf.otherChain, ?_⟩
      intro v hv
      exact hf.last v (List.mem_getLast?_cons hv)
    have hguard : Merging.Guarded E d held ys := fun x hx v hv => hE x hx v (by simp [hv])
    refine Ensures.bind (Merging.run_ensures (s := ⟨held, ys, .single 0 0, bar, bar⟩) hd hj hguard)
      fun r hr => ?_
    exact ⟨.right y hr.1, hr.2⟩

/-! ## Neighbouring runs -/

variable {lt : α → α → Except ε Bool} {as bs : List α}

theorem mergeBoth_ensures {bar : Nat} (hf : Facing (Follows lt) as bs)
    (hE : ∀ a ∈ as, ∀ b ∈ bs, Comparable E lt a b) :
    Ensures E (fun r => Merges (Follows lt) as bs r.1) (mergeBoth lt bar as bs) := by
  unfold mergeBoth
  split
  · refine mergeToward_ensures (Direction.upward_respects lt) hf ?_
    intro a ha b hb e he
    exact hE a ha b hb e (.inr he)
  · have hback : Facing (fun u v => Follows lt v u) bs.reverse as.reverse := by
      refine ⟨List.isChain_reverse.2 hf.otherChain, List.isChain_reverse.2 hf.heldChain, ?_, ?_⟩
      · intro a ha b hb
        exact hf.last b (by simpa using hb) a (by simpa using ha)
      · intro a ha b hb
        exact hf.first b (by simpa using hb) a (by simpa using ha)
    have hguard : Merging.Guarded E (.downward lt) bs.reverse as.reverse := by
      intro b hb a ha e he
      exact hE a (by simpa using ha) b (by simpa using hb) e (.inr he)
    refine Ensures.bind (mergeToward_ensures (Direction.downward_respects lt) hback hguard)
      fun r hr => ⟨?_, List.isChain_reverse.2 hr.2⟩
    simpa using hr.1.symm.reverse

/-- A list that holds what another one holds, in an order in which neighbours
have been found to follow each other. -/
structure Ordered (lt : α → α → Except ε Bool) (xs zs : List α) : Prop where
  perm : zs.Perm xs
  chain : zs.IsChain (Follows lt)

/-- The ends of two runs stay where they are around a merge of their middles. -/
theorem ordered_around {low low' high' high middle : List α} (hne : low' ≠ [])
    (hlow : (low ++ low').IsChain (Follows lt)) (hhigh : (high' ++ high).IsChain (Follows lt))
    (hm : Merges (Follows lt) low' high' middle)
    (hstart : ∀ u ∈ low.getLast?, ∀ v ∈ high'.head?, Follows lt u v)
    (hend : ∀ u ∈ low'.getLast?, ∀ v ∈ high.head?, Follows lt u v) :
    Ordered lt (low ++ low' ++ (high' ++ high)) (low ++ middle ++ high) := by
  have hperm := hm.1.perm
  have hmiddle : middle ≠ [] := by
    intro he
    subst he
    exact hne (List.append_eq_nil_iff.1 (List.nil_perm.1 hperm)).1
  constructor
  · rw [List.append_assoc, List.append_assoc, ← List.append_assoc low']
    exact (hperm.append_right high).append_left low
  · refine List.IsChain.append (hlow.left_of_append.append hm.2 ?_) hhigh.right_of_append ?_
    · intro u hu v hv
      rcases hm.1.head? v hv with hv | hv
      · exact (List.isChain_append.1 hlow).2.2 u hu v hv
      · exact hstart u hu v hv
    · intro u hu v hv
      rw [List.getLast?_append_of_ne_nil low hmiddle] at hu
      rcases hm.1.getLast? u hu with hu | hu
      · exact hend u hu v hv
      · exact (List.isChain_append.1 hhigh).2.2 u hu v hv

/-- What is left of two runs once the items that need not move are taken away: the
first item left of the second run comes before the first one left of the first
run, and so with the last ones. -/
theorem facing_of_parts {low low' high' high : List α} {a b : α}
    (hlow : (low ++ low').IsChain (Follows lt)) (hhigh : (high' ++ high).IsChain (Follows lt))
    (hp : Parts (negated (lt b)) low low') (hq : Parts (fun y => lt y a) high' high)
    (hlast : low'.getLast? = some a) (hhead : ∀ v ∈ high'.head?, v = b) :
    Facing (Follows lt) low' high' where
  heldChain := hlow.right_of_append
  otherChain := hhigh.left_of_append
  first := fun v hv u hu => hhead v hv ▸ .inr (negated_eq_ok.1 (hp.fails u hu))
  last := by
    intro v hv u hu
    have hu : u = a := by simpa [hlast] using hu.symm
    exact hu ▸ .inr (hq.passes v hv)

theorem mergeRuns_ensures {bar : Nat} (ha : as.IsChain (Follows lt))
    (hb : bs.IsChain (Follows lt)) (hE : ∀ a ∈ as, ∀ b ∈ bs, Comparable E lt a b) :
    Ensures E (fun r => Ordered lt (as ++ bs) r.1) (mergeRuns lt bar as bs) := by
  cases bs with
  | nil => exact ⟨by simp, ha⟩
  | cons b rest =>
    have hbefore : ∀ a ∈ as, ∀ e, negated (lt b) a = .error e → E e := by
      intro a ha e he
      exact hE a ha b (by simp) e (.inr (negated_eq_error.1 he))
    refine Ensures.bind (finds_gallop finds_halve hbefore) fun low hlow => ?_
    obtain ⟨low, low', rfl, rfl, hp⟩ := hlow
    have hstart : ∀ u ∈ low.getLast?, Follows lt u b :=
      fun u hu => .inl (negated_eq_ok.1 (hp.passes u hu))
    rw [List.drop_left, List.take_left]
    cases hlast : low'.getLast? with
    -- no item of the first run has to move
    | none =>
      have hnil : low' = [] := List.getLast?_eq_none_iff.1 hlast
      subst hnil
      refine ⟨.refl _, ha.append hb fun u hu v hv => ?_⟩
      have hv : v = b := by simpa using hv.symm
      exact hv ▸ hstart u (by simpa using hu)
    | some a =>
      have hne : low' ≠ [] := by
        intro he
        simp [he] at hlast
      have hmem : a ∈ low ++ low' := by simp [List.mem_of_getLast? hlast]
      have hafter : ∀ v ∈ (b :: rest).reverse, ∀ e,
          negated (fun y => lt y a) v = .error e → E e := by
        intro v hv e he
        exact hE a hmem v (List.mem_reverse.1 hv) e (.inr (negated_eq_error.1 he))
      refine Ensures.bind (finds_gallop finds_halveReversed hafter) fun high hhigh => ?_
      obtain ⟨high', high, hbs, hcut, hq⟩ := hhigh.reversed
      have hend : ∀ u ∈ low'.getLast?, ∀ v ∈ high.head?, Follows lt u v := by
        intro u hu v hv
        have hu : u = a := by simpa [hlast] using hu.symm
        exact hu ▸ .inl (hq.fails v hv)
      simp only [hcut]
      split
      -- no item of the second run has to move
      · rename_i hzero
        have hnil : high' = [] := List.eq_nil_of_length_eq_zero hzero
        subst hnil
        rw [hbs]
        exact (ordered_around hne ha (hbs ▸ hb) ⟨.of_left low', ha.right_of_append⟩ (by simp) hend)
      · rename_i hzero
        have hhead : ∀ v ∈ high'.head?, v = b := by
          intro v hv
          have : v ∈ (high' ++ high).head? := List.mem_head?_append_of_mem_head? hv
          simpa [← hbs] using this.symm
        have hf := facing_of_parts ha (hbs ▸ hb) hp hq hlast hhead
        have hcompare : ∀ u ∈ low', ∀ v ∈ high', Comparable E lt u v := by
          intro u hu v hv
          exact hE u (by simp [hu]) v (by simp [hbs, hv])
        rw [hbs, List.take_left, List.drop_left]
        refine Ensures.bind (mergeBoth_ensures hf hcompare) fun r hr => ?_
        exact ordered_around hne ha (hbs ▸ hb) hr (fun u hu v hv => hhead v hv ▸ hstart u hu) hend

end Sorting
end Marginalia
