import Marginalia.Proofs.Annotation.Group
import Marginalia.Proofs.Annotation.Reach
import Marginalia.Proofs.Number.Comparison

/-
The one way to cut annotations into groups.  The groups that annotations are split into lose
none of them, join the neighbours that are within the gap, and part the others; and no other
groups of the same annotations do.
-/
namespace Marginalia

namespace Gap

/-- How a distance compares with a gap; with a gap that is not a number it does not. -/
def order? (g : Gap) (d : Binary64) : Option Ordering :=
  match g with
  | .whole n => d.compareInt? n
  | .real x => d.compare? x

/-- The distance is greater than the gap. -/
def IsExceededBy (g : Gap) (d : Binary64) : Prop := g.order? d = some .gt

/-- The distance is not within the gap, and greater than it if the gap is a number. -/
structure IsMissedBy (g : Gap) (d : Binary64) : Prop where
  not_allowed : g.allows d = false
  exceeded : g ≠ .real .nan → g.IsExceededBy d

theorem allows_eq (g : Gap) (d : Binary64) : g.allows d = (g.order? d).any (· ≠ .gt) := by
  cases g <;> rfl

theorem exists_order? {g : Gap} {d : Binary64} (hg : g ≠ .real .nan) (hd : d ≠ .nan) :
    ∃ o, g.order? d = some o := by
  cases g with
  | whole n => exact Binary64.exists_compareInt?_of_ne_nan hd n
  | real x =>
    apply Binary64.exists_compare?_of_ne_nan hd
    intro hx
    exact hg (congrArg Gap.real hx)

theorem isMissedBy_iff {g : Gap} {d : Binary64} (hd : d ≠ .nan) :
    g.IsMissedBy d ↔ g.allows d = false := by
  refine ⟨fun h => h.not_allowed, fun h => ⟨h, fun hg => ?_⟩⟩
  obtain ⟨o, ho⟩ := exists_order? hg hd
  rw [allows_eq, ho] at h
  show g.order? d = some .gt
  rw [ho]
  simpa using h

end Gap

namespace Annotation

variable {a b : Annotation} {d : Binary64}

theorem wholeDistance_ne_nan {n : Int} (h : wholeDistance n = .ok d) : d ≠ .nan := by
  unfold wholeDistance at h
  split at h
  · rename_i x hx
    cases h
    exact Binary64.ofInt?_ne_nan hx
  · cases h

theorem textDistance_ne_nan (h : textDistance a b = .ok d) : d ≠ .nan := by
  obtain ⟨last, _, h⟩ := exists_of_bind_eq_ok h
  obtain ⟨first, _, h⟩ := exists_of_bind_eq_ok h
  split at h
  · split at h
    · exact wholeDistance_ne_nan h
    · cases h
      nofun
  · cases h
    nofun

/-- A distance is always a number, though it may be infinite. -/
theorem distance_ne_nan (h : a.distance b = .ok d) : d ≠ .nan := by
  by_cases hplaces : a.isPositioned = false ∧ b.isPositioned = false
  · rw [distance_of_unpositioned hplaces.1 hplaces.2] at h
    exact wholeDistance_ne_nan h
  · rw [distance_of_positioned hplaces] at h
    split at h
    · cases h
      nofun
    · obtain ⟨c, _, h⟩ := exists_of_bind_eq_ok h
      obtain ⟨c', _, h⟩ := exists_of_bind_eq_ok h
      split at h
      · split at h
        · cases h
          nofun
        · cases h
          nofun
      · exact textDistance_ne_nan h

end Annotation

namespace Group

variable {gap : Gap} {contiguousGap : Int} {a b : Annotation} {as : List Annotation}
  {s : Separator} {g : Group} {gs : List Group}

/-- Two annotations are within the gap, and `s` is the separator for their distance. -/
def Joins (gap : Gap) (contiguousGap : Int) (a b : Annotation) (s : Separator) : Prop :=
  ∃ d, a.distance b = .ok d ∧ gap.allows d ∧
    s.text = if (Gap.whole contiguousGap).allows d then [' '] else " [...] ".toList

/-- Two annotations are not within the gap. -/
def Parts (gap : Gap) (a b : Annotation) : Prop :=
  ∃ d, a.distance b = .ok d ∧ gap.IsMissedBy d

/-- Any two neighbours in a group are joined by the separator at their place. -/
def IsJoined (gap : Gap) (contiguousGap : Int) (g : Group) : Prop :=
  ∀ (i : Nat) (a b : Annotation), g.annotations[i]? = some a → g.annotations[i + 1]? = some b →
    ∃ s, g.separators[i]? = some s ∧ Joins gap contiguousGap a b s

/-- Groups that annotations are cut into wherever two neighbours are not within the gap, and
nowhere else. -/
structure IsPartition (gap : Gap) (contiguousGap : Int) (as : List Annotation)
    (gs : List Group) : Prop extends Splits as gs where
  joined : ∀ g ∈ gs, IsJoined gap contiguousGap g
  parted : gs.IsChain fun g h =>
    ∀ a ∈ g.annotations.getLast?, ∀ b ∈ h.annotations.head?, Parts gap a b

/-! ## Neighbours -/

theorem joins_iff : Joins gap contiguousGap a b s ↔
    ∃ d, a.distance b = .ok d ∧ gap.allows d ∧ s = Separator.pick contiguousGap d := by
  have hpick (d : Binary64) : (s.text =
      if (Gap.whole contiguousGap).allows d then [' '] else " [...] ".toList) ↔
      s = Separator.pick contiguousGap d := by
    show (s.text = if (d.compareInt? contiguousGap).any (· ≠ .gt) then [' '] else " [...] ".toList) ↔
      s = if (d.compareInt? contiguousGap).any (· ≠ .gt) then .contiguous else .gap
    by_cases hclose : (d.compareInt? contiguousGap).any (· ≠ .gt)
    · rw [if_pos hclose, if_pos hclose]
      cases s <;> decide
    · rw [if_neg hclose, if_neg hclose]
      cases s <;> decide
  unfold Joins
  simp only [hpick]

theorem isJoined_single (a : Annotation) : IsJoined gap contiguousGap ⟨[a], []⟩ := by
  intro i x y hx hy
  simp at hy

theorem isJoined_cons {ss : List Separator} :
    IsJoined gap contiguousGap ⟨a :: b :: as, s :: ss⟩ ↔
      Joins gap contiguousGap a b s ∧ IsJoined gap contiguousGap ⟨b :: as, ss⟩ := by
  constructor
  · intro h
    obtain ⟨s', hs', hjoins⟩ := h 0 a b rfl rfl
    cases hs'
    exact ⟨hjoins, fun i => h (i + 1)⟩
  · rintro ⟨hjoins, h⟩ i x y hx hy
    cases i with
    | zero =>
      cases hx
      cases hy
      exact ⟨s, rfl, hjoins⟩
    | succ i => exact h i x y hx hy

/-! ## Groups -/

theorem splits_nil_iff : Splits [] gs ↔ gs = [] := by
  constructor
  · intro h
    cases gs with
    | nil => rfl
    | cons g rest =>
      have hempty : g.annotations ++ rest.flatMap (·.annotations) = [] := h.annotations
      exact absurd (List.append_eq_nil_iff.1 hempty).1 (h.ne_nil List.mem_cons_self)
  · rintro rfl
    exact ⟨rfl, nofun⟩

/-- The first group starts with the first annotation. -/
theorem Splits.exists_first (h : Splits (a :: as) gs) :
    ∃ rest ss ks, gs = ⟨a :: rest, ss⟩ :: ks ∧ rest.length = ss.length := by
  cases gs with
  | nil => exact absurd h.annotations.symm (List.cons_ne_nil a as)
  | cons g ks =>
    obtain ⟨xs, ss⟩ := g
    have hpaired : ss.length + 1 = xs.length := h.paired _ List.mem_cons_self
    cases xs with
    | nil => exact absurd hpaired (Nat.succ_ne_zero _)
    | cons x rest =>
      have hall : x :: (rest ++ ks.flatMap (·.annotations)) = a :: as := h.annotations
      obtain ⟨rfl, _⟩ := List.cons_eq_cons.1 hall
      refine ⟨rest, ss, ks, rfl, ?_⟩
      rw [List.length_cons] at hpaired
      omega

theorem splits_start_iff : Splits (a :: as) (⟨[a], []⟩ :: gs) ↔ Splits as gs := by
  refine ⟨fun h => ⟨?_, fun g hg => h.paired g (List.mem_cons_of_mem _ hg)⟩, Splits.start a⟩
  exact List.tail_eq_of_cons_eq h.annotations

theorem splits_extend_iff {rest : List Annotation} {ss : List Separator} (hne : as ≠ []) :
    Splits (a :: as) (⟨a :: rest, s :: ss⟩ :: gs) ↔ Splits as (⟨rest, ss⟩ :: gs) := by
  refine ⟨fun h => ⟨List.tail_eq_of_cons_eq h.annotations, ?_⟩, fun h => h.extend a s hne⟩
  intro g hg
  rcases List.mem_cons.1 hg with rfl | hg
  · have := h.paired _ List.mem_cons_self
    simp only [List.length_cons] at this ⊢
    omega
  · exact h.paired g (List.mem_cons_of_mem _ hg)

/-- An annotation that starts a group of its own is parted from the next one. -/
theorem isPartition_start_iff : IsPartition gap contiguousGap (a :: b :: as) (⟨[a], []⟩ :: gs) ↔
    Parts gap a b ∧ IsPartition gap contiguousGap (b :: as) gs := by
  constructor
  · intro h
    have hsplits := splits_start_iff.1 h.toSplits
    obtain ⟨rest, ss, ks, rfl, _⟩ := hsplits.exists_first
    obtain ⟨hparts, hparted⟩ := List.isChain_cons_cons.1 h.parted
    exact ⟨hparts a rfl b rfl, hsplits, fun g hg => h.joined g (List.mem_cons_of_mem _ hg),
      hparted⟩
  · rintro ⟨hparts, h⟩
    refine ⟨splits_start_iff.2 h.toSplits, ?_, ?_⟩
    · exact List.forall_mem_cons.2 ⟨isJoined_single a, h.joined⟩
    · obtain ⟨rest, ss, ks, rfl, _⟩ := h.toSplits.exists_first
      refine List.isChain_cons_cons.2 ⟨?_, h.parted⟩
      intro x hx y hy
      cases hx
      cases hy
      exact hparts

/-- An annotation that starts a group with others is joined to the next one. -/
theorem isPartition_extend_iff {rest : List Annotation} {ss : List Separator} :
    IsPartition gap contiguousGap (a :: b :: as) (⟨a :: b :: rest, s :: ss⟩ :: gs) ↔
      Joins gap contiguousGap a b s ∧
        IsPartition gap contiguousGap (b :: as) (⟨b :: rest, ss⟩ :: gs) := by
  have hlast : (a :: b :: rest).getLast? = (b :: rest).getLast? := List.getLast?_cons_cons
  have hsplits : Splits (a :: b :: as) (⟨a :: b :: rest, s :: ss⟩ :: gs) ↔
      Splits (b :: as) (⟨b :: rest, ss⟩ :: gs) := splits_extend_iff (List.cons_ne_nil b as)
  constructor
  · intro h
    obtain ⟨hfirst, hothers⟩ := List.forall_mem_cons.1 h.joined
    obtain ⟨hjoins, hfirst⟩ := isJoined_cons.1 hfirst
    refine ⟨hjoins, hsplits.1 h.toSplits, List.forall_mem_cons.2 ⟨hfirst, hothers⟩, ?_⟩
    have hparted := h.parted
    rw [List.isChain_cons] at hparted ⊢
    dsimp only at hparted ⊢
    rw [hlast] at hparted
    exact hparted
  · rintro ⟨hjoins, h⟩
    obtain ⟨hfirst, hothers⟩ := List.forall_mem_cons.1 h.joined
    refine ⟨hsplits.2 h.toSplits,
      List.forall_mem_cons.2 ⟨isJoined_cons.2 ⟨hjoins, hfirst⟩, hothers⟩, ?_⟩
    have hparted := h.parted
    rw [List.isChain_cons] at hparted ⊢
    dsimp only at hparted ⊢
    rw [hlast]
    exact hparted

/-! ## Splitting -/

theorem isPartition_single_iff : IsPartition gap contiguousGap [a] gs ↔ gs = [⟨[a], []⟩] := by
  constructor
  · intro h
    obtain ⟨rest, ss, ks, rfl, hlength⟩ := h.toSplits.exists_first
    have hall : rest ++ ks.flatMap (·.annotations) = [] :=
      List.tail_eq_of_cons_eq h.toSplits.annotations
    obtain ⟨rfl, _⟩ := List.append_eq_nil_iff.1 hall
    obtain rfl : ss = [] := List.eq_nil_of_length_eq_zero hlength.symm
    rw [splits_nil_iff.1 (splits_start_iff.1 h.toSplits)]
  · rintro rfl
    refine ⟨splits_start_iff.2 (splits_nil_iff.2 rfl), ?_, List.isChain_singleton _⟩
    exact List.forall_mem_singleton.2 (isJoined_single a)

theorem startingWith_eq_ok_iff : startingWith gap contiguousGap a as = .ok gs ↔
    IsPartition gap contiguousGap (a :: as) gs := by
  induction as generalizing a gs with
  | nil =>
    rw [isPartition_single_iff]
    exact ⟨fun h => (Except.ok.inj h).symm, fun h => congrArg Except.ok h.symm⟩
  | cons b as ih =>
    constructor
    · intro h
      obtain ⟨d, hd, h⟩ := exists_of_bind_eq_ok h
      obtain ⟨ks, hks, h⟩ := exists_of_bind_eq_ok h
      have hothers := ih.1 hks
      by_cases hgap : gap.allows d
      · rw [if_pos hgap] at h
        obtain ⟨rest, ss, ks, rfl, _⟩ := hothers.toSplits.exists_first
        cases h
        exact isPartition_extend_iff.2 ⟨joins_iff.2 ⟨d, hd, hgap, rfl⟩, hothers⟩
      · rw [if_neg hgap] at h
        cases h
        have hne : d ≠ .nan := Annotation.distance_ne_nan hd
        have hmissed := (Gap.isMissedBy_iff hne).2 (Bool.eq_false_of_not_eq_true hgap)
        exact isPartition_start_iff.2 ⟨⟨d, hd, hmissed⟩, hothers⟩
    · intro h
      rw [startingWith]
      -- the first group ends with its first annotation, or goes on with the second
      obtain ⟨rest, ss, ks, rfl, hlength⟩ := h.toSplits.exists_first
      cases rest with
      | nil =>
        obtain rfl : ss = [] := List.eq_nil_of_length_eq_zero hlength.symm
        obtain ⟨⟨d, hd, hmissed⟩, hothers⟩ := isPartition_start_iff.1 h
        rw [bind_of_eq_ok hd, bind_of_eq_ok (ih.2 hothers), hmissed.not_allowed]
        rfl
      | cons c rest =>
        cases ss with
        | nil => exact absurd hlength (Nat.succ_ne_zero _)
        | cons s ss =>
          have hall := List.tail_eq_of_cons_eq h.toSplits.annotations
          obtain ⟨rfl, _⟩ := List.cons_eq_cons.1 hall
          obtain ⟨hjoins, hothers⟩ := isPartition_extend_iff.1 h
          obtain ⟨d, hd, hgap, rfl⟩ := joins_iff.1 hjoins
          rw [bind_of_eq_ok hd, bind_of_eq_ok (ih.2 hothers), if_pos hgap]
          rfl

/-- Annotations are split into the groups that are a partition of them. -/
theorem successive_eq_ok_iff : successive gap contiguousGap as = .ok gs ↔
    IsPartition gap contiguousGap as gs := by
  cases as with
  | cons a as => exact startingWith_eq_ok_iff
  | nil =>
    constructor
    · intro h
      cases h
      exact ⟨splits_nil_iff.2 rfl, nofun, List.isChain_nil⟩
    · intro h
      rw [splits_nil_iff.1 h.toSplits]
      rfl

/-- The groups are a partition of the annotations, and the only one. -/
theorem successive_unique (h : successive gap contiguousGap as = .ok gs) :
    IsPartition gap contiguousGap as gs ∧
      ∀ hs, IsPartition gap contiguousGap as hs → hs = gs := by
  refine ⟨successive_eq_ok_iff.1 h, fun hs hpartition => ?_⟩
  have hsame := successive_eq_ok_iff.2 hpartition
  rw [h] at hsame
  exact (Except.ok.inj hsame).symm

/-- Three highlights in one node and one on a page without a place. -/
def handful : List Annotation :=
  [{ pos0 := .text "/p.0".toList, pos1 := .text "/p.10".toList },
    { pos0 := .text "/p.11".toList, pos1 := .text "/p.20".toList },
    { pos0 := .text "/p.100".toList, pos1 := .text "/p.120".toList }, { pageno := 1 }]

/-- The three are one group, with a gap before the last of them. -/
theorem successive_unique_handful : ∃ gs, successive (.whole 250) 2 handful = .ok gs ∧
    gs.map (·.separators) = [[.contiguous, .gap], []] ∧
      IsPartition (.whole 250) 2 handful gs ∧
        ∀ hs, IsPartition (.whole 250) 2 handful hs → hs = gs := by
  have hseparators : (successive (.whole 250) 2 handful).map (List.map (·.separators)) =
      .ok [[.contiguous, .gap], []] := by decide +kernel
  cases h : successive (.whole 250) 2 handful with
  | error e =>
    rw [h] at hseparators
    cases hseparators
  | ok gs =>
    rw [h] at hseparators
    exact ⟨gs, rfl, Except.ok.inj hseparators, successive_unique h⟩

/-- Two highlights on one page, without places. -/
def samePage : List Annotation :=
  [{ text := .text ['a'], pageno := 1 }, { text := .text ['b'], pageno := 1 }]

/-- Where the gap is not a number, neighbours are parted whose distance is not greater. -/
theorem successive_parts_samePage : ∃ gs, successive (.real .nan) 2 samePage = .ok gs ∧
    ¬ gs.IsChain fun g h => ∀ a ∈ g.annotations.getLast?, ∀ b ∈ h.annotations.head?,
      ∃ d, a.distance b = .ok d ∧ (Gap.real .nan).IsExceededBy d := by
  have hdistance : samePage[0].distance samePage[1] = .ok (.finite false 0) := by
    decide +kernel
  refine ⟨[⟨[samePage[0]], []⟩, ⟨[samePage[1]], []⟩], ?_, ?_⟩
  · show startingWith (.real .nan) 2 samePage[0] [samePage[1]] = _
    rw [startingWith, bind_of_eq_ok hdistance]
    rfl
  · intro h
    obtain ⟨hparts, _⟩ := List.isChain_cons_cons.1 h
    obtain ⟨d, hd, hexceeded⟩ := hparts samePage[0] rfl samePage[1] rfl
    rw [hdistance] at hd
    cases hd
    cases hexceeded

end Group
end Marginalia
