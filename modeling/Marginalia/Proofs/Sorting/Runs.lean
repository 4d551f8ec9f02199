import Marginalia.Proofs.Sorting.Merge
import Marginalia.Sorting

/-
Sorting with any comparison.  The result holds what the list holds, and any two
neighbours in it have been compared and found to follow each other.  Sorting
fails only with the error of a comparison between two members of the list.
-/
namespace Marginalia
namespace Sorting

variable {α ε : Type} {E : ε → Prop} {lt : α → α → Except ε Bool}

theorem pairwise_comparable_of_perm {xs ys : List α} (h : xs.Pairwise (Comparable E lt))
    (hp : xs.Perm ys) : ys.Pairwise (Comparable E lt) :=
  hp.pairwise h Comparable.symm

/-! ## One run -/

theorem ascending_ensures {a : α} {rest : List α} (hE : (a :: rest).Pairwise (Comparable E lt)) :
    Ensures E (fun n => (a :: rest.take n).IsChain (Follows lt)) (ascending lt a rest) := by
  induction rest generalizing a with
  | nil => exact .singleton a
  | cons b rest ih =>
    have hab := List.rel_of_pairwise_cons hE (List.mem_cons_self ..)
    refine Ensures.bind (Ensures.self fun e he => hab e (.inr he)) fun less hless => ?_
    cases less with
    | true => exact .singleton a
    | false =>
      refine Ensures.bind (ih hE.tail) fun n hn => ?_
      exact hn.cons_cons (.inl hless)

theorem descending_ensures {a : α} {rest : List α} (hE : (a :: rest).Pairwise (Comparable E lt)) :
    Ensures E (fun n => (a :: rest.take n).IsChain fun u v => Follows lt v u)
      (descending lt a rest) := by
  induction rest generalizing a with
  | nil => exact .singleton a
  | cons b rest ih =>
    have hab := List.rel_of_pairwise_cons hE (List.mem_cons_self ..)
    refine Ensures.bind (Ensures.self fun e he => hab e (.inr he)) fun less hless => ?_
    cases less with
    | true =>
      refine Ensures.bind (ih hE.tail) fun n hn => ?_
      exact hn.cons_cons (.inr hless)
    | false => exact .singleton a

/-- A run found at the front of a list, and put in order. -/
def IsRun (lt : α → α → Except ε Bool) (a : α) (rest run : List α) : Prop :=
  Ordered lt (a :: rest.take (run.length - 1)) run

/-- A run and what it leaves are the list. -/
theorem IsRun.perm_append_drop {a : α} {rest run : List α} (h : IsRun lt a rest run) :
    (run ++ rest.drop (run.length - 1)).Perm (a :: rest) := by
  have := h.perm.append_right (rest.drop (run.length - 1))
  rwa [List.cons_append, List.take_append_drop] at this

theorem isRun_of_take {a : α} {rest run : List α} {n : Nat}
    (h : Ordered lt (a :: rest.take n) run) : IsRun lt a rest run := by
  have hlen := h.perm.length_eq
  simp only [List.length_cons, List.length_take] at hlen
  have htake : rest.take (run.length - 1) = rest.take n := by
    rw [List.take_eq_take_iff]
    omega
  exact ⟨htake ▸ h.perm, h.chain⟩

theorem naturalRun_ensures {a : α} {rest : List α} (hE : (a :: rest).Pairwise (Comparable E lt)) :
    Ensures E (IsRun lt a rest) (naturalRun lt a rest) := by
  cases rest with
  | nil => exact ⟨.refl _, .singleton a⟩
  | cons b rest =>
    have hab := List.rel_of_pairwise_cons hE (List.mem_cons_self ..)
    refine Ensures.bind (Ensures.self fun e he => hab e (.inr he)) fun less hless => ?_
    cases less with
    | true =>
      refine Ensures.bind (descending_ensures hE.tail) fun n hn => ?_
      refine isRun_of_take (n := n + 1) ⟨List.reverse_perm _, ?_⟩
      exact List.isChain_reverse.2 (hn.cons_cons (.inr hless))
    | false =>
      refine Ensures.bind (ascending_ensures hE.tail) fun n hn => ?_
      exact isRun_of_take (n := n + 1) ⟨.refl _, hn.cons_cons (.inl hless)⟩

theorem place_ensures {x : α} {xs : List α} (h : xs.IsChain (Follows lt))
    (hE : ∀ y ∈ xs, Comparable E lt x y) :
    Ensures E (Ordered lt (x :: xs)) (place lt x xs) := by
  have htest : ∀ y ∈ xs, ∀ e, negated (lt x) y = .error e → E e := by
    intro y hy e he
    exact hE y hy e (.inl (negated_eq_error.1 he))
  refine Ensures.bind (finds_halve htest) fun n hn => ?_
  obtain ⟨before, after, rfl, rfl, hp⟩ := hn
  rw [List.take_left, List.drop_left]
  refine ⟨List.perm_middle, h.left_of_append.append ?_ ?_⟩
  · refine h.right_of_append.cons fun v hv => ?_
    exact .inr (negated_eq_ok.1 (hp.fails v hv))
  · intro u hu v hv
    have hv : v = x := by simpa using hv.symm
    exact hv ▸ .inl (negated_eq_ok.1 (hp.passes u hu))

theorem placeAll_ensures {sorted xs : List α} (h : sorted.IsChain (Follows lt))
    (hE : (sorted ++ xs).Pairwise (Comparable E lt)) :
    Ensures E (Ordered lt (sorted ++ xs)) (placeAll lt sorted xs) := by
  induction xs generalizing sorted with
  | nil => exact ⟨by simp, h⟩
  | cons x rest ih =>
    have hE' := pairwise_comparable_of_perm hE List.perm_middle
    have hx : ∀ y ∈ sorted, Comparable E lt x y :=
      fun y hy => List.rel_of_pairwise_cons hE' (List.mem_append_left rest hy)
    refine Ensures.bind (place_ensures h hx) fun placed hplaced => ?_
    have hp : (placed ++ rest).Perm (sorted ++ x :: rest) :=
      (hplaced.perm.append_right rest).trans List.perm_middle.symm
    refine Ensures.mono (ih hplaced.chain (pairwise_comparable_of_perm hE hp.symm)) ?_
    exact fun zs hzs => ⟨hzs.perm.trans hp, hzs.chain⟩

theorem takeRun_ensures {low : Nat} {a : α} {rest : List α}
    (hE : (a :: rest).Pairwise (Comparable E lt)) :
    Ensures E (IsRun lt a rest) (takeRun lt low a rest) := by
  refine Ensures.bind (naturalRun_ensures hE) fun run hrun => ?_
  have hE' := pairwise_comparable_of_perm hE hrun.perm_append_drop.symm
  have hsub : (run ++ (rest.drop (run.length - 1)).take (low - run.length)).Sublist
      (run ++ rest.drop (run.length - 1)) :=
    (List.Sublist.refl run).append (List.take_sublist _ _)
  refine Ensures.mono (placeAll_ensures hrun.chain (hE'.sublist hsub)) fun zs hzs => ?_
  refine isRun_of_take (n := run.length - 1 + (low - run.length)) ⟨?_, hzs.chain⟩
  refine hzs.perm.trans ((hrun.perm.append_right _).trans ?_)
  rw [List.cons_append, List.take_add]

/-! ## All runs -/

/-- Runs, last one first, that together hold what a list holds. -/
structure RunsOf (lt : α → α → Except ε Bool) (xs : List α) (runs : List (List α)) : Prop where
  perm : runs.reverse.flatten.Perm xs
  chains : ∀ run ∈ runs, run.IsChain (Follows lt)

namespace RunsOf

variable {above below : List (List α)} {upper lower merged xs ys : List α}

theorem trans {runs : List (List α)} (h : RunsOf lt xs runs) (hp : xs.Perm ys) :
    RunsOf lt ys runs :=
  ⟨h.perm.trans hp, h.chains⟩

/-- Two neighbours among the runs can be merged. -/
theorem comparable (above : List (List α)) (h : RunsOf lt xs (above ++ upper :: lower :: below))
    (hE : xs.Pairwise (Comparable E lt)) : ∀ a ∈ lower, ∀ b ∈ upper, Comparable E lt a b := by
  have hp := pairwise_comparable_of_perm hE h.perm.symm
  simp only [List.reverse_append, List.reverse_cons, List.append_assoc, List.flatten_append,
    List.flatten_cons, List.pairwise_append, List.cons_append, List.nil_append] at hp
  intro a ha b hb
  exact hp.2.1.2.2 a ha b (List.mem_append_left _ hb)

/-- The merge of two neighbours takes their place. -/
theorem merge (above : List (List α)) (h : RunsOf lt xs (above ++ upper :: lower :: below))
    (hm : Ordered lt (lower ++ upper) merged) : RunsOf lt xs (above ++ merged :: below) := by
  constructor
  · refine List.Perm.trans ?_ h.perm
    simp only [List.reverse_append, List.reverse_cons, List.append_assoc, List.flatten_append,
      List.flatten_cons, List.cons_append, List.nil_append]
    refine List.Perm.append_left _ ?_
    rw [← List.append_assoc]
    exact hm.perm.append_right _
  · intro run hrun
    rcases List.mem_append.1 hrun with hrun | hrun
    · exact h.chains run (List.mem_append_left _ hrun)
    · rcases List.mem_cons.1 hrun with rfl | hrun
      · exact hm.chain
      · exact h.chains run (by simp [hrun])

/-- Merging two neighbours, whatever comes of the runs after that. -/
theorem bind_mergeRuns {β : Type} {P : β → Prop} {bar : Nat}
    {next : List α × Nat → Except ε β} (above : List (List α))
    (h : RunsOf lt xs (above ++ upper :: lower :: below)) (hE : xs.Pairwise (Comparable E lt))
    (hnext : ∀ r : List α × Nat, RunsOf lt xs (above ++ r.1 :: below) → Ensures E P (next r)) :
    Ensures E P (mergeRuns lt bar lower upper >>= next) := by
  have hlower := h.chains lower (by simp)
  have hupper := h.chains upper (by simp)
  refine Ensures.bind (mergeRuns_ensures hlower hupper (h.comparable above hE)) fun r hr => ?_
  exact hnext r (h.merge above hr)

end RunsOf

namespace Pending

theorem collapse_ensures {bound bar : Nat} {top xs : List α} {below : List (Nat × List α)}
    (h : RunsOf lt xs (top :: below.map (·.2))) (hE : xs.Pairwise (Comparable E lt)) :
    Ensures E (fun p => RunsOf lt xs p.runs) (collapse lt bound top bar below) := by
  induction below generalizing top bar with
  | nil => exact h
  | cons r below ih =>
    obtain ⟨n, run⟩ := r
    unfold collapse
    split
    · exact h.bind_mergeRuns [] hE fun r hr => ih hr
    · exact h

theorem add_ensures {n : Nat} {p : Pending α} {run xs : List α} (h : RunsOf lt xs p.runs)
    (hrun : run.IsChain (Follows lt)) (hE : xs.Pairwise (Comparable E lt)) :
    Ensures E (fun q => RunsOf lt (xs ++ run) q.runs) (p.add lt n run) := by
  refine Ensures.bind (collapse_ensures h hE) fun q hq => ⟨?_, ?_⟩
  · have := hq.perm.append_right run
    simpa [runs] using this
  · intro r hr
    rcases List.mem_cons.1 hr with rfl | hr
    · exact hrun
    · exact hq.chains r hr

theorem mergeAll_ensures {bar : Nat} {runs : List (List α)} {xs : List α}
    (h : RunsOf lt xs runs) (hE : xs.Pairwise (Comparable E lt)) :
    Ensures E (Ordered lt xs) (mergeAll lt bar runs) := by
  fun_induction mergeAll lt bar runs with
  | case1 => exact ⟨h.perm, .nil⟩
  | case2 bar run => exact ⟨by simpa using h.perm, h.chains run (by simp)⟩
  | case3 bar c b =>
    refine h.bind_mergeRuns [] hE fun r hr => ?_
    exact ⟨by simpa using hr.perm, hr.chains r.1 (by simp)⟩
  | case4 bar c b a rest hlen ih => exact h.bind_mergeRuns [c] hE fun r hr => ih r.1 r.2 hr
  | case5 bar c b a rest hlen ih => exact h.bind_mergeRuns [] hE fun r hr => ih r.1 r.2 hr

end Pending

/-! ## Sorting -/

theorem collect_ensures {n : Nat} {p : Pending α} {xs ys : List α} (h : RunsOf lt xs p.runs)
    (hE : (xs ++ ys).Pairwise (Comparable E lt)) :
    Ensures E (fun q => RunsOf lt (xs ++ ys) q.runs) (collect lt n p ys) := by
  fun_induction collect lt n p ys generalizing xs with
  | case1 p =>
    rw [List.append_nil]
    exact h
  | case2 p x rest ih =>
    have hE' := List.pairwise_append.1 hE
    refine Ensures.bind (takeRun_ensures hE'.2.1) fun run hrun => ?_
    refine Ensures.bind (Pending.add_ensures h hrun.chain hE'.1) fun q hq => ?_
    have hp : (xs ++ run ++ rest.drop (run.length - 1)).Perm (xs ++ x :: rest) := by
      rw [List.append_assoc]
      exact hrun.perm_append_drop.append_left xs
    refine Ensures.mono (ih run q hq (pairwise_comparable_of_perm hE hp.symm)) fun r hr => ?_
    exact hr.trans hp

theorem sort_ensures {xs : List α} (hE : xs.Pairwise (Comparable E lt)) :
    Ensures E (Ordered lt xs) (sort lt xs) := by
  cases xs with
  | nil => exact ⟨.nil, .nil⟩
  | cons x rest =>
    refine Ensures.bind (takeRun_ensures hE) fun run hrun => ?_
    have hp := hrun.perm_append_drop
    have hfirst : RunsOf lt run (Pending.runs ⟨run, [], firstBar⟩) :=
      ⟨by simp [Pending.runs], by simpa [Pending.runs] using hrun.chain⟩
    refine Ensures.bind (collect_ensures hfirst (pairwise_comparable_of_perm hE hp.symm))
      fun p hpend => ?_
    exact Pending.mergeAll_ensures (hpend.trans hp) hE

/-- A list that was sorted holds what it held. -/
theorem ordered_of_sort {xs zs : List α} (h : sort lt xs = .ok zs) : Ordered lt xs zs := by
  have hE : xs.Pairwise (Comparable (fun _ => True) lt) :=
    List.pairwise_of_forall fun _ _ _ _ => trivial
  exact (sort_ensures hE).of_eq_ok h

/-- Where all members can be compared, sorting succeeds. -/
theorem exists_sort {xs : List α}
    (h : xs.Pairwise (Comparable (fun _ => False) lt)) :
    ∃ zs, sort lt xs = .ok zs ∧ Ordered lt xs zs :=
  (sort_ensures h).exists_ok

theorem naturalRun_pair (a b : α) :
    naturalRun lt a [b] = lt b a >>= fun less => .ok (if less then [b, a] else [a, b]) := by
  unfold naturalRun
  dsimp only
  cases lt b a with
  | error e => rfl
  | ok less => cases less <;> rfl

/-- Of two items the second goes first only where it comes before the first. -/
theorem sort_pair (a b : α) :
    sort lt [a, b] = lt b a >>= fun less => .ok (if less then [b, a] else [a, b]) := by
  have hwhole : ∀ run : List α, run.length = 2 →
      (placeAll lt run (([b].drop (run.length - 1)).take (leastRun 2 0 - run.length)) >>= fun run =>
        collect lt 2 ⟨run, [], firstBar⟩ ([b].drop (run.length - 1)) >>= fun p =>
          Pending.mergeAll lt p.bar p.runs) = .ok run := by
    intro run hrun
    have hplace : placeAll lt run [] = .ok run := rfl
    rw [hrun, List.drop_one, List.tail_cons, List.take_nil, hplace]
    show (collect lt 2 ⟨run, [], firstBar⟩ ([b].drop (run.length - 1)) >>= fun p =>
      Pending.mergeAll lt p.bar p.runs) = .ok run
    rw [hrun, List.drop_one, List.tail_cons, collect]
    show Pending.mergeAll lt firstBar [run] = .ok run
    rw [Pending.mergeAll]
  unfold sort takeRun
  dsimp only
  rw [naturalRun_pair]
  cases lt b a with
  | error e => rfl
  | ok less =>
    cases less
    · exact hwhole [a, b] rfl
    · exact hwhole [b, a] rfl

end Sorting
end Marginalia
