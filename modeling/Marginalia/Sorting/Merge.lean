import Marginalia.Sorting.Search

/-
Merging two neighbouring runs.  Items go out one by one until one run has won
several times in a row; from then on whole stretches are found by leaping, for
as long as they are long enough.  How many wins it takes is carried from merge
to merge.
-/
namespace Marginalia
namespace Sorting

variable {α ε : Type}

/-- One direction of merging.  Of the two runs the held one has the item that
goes out last. -/
structure Direction (α ε : Type) where
  /-- Whether an item of the other run goes out before one of the held run. -/
  passes : α → α → Except ε Bool
  narrow : Narrowing α ε
  /-- Whether a round of leaps starts with the held run. -/
  heldFirst : Bool

namespace Direction

/-- From the front: the held run is the lower one. -/
def upward (lt : α → α → Except ε Bool) : Direction α ε := ⟨lt, halve, true⟩

/-- From the back, with both runs in reverse: the held run is the upper one. -/
def downward (lt : α → α → Except ε Bool) : Direction α ε :=
  ⟨fun y x => lt x y, halveReversed, false⟩

end Direction

/-- How items go out. -/
inductive Pace where
  /-- One by one, with the wins in a row of the held run and of the other. -/
  | single (held other : Nat)
  /-- A round of leaps begins. -/
  | round
  /-- The second half of a round, with the length of the first stretch. -/
  | half (taken : Nat)

structure Merging (α : Type) where
  held : List α
  other : List α
  pace : Pace
  /-- How many wins in a row start a round of leaps. -/
  bar : Nat
  /-- What the bar is for the next merge, if this one is over. -/
  kept : Nat

namespace Merging

/-- Stretches of at least this length keep the leaps going. -/
def worthwhile : Nat := 7

/-- After a stretch: on to the second half of the round, or to the next round
with a lower bar, or back to single items with a higher one. -/
def resume (s : Merging α) (n : Nat) : Merging α :=
  match s.pace with
  | .half taken =>
    if worthwhile ≤ taken ∨ worthwhile ≤ n then
      { s with pace := .round, bar := if 1 < s.bar then s.bar - 1 else s.bar }
    else { s with pace := .single 0 0, bar := s.bar + 1 }
  | _ => { s with pace := .half n }

/-- The stretch of the held run that goes out before `y`, and `y`. -/
def leapHeld (d : Direction α ε) (s : Merging α) (y : α) (ys : List α) :
    Except ε (List α × Merging α) := do
  let n ← gallop d.narrow (negated (d.passes y)) s.held
  return (s.held.take n ++ [y], { s.resume n with held := s.held.drop n, other := ys })

/-- The stretch of the other run that goes out before `x`, and `x`. -/
def leapOther (d : Direction α ε) (s : Merging α) (x : α) (xs : List α) :
    Except ε (List α × Merging α) := do
  let n ← gallop d.narrow (fun y => d.passes y x) s.other
  return (s.other.take n ++ [x], { s.resume n with held := xs, other := s.other.drop n })

def single (d : Direction α ε) (s : Merging α) (helds others : Nat) (x : α) (xs : List α)
    (y : α) (ys : List α) : Except ε (List α × Merging α) := do
  if ← d.passes y x then
    let pace := if others + 1 < s.bar then .single 0 (others + 1) else .round
    return ([y], { s with other := ys, pace })
  else
    let pace := if helds + 1 < s.bar then .single (helds + 1) 0 else .round
    return ([x], { s with held := xs, pace })

/-- What goes out next, where neither run is at its end: the held run starts
with `x`, the other with `y`. -/
def advance (d : Direction α ε) (s : Merging α) (x : α) (xs : List α) (y : α) (ys : List α) :
    Except ε (List α × Merging α) :=
  match s.pace with
  | .single helds others => s.single d helds others x xs y ys
  | .round => if d.heldFirst then s.leapHeld d y ys else s.leapOther d x xs
  | .half _ => if d.heldFirst then s.leapOther d x xs else s.leapHeld d y ys

def step (d : Direction α ε) (s : Merging α) (x : α) (xs : List α) (y : α) (ys : List α) :
    Except ε (List α × Merging α) :=
  advance d { s with kept := s.bar } x xs y ys

theorem length_of_leapHeld {d : Direction α ε} {s t : Merging α} {y : α} {ys out : List α}
    (h : leapHeld d s y ys = .ok (out, t)) :
    t.held.length ≤ s.held.length ∧ t.other = ys := by
  unfold leapHeld at h
  cases hn : gallop d.narrow (negated (d.passes y)) s.held with
  | error e => rw [hn] at h; cases h
  | ok n =>
    rw [hn] at h
    cases h
    exact ⟨by simp, rfl⟩

theorem length_of_leapOther {d : Direction α ε} {s t : Merging α} {x : α} {xs out : List α}
    (h : leapOther d s x xs = .ok (out, t)) :
    t.held = xs ∧ t.other.length ≤ s.other.length := by
  unfold leapOther at h
  cases hn : gallop d.narrow (fun y => d.passes y x) s.other with
  | error e => rw [hn] at h; cases h
  | ok n =>
    rw [hn] at h
    cases h
    exact ⟨rfl, by simp⟩

theorem length_of_single {d : Direction α ε} {s t : Merging α} {helds others : Nat} {x y : α}
    {xs ys out : List α} (h : single d s helds others x xs y ys = .ok (out, t)) :
    (t.held = s.held ∧ t.other = ys) ∨ (t.held = xs ∧ t.other = s.other) := by
  unfold single at h
  cases hp : d.passes y x with
  | error e => rw [hp] at h; cases h
  | ok b =>
    rw [hp] at h
    cases b
    · cases h
      exact .inr ⟨rfl, rfl⟩
    · cases h
      exact .inl ⟨rfl, rfl⟩

theorem length_of_advance {d : Direction α ε} {s t : Merging α} {x y : α} {xs ys out : List α}
    (hx : s.held = x :: xs) (hy : s.other = y :: ys) (h : advance d s x xs y ys = .ok (out, t)) :
    t.held.length + t.other.length < s.held.length + s.other.length := by
  have hHeld : t.held.length ≤ s.held.length ∧ t.other = ys →
      t.held.length + t.other.length < s.held.length + s.other.length := by
    intro ⟨h1, h2⟩
    simp only [h2, hy, List.length_cons]
    omega
  have hOther : t.held = xs ∧ t.other.length ≤ s.other.length →
      t.held.length + t.other.length < s.held.length + s.other.length := by
    intro ⟨h1, h2⟩
    simp only [h1, hx, List.length_cons]
    omega
  unfold advance at h
  split at h
  · rcases length_of_single h with ⟨h1, h2⟩ | ⟨h1, h2⟩
    · exact hHeld ⟨Nat.le_of_eq (congrArg _ h1), h2⟩
    · exact hOther ⟨h1, Nat.le_of_eq (congrArg _ h2)⟩
  · split at h
    · exact hHeld (length_of_leapHeld h)
    · exact hOther (length_of_leapOther h)
  · split at h
    · exact hOther (length_of_leapOther h)
    · exact hHeld (length_of_leapHeld h)

/-- Every step shortens what is left. -/
theorem length_of_step {d : Direction α ε} {s t : Merging α} {x y : α} {xs ys out : List α}
    (hx : s.held = x :: xs) (hy : s.other = y :: ys) (h : step d s x xs y ys = .ok (out, t)) :
    t.held.length + t.other.length < s.held.length + s.other.length :=
  length_of_advance (s := { s with kept := s.bar }) hx hy h

/-- Merge to the end: the items in the order in which they go out, and the bar
for the next merge. -/
def run (d : Direction α ε) (s : Merging α) : Except ε (List α × Nat) :=
  match _hx : s.held, _hy : s.other with
  | [], ys => .ok (ys, s.kept)
  | xs, [] => .ok (xs, s.kept)
  | [x], ys => .ok (ys ++ [x], s.kept)
  | x :: xs, y :: ys =>
    match _h : step d s x xs y ys with
    | .error e => .error e
    | .ok (out, t) => do
      let (rest, bar) ← run d t
      return (out ++ rest, bar)
termination_by s.held.length + s.other.length
decreasing_by exact length_of_step _hx _hy _h

end Merging

/-- Merge two runs of which the other one is known to start. -/
def mergeToward (d : Direction α ε) (bar : Nat) (held : List α) :
    List α → Except ε (List α × Nat)
  | [] => .ok (held, bar)
  | y :: ys => do
    let (rest, bar) ← (⟨held, ys, .single 0 0, bar, bar⟩ : Merging α).run d
    return (y :: rest, bar)

/-- Merge two runs, from the side of the shorter one. -/
def mergeBoth (lt : α → α → Except ε Bool) (bar : Nat) (as bs : List α) :
    Except ε (List α × Nat) :=
  if as.length ≤ bs.length then mergeToward (.upward lt) bar as bs
  else do
    let (back, bar) ← mergeToward (.downward lt) bar bs.reverse as.reverse
    return (back.reverse, bar)

/-- Merge two neighbouring runs.  The items of the first that go before the
second, and those of the second that go after the first, keep their places. -/
def mergeRuns (lt : α → α → Except ε Bool) (bar : Nat) (as bs : List α) :
    Except ε (List α × Nat) :=
  match bs with
  | [] => .ok (as, bar)
  | b :: _ => do
    let low ← gallop halve (negated (lt b)) as
    match (as.drop low).getLast? with
    | none => return (as ++ bs, bar)
    | some a =>
      let high ← gallop halveReversed (negated fun y => lt y a) bs.reverse
      let cut := bs.length - high
      if cut = 0 then return (as ++ bs, bar)
      let (middle, bar) ← mergeBoth lt bar (as.drop low) (bs.take cut)
      return (as.take low ++ middle ++ bs.drop cut, bar)

end Sorting
end Marginalia
