import Marginalia.Sorting.Merge

/-
Stable sorting with a comparison that may fail, and need not be transitive.  The
list is cut into runs from the left, each as long as it already is in order; a
strictly descending one is turned around, and a short one is filled up by putting
further items in their places.  Neighbouring runs are merged, in an order that
keeps the merges balanced.
-/
namespace Marginalia
namespace Sorting

variable {α ε : Type}

/-! ## Runs -/

/-- How many items, after the first, keep the ascending run going. -/
def ascending (lt : α → α → Except ε Bool) : α → List α → Except ε Nat
  | _, [] => .ok 0
  | a, b :: rest => do
    if ← lt b a then return 0
    return (← ascending lt b rest) + 1

/-- How many items, after the first, keep the strictly descending run going. -/
def descending (lt : α → α → Except ε Bool) : α → List α → Except ε Nat
  | _, [] => .ok 0
  | a, b :: rest => do
    if ← lt b a then return (← descending lt b rest) + 1
    return 0

/-- The longest run at the front of a list, in ascending order. -/
def naturalRun (lt : α → α → Except ε Bool) (a : α) : List α → Except ε (List α)
  | [] => .ok [a]
  | b :: rest => do
    if ← lt b a then
      let n ← descending lt b rest
      return (a :: b :: rest.take n).reverse
    else
      let n ← ascending lt b rest
      return a :: b :: rest.take n

/-- Put an item after those among `xs` that it does not come before, found by
halving. -/
def place (lt : α → α → Except ε Bool) (x : α) (xs : List α) : Except ε (List α) := do
  let n ← halve (negated (lt x)) xs
  return xs.take n ++ x :: xs.drop n

def placeAll (lt : α → α → Except ε Bool) (sorted : List α) : List α → Except ε (List α)
  | [] => .ok sorted
  | x :: rest => do placeAll lt (← place lt x sorted) rest

/-- The run at the front of a list, of at least `low` items where there are as
many. -/
def takeRun (lt : α → α → Except ε Bool) (low : Nat) (a : α) (rest : List α) :
    Except ε (List α) := do
  let run ← naturalRun lt a rest
  placeAll lt run ((rest.drop (run.length - 1)).take (low - run.length))

/-- Lists shorter than this make one run. -/
def shortList : Nat := 64

/-- The least length of a run for a list of `n` items: about `n` over a power of
two, rounded up. -/
def leastRun (n odd : Nat) : Nat :=
  if shortList ≤ n then leastRun (n / 2) (max odd (n % 2)) else n + odd
termination_by n
decreasing_by
  simp only [shortList] at *
  omega

/-! ## Balance -/

/-- How deep the boundary between two runs lies when a list of `n` items is
halved again and again: the first binary digit in which `a / n` and `b / n`
differ. -/
def depth (a b n : Nat) : Nat :=
  if a < b ∧ 0 < n ∧ a / n = b / n then 1 + depth (2 * a) (2 * b) n else 1
termination_by n - (b - a)
decreasing_by
  rename_i h
  obtain ⟨hlt, hn, he⟩ := h
  have h1 := Nat.div_add_mod a n
  have h2 := Nat.div_add_mod b n
  have h3 := Nat.mod_lt b hn
  rw [he] at h1
  omega

structure Pending (α : Type) where
  top : List α
  /-- The runs before it, last one first, with the depth of the boundary after
  each. -/
  below : List (Nat × List α)
  /-- How many wins in a row make a merge leap. -/
  bar : Nat

namespace Pending

/-- Merge the last run into those before it whose boundary lies deeper. -/
def collapse (lt : α → α → Except ε Bool) (bound : Nat) (top : List α) (bar : Nat) :
    List (Nat × List α) → Except ε (Pending α)
  | [] => .ok ⟨top, [], bar⟩
  | (n, run) :: below =>
    if bound < n then do
      let (merged, bar) ← mergeRuns lt bar run top
      collapse lt bound merged bar below
    else .ok ⟨top, (n, run) :: below, bar⟩

/-- Put the next run on top, in a list of `n` items. -/
def add (lt : α → α → Except ε Bool) (n : Nat) (p : Pending α) (run : List α) :
    Except ε (Pending α) := do
  let start := (p.below.map fun r => r.2.length).foldr (· + ·) 0
  let a := 2 * start + p.top.length
  let bound := depth a (a + p.top.length + run.length) n
  let p ← collapse lt bound p.top p.bar p.below
  return ⟨run, (bound, p.top) :: p.below, p.bar⟩

/-- Merge runs, last one first, until one is left; a run between two longer ones
goes to the shorter of them. -/
def mergeAll (lt : α → α → Except ε Bool) (bar : Nat) :
    List (List α) → Except ε (List α)
  | [] => .ok []
  | [run] => .ok run
  | [c, b] => do return (← mergeRuns lt bar b c).1
  | c :: b :: a :: rest =>
    if a.length < c.length then do
      let (merged, bar) ← mergeRuns lt bar a b
      mergeAll lt bar (c :: merged :: rest)
    else do
      let (merged, bar) ← mergeRuns lt bar b c
      mergeAll lt bar (merged :: a :: rest)
termination_by runs => runs.length

def runs (p : Pending α) : List (List α) := p.top :: p.below.map (·.2)

end Pending

/-! ## Sorting -/

def firstBar : Nat := 7

/-- Find the runs of the rest of a list of `n` items. -/
def collect (lt : α → α → Except ε Bool) (n : Nat) (p : Pending α) :
    List α → Except ε (Pending α)
  | [] => .ok p
  | x :: rest => do
    let run ← takeRun lt (leastRun n 0) x rest
    collect lt n (← p.add lt n run) (rest.drop (run.length - 1))
termination_by xs => xs.length

def sort (lt : α → α → Except ε Bool) : List α → Except ε (List α)
  | [] => .ok []
  | x :: rest => do
    let n := rest.length + 1
    let run ← takeRun lt (leastRun n 0) x rest
    let p ← collect lt n ⟨run, [], firstBar⟩ (rest.drop (run.length - 1))
    Pending.mergeAll lt p.bar p.runs

end Sorting
end Marginalia
