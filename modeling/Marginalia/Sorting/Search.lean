/-
Places in a list, found with a test that may fail.  The test says of an item
whether it goes before the place; it need not be consistent.  Halving starts in
the middle; leaping starts at the front and doubles its distance, so that a place
near the front takes few tests.
-/
namespace Marginalia
namespace Sorting

variable {α ε : Type}

def negated (test : α → Except ε Bool) (x : α) : Except ε Bool := do return !(← test x)

/-- How many items go before a place, found by halving. -/
def halve (test : α → Except ε Bool) (xs : List α) : Except ε Nat :=
  let mid := xs.length / 2
  match _h : xs.drop mid with
  | [] => .ok 0
  | y :: above => do
    if ← test y then return mid + 1 + (← halve test above)
    else halve test (xs.take mid)
termination_by xs.length
decreasing_by
  all_goals
    have := congrArg List.length _h
    simp only [List.length_drop, List.length_cons] at this
    first | omega | (simp only [List.length_take]; omega)

/-- Halving of a list that stands in reverse: how many items of `xs` pass,
found in the order in which they stood. -/
def halveReversed (test : α → Except ε Bool) (xs : List α) : Except ε Nat := do
  return xs.length - (← halve (negated test) xs.reverse)

/-- How an interval between two leaps is searched. -/
abbrev Narrowing (α ε : Type) := (α → Except ε Bool) → List α → Except ε Nat

/-- Leap on over `width` items, and one more than twice as many the next time,
until an item fails or the list ends; then search the interval that was leapt
over last. -/
def leap (narrow : Narrowing α ε) (test : α → Except ε Bool) (width : Nat) (xs : List α) :
    Except ε Nat :=
  match _h : xs.drop width with
  | [] => narrow test xs
  | y :: above => do
    if ← test y then return width + 1 + (← leap narrow test (2 * width + 1) above)
    else narrow test (xs.take width)
termination_by xs.length
decreasing_by
  have := congrArg List.length _h
  simp only [List.length_drop, List.length_cons] at this
  omega

/-- How many items at the front pass, found by leaping. -/
def gallop (narrow : Narrowing α ε) (test : α → Except ε Bool) : List α → Except ε Nat
  | [] => .ok 0
  | y :: rest => do
    if ← test y then return 1 + (← leap narrow test 0 rest)
    else return 0

end Sorting
end Marginalia
