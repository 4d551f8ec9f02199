import Marginalia.Text.Space
import Marginalia.Text.CaseTable

/-
Upper and lower case of a text in every script.  A capital sigma is lowered to
its final form where it ends a word.
-/
namespace Marginalia
namespace Text

def mapCase (runs : List (Nat × Nat × Nat × Int)) (expansions : List (Nat × List Nat))
    (c : Char) : Text :=
  let n := c.toNat
  match expansions.find? (·.1 = n) with
  | some (_, cs) => cs.map Char.ofNat
  | none =>
    match runs.find? fun (lo, hi, step, _) => lo ≤ n && n ≤ hi && (n - lo) % step = 0 with
    | some (_, _, _, delta) => [Char.ofNat (n + delta).toNat]
    | none => [c]

def upperChar : Char → Text := mapCase upperRuns upperExpansions

def lowerChar : Char → Text := mapCase lowerRuns lowerExpansions

def upper (t : Text) : Text := t.flatMap upperChar

/-- The nearest code point that has a say in the shape of a sigma has a case. -/
def nearCased (t : Text) : Bool :=
  match t.dropWhile fun c => inRanges caseIgnorableRanges c.toNat with
  | [] => false
  | c :: _ => inRanges casedRanges c.toNat

/-- Lower case of what follows `before`, which is given in reverse. -/
def lowerAfter (before : Text) : Text → Text
  | [] => []
  | c :: rest =>
    let shape : Text :=
      if c = 'Σ' then
        if nearCased before && !nearCased rest then ['ς'] else ['σ']
      else lowerChar c
    shape ++ lowerAfter (c :: before) rest

def lower (t : Text) : Text := lowerAfter [] t

end Text
end Marginalia
