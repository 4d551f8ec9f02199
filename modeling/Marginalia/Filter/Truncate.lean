import Marginalia.Value.Literal

/-
Cutting a text to a length.  The length is a number, or the whole number that a
text like `12px` starts with.
-/
namespace Marginalia
namespace Truncate

def ellipsis : Char := '…'

/-- The whole number at the start of a text, with its sign and the blanks before
it, and nothing of what follows. -/
def leadingWhole (t : Text) : Option Text :=
  let blanks := t.takeWhile Text.isSpace
  let rest := t.dropWhile Text.isSpace
  let (sign, rest) : Text × Text :=
    match rest with
    | '+' :: r => (['+'], r)
    | '-' :: r => (['-'], r)
    | r => ([], r)
  let ds := rest.takeWhile Text.isDigit
  if ds.isEmpty then none else some (blanks ++ sign ++ ds)

/-- The length that an argument asks for; none asks for no cut. -/
def length? (arg : Option Text) : Except Fault (Option Binary64) :=
  match arg with
  | none => .ok none
  | some a =>
    match (Decimal.read? (Text.strip a)).filter (·.isFinite) with
    | some x => .ok (some x)
    | none =>
      match leadingWhole a with
      | none => .ok none
      | some numeral => do
        let n ← Value.readWhole numeral
        match Binary64.ofInt? n with
        | some x => .ok (some x)
        | none => .error .tooLarge

/-- Cut a text after as many code points as the length allows, and mark the cut.
A text that fits is left alone, and so is every text when the length is not
positive. -/
def apply (t : Text) (arg : Option Text) : Except Fault Text := do
  match ← length? arg with
  | none => return t
  | some x =>
    if (x.compareInt? 0).any (· ≠ .gt) then return t
    else if (x.compareInt? t.length).any (· ≠ .lt) then return t
    else return t.take (x.truncate?.getD 0).toNat ++ [ellipsis]

end Truncate
end Marginalia
