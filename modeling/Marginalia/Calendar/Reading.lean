import Marginalia.Calendar.Iso
import Marginalia.Calendar.Layout
import Marginalia.Value.Literal

/-
Moments from values: moments themselves, counts of seconds since 1970, and
texts in the international notation or in one of the known layouts.
-/
namespace Marginalia
namespace Moment

/-- The moment at a count of seconds: the fraction is scaled to microseconds,
rounded, and carried into the seconds where it reaches one. -/
def ofFloat? : Binary64 → Option Moment
  | .finite negative units =>
    let whole : Int := Binary64.signedUnits negative (units / Binary64.one)
    let fraction : Binary64 := .finite negative (units % Binary64.one)
    match (fraction.mul (.ofNat microsPerSecond)).round? with
    | none => none
    | some micros =>
      if (microsPerSecond : Int) ≤ micros then
        ofSeconds? (whole + 1) (micros - microsPerSecond).toNat
      else if micros < 0 then ofSeconds? (whole - 1) (micros + microsPerSecond).toNat
      else ofSeconds? whole micros.toNat
  | _ => none

def zulu : Text := "+00:00".toList

/-- A text as a moment.  A final `Z` stands for no offset from universal time. -/
def ofText? (t : Text) : Option Moment :=
  let t := Text.strip t
  if t.isEmpty then none
  else
    let t := if t.getLast? = some 'Z' then t.dropLast ++ zulu else t
    match Iso.read? t with
    | some m => some m
    | none => DateLayout.known.findSome? fun layout => layout.read? t

def ofValue? : Value → Except Fault (Option Moment)
  | .null => .ok none
  | .bool _ => .ok none
  | .moment m => .ok (some m)
  | .int n => .ok (ofSeconds? n 0)
  | .float x => .ok (ofFloat? x)
  | v => do
    let t ← v.shown
    .ok (ofText? t)

end Moment
end Marginalia
