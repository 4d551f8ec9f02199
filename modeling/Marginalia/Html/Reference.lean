import Marginalia.Html.Escape
import Marginalia.Html.EntityTable
import Marginalia.Fault

/-
Character references, named and numeric, as browsers read them.
-/
namespace Marginalia
namespace Html

/-- Numbers of the controls of the extended code page, which stand for the
characters that code page puts there. -/
def replacements : List (Nat × Nat) :=
  [(0x0, 0xFFFD), (0xD, 0xD), (0x80, 0x20AC), (0x81, 0x81), (0x82, 0x201A), (0x83, 0x192),
   (0x84, 0x201E), (0x85, 0x2026), (0x86, 0x2020), (0x87, 0x2021), (0x88, 0x2C6),
   (0x89, 0x2030), (0x8A, 0x160), (0x8B, 0x2039), (0x8C, 0x152), (0x8D, 0x8D), (0x8E, 0x17D),
   (0x8F, 0x8F), (0x90, 0x90), (0x91, 0x2018), (0x92, 0x2019), (0x93, 0x201C), (0x94, 0x201D),
   (0x95, 0x2022), (0x96, 0x2013), (0x97, 0x2014), (0x98, 0x2DC), (0x99, 0x2122), (0x9A, 0x161),
   (0x9B, 0x203A), (0x9C, 0x153), (0x9D, 0x9D), (0x9E, 0x17E), (0x9F, 0x178)]

/-- Numbers that stand for nothing: controls and what is no character. -/
def isDropped (n : Nat) : Bool :=
  (1 ≤ n && n ≤ 8) || n = 0xB || (0xE ≤ n && n ≤ 0x1F) || (0x7F ≤ n && n ≤ 0x9F) ||
    (0xFDD0 ≤ n && n ≤ 0xFDEF) || 0xFFFE ≤ n % 0x10000

/-- The text a numeric reference stands for. -/
def ofNumber (n : Nat) : Text :=
  match replacements.find? (·.1 = n) with
  | some (_, m) => [Char.ofNat m]
  | none =>
    if (0xD800 ≤ n && n ≤ 0xDFFF) || 0x10FFFF < n then [Char.ofNat 0xFFFD]
    else if isDropped n then []
    else [Char.ofNat n]

def entity? (name : Text) : Option Text :=
  match name with
  | [] => none
  | c :: _ =>
    ((entitiesFrom c).find? fun (s, _) => s.toList = name).map fun (_, ns) => ns.map Char.ofNat

/-- The longest known name among the first `n` code points of `name`, at least
two, replaced by what it stands for. -/
def longestEntity (name : Text) : Nat → Text
  | 0 => '&' :: name
  | 1 => '&' :: name
  | n + 2 =>
    match entity? (name.take (n + 2)) with
    | some t => t ++ name.drop (n + 2)
    | none => longestEntity name (n + 1)

/-- The text a named reference stands for; the longest known beginning of an
unknown name counts. -/
def ofName (name : Text) : Text :=
  match entity? name with
  | some t => t
  | none => longestEntity name (name.length - 1)

def hexValue? (c : Char) : Option Nat :=
  if Text.isBasicDigit c then some (c.toNat - 48)
  else if 'a' ≤ c && c ≤ 'f' then some (c.toNat - 87)
  else if 'A' ≤ c && c ≤ 'F' then some (c.toNat - 55)
  else none

def hexNumber (t : Text) : Nat := t.foldl (fun n c => 16 * n + (hexValue? c).getD 0) 0

def endsName (c : Char) : Bool :=
  c = '\t' || c = '\n' || c.toNat = 12 || c = ' ' || c = '<' || c = '&' || c = '#' || c = ';'

/-- The longest name, in code points. -/
def maxName : Nat := 32

/-- A reference after its ampersand: what it stands for, and how many code
points it takes. -/
def reference? (t : Text) : Except Fault (Option (Text × Nat)) :=
  let counted (ds : Text) (lead : Nat) (after : Text) : Nat :=
    lead + ds.length + (if after.head? = some ';' then 1 else 0)
  match t with
  | '#' :: rest =>
    let decimal := rest.takeWhile Text.isBasicDigit
    if !decimal.isEmpty then
      if Text.maxNumeralDigits < decimal.length then .error (.numeralTooLong decimal.length)
      else
        .ok (some (ofNumber (Text.digitsValue decimal),
          counted decimal 1 (rest.drop decimal.length)))
    else
      match rest with
      | x :: r =>
        let ds := r.takeWhile fun c => (hexValue? c).isSome
        if (x = 'x' || x = 'X') && !ds.isEmpty then
          .ok (some (ofNumber (hexNumber ds), counted ds 2 (r.drop ds.length)))
        else .ok none
      | [] => .ok none
  | _ =>
    let name := (t.take maxName).takeWhile fun c => !endsName c
    if name.isEmpty then .ok none
    else
      let whole := if (t.drop name.length).head? = some ';' then name ++ [';'] else name
      .ok (some (ofName whole, whole.length))

/-- Decode every character reference, from the left; each is decoded once. -/
def decode (t : Text) : Except Fault Text :=
  match t with
  | [] => .ok []
  | '&' :: rest => do
    match ← reference? rest with
    | none => return '&' :: (← decode rest)
    | some (s, n) => return s ++ (← decode (rest.drop n))
  | c :: rest => do return c :: (← decode rest)
termination_by t.length
decreasing_by
  all_goals simp only [List.length_cons, List.length_drop]; omega

end Html
end Marginalia
