import Marginalia.Value.Literal
import Marginalia.Text.Case

/-
Highlight colours: the names of the reader's palette, and colours given by
their red, green and blue parts, with the contrast between two of them.
-/
namespace Marginalia

inductive Palette where
  | red
  | orange
  | yellow
  | green
  | olive
  | cyan
  | blue
  | purple
  | gray
deriving DecidableEq, Repr

namespace Palette

def name : Palette → Text
  | .red => "red".toList
  | .orange => "orange".toList
  | .yellow => "yellow".toList
  | .green => "green".toList
  | .olive => "olive".toList
  | .cyan => "cyan".toList
  | .blue => "blue".toList
  | .purple => "purple".toList
  | .gray => "gray".toList

def all : List Palette := [.red, .orange, .yellow, .green, .olive, .cyan, .blue, .purple, .gray]

/-- The palette colour a name stands for, in any case and with blanks around;
gray has two spellings. -/
def ofText? (t : Text) : Option Palette :=
  let n := Text.lower (Text.strip t)
  let n := if n = "grey".toList then "gray".toList else n
  all.find? (·.name = n)

/-- The palette colour of an annotation's colour field. -/
def ofValue? (v : Value) : Except Fault (Option Palette) :=
  if !v.isTruthy then .ok none
  else match v with
    | .text t => .ok (ofText? t)
    | .bytes _ => .ok none
    | _ => .error .noSuchOperation

/-- The style variable of a colour as background. -/
def background (p : Palette) : Text := "var(--khl-".toList ++ p.name ++ [')']

/-- The style variable of the text on a coloured background. -/
def foreground (p : Palette) : Text := "var(--on-khl-".toList ++ p.name ++ [')']

end Palette

structure Rgb where
  red : Nat
  green : Nat
  blue : Nat
deriving DecidableEq, Repr

namespace Rgb

/-- The value of a hexadecimal digit; decimal digits of every script count. -/
def hexValue? (c : Char) : Option Nat :=
  match Text.digit? c with
  | some d => some d
  | none =>
    if 'a' ≤ c && c ≤ 'f' then some (c.toNat - 87)
    else if 'A' ≤ c && c ≤ 'F' then some (c.toNat - 55)
    else none

/-- Three or six hexadecimal digits, with or without a hash mark before them; a
line break at the end is passed over. -/
def ofText? (t : Text) : Option Rgb := do
  let body :=
    match t with
    | '#' :: rest => rest
    | rest => rest
  let body := if body.getLast? = some '\n' then body.dropLast else body
  match ← body.mapM hexValue? with
  | [r, g, b] => some ⟨17 * r, 17 * g, 17 * b⟩
  | [r, r', g, g', b, b'] => some ⟨16 * r + r', 16 * g + g', 16 * b + b'⟩
  | _ => none

def decimal (digits : Nat) (places : Nat) : Binary64 := .ofRatio false digits (Nat.pow 10 places)

/-- The largest number whose fifth power is at most `n`, among those below 2 to
the power `bits`. -/
def fifthRoot (n : Nat) : Nat → Nat → Nat
  | 0, root => root
  | bits + 1, root =>
    let next := root + Nat.pow 2 bits
    fifthRoot n bits (if Nat.pow next 5 ≤ n then next else root)

/-- The power 12/5 of a number of at most one, to far more places than are
kept. -/
def power12over5 : Binary64 → Binary64
  | .finite _ u =>
    let scale := 200
    let power := Nat.pow u 12 * Nat.pow 2 (5 * scale) / Nat.pow Binary64.one 12
    let root := fifthRoot power (scale + 2) 0
    .ofRatio false root (Nat.pow 2 scale)
  | x => x

/-- The linear intensity of a channel given from 0 to 255. -/
def linear (channel : Nat) : Binary64 :=
  let c := (Binary64.ofNat channel).div (.ofNat 255)
  if (c.compare? (decimal 3928 5)).any (· ≠ .gt) then c.div (decimal 1292 2)
  else power12over5 ((c.add (decimal 55 3)).div (decimal 1055 3))

def luminance (c : Rgb) : Binary64 :=
  (((decimal 2126 4).mul (linear c.red)).add ((decimal 7152 4).mul (linear c.green))).add
    ((decimal 722 4).mul (linear c.blue))

def contrast (a b : Rgb) : Binary64 :=
  let x := a.luminance
  let y := b.luminance
  let (lighter, darker) := if x.compare? y = some .lt then (y, x) else (x, y)
  (lighter.add (decimal 5 2)).div (darker.add (decimal 5 2))

def black : Rgb := ⟨0, 0, 0⟩

def white : Rgb := ⟨255, 255, 255⟩

/-- Black or white text, whichever stands out better. -/
def readableText (c : Rgb) : Text :=
  if ((contrast black c).compare? (contrast white c)).any (· ≠ .lt) then "#000".toList
  else "#fff".toList

end Rgb
end Marginalia
