import Marginalia.Text.Basic
import Marginalia.Text.Space
import Marginalia.Text.PrintableTable

/-
Quoted texts, as they stand in messages and inside composite values.  Single
quotes enclose the text unless it holds one and no double quote; what does not
show as itself is spelled out by number.
-/
namespace Marginalia
namespace Text

def isPrintable (c : Char) : Bool := !inRanges unprintableRanges c.toNat

def hexDigit (n : Nat) : Char := if n < 10 then Char.ofNat (48 + n) else Char.ofNat (87 + n)

/-- The last `width` hexadecimal digits of `n`. -/
def hex : Nat → Nat → Text
  | 0, _ => []
  | width + 1, n => hex width (n / 16) ++ [hexDigit (n % 16)]

/-- The quote that encloses a text. -/
def quoteFor (t : Text) : Char :=
  if t.contains '\'' && !t.contains '"' then '"' else '\''

def escapeChar (quote c : Char) : Text :=
  let n := c.toNat
  if c = quote || c = '\\' then ['\\', c]
  else if c = '\t' then ['\\', 't']
  else if c = '\n' then ['\\', 'n']
  else if c = '\r' then ['\\', 'r']
  else if n < 0x20 || n = 0x7F then '\\' :: 'x' :: hex 2 n
  else if n < 0x7F then [c]
  else if isPrintable c then [c]
  else if n ≤ 0xFF then '\\' :: 'x' :: hex 2 n
  else if n ≤ 0xFFFF then '\\' :: 'u' :: hex 4 n
  else '\\' :: 'U' :: hex 8 n

/-- The text between quotes, with what cannot stand there spelled out. -/
def quoted (t : Text) : Text :=
  let q := quoteFor t
  q :: t.flatMap (escapeChar q) ++ [q]

/-- Bytes between quotes after a `b`, every byte outside the printable basic
range by number. -/
def quotedBytes (bs : List UInt8) : Text :=
  let t : Text := bs.map fun b => Char.ofNat b.toNat
  let q := quoteFor t
  let shape (c : Char) : Text :=
    if c.toNat < 0x7F then escapeChar q c else '\\' :: 'x' :: hex 2 c.toNat
  'b' :: q :: t.flatMap shape ++ [q]

end Text
end Marginalia
