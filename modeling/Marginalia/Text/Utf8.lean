import Marginalia.Text.Basic

/-
The encoding of texts as bytes, and the strict reading of it: no overlong form,
no surrogate, nothing beyond the last code point.
-/
namespace Marginalia
namespace Text

def encodeChar (c : Char) : List UInt8 :=
  let n := c.toNat
  let tail (shift : Nat) : UInt8 := UInt8.ofNat (0x80 + n / Nat.pow 2 shift % 64)
  if n < 0x80 then [UInt8.ofNat n]
  else if n < 0x800 then [UInt8.ofNat (0xC0 + n / 64), tail 0]
  else if n < 0x10000 then [UInt8.ofNat (0xE0 + n / 4096), tail 6, tail 0]
  else [UInt8.ofNat (0xF0 + n / 262144), tail 12, tail 6, tail 0]

def encode (t : Text) : List UInt8 := t.flatMap encodeChar

/-- The six bits of a byte that continues a code point. -/
def tailBits? (b : UInt8) : Option Nat :=
  if 0x80 ≤ b.toNat && b.toNat ≤ 0xBF then some (b.toNat - 0x80) else none

/-- The code point in `[lo, hi]` that is written by `n`, if it is one. -/
def charIn? (lo hi n : Nat) : Option Char := if lo ≤ n && n ≤ hi then some (Char.ofNat n) else none

def decode? : List UInt8 → Option Text
  | [] => some []
  | a :: rest =>
    let n := a.toNat
    if n < 0x80 then (decode? rest).map (Char.ofNat n :: ·)
    else if n < 0xE0 then
      match rest with
      | b :: r => do
        let x ← tailBits? b
        let c ← charIn? 0x80 0x7FF ((n - 0xC0) * 64 + x)
        if n < 0xC0 then none else (decode? r).map (c :: ·)
      | _ => none
    else if n < 0xF0 then
      match rest with
      | b :: b' :: r => do
        let x ← tailBits? b
        let y ← tailBits? b'
        let m := ((n - 0xE0) * 64 + x) * 64 + y
        let c ← charIn? 0x800 0xFFFF m
        if 0xD800 ≤ m && m ≤ 0xDFFF then none else (decode? r).map (c :: ·)
      | _ => none
    else
      match rest with
      | b :: b' :: b'' :: r => do
        let x ← tailBits? b
        let y ← tailBits? b'
        let z ← tailBits? b''
        let c ← charIn? 0x10000 0x10FFFF ((((n - 0xF0) * 64 + x) * 64 + y) * 64 + z)
        (decode? r).map (c :: ·)
      | _ => none

/-- Both forms of line end that hold a carriage return become a line feed. -/
def unifyLineEnds : Text → Text
  | [] => []
  | '\r' :: '\n' :: rest => '\n' :: unifyLineEnds rest
  | '\r' :: rest => '\n' :: unifyLineEnds rest
  | c :: rest => c :: unifyLineEnds rest

end Text
end Marginalia
