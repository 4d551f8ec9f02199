import Marginalia.Text.Quoted

/-
The secure hash of 160 bits, of bytes.
-/
namespace Marginalia
namespace Sha1

/-- Eight bytes, most significant first. -/
def bytes8 (n : Nat) : List UInt8 :=
  (List.range 8).map fun i => UInt8.ofNat (n / Nat.pow 256 (7 - i))

/-- The message with its closing bit, zeros, and its length in bits. -/
def pad (bs : List UInt8) : List UInt8 :=
  bs ++ [0x80] ++ List.replicate ((119 - bs.length % 64) % 64) 0 ++ bytes8 (8 * bs.length)

/-- Words of four bytes, most significant first. -/
def toWords : List UInt8 → List UInt32
  | a :: b :: c :: d :: rest =>
    (a.toUInt32 <<< 24 ||| b.toUInt32 <<< 16 ||| c.toUInt32 <<< 8 ||| d.toUInt32) :: toWords rest
  | _ => []

def rotate (n : UInt32) (w : UInt32) : UInt32 := (w <<< n) ||| (w >>> (32 - n))

/-- Extend the words of a block, kept last one first, by `n` more. -/
def extend : Nat → List UInt32 → List UInt32
  | 0, ws => ws
  | n + 1, ws =>
    let w (i : Nat) : UInt32 := ws.getD i 0
    extend n (rotate 1 (w 2 ^^^ w 7 ^^^ w 13 ^^^ w 15) :: ws)

structure State where
  a : UInt32
  b : UInt32
  c : UInt32
  d : UInt32
  e : UInt32

def start : State := ⟨0x67452301, 0xEFCDAB89, 0x98BADCFE, 0x10325476, 0xC3D2E1F0⟩

def round (s : State) (i : Nat) (w : UInt32) : State :=
  let (f, k) : UInt32 × UInt32 :=
    if i < 20 then ((s.b &&& s.c) ||| (~~~s.b &&& s.d), 0x5A827999)
    else if i < 40 then (s.b ^^^ s.c ^^^ s.d, 0x6ED9EBA1)
    else if i < 60 then ((s.b &&& s.c) ||| (s.b &&& s.d) ||| (s.c &&& s.d), 0x8F1BBCDC)
    else (s.b ^^^ s.c ^^^ s.d, 0xCA62C1D6)
  ⟨rotate 5 s.a + f + s.e + k + w, s.a, rotate 30 s.b, s.c, s.d⟩

def block (s : State) (ws : List UInt32) : State :=
  let words := (extend 64 ws.reverse).reverse
  let t := words.zipIdx.foldl (fun t (w, i) => round t i w) s
  ⟨s.a + t.a, s.b + t.b, s.c + t.c, s.d + t.d, s.e + t.e⟩

/-- Take in the words of all blocks; `fuel` bounds the number of blocks. -/
def blocks : Nat → State → List UInt32 → State
  | 0, s, _ => s
  | fuel + 1, s, ws => if ws.isEmpty then s else blocks fuel (block s (ws.take 16)) (ws.drop 16)

/-- The hash in forty hexadecimal digits. -/
def digest (bs : List UInt8) : Text :=
  let ws := toWords (pad bs)
  let s := blocks ws.length start ws
  [s.a, s.b, s.c, s.d, s.e].flatMap fun w => Text.hex 8 w.toNat

end Sha1
end Marginalia
