import Marginalia.Text.Basic

/-
Bytes written with sixty-four digits, four digits for three bytes.  What is no
digit is passed over, and an equals sign ends the text where it fills up a group
of four.
-/
namespace Marginalia
namespace Base64

def digit? (c : Char) : Option Nat :=
  if 'A' ≤ c && c ≤ 'Z' then some (c.toNat - 65)
  else if 'a' ≤ c && c ≤ 'z' then some (c.toNat - 71)
  else if '0' ≤ c && c ≤ '9' then some (c.toNat + 4)
  else if c = '+' then some 62
  else if c = '/' then some 63
  else none

/-- The whole bytes in the bits of up to four digits. -/
def groupBytes (digits : List Nat) : List UInt8 :=
  let bits := (digits ++ List.replicate (4 - digits.length) 0).foldl (fun n d => 64 * n + d) 0
  ([bits / 65536, bits / 256, bits].map UInt8.ofNat).take (digits.length - 1)

/-- Read on with the digits of an open group and the equals signs since the last
digit.  Digits that fill no group must be followed by equals signs. -/
def decodeFrom (group : List Nat) (pads : Nat) : Text → Option (List UInt8)
  | [] => if group.isEmpty then some [] else none
  | c :: rest =>
    if c = '=' then
      if group.length < 2 then decodeFrom group pads rest
      else if group.length + pads + 1 < 4 then decodeFrom group (pads + 1) rest
      else some (groupBytes group)
    else
      match digit? c with
      | none => decodeFrom group pads rest
      | some d =>
        let group := group ++ [d]
        if group.length < 4 then decodeFrom group 0 rest
        else (decodeFrom [] 0 rest).map (groupBytes group ++ ·)

def decode? (t : Text) : Option (List UInt8) := decodeFrom [] 0 t

end Base64
end Marginalia
