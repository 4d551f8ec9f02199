import Mathlib.Tactic.SplitIfs
import Marginalia.Text.Utf8

/-
Texts survive being written to a file and read again: what is encoded is decoded to itself, and
where there is no carriage return no line end is changed.
-/
namespace Marginalia
namespace Text

variable {c : Char} {bs : List UInt8}

/-! ## One code point -/

theorem toNat_ofNat_of_lt {n : Nat} (h : n < 256) : (UInt8.ofNat n).toNat = n := by
  rw [UInt8.toNat_ofNat']
  exact Nat.mod_eq_of_lt h

/-- A byte that continues a code point carries six bits. -/
theorem tailBits?_ofNat {n : Nat} (h : n < 64) : tailBits? (UInt8.ofNat (0x80 + n)) = some n := by
  unfold tailBits?
  rw [toNat_ofNat_of_lt (by omega), if_pos (by simp; omega), Nat.add_sub_cancel_left]

theorem charIn?_toNat {lo hi n : Nat} (hlo : lo ≤ c.toNat) (hhi : c.toNat ≤ hi)
    (hn : n = c.toNat) : charIn? lo hi n = some c := by
  subst hn
  rw [charIn?, if_pos (by simpa using ⟨hlo, hhi⟩), Char.ofNat_toNat]

theorem toNat_lt (c : Char) : c.toNat < 0x110000 := by
  rcases c.valid with h | h
  · exact Nat.lt_trans h (by decide)
  · exact h.2

theorem not_surrogate (c : Char) : ¬ (0xD800 ≤ c.toNat ∧ c.toNat ≤ 0xDFFF) := by
  rcases c.valid with h | h
  · intro hs
    exact absurd hs.1 (Nat.not_le.2 h)
  · intro hs
    exact absurd hs.2 (Nat.not_le.2 h.1)

theorem decode?_one {a : Nat} (h : a < 0x80) :
    decode? (UInt8.ofNat a :: bs) = (decode? bs).map (Char.ofNat a :: ·) := by
  conv => lhs; unfold decode?
  dsimp only
  rw [toNat_ofNat_of_lt (by omega), if_pos h]

section

variable {a x y z : Nat} (hx : x < 64) (hy : y < 64) (hz : z < 64)

include hx

theorem decode?_two (ha : 2 ≤ a) (ha' : a < 32) (hc : c.toNat = a * 64 + x) :
    decode? (UInt8.ofNat (0xC0 + a) :: UInt8.ofNat (0x80 + x) :: bs) =
      (decode? bs).map (c :: ·) := by
  conv => lhs; unfold decode?
  dsimp only
  rw [toNat_ofNat_of_lt (by omega), if_neg (by omega), if_pos (by omega), tailBits?_ofNat hx,
    Option.bind_eq_bind, Option.bind_some, Nat.add_sub_cancel_left,
    charIn?_toNat (by omega) (by omega) hc.symm]
  exact if_neg (by omega)

include hy

theorem decode?_three (ha : a < 16) (hc : c.toNat = (a * 64 + x) * 64 + y)
    (hlow : 0x800 ≤ c.toNat) :
    decode? (UInt8.ofNat (0xE0 + a) :: UInt8.ofNat (0x80 + x) :: UInt8.ofNat (0x80 + y) :: bs) =
      (decode? bs).map (c :: ·) := by
  have hs := not_surrogate c
  conv => lhs; unfold decode?
  dsimp only
  rw [toNat_ofNat_of_lt (by omega), if_neg (by omega), if_neg (by omega), if_pos (by omega),
    tailBits?_ofNat hx, tailBits?_ofNat hy, Nat.add_sub_cancel_left]
  simp only [Option.bind_eq_bind, Option.bind_some, ← hc]
  rw [charIn?_toNat hlow (by omega) rfl]
  exact if_neg (by simpa using hs)

include hz

theorem decode?_four (ha : a < 16) (hc : c.toNat = ((a * 64 + x) * 64 + y) * 64 + z)
    (hlow : 0x10000 ≤ c.toNat) :
    decode? (UInt8.ofNat (0xF0 + a) :: UInt8.ofNat (0x80 + x) :: UInt8.ofNat (0x80 + y) ::
      UInt8.ofNat (0x80 + z) :: bs) = (decode? bs).map (c :: ·) := by
  have htop := toNat_lt c
  conv => lhs; unfold decode?
  dsimp only
  rw [toNat_ofNat_of_lt (by omega), if_neg (by omega), if_neg (by omega), if_neg (by omega),
    tailBits?_ofNat hx, tailBits?_ofNat hy, tailBits?_ofNat hz, Nat.add_sub_cancel_left]
  simp only [Option.bind_eq_bind, Option.bind_some, ← hc]
  rw [charIn?_toNat hlow (by omega) rfl]
  rfl

end

/-- What a code point is written with is read back, whatever follows. -/
theorem decode?_encodeChar_append (c : Char) (bs : List UInt8) :
    decode? (encodeChar c ++ bs) = (decode? bs).map (c :: ·) := by
  have htop := toNat_lt c
  have hbits : ∀ n, n % 64 < 64 := fun n => Nat.mod_lt n (by decide)
  have hpow : Nat.pow 2 0 = 1 ∧ Nat.pow 2 6 = 64 ∧ Nat.pow 2 12 = 4096 := ⟨rfl, rfl, rfl⟩
  unfold encodeChar
  dsimp only
  rw [hpow.1, hpow.2.1, hpow.2.2, Nat.div_one]
  split_ifs with h1 h2 h3
  · refine (decode?_one h1).trans ?_
    rw [Char.ofNat_toNat]
    rfl
  · exact decode?_two (hbits _) (by omega) (by omega) (by omega)
  · exact decode?_three (hbits _) (hbits _) (by omega) (by omega) (by omega)
  · exact decode?_four (hbits _) (hbits _) (hbits _) (by omega) (by omega) (by omega)

theorem decode?_encode (t : Text) : decode? (encode t) = some t := by
  induction t with
  | nil => rfl
  | cons c rest ih =>
    rw [encode, List.flatMap_cons, decode?_encodeChar_append, ← encode, ih]
    rfl

/-! ## Line ends -/

theorem unifyLineEnds_of_not_mem {t : Text} (h : '\r' ∉ t) : unifyLineEnds t = t := by
  fun_induction unifyLineEnds t with
  | case1 => rfl
  | case2 rest ih => exact absurd (.head _) h
  | case3 rest _ ih => exact absurd (.head _) h
  | case4 c rest _ _ ih => rw [ih fun hmem => h (.tail _ hmem)]

theorem not_mem_unifyLineEnds (t : Text) : '\r' ∉ unifyLineEnds t := by
  fun_induction unifyLineEnds t with
  | case1 => nofun
  | case2 rest ih => exact List.not_mem_cons_of_ne_of_not_mem (by decide) ih
  | case3 rest _ ih => exact List.not_mem_cons_of_ne_of_not_mem (by decide) ih
  | case4 c rest _ hc ih =>
    refine List.not_mem_cons_of_ne_of_not_mem ?_ ih
    rintro rfl
    exact hc rfl

theorem unifyLineEnds_unifyLineEnds (t : Text) :
    unifyLineEnds (unifyLineEnds t) = unifyLineEnds t :=
  unifyLineEnds_of_not_mem (not_mem_unifyLineEnds t)

variable {sep : Char}

/-- Line ends do not reach over another code point. -/
theorem unifyLineEnds_append (hfeed : sep ≠ '\n') (hreturn : sep ≠ '\r') (s t : Text) :
    unifyLineEnds (s ++ sep :: t) = unifyLineEnds s ++ sep :: unifyLineEnds t := by
  fun_induction unifyLineEnds s with
  | case1 =>
    rw [List.nil_append, unifyLineEnds.eq_4 _ _ (by simp [hreturn]) (by simp [hreturn])]
    rfl
  | case2 rest ih => rw [List.cons_append, List.cons_append, unifyLineEnds, ih, List.cons_append]
  | case3 rest hrest ih =>
    have hnot : ∀ u, rest ++ sep :: t = '\n' :: u → False := by
      cases rest with
      | nil => exact fun u hu => hfeed (List.cons.inj hu).1
      | cons c rest =>
        intro u hu
        exact hrest rest (by rw [(List.cons.inj hu).1])
    rw [List.cons_append, unifyLineEnds.eq_3 _ hnot, ih, List.cons_append]
  | case4 c rest _ hc ih =>
    rw [List.cons_append, unifyLineEnds.eq_4 _ _ (by simp_all) hc, ih, List.cons_append]

end Text
end Marginalia
