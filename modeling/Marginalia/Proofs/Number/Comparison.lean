import Marginalia.Number.Binary64

/-
Which numbers compare.  A floating-point number that is not a number compares with nothing;
any two others do, and so does each of them with a whole number.
-/
namespace Marginalia
namespace Binary64

theorem exists_compare?_of_ne_nan {x y : Binary64} (hx : x ≠ .nan) (hy : y ≠ .nan) :
    ∃ o, x.compare? y = some o := by
  cases x with
  | nan => exact absurd rfl hx
  | infinity s =>
    cases y with
    | nan => exact absurd rfl hy
    | infinity t => exact ⟨_, rfl⟩
    | finite t v => exact ⟨_, rfl⟩
  | finite s u =>
    cases y with
    | nan => exact absurd rfl hy
    | infinity t => exact ⟨_, rfl⟩
    | finite t v => exact ⟨_, rfl⟩

theorem exists_compareInt?_of_ne_nan {x : Binary64} (hx : x ≠ .nan) (n : Int) :
    ∃ o, x.compareInt? n = some o := by
  cases x with
  | nan => exact absurd rfl hx
  | infinity s => exact ⟨_, rfl⟩
  | finite s u => exact ⟨_, rfl⟩

theorem compareInt?_finite (u : Nat) (n : Int) :
    (finite false u).compareInt? n = some (compare (u : Int) (n * one)) :=
  rfl

theorem sub_ne_nan {x y : Binary64} (hx : x.isFinite) (hy : y.isFinite) : x.sub y ≠ .nan := by
  cases x with
  | nan => cases hx
  | infinity s => cases hx
  | finite s u =>
    cases y with
    | nan => cases hy
    | infinity t => cases hy
    | finite t v =>
      show (if _ then _ else _) ≠ Binary64.nan
      split
      · nofun
      · unfold ofSigned
        dsimp only
        split <;> nofun

theorem ofInt?_ne_nan {n : Int} {x : Binary64} (h : ofInt? n = some x) : x ≠ .nan := by
  intro hx
  rw [hx] at h
  unfold ofInt? at h
  cases hratio : ofRatio (n < 0) n.natAbs 1 with
  | finite s u => simp [hratio] at h
  | infinity s => simp [hratio] at h
  | nan => simp [hratio] at h

end Binary64
end Marginalia
