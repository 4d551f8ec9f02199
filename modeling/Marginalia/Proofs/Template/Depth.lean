import Marginalia.Proofs.Template.Canonical
import Marginalia.Proofs.Template.Move

/-
How deep blocks stand inside each other.  While a template is read, every open
sequence leaves room for the blocks that are open around it, so no tree comes out
deeper than allowed.
-/
namespace Marginalia

namespace Token

theorem depths_append (xs ys : List Token) :
    depths (xs ++ ys) = max (depths xs) (depths ys) := by
  induction xs with
  | nil =>
    rw [List.nil_append, depths]
    omega
  | cons x rest ih =>
    rw [List.cons_append, depths, depths, ih]
    omega

theorem depths_reverse (xs : List Token) : depths xs.reverse = depths xs := by
  induction xs with
  | nil => rfl
  | cons x rest ih =>
    rw [List.reverse_cons, depths_append, ih, depths, depths, depths]
    omega

end Token

namespace Reading

open Token (depth depths depths_reverse)

/-- The open sequences are no deeper than the blocks around them allow. -/
def Fits (limit : Nat) : List Frame → List Token → Prop
  | [], body => depths body ≤ limit
  | f :: rest, body => depths body + (rest.length + 1) ≤ limit ∧ Fits limit rest f.before

section

variable {limit : Nat} {frames : List Frame} {body : List Token} {t : Token}

theorem Fits.room (h : Fits limit frames body) : depths body + frames.length ≤ limit := by
  cases frames with
  | nil => exact h
  | cons f rest => exact h.1

theorem Fits.cons (h : Fits limit frames body) (ht : depth t + frames.length ≤ limit) :
    Fits limit frames (t :: body) := by
  have hroom := h.room
  cases frames with
  | nil =>
    unfold Fits at *
    rw [depths]
    rw [List.length_nil] at ht
    omega
  | cons f rest =>
    refine ⟨?_, h.2⟩
    rw [List.length_cons] at ht hroom
    rw [depths]
    omega

theorem Fits.outermost (h : Fits limit frames body) {f : Frame} (hf : frames.getLast? = some f) :
    depths f.before ≤ limit := by
  induction frames generalizing body with
  | nil => cases hf
  | cons g rest ih =>
    cases rest with
    | nil =>
      cases hf
      exact h.2
    | cons g' rest =>
      rw [List.getLast?_cons_cons] at hf
      exact ih h.2 hf

end

variable {limit : Int} {r : Reading}

theorem fits_push {t : Token} (h : Fits limit.toNat r.frames r.body) (ht : depth t = 0) :
    Fits limit.toNat (r.push t).frames (r.push t).body := by
  have hroom := h.room
  exact h.cons (by omega)

theorem fits_move {r' : Reading} {offset : Nat} {p : Piece}
    (h : Fits limit.toNat r.frames r.body) (hmove : Move limit r offset p r') :
    Fits limit.toNat r'.frames r'.body := by
  cases hmove with
  | text t => exact fits_push h rfl
  | lookup hread => exact fits_push h rfl
  | opened hread hroom =>
    refine ⟨?_, h⟩
    rw [depths]
    omega
  | closed hread hframes =>
    rw [hframes] at h
    obtain ⟨hbody, hbefore⟩ := h
    refine hbefore.cons ?_
    rw [depth, depths_reverse]
    omega
  | refused hrefuses => exact fits_push h rfl
  | dangling rest => exact fits_push h rfl

theorem fits_steps (h : Fits limit.toNat r.frames r.body) (offset : Nat) (ps : List Piece) :
    Fits limit.toNat (r.steps limit offset ps).frames (r.steps limit offset ps).body := by
  induction ps generalizing r offset with
  | nil => exact h
  | cons p rest ih => exact ih (fits_move h (move_step limit r offset p)) _

/-! ## Limits below zero -/

theorem step_toNat (limit : Int) (r : Reading) (offset : Nat) (p : Piece) :
    r.step limit offset p = r.step limit.toNat offset p :=
  step_congr r offset fun _ _ _ _ _ => by omega

theorem steps_toNat (limit : Int) (r : Reading) (offset : Nat) (ps : List Piece) :
    r.steps limit offset ps = r.steps limit.toNat offset ps := by
  induction ps generalizing r offset with
  | nil => rfl
  | cons p rest ih => rw [steps, steps, step_toNat, ih]

end Reading

namespace Parsed

theorem ofTemplate_toNat (limit : Int) (template : Text) :
    ofTemplate limit template = ofTemplate limit.toNat template := by
  unfold ofTemplate
  rw [Reading.steps_toNat]

/-- No block stands deeper in the tree of a template than allowed. -/
theorem depths_ofTemplate (limit : Int) (template : Text) :
    Token.depths (ofTemplate limit template).tokens ≤ limit.toNat := by
  have hstart : Reading.Fits limit.toNat [] [] := Nat.zero_le _
  have h := Reading.fits_steps (r := {}) hstart 0 (Piece.ofTemplate template)
  unfold ofTemplate finish
  split
  · rename_i hnone
    rw [List.getLast?_eq_none_iff] at hnone
    rw [hnone] at h
    rw [Token.depths_reverse]
    exact h
  · rename_i f hf
    have hbefore := h.outermost hf
    rw [Token.depths_append, Token.depths_reverse, Token.depths, Token.depths, Token.depth]
    · omega
    · nofun

end Parsed
end Marginalia
