import Marginalia.Template.Parsed

/-
What reading one piece can do.  Text and variables are added to the sequence that is open, the
tags of a block open and close it, and whatever cannot be taken for any of these is kept as
text and recorded.  The limit on nesting counts for nothing but the openers it refuses.
-/
namespace Marginalia
namespace Reading

/-- Why a tag is kept as text. -/
inductive Refuses (limit : Int) (r : Reading) (inner : Text) : AnomalyKind → Prop where
  | keyless (hread : Tag.read inner = .keyless) : Refuses limit r inner .emptyBlockKey
  | deep {key closer : Text} (hread : Tag.read inner = .opener key closer)
    (hfull : limit ≤ r.frames.length) : Refuses limit r inner .depthExceeded
  | stray {key : Text} (hread : Tag.read inner = .closer key)
    (hframe : ∀ f ∈ r.frames.head?, f.closer ≠ key) : Refuses limit r inner .strayCloser
  | malformed (hread : Tag.read inner = .malformed) : Refuses limit r inner .malformedTag

/-- What a reading may become by a piece that starts at `offset`. -/
inductive Move (limit : Int) (r : Reading) (offset : Nat) : Piece → Reading → Prop where
  | text (t : Text) : Move limit r offset (.text t) (r.push (.text t))
  | lookup {inner key : Text} {filters : List Text} (hread : Tag.read inner = .lookup key filters) :
    Move limit r offset (.tag inner) (r.push (.lookup key filters))
  | opened {inner key closer : Text} (hread : Tag.read inner = .opener key closer)
    (hroom : r.frames.length < limit) : Move limit r offset (.tag inner)
      { r with body := [], frames := ⟨key, closer, offset, r.body⟩ :: r.frames }
  | closed {inner : Text} {f : Frame} {rest : List Frame} (hread : Tag.read inner = .closer f.closer)
    (hframes : r.frames = f :: rest) : Move limit r offset (.tag inner)
      { r with body := .block f.key r.body.reverse :: f.before, frames := rest }
  | refused {inner : Text} {kind : AnomalyKind} (h : Refuses limit r inner kind) :
    Move limit r offset (.tag inner) (r.recover kind offset (Token.tag inner))
  | dangling (rest : Text) : Move limit r offset (.dangling rest)
      (r.recover .unterminatedTag offset (Token.tagOpen ++ rest))

variable (limit : Int) (r : Reading) (offset : Nat)

theorem move_opener {inner key closer : Text} (hread : Tag.read inner = .opener key closer) :
    Move limit r offset (.tag inner) (r.openBlock limit offset (Token.tag inner) key closer) := by
  unfold openBlock
  split
  · rename_i hfull
    exact .refused (.deep hread hfull)
  · rename_i hroom
    exact .opened hread (Int.not_le.1 hroom)

theorem move_closer {inner key : Text} (hread : Tag.read inner = .closer key) :
    Move limit r offset (.tag inner) (r.closeBlock offset (Token.tag inner) key) := by
  unfold closeBlock
  split
  · rename_i f rest hframes
    split
    · rename_i hkey
      subst hkey
      exact .closed hread hframes
    · rename_i hkey
      refine .refused (.stray hread ?_)
      intro g hg
      rw [hframes] at hg
      cases hg
      exact hkey
  · rename_i hframes
    refine .refused (.stray hread ?_)
    rw [hframes]
    nofun

theorem move_step (p : Piece) : Move limit r offset p (r.step limit offset p) := by
  cases p with
  | text t => exact .text t
  | dangling rest => exact .dangling rest
  | tag inner =>
    unfold step
    dsimp only
    cases hread : Tag.read inner with
    | opener key closer => exact move_opener limit r offset hread
    | keyless => exact .refused (.keyless hread)
    | closer key => exact move_closer limit r offset hread
    | lookup key filters => exact .lookup hread
    | malformed => exact .refused (.malformed hread)

/-- Two limits that refuse the same openers make the same step. -/
theorem step_congr {limit limit' : Int} {p : Piece}
    (h : ∀ inner key closer, p = .tag inner → Tag.read inner = .opener key closer →
      (limit ≤ r.frames.length ↔ limit' ≤ r.frames.length)) :
    r.step limit offset p = r.step limit' offset p := by
  cases p with
  | text t => rfl
  | dangling rest => rfl
  | tag inner =>
    unfold step
    dsimp only
    cases hread : Tag.read inner with
    | opener key closer =>
      dsimp only
      unfold openBlock
      simp only [h inner key closer rfl hread]
    | keyless | closer | lookup | malformed => rfl

/-! ## Recorded anomalies stay recorded -/

variable {limit : Int} {r : Reading} {offset : Nat}

theorem anomalies_move {r' : Reading} {p : Piece} (h : Move limit r offset p r') :
    r.anomalies <:+ r'.anomalies := by
  cases h with
  | text t => exact List.suffix_rfl
  | lookup hread => exact List.suffix_rfl
  | opened hread hroom => exact List.suffix_rfl
  | closed hread hframes => exact List.suffix_rfl
  | refused h => exact List.suffix_cons _ _
  | dangling rest => exact List.suffix_cons _ _

theorem anomalies_steps (ps : List Piece) :
    r.anomalies <:+ (r.steps limit offset ps).anomalies := by
  induction ps generalizing r offset with
  | nil => exact List.suffix_rfl
  | cons p rest ih => exact (anomalies_move (move_step limit r offset p)).trans ih

end Reading
end Marginalia
