import Marginalia.Proofs.Template.Anomaly

/-
In which order the recoveries of a template are recorded.  The pieces are read from left to
right, so what is kept as text while they are read is recorded in the order of its places.  A
block that was never closed is given up only at the end, when everything inside it has been
read; its place is that of its opener.
-/
namespace Marginalia

/-- One recovery after another, each further on in the template. -/
def Anomaly.InOrder (as : List Anomaly) : Prop := as.Pairwise fun a b => a.offset < b.offset

instance (as : List Anomaly) : Decidable (Anomaly.InOrder as) :=
  inferInstanceAs (Decidable (as.Pairwise fun a b => a.offset < b.offset))

theorem Anomaly.inOrder_append_single {as : List Anomaly} {u : Anomaly} (h : InOrder as)
    (hapart : ∀ a ∈ as, a.offset ≠ u.offset) :
    InOrder (as ++ [u]) ↔ ∀ a ∈ as, a.offset ≤ u.offset := by
  unfold InOrder at *
  rw [List.pairwise_append]
  constructor
  · intro hall a ha
    exact Nat.le_of_lt (hall.2.2 a ha u (.head _))
  · intro hle
    refine ⟨h, List.pairwise_singleton _ _, fun a ha b hb => ?_⟩
    obtain rfl := List.mem_singleton.1 hb
    exact Nat.lt_of_le_of_ne (hle a ha) (hapart a ha)

/-! ## Places while pieces are read -/

namespace Reading

/-- Recoveries and open blocks have places of their own in the part that was read. -/
structure Placed (r : Reading) (offset : Nat) : Prop where
  recovered_lt : ∀ a ∈ r.anomalies, a.offset < offset
  opened_lt : ∀ f ∈ r.frames, f.offset < offset
  apart : ∀ f ∈ r.frames, ∀ a ∈ r.anomalies, a.offset ≠ f.offset
  inOrder : Anomaly.InOrder r.anomalies.reverse
  ne_unclosedBlock : ∀ a ∈ r.anomalies, a.kind ≠ .unclosedBlock

namespace Placed

variable {r : Reading} {offset : Nat}

theorem start : Placed {} 0 where
  recovered_lt := nofun
  opened_lt := nofun
  apart := nofun
  inOrder := .nil
  ne_unclosedBlock := nofun

/-- Reading on moves the end of the part that was read. -/
theorem mono (h : r.Placed offset) {offset' : Nat} (hle : offset ≤ offset') :
    r.Placed offset' where
  recovered_lt := fun a ha => Nat.lt_of_lt_of_le (h.recovered_lt a ha) hle
  opened_lt := fun f hf => Nat.lt_of_lt_of_le (h.opened_lt f hf) hle
  apart := h.apart
  inOrder := h.inOrder
  ne_unclosedBlock := h.ne_unclosedBlock

/-- Tokens have no part in it, and closed blocks none either. -/
theorem of_frames (h : r.Placed offset) {r' : Reading} (hframes : ∀ f ∈ r'.frames, f ∈ r.frames)
    (hanomalies : r'.anomalies = r.anomalies) : r'.Placed offset := by
  obtain ⟨hrecovered, hopened, hapart, horder, hkinds⟩ := h
  rw [← hanomalies] at hrecovered hapart horder hkinds
  exact ⟨hrecovered, fun f hf => hopened f (hframes f hf),
    fun f hf => hapart f (hframes f hf), horder, hkinds⟩

theorem opened (h : r.Placed offset) (key closer : Text) (body before : List Token) :
    Placed { r with body := body, frames := ⟨key, closer, offset, before⟩ :: r.frames }
      (offset + 1) where
  recovered_lt := fun a ha => Nat.lt_succ_of_lt (h.recovered_lt a ha)
  opened_lt := by
    intro f hf
    rcases List.mem_cons.1 hf with rfl | hf
    · exact Nat.lt_succ_self offset
    · exact Nat.lt_succ_of_lt (h.opened_lt f hf)
  apart := by
    intro f hf a ha
    rcases List.mem_cons.1 hf with rfl | hf
    · exact Nat.ne_of_lt (h.recovered_lt a ha)
    · exact h.apart f hf a ha
  inOrder := h.inOrder
  ne_unclosedBlock := h.ne_unclosedBlock

theorem recover (h : r.Placed offset) {kind : AnomalyKind} (hkind : kind ≠ .unclosedBlock)
    (raw : Text) : (r.recover kind offset raw).Placed (offset + 1) where
  recovered_lt := by
    intro a ha
    rcases List.mem_cons.1 ha with rfl | ha
    · exact Nat.lt_succ_self offset
    · exact Nat.lt_succ_of_lt (h.recovered_lt a ha)
  opened_lt := fun f hf => Nat.lt_succ_of_lt (h.opened_lt f hf)
  apart := by
    intro f hf a ha
    rcases List.mem_cons.1 ha with rfl | ha
    · exact Nat.ne_of_gt (h.opened_lt f hf)
    · exact h.apart f hf a ha
  inOrder := by
    have hlt : ∀ a ∈ r.anomalies.reverse, a.offset < offset :=
      fun a ha => h.recovered_lt a (List.mem_reverse.1 ha)
    show Anomaly.InOrder (⟨kind, offset, raw⟩ :: r.anomalies).reverse
    rw [List.reverse_cons, Anomaly.inOrder_append_single h.inOrder]
    · exact fun a ha => Nat.le_of_lt (hlt a ha)
    · exact fun a ha => Nat.ne_of_lt (hlt a ha)
  ne_unclosedBlock := by
    intro a ha
    rcases List.mem_cons.1 ha with rfl | ha
    · exact hkind
    · exact h.ne_unclosedBlock a ha

end Placed

variable {limit : Int} {r r' : Reading} {offset : Nat} {p : Piece}

theorem placed_move (h : r.Placed offset) (hmove : Move limit r offset p r') :
    r'.Placed (offset + p.source.length) := by
  have htag (inner : Text) : offset + 1 ≤ offset + (Piece.tag inner).source.length := by
    simp only [Piece.source, Token.tag, Token.tagOpen, List.length_append, List.length_cons]
    omega
  have hfurther := h.mono (Nat.le_add_right offset p.source.length)
  cases hmove with
  | text t => exact hfurther.of_frames (fun f hf => hf) rfl
  | lookup hread => exact hfurther.of_frames (fun f hf => hf) rfl
  | opened hread hroom => exact (h.opened _ _ _ _).mono (htag _)
  | closed hread hframes =>
    refine hfurther.of_frames (fun f hf => ?_) rfl
    rw [hframes]
    exact .tail _ hf
  | refused hrefuses =>
    have hkind := fun heq => hrefuses.not_takesRest (.inr heq)
    exact (h.recover hkind _).mono (htag _)
  | dangling rest =>
    have hkind : AnomalyKind.unterminatedTag ≠ .unclosedBlock := by decide
    refine (h.recover hkind _).mono ?_
    simp only [Piece.source, Token.tagOpen, List.length_append, List.length_cons]
    omega

theorem placed_steps (h : r.Placed offset) (ps : List Piece) :
    (r.steps limit offset ps).Placed (offset + (Piece.sources ps).length) := by
  induction ps generalizing r offset with
  | nil => exact h
  | cons p rest ih =>
    rw [Piece.sources, List.length_append, ← Nat.add_assoc]
    exact ih (placed_move h (move_step limit r offset p))

end Reading

/-! ## Templates -/

namespace Parsed

open Anomaly (InOrder)

variable (limit : Int) (template : Text)

/-- The recoveries in the order of their places, and behind them, if a block was never closed,
that block at a place of its own. -/
theorem exists_placed : ∃ as, InOrder as ∧ (∀ a ∈ as, a.kind ≠ .unclosedBlock) ∧
    ((ofTemplate limit template).anomalies = as ∨
      ∃ u, u.kind = .unclosedBlock ∧ (∀ a ∈ as, a.offset ≠ u.offset) ∧
        (ofTemplate limit template).anomalies = as ++ [u]) := by
  obtain ⟨r, hr⟩ : ∃ r, Reading.steps limit {} 0 (Piece.ofTemplate template) = r := ⟨_, rfl⟩
  have h : r.Placed (0 + (Piece.sources (Piece.ofTemplate template)).length) := by
    rw [← hr]
    exact Reading.placed_steps .start _
  refine ⟨r.anomalies.reverse, h.inOrder,
    fun a ha => h.ne_unclosedBlock a (List.mem_reverse.1 ha), ?_⟩
  unfold ofTemplate finish
  rw [hr]
  cases hlast : r.frames.getLast? with
  | none => exact .inl rfl
  | some f =>
    refine .inr ⟨⟨.unclosedBlock, f.offset, template.drop f.offset⟩, rfl, fun a ha => ?_,
      List.reverse_cons⟩
    exact h.apart f (List.mem_of_getLast? hlast) a (List.mem_reverse.1 ha)

/-- No two recoveries have the same place, and those of single tags are recorded in the order
of their places.  All of them are, exactly if nothing was recovered behind the opener of a
block that was never closed. -/
theorem inOrder_ofTemplate :
    ((ofTemplate limit template).anomalies.map (·.offset)).Nodup ∧
    InOrder ((ofTemplate limit template).anomalies.filter (·.kind ≠ .unclosedBlock)) ∧
    (InOrder (ofTemplate limit template).anomalies ↔
      ∀ u ∈ (ofTemplate limit template).anomalies, u.kind = .unclosedBlock →
        ∀ a ∈ (ofTemplate limit template).anomalies, a.offset ≤ u.offset) := by
  obtain ⟨as, horder, hkinds, heq | ⟨u, hkind, hapart, heq⟩⟩ := exists_placed limit template
  · have hall : as.filter (·.kind ≠ .unclosedBlock) = as := by
      rw [List.filter_eq_self]
      intro a ha
      simpa using hkinds a ha
    have hnodup : (as.map (·.offset)).Nodup :=
      List.pairwise_map.2 (horder.imp Nat.ne_of_lt)
    rw [heq, hall]
    exact ⟨hnodup, horder, fun _ v hv hblock => absurd hblock (hkinds v hv), fun _ => horder⟩
  · have hothers : (as ++ [u]).filter (·.kind ≠ .unclosedBlock) = as := by
      rw [List.filter_append, List.filter_eq_self.2 fun a ha => by simpa using hkinds a ha]
      simp [hkind]
    have hnodup : ((as ++ [u]).map (·.offset)).Nodup := by
      refine List.pairwise_map.2 (List.pairwise_append.2
        ⟨horder.imp Nat.ne_of_lt, List.pairwise_singleton _ _, fun a ha b hb => ?_⟩)
      obtain rfl := List.mem_singleton.1 hb
      exact hapart a ha
    rw [heq, hothers]
    refine ⟨hnodup, horder, ?_⟩
    rw [Anomaly.inOrder_append_single horder hapart]
    simp only [List.mem_append, List.mem_singleton]
    constructor
    · intro hle v hv hblock a ha
      -- only the last one is a block that was never closed
      obtain rfl := hv.resolve_left fun hv => hkinds v hv hblock
      rcases ha with ha | rfl
      · exact hle a ha
      · exact Nat.le_refl _
    · intro hlast a ha
      exact hlast u (.inr rfl) hkind a (.inl ha)

/-- A closer that belongs to no block, inside a block that is never closed. -/
def strayInside : Text := "\x7b\x7b#a\x7d\x7d\x7b\x7b/b\x7d\x7d".toList

/-- The block starts first and is recorded last. -/
theorem not_inOrder_strayInside :
    (ofTemplate 20 strayInside).anomalies.map (·.offset) = [6, 0] ∧
      ¬ InOrder (ofTemplate 20 strayInside).anomalies := by
  constructor
  · decide +kernel
  · decide +kernel

end Parsed
end Marginalia
