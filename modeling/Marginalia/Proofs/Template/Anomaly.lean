import Marginalia.Proofs.Template.Move
import Marginalia.Proofs.Template.Origin

/-
What the recoveries of a template tell.  Each is made at a piece that starts with opening
braces, and has that piece's place and text; only braces that are never closed, and a block
that is not, reach to the end of the template.  What was recovered stands as text in the
tree, so a tree without opening braces in its texts is one that was read without recovery.
-/
namespace Marginalia

/-- A recovery that keeps everything to the end of the template. -/
def AnomalyKind.TakesRest (kind : AnomalyKind) : Prop :=
  kind = .unterminatedTag ∨ kind = .unclosedBlock

/-! ## Recoveries of pieces -/

namespace Reading

/-- Why a piece may be kept as text when it is read. -/
inductive MayKeep : Piece → AnomalyKind → Prop where
  | tag {inner : Text} {kind : AnomalyKind} (hkind : ¬ kind.TakesRest) :
    MayKeep (.tag inner) kind
  | dangling (rest : Text) : MayKeep (.dangling rest) .unterminatedTag

theorem Refuses.not_takesRest {limit : Int} {r : Reading} {inner : Text} {kind : AnomalyKind}
    (h : Refuses limit r inner kind) : ¬ kind.TakesRest := by
  intro hkind
  rcases hkind with rfl | rfl
  · cases h
  · cases h

namespace MayKeep

variable {p : Piece} {kind : AnomalyKind}

theorem opens (h : MayKeep p kind) : Token.tagOpen <+: p.source := by
  cases h with
  | tag _ =>
    rw [Piece.source, Token.tag, List.append_assoc]
    exact List.prefix_append _ _
  | dangling rest => exact List.prefix_append _ _

theorem eq_unterminatedTag (h : MayKeep p kind) (hkind : kind.TakesRest) :
    kind = .unterminatedTag ∧ ∃ rest, p = .dangling rest := by
  cases h with
  | tag hother => exact absurd hkind hother
  | dangling rest => exact ⟨rfl, rest, rfl⟩

end MayKeep

/-- Recoveries of some of the pieces from an offset on, in the order of the pieces. -/
inductive Recovers : Nat → List Piece → List Anomaly → Prop where
  | nil (offset : Nat) : Recovers offset [] []
  | read {offset : Nat} {p : Piece} {ps : List Piece} {as : List Anomaly}
    (h : Recovers (offset + p.source.length) ps as) : Recovers offset (p :: ps) as
  | kept {offset : Nat} {p : Piece} {ps : List Piece} {as : List Anomaly} {kind : AnomalyKind}
    (hkeep : MayKeep p kind) (h : Recovers (offset + p.source.length) ps as) :
    Recovers offset (p :: ps) (⟨kind, offset, p.source⟩ :: as)

namespace Recovers

variable {offset : Nat} {ps : List Piece} {as : List Anomaly}

/-- A recovery has the place and the text of its piece. -/
theorem exists_piece (h : Recovers offset ps as) {a : Anomaly} (ha : a ∈ as) :
    ∃ before p after, ps = before ++ p :: after ∧ MayKeep p a.kind ∧ a.raw = p.source ∧
      a.offset = offset + (Piece.sources before).length := by
  induction h with
  | nil offset => cases ha
  | @read offset p ps as _ ih =>
    obtain ⟨before, q, after, rfl, hkeep, hraw, hoffset⟩ := ih ha
    refine ⟨p :: before, q, after, rfl, hkeep, hraw, ?_⟩
    rw [hoffset, Piece.sources, List.length_append, Nat.add_assoc]
  | @kept offset p ps as kind hkeep _ ih =>
    rcases List.mem_cons.1 ha with rfl | ha
    · exact ⟨[], p, ps, rfl, hkeep, rfl, rfl⟩
    · obtain ⟨before, q, after, rfl, hkeep, hraw, hoffset⟩ := ih ha
      refine ⟨p :: before, q, after, rfl, hkeep, hraw, ?_⟩
      rw [hoffset, Piece.sources, List.length_append, Nat.add_assoc]

theorem length_le (h : Recovers offset ps as) : as.length ≤ ps.length := by
  induction h with
  | nil offset => exact Nat.le_refl _
  | read _ ih => exact Nat.le_succ_of_le ih
  | kept _ _ ih => exact Nat.succ_le_succ ih

/-- Recoveries of pieces in two parts are those of the one part and those of the other. -/
theorem exists_append {qs : List Piece} (h : Recovers offset (ps ++ qs) as) :
    ∃ xs ys, as = xs ++ ys ∧ Recovers offset ps xs ∧
      Recovers (offset + (Piece.sources ps).length) qs ys := by
  induction ps generalizing offset as with
  | nil => exact ⟨[], as, rfl, .nil offset, h⟩
  | cons p rest ih =>
    rw [Piece.sources, List.length_append, ← Nat.add_assoc]
    cases h with
    | read h =>
      obtain ⟨xs, ys, rfl, hxs, hys⟩ := ih h
      exact ⟨xs, ys, rfl, .read hxs, hys⟩
    | kept hkeep h =>
      obtain ⟨xs, ys, rfl, hxs, hys⟩ := ih h
      exact ⟨_ :: xs, ys, rfl, .kept hkeep hxs, hys⟩

theorem not_takesRest (h : Recovers offset ps as) (hps : ∀ rest, .dangling rest ∉ ps) :
    ∀ a ∈ as, ¬ a.kind.TakesRest := by
  intro a ha hkind
  obtain ⟨before, p, after, rfl, hkeep, _⟩ := h.exists_piece ha
  obtain ⟨_, rest, rfl⟩ := hkeep.eq_unterminatedTag hkind
  exact hps rest (List.mem_append_right _ (.head _))

theorem ne_unclosedBlock (h : Recovers offset ps as) : ∀ a ∈ as, a.kind ≠ .unclosedBlock := by
  intro a ha hkind
  obtain ⟨before, p, after, _, hkeep, _⟩ := h.exists_piece ha
  have hother := (hkeep.eq_unterminatedTag (.inr hkind)).1
  rw [hkind] at hother
  cases hother

/-- Braces that are never closed are recovered once. -/
theorem countP_unterminatedTag {template : Text}
    (h : Recovers offset (Piece.ofTemplate template) as) :
    as.countP (·.kind = .unterminatedTag) ≤ 1 := by
  have hnone {offset : Nat} {ps : List Piece} {xs : List Anomaly} (hxs : Recovers offset ps xs)
      (hps : ∀ rest, .dangling rest ∉ ps) : xs.countP (·.kind = .unterminatedTag) = 0 := by
    rw [List.countP_eq_zero]
    intro a ha hkind
    exact hxs.not_takesRest hps a ha (.inl (of_decide_eq_true hkind))
  obtain ⟨ps, hps, hcut | ⟨rest, hcut⟩⟩ := Piece.ofTemplate_dangling template
  · rw [hcut] at h
    rw [hnone h hps]
    exact Nat.zero_le 1
  · rw [hcut] at h
    obtain ⟨xs, ys, rfl, hxs, hys⟩ := h.exists_append
    have hlength : ys.length ≤ 1 := hys.length_le
    have hcount := ys.countP_le_length (p := (·.kind = .unterminatedTag))
    rw [List.countP_append, hnone hxs hps]
    omega

end Recovers

/-- Reading on records recoveries of the pieces, and forgets none. -/
theorem recovers_steps (limit : Int) (r : Reading) (offset : Nat) (ps : List Piece) :
    ∃ as, Recovers offset ps as ∧
      (r.steps limit offset ps).anomalies.reverse = r.anomalies.reverse ++ as := by
  induction ps generalizing r offset with
  | nil => exact ⟨[], .nil offset, (List.append_nil _).symm⟩
  | cons p rest ih =>
    obtain ⟨as, has, heq⟩ := ih (r.step limit offset p) (offset + p.source.length)
    rw [steps, heq]
    have hmove := move_step limit r offset p
    generalize r.step limit offset p = r' at hmove
    cases hmove with
    | text t => exact ⟨as, .read has, rfl⟩
    | lookup hread => exact ⟨as, .read has, rfl⟩
    | opened hread hroom => exact ⟨as, .read has, rfl⟩
    | closed hread hframes => exact ⟨as, .read has, rfl⟩
    | refused h =>
      refine ⟨_ :: as, .kept (.tag h.not_takesRest) has, ?_⟩
      rw [recover, List.reverse_cons, List.append_assoc]
      rfl
    | dangling rest =>
      refine ⟨_ :: as, .kept (.dangling rest) has, ?_⟩
      rw [recover, List.reverse_cons, List.append_assoc]
      rfl

/-! ## Recovered texts in the tree -/

open Token (withins withins_eq_flatMap)

/-- The tokens that are read and not given up so far. -/
def standing (r : Reading) : List Token := r.body ++ r.frames.flatMap (·.before)

/-- What was recovered stands as text in the tree. -/
def Shows (r : Reading) : Prop := ∀ a ∈ r.anomalies, .text a.raw ∈ withins r.standing

variable {limit : Int} {r r' : Reading} {offset : Nat} {p : Piece}

/-- Nothing is lost while pieces are read; a block that is closed keeps its body in it. -/
theorem mem_standing_of_move (h : Move limit r offset p r') {t : Token}
    (ht : t ∈ withins r.standing) : t ∈ withins r'.standing := by
  have hpush (u : Token) : t ∈ withins (r.push u).standing := List.mem_append_right _ ht
  cases h with
  | text u => exact hpush (.text u)
  | lookup hread => exact hpush _
  | opened hread hroom => exact ht
  | @closed inner f rest hread hframes =>
    unfold standing at ht ⊢
    rw [hframes, withins_eq_flatMap, List.flatMap_append, List.mem_append] at ht
    rw [List.cons_append, Token.withins_block, List.mem_cons, List.mem_append]
    refine .inr (ht.imp ?_ ?_)
    · intro hbody
      rw [withins_eq_flatMap]
      simpa using hbody
    · intro hbefore
      rw [withins_eq_flatMap]
      exact hbefore
  | refused h => exact hpush (.text _)
  | dangling rest => exact hpush (.text _)

theorem shows_move (h : Move limit r offset p r') (hshows : r.Shows) : r'.Shows := by
  intro a ha
  have hold : a ∈ r.anomalies → .text a.raw ∈ withins r'.standing :=
    fun ha => mem_standing_of_move h (hshows a ha)
  cases h with
  | text u => exact hold ha
  | lookup hread => exact hold ha
  | opened hread hroom => exact hold ha
  | closed hread hframes => exact hold ha
  | refused h =>
    rcases List.mem_cons.1 ha with rfl | ha
    · exact List.mem_append_left _ (.head _)
    · exact hold ha
  | dangling rest =>
    rcases List.mem_cons.1 ha with rfl | ha
    · exact List.mem_append_left _ (.head _)
    · exact hold ha

theorem shows_steps (hshows : r.Shows) (ps : List Piece) :
    (r.steps limit offset ps).Shows := by
  induction ps generalizing r offset with
  | nil => exact hshows
  | cons p rest ih => exact ih (shows_move (move_step limit r offset p) hshows)

end Reading

/-- The texts of a tree that was read without recovery are texts between the tags. -/
theorem Token.ReadFrom.text_mem {ts : List Token} {ps : List Piece} (h : ReadFrom true ts ps)
    {v : Text} (hv : .text v ∈ withins ts) : .text v ∈ ps := by
  induction h with
  | nil => cases hv
  | recovered _ hclean _ _ => cases hclean
  | text t _ ih =>
    rw [withins_text, List.mem_cons] at hv
    rcases hv with heq | hv
    · cases heq
      exact .head _
    · exact .tail _ (ih hv)
  | lookup _ _ ih =>
    rw [withins_lookup, List.mem_cons] at hv
    exact .tail _ (ih (hv.resolve_left nofun))
  | block _ _ _ _ ihbody ih =>
    rw [withins_block, List.mem_cons, List.mem_append] at hv
    refine .tail _ (List.mem_append.2 ((hv.resolve_left nofun).imp ihbody fun hv => ?_))
    exact .tail _ (ih hv)

/-! ## Templates -/

/-- The place and the text of a recovery belong together. -/
structure Anomaly.Tells (a : Anomaly) (template : Text) : Prop where
  opens : Token.tagOpen <+: a.raw
  slice : (template.drop a.offset).take a.raw.length = a.raw
  rest : a.kind.TakesRest → a.offset + a.raw.length = template.length

theorem Anomaly.tells_of_parts {a : Anomaly} {before after : Text}
    (hopens : Token.tagOpen <+: a.raw) (hoffset : a.offset = before.length)
    (hrest : a.kind.TakesRest → after = []) : a.Tells (before ++ (a.raw ++ after)) := by
  refine ⟨hopens, ?_, ?_⟩
  · rw [hoffset, List.drop_left, List.take_left]
  · intro hkind
    rw [hoffset, hrest hkind, List.append_nil, List.length_append]

namespace Parsed

open Reading (Recovers MayKeep)

/-- Recoveries that tell what happened to a template. -/
structure Reports (p : Parsed) (template : Text) : Prop where
  /-- There are none exactly if no text of the tree has opening braces in it. -/
  complete : p.anomalies = [] ↔ ∀ v, .text v ∈ Token.withins p.tokens → ¬ Token.tagOpen <:+: v
  tells : ∀ a ∈ p.anomalies, a.Tells template
  once : ∀ kind : AnomalyKind, kind.TakesRest → p.anomalies.countP (·.kind = kind) ≤ 1

variable (limit : Int) (template : Text)

/-- The recoveries of pieces come first; giving up an open block is the last one. -/
theorem anomalies_ofTemplate : ∃ as, Recovers 0 (Piece.ofTemplate template) as ∧
    ((ofTemplate limit template).anomalies = as ∨
      ∃ before inner after, Piece.ofTemplate template = before ++ .tag inner :: after ∧
        (ofTemplate limit template).anomalies = as ++ [⟨.unclosedBlock,
          (Piece.sources before).length, Piece.sources (.tag inner :: after)⟩]) := by
  obtain ⟨as, has, heq⟩ := Reading.recovers_steps limit {} 0 (Piece.ofTemplate template)
  have hend := finish_cases (accounts_ofTemplate limit template)
  rw [Piece.sources_ofTemplate] at hend
  refine ⟨as, has, ?_⟩
  unfold ofTemplate
  rcases hend with ⟨_, hfinish⟩ | ⟨ts, before, inner, after, hpieces, _, hfinish⟩
  · rw [hfinish]
    exact .inl heq
  · rw [hfinish]
    refine .inr ⟨before, inner, after, hpieces, ?_⟩
    dsimp only
    rw [heq]
    rfl

theorem tells_of_recovers {as : List Anomaly} (h : Recovers 0 (Piece.ofTemplate template) as) :
    ∀ a ∈ as, a.Tells template := by
  intro a ha
  obtain ⟨before, p, after, hpieces, hkeep, hraw, hoffset⟩ := h.exists_piece ha
  have hparts : template = Piece.sources before ++ (a.raw ++ Piece.sources after) := by
    rw [← Piece.sources_ofTemplate template, hpieces, Piece.sources_append, Piece.sources, hraw]
  rw [hparts]
  refine Anomaly.tells_of_parts ?_ ?_ ?_
  · rw [hraw]
    exact hkeep.opens
  · rw [hoffset, Nat.zero_add]
  · intro hkind
    obtain ⟨_, rest, rfl⟩ := hkeep.eq_unterminatedTag hkind
    rw [Piece.eq_nil_of_dangling hpieces]
    rfl

theorem tells_ofTemplate : ∀ a ∈ (ofTemplate limit template).anomalies, a.Tells template := by
  obtain ⟨as, has, heq | ⟨before, inner, after, hpieces, heq⟩⟩ :=
    anomalies_ofTemplate limit template
  · rw [heq]
    exact tells_of_recovers template has
  · intro a ha
    rw [heq, List.mem_append, List.mem_singleton] at ha
    rcases ha with ha | rfl
    · exact tells_of_recovers template has a ha
    · have hparts : template =
          Piece.sources before ++ (Piece.sources (.tag inner :: after) ++ []) := by
        rw [← Piece.sources_ofTemplate template, hpieces, Piece.sources_append, List.append_nil]
      have hopens : Token.tagOpen <+: Piece.sources (.tag inner :: after) := by
        rw [Piece.sources, Piece.source, Token.tag, List.append_assoc, List.append_assoc]
        exact List.prefix_append _ _
      rw [hparts]
      exact Anomaly.tells_of_parts hopens rfl fun _ => rfl

theorem once_ofTemplate {kind : AnomalyKind} (hkind : kind.TakesRest) :
    (ofTemplate limit template).anomalies.countP (·.kind = kind) ≤ 1 := by
  obtain ⟨as, has, heq⟩ := anomalies_ofTemplate limit template
  have hunterminated := has.countP_unterminatedTag
  have hunclosed : as.countP (·.kind = .unclosedBlock) = 0 := by
    rw [List.countP_eq_zero]
    exact fun a ha h => has.ne_unclosedBlock a ha (of_decide_eq_true h)
  rcases heq with heq | ⟨before, inner, after, _, heq⟩
  · rw [heq]
    rcases hkind with rfl | rfl
    · exact hunterminated
    · omega
  · rw [heq, List.countP_append]
    rcases hkind with rfl | rfl
    · exact hunterminated
    · rw [hunclosed, Nat.zero_add]
      exact List.countP_le_length

/-- Where anything was recovered, a text that was kept stands in the tree. -/
theorem exists_shown (h : (ofTemplate limit template).anomalies ≠ []) :
    ∃ a ∈ (ofTemplate limit template).anomalies,
      .text a.raw ∈ Token.withins (ofTemplate limit template).tokens := by
  have hstart : Reading.Shows {} := fun a ha => absurd ha List.not_mem_nil
  have hshows : (Reading.steps limit {} 0 (Piece.ofTemplate template)).Shows :=
    Reading.shows_steps hstart _
  have hend := finish_cases (accounts_ofTemplate limit template)
  rw [Piece.sources_ofTemplate] at hend
  unfold ofTemplate at h ⊢
  rcases hend with ⟨hframes, hfinish⟩ | ⟨ts, before, inner, after, _, _, hfinish⟩
  · rw [hfinish] at h ⊢
    obtain ⟨a, ha⟩ := List.exists_mem_of_ne_nil _ h
    refine ⟨a, ha, ?_⟩
    have hshown := hshows a (List.mem_reverse.1 ha)
    rw [Reading.standing, hframes, Token.withins_eq_flatMap] at hshown
    rw [Token.withins_eq_flatMap]
    simpa using hshown
  · rw [hfinish]
    refine ⟨_, List.mem_append_right _ (.head _), ?_⟩
    rw [Token.withins_eq_flatMap, List.flatMap_append, List.mem_append]
    exact .inr (List.mem_append_left _ (.head _))

theorem complete_ofTemplate : (ofTemplate limit template).anomalies = [] ↔
    ∀ v, .text v ∈ Token.withins (ofTemplate limit template).tokens →
      ¬ Token.tagOpen <:+: v := by
  constructor
  · intro hclean v hv hopen
    have hread := readFrom_ofTemplate limit template
    rw [hclean] at hread
    have houter := Piece.isOuter_of_mem_ofTemplate (hread.text_mem hv)
    rw [← Text.holds_iff_infix] at hopen
    exact Bool.noConfusion (houter.symm.trans hopen)
  · intro hfree
    by_contra hne
    obtain ⟨a, ha, hshown⟩ := exists_shown limit template hne
    exact hfree _ hshown (tells_ofTemplate limit template a ha).opens.isInfix

/-- The recoveries of a template report what was recovered, at every limit. -/
theorem reports_ofTemplate : (ofTemplate limit template).Reports template :=
  ⟨complete_ofTemplate limit template, tells_ofTemplate limit template,
    fun _ => once_ofTemplate limit template⟩

end Parsed
end Marginalia
