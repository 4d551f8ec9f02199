import Marginalia.Proofs.Template.Move
import Marginalia.Proofs.Template.Pieces
import Marginalia.Proofs.Template.Tag

/-
Where tokens come from.  Reading a template turns its pieces into tokens one after
another: a text stands for a piece of text, or for pieces that were recovered; a
variable for its tag; a block for its two tags and what stands between them.
-/
namespace Marginalia
namespace Token

/-- Tokens that were read from pieces.  In a clean reading nothing was recovered. -/
inductive ReadFrom (clean : Bool) : List Token → List Piece → Prop where
  | nil : ReadFrom clean [] []
  | text {rest : List Token} {ps : List Piece} (t : Text) (h : ReadFrom clean rest ps) :
    ReadFrom clean (.text t :: rest) (.text t :: ps)
  | recovered {rest : List Token} {ps : List Piece} (lost : List Piece)
    (hclean : clean = false) (h : ReadFrom clean rest ps) :
    ReadFrom clean (.text (Piece.sources lost) :: rest) (lost ++ ps)
  | lookup {rest : List Token} {ps : List Piece} {inner key : Text} {filters : List Text}
    (hread : Tag.read inner = .lookup key filters) (h : ReadFrom clean rest ps) :
    ReadFrom clean (.lookup key filters :: rest) (.tag inner :: ps)
  | block {body rest : List Token} {inside ps : List Piece} {opener closer key end_ : Text}
    (hopener : Tag.read opener = .opener key end_) (hbody : ReadFrom clean body inside)
    (hcloser : Tag.read closer = .closer end_) (h : ReadFrom clean rest ps) :
    ReadFrom clean (.block key body :: rest) (.tag opener :: (inside ++ .tag closer :: ps))

theorem withins_text (v : Text) (rest : List Token) :
    withins (.text v :: rest) = .text v :: withins rest := by
  rw [withins, within, List.singleton_append]
  nofun

theorem withins_lookup (key : Text) (filters : List Text) (rest : List Token) :
    withins (.lookup key filters :: rest) = .lookup key filters :: withins rest := by
  rw [withins, within, List.singleton_append]
  nofun

theorem withins_block (key : Text) (body rest : List Token) :
    withins (.block key body :: rest) = .block key body :: (withins body ++ withins rest) := by
  rw [withins, within, List.cons_append]

theorem withins_eq_flatMap (ts : List Token) : withins ts = ts.flatMap within := by
  induction ts with
  | nil => rfl
  | cons t rest ih => rw [withins, ih, List.flatMap_cons]

namespace ReadFrom

variable {clean : Bool} {xs ys : List Token} {ps qs : List Piece}

theorem append (hx : ReadFrom clean xs ps) (hy : ReadFrom clean ys qs) :
    ReadFrom clean (xs ++ ys) (ps ++ qs) := by
  induction hx with
  | nil => exact hy
  | text t _ ih => exact .text t ih
  | recovered lost hclean _ ih =>
    rw [List.append_assoc]
    exact .recovered lost hclean ih
  | lookup hread _ ih => exact .lookup hread ih
  | block hopener hbody hcloser _ _ ih =>
    rw [List.cons_append, List.cons_append, List.append_assoc]
    exact .block hopener hbody hcloser ih

/-- A clean reading is a reading. -/
theorem of_clean (h : ReadFrom true xs ps) : ReadFrom clean xs ps := by
  induction h with
  | nil => exact .nil
  | text t _ ih => exact .text t ih
  | recovered _ hclean _ _ => cases hclean
  | lookup hread _ ih => exact .lookup hread ih
  | block hopener _ hcloser _ hbody ih => exact .block hopener hbody hcloser ih

theorem eq_nil (h : ReadFrom true xs []) : xs = [] := by
  generalize hps : ([] : List Piece) = ps at h
  cases h with
  | nil => rfl
  | recovered _ hclean _ => cases hclean
  | text => cases hps
  | lookup => cases hps
  | block => cases hps

/-- Any reading may be taken for one in which something was recovered. -/
theorem dirty (h : ReadFrom clean xs ps) : ReadFrom false xs ps := by
  cases clean with
  | true => exact h.of_clean
  | false => exact h

/-- A variable with filters comes from a tag that has them as its parts. -/
theorem exists_parts (h : ReadFrom clean xs ps) {key : Text} {filters : List Text}
    (hmem : .lookup key filters ∈ withins xs) : ∃ inner, parts inner = key :: filters := by
  induction h with
  | nil => cases hmem
  | text t _ ih =>
    rw [withins_text, List.mem_cons] at hmem
    exact ih (hmem.resolve_left nofun)
  | recovered lost _ _ ih =>
    rw [withins_text, List.mem_cons] at hmem
    exact ih (hmem.resolve_left nofun)
  | @lookup _ _ inner _ _ hread _ ih =>
    rw [withins_lookup, List.mem_cons] at hmem
    rcases hmem with heq | hmem
    · cases heq
      have hsays := Tag.says_read inner
      rw [hread] at hsays
      exact ⟨inner, hsays⟩
    · exact ih hmem
  | block _ _ _ _ hbody ih =>
    rw [withins_block, List.mem_cons, List.mem_append] at hmem
    rcases hmem.resolve_left nofun with hmem | hmem
    · exact hbody hmem
    · exact ih hmem

end ReadFrom
end Token

/-! ## Reading on -/

namespace Reading

open Token (ReadFrom)

/-- Where a reading has come to: the open sequences, with the tags that opened them
in between, come from the pieces so far. -/
inductive OpenFrom (clean : Bool) : List Frame → List Token → List Piece → Prop where
  | root {body : List Token} {ps : List Piece} (h : ReadFrom clean body.reverse ps) :
    OpenFrom clean [] body ps
  | inside {frames : List Frame} {before body : List Token} {outer ps : List Piece}
    {inner key closer : Text} (houter : OpenFrom clean frames before outer)
    (hopener : Tag.read inner = .opener key closer) (h : ReadFrom clean body.reverse ps) :
    OpenFrom clean (⟨key, closer, (Piece.sources outer).length, before⟩ :: frames) body
      (outer ++ .tag inner :: ps)

namespace OpenFrom

variable {clean : Bool} {frames : List Frame} {body : List Token} {ps qs : List Piece}

theorem push {token : Token} (h : OpenFrom clean frames body ps)
    (htoken : ReadFrom clean [token] qs) : OpenFrom clean frames (token :: body) (ps ++ qs) := by
  cases h with
  | root h =>
    refine .root ?_
    rw [List.reverse_cons]
    exact h.append htoken
  | inside houter hopener h =>
    rw [List.append_assoc, List.cons_append]
    refine .inside houter hopener ?_
    rw [List.reverse_cons]
    exact h.append htoken

theorem of_clean (h : OpenFrom true frames body ps) : OpenFrom clean frames body ps := by
  induction h with
  | root h => exact .root h.of_clean
  | inside _ hopener h ih => exact .inside ih hopener h.of_clean

theorem dirty (h : OpenFrom clean frames body ps) : OpenFrom false frames body ps := by
  cases clean with
  | true => exact h.of_clean
  | false => exact h

/-- The outermost open block starts at a tag, and the pieces before it were read as the tokens
before it. -/
theorem outermost (h : OpenFrom clean frames body ps) {f : Frame}
    (hf : frames.getLast? = some f) :
    ∃ before inner after, ps = before ++ .tag inner :: after ∧
      f.offset = (Piece.sources before).length ∧ ReadFrom clean f.before.reverse before := by
  induction h with
  | root h => cases hf
  | @inside frames before body outer ps inner key closer houter _ _ ih =>
    cases houter with
    | root hroot =>
      cases hf
      exact ⟨outer, inner, ps, rfl, rfl, hroot⟩
    | inside houter' hopener' h' =>
      rw [List.getLast?_cons_cons] at hf
      obtain ⟨before, inner', after, heq, hoffset, hbefore⟩ := ih hf
      refine ⟨before, inner', after ++ .tag inner :: ps, ?_, hoffset, hbefore⟩
      rw [heq, List.append_assoc, List.cons_append]

end OpenFrom

/-- The state of a reading accounts for the pieces it has read. -/
def Accounts (r : Reading) (ps : List Piece) : Prop :=
  OpenFrom r.anomalies.isEmpty r.frames r.body ps

variable (limit : Int) {r : Reading} {ps : List Piece} {p : Piece}

theorem accounts_push {token : Token} (h : Accounts r ps)
    (htoken : ReadFrom true [token] [p]) : Accounts (r.push token) (ps ++ [p]) :=
  OpenFrom.push h htoken.of_clean

theorem accounts_recover (kind : AnomalyKind) (offset : Nat) (h : Accounts r ps) :
    Accounts (r.recover kind offset p.source) (ps ++ [p]) := by
  have htoken : ReadFrom false [.text p.source] [p] := by
    have : ReadFrom false [.text (Piece.sources [p])] ([p] ++ []) := .recovered [p] rfl .nil
    rwa [Piece.sources, Piece.sources, List.append_nil] at this
  exact (OpenFrom.dirty h).push htoken

theorem accounts_move {r' : Reading} (h : Accounts r ps)
    (hmove : Move limit r (Piece.sources ps).length p r') : Accounts r' (ps ++ [p]) := by
  cases hmove with
  | text t => exact accounts_push h (.text t .nil)
  | lookup hread => exact accounts_push h (.lookup hread .nil)
  | opened hread hroom => exact .inside h hread .nil
  | closed hread hframes =>
    unfold Accounts at h
    rw [hframes] at h
    cases h with
    -- the block becomes one token of the sequence it stands in
    | inside houter hopener hbody =>
      have hblock := ReadFrom.block hopener hbody hread .nil
      have := houter.push hblock
      simpa only [Accounts, List.append_assoc, List.cons_append] using this
  | @refused inner kind hrefuses => exact accounts_recover (p := .tag inner) kind _ h
  | dangling rest => exact accounts_recover (p := .dangling rest) _ _ h

theorem accounts_steps (h : Accounts r ps) (qs : List Piece) :
    Accounts (r.steps limit (Piece.sources ps).length qs) (ps ++ qs) := by
  induction qs generalizing r ps with
  | nil =>
    rw [List.append_nil]
    exact h
  | cons q rest ih =>
    have hrest := ih (accounts_move limit h (move_step limit r _ q))
    have hsources : (Piece.sources (ps ++ [q])).length =
        (Piece.sources ps).length + q.source.length := by
      simp [Piece.sources_append, Piece.sources]
    rw [hsources, List.append_assoc] at hrest
    exact hrest

end Reading

/-! ## Templates -/

namespace Parsed

open Token (ReadFrom)

/-- A reading ends with all its blocks closed, or gives up what starts with the tag of the
outermost open one. -/
theorem finish_cases {r : Reading} {ps : List Piece} (h : r.Accounts ps) :
    (r.frames = [] ∧ finish (Piece.sources ps) r = ⟨r.body.reverse, r.anomalies.reverse⟩) ∨
    ∃ ts before inner after, ps = before ++ .tag inner :: after ∧
      ReadFrom r.anomalies.isEmpty ts before ∧
      finish (Piece.sources ps) r =
        ⟨ts ++ [.text (Piece.sources (.tag inner :: after))],
          r.anomalies.reverse ++ [⟨.unclosedBlock, (Piece.sources before).length,
            Piece.sources (.tag inner :: after)⟩]⟩ := by
  unfold finish
  split
  · rename_i hnone
    exact .inl ⟨List.getLast?_eq_none_iff.1 hnone, rfl⟩
  · rename_i f hf
    obtain ⟨before, inner, after, rfl, hoffset, hbefore⟩ := h.outermost hf
    refine .inr ⟨f.before.reverse, before, inner, after, rfl, hbefore, ?_⟩
    dsimp only
    rw [hoffset, Piece.sources_append, List.drop_left, List.reverse_cons]

theorem readFrom_finish {r : Reading} {ps : List Piece} (h : r.Accounts ps) :
    ReadFrom (finish (Piece.sources ps) r).anomalies.isEmpty
      (finish (Piece.sources ps) r).tokens ps := by
  rcases finish_cases h with ⟨hframes, heq⟩ | ⟨ts, before, inner, after, rfl, hbefore, heq⟩
  · rw [heq, List.isEmpty_reverse]
    unfold Reading.Accounts at h
    rw [hframes] at h
    cases h with
    | root h => exact h
  · rw [heq]
    have hrest : ReadFrom false [.text (Piece.sources (.tag inner :: after))]
        ((.tag inner :: after) ++ []) := .recovered _ rfl .nil
    rw [List.append_nil] at hrest
    rw [List.isEmpty_eq_false_iff.2 (List.concat_ne_nil _ _)]
    exact hbefore.dirty.append hrest

/-- The state at the end of a template accounts for all its pieces. -/
theorem accounts_ofTemplate (limit : Int) (template : Text) :
    (Reading.steps limit {} 0 (Piece.ofTemplate template)).Accounts
      (Piece.ofTemplate template) := by
  have hstart : Reading.Accounts {} [] := .root .nil
  exact Reading.accounts_steps limit hstart (Piece.ofTemplate template)

/-- The tokens of a template come from its pieces. -/
theorem readFrom_ofTemplate (limit : Int) (template : Text) :
    ReadFrom (ofTemplate limit template).anomalies.isEmpty (ofTemplate limit template).tokens
      (Piece.ofTemplate template) := by
  have h := readFrom_finish (accounts_ofTemplate limit template)
  rwa [Piece.sources_ofTemplate] at h

end Parsed
end Marginalia
