import Marginalia.Proofs.Template.Move
import Marginalia.Proofs.Template.Pieces
import Marginalia.Proofs.Template.Tag

/-
The tokens of a template tile it.  Each token covers a stretch of the template
from which it was read, blocks from their opening tag to their closing tag, and
the stretches follow each other without gap or overlap.
-/
namespace Marginalia
namespace Token

/-- The inner text of an opening tag. -/
def IsOpener (inner key closer : Text) : Prop :=
  inner.IsInner ∧ ∃ k, Text.strip inner = '#' :: k ∧ Opens (Text.strip k) key closer

/-- The inner text of a closing tag. -/
def IsCloser (inner closer : Text) : Prop :=
  inner.IsInner ∧ ∃ ws, Text.isBlank ws ∧ Text.strip inner = '/' :: (ws ++ closer)

/-- Tokens cover a text: each stands for the stretch it was read from. -/
inductive Covers : List Token → Text → Prop where
  | nil : Covers [] []
  | text {rest : List Token} {s : Text} (v : Text) (h : Covers rest s) :
    Covers (.text v :: rest) (v ++ s)
  | lookup {rest : List Token} {s inner key : Text} {filters : List Text}
    (hinner : inner.IsInner) (hparts : parts inner = key :: filters) (h : Covers rest s) :
    Covers (.lookup key filters :: rest) (tag inner ++ s)
  | block {body rest : List Token} {opener inside closer key s end_ : Text}
    (hopener : IsOpener opener key end_) (hbody : Covers body inside)
    (hcloser : IsCloser closer end_) (h : Covers rest s) :
    Covers (.block key body :: rest) (tag opener ++ inside ++ tag closer ++ s)

namespace Covers

variable {xs ys : List Token} {s t : Text}

theorem append (hx : Covers xs s) (hy : Covers ys t) : Covers (xs ++ ys) (s ++ t) := by
  induction hx with
  | nil => exact hy
  | text v _ ih =>
    rw [List.append_assoc]
    exact .text v ih
  | lookup hinner hparts _ ih =>
    rw [List.append_assoc]
    exact .lookup hinner hparts ih
  | block hopener hbody hcloser _ _ ih =>
    rw [List.append_assoc]
    exact .block hopener hbody hcloser ih

theorem single_text (v : Text) : Covers [.text v] v := by
  have := Covers.text v .nil
  rwa [List.append_nil] at this

theorem single_lookup {inner key : Text} {filters : List Text} (hinner : inner.IsInner)
    (hparts : parts inner = key :: filters) : Covers [.lookup key filters] (tag inner) := by
  have := Covers.lookup hinner hparts .nil
  rwa [List.append_nil] at this

theorem single_block {body : List Token} {opener inside closer key end_ : Text}
    (hopener : IsOpener opener key end_) (hbody : Covers body inside)
    (hcloser : IsCloser closer end_) :
    Covers [.block key body] (tag opener ++ inside ++ tag closer) := by
  have := Covers.block hopener hbody hcloser .nil
  rwa [List.append_nil] at this

end Covers
end Token

/-! ## Reading on -/

namespace Tag

theorem isCloser_of_says {inner key : Text} (hinner : inner.IsInner)
    (h : Says inner (.closer key)) : Token.IsCloser inner key := by
  obtain ⟨k, hk, rfl⟩ := h
  have htight := Text.tight_strip inner
  rw [hk] at htight
  obtain ⟨ws, hws, heq⟩ := Text.exists_strip_of_tight_cons htight
  exact ⟨hinner, ws, hws, hk.trans (congrArg _ heq)⟩

end Tag

namespace Reading

/-- Where a reading has come to: the open sequences with the tags that opened
them make up the text so far. -/
inductive Spans : List Frame → List Token → Text → Prop where
  | root {body : List Token} {s : Text} (h : Token.Covers body.reverse s) : Spans [] body s
  | inside {frames : List Frame} {before body : List Token} {outer inner s key closer : Text}
    (houter : Spans frames before outer) (hopener : Token.IsOpener inner key closer)
    (h : Token.Covers body.reverse s) :
    Spans (⟨key, closer, outer.length, before⟩ :: frames) body (outer ++ Token.tag inner ++ s)

theorem Spans.push {frames : List Frame} {body : List Token} {s t : Text} {token : Token}
    (h : Spans frames body s) (ht : Token.Covers [token] t) :
    Spans frames (token :: body) (s ++ t) := by
  cases h with
  | root h =>
    refine .root ?_
    rw [List.reverse_cons]
    exact h.append ht
  | inside houter hopener h =>
    rw [List.append_assoc]
    refine .inside houter hopener ?_
    rw [List.reverse_cons]
    exact h.append ht

variable (limit : Int) {r : Reading} {s : Text}

theorem spans_move {r' : Reading} {p : Piece} (h : Spans r.frames r.body s)
    (hp : ∀ inner, p = .tag inner → inner.IsInner) (hmove : Move limit r s.length p r') :
    Spans r'.frames r'.body (s ++ p.source) := by
  cases hmove with
  | text t => exact h.push (.single_text t)
  | @lookup inner key filters hread =>
    exact h.push (.single_lookup (hp inner rfl) (Tag.says_of_read hread))
  | @opened inner key closer hread hroom =>
    have hempty : Token.Covers ([] : List Token).reverse [] := .nil
    have := Spans.inside h ⟨hp inner rfl, Tag.says_of_read hread⟩ hempty
    rwa [List.append_nil] at this
  | @closed inner f rest hread hframes =>
    rw [hframes] at h
    cases h with
    -- the block and the two tags around it become one token of the outer sequence
    | inside houter hopener hbody =>
      have hcloser := Tag.isCloser_of_says (hp inner rfl) (Tag.says_of_read hread)
      have := houter.push (.single_block hopener hbody hcloser)
      simpa only [Piece.source, List.append_assoc] using this
  | refused hrefuses => exact h.push (.single_text _)
  | dangling rest => exact h.push (.single_text _)

theorem spans_steps {ps : List Piece} (h : Spans r.frames r.body s)
    (hp : ∀ inner, .tag inner ∈ ps → inner.IsInner) :
    Spans (r.steps limit s.length ps).frames (r.steps limit s.length ps).body
      (s ++ Piece.sources ps) := by
  induction ps generalizing r s with
  | nil =>
    rw [Piece.sources, List.append_nil]
    exact h
  | cons p rest ih =>
    have hstep := spans_move limit h (fun inner heq => hp inner (heq ▸ .head _))
      (move_step limit r s.length p)
    have := ih hstep fun inner hmem => hp inner (.tail _ hmem)
    rwa [List.length_append, List.append_assoc] at this

/-- What stands before the outermost open block is covered by the tokens before
it. -/
theorem Spans.outermost {frames : List Frame} {body : List Token} {f : Frame}
    (h : Spans frames body s) (hf : frames.getLast? = some f) :
    ∃ before after, s = before ++ after ∧ f.offset = before.length ∧
      Token.Covers f.before.reverse before := by
  induction h with
  | root h => cases hf
  | @inside frames before body outer inner s key closer houter hopener h ih =>
    rw [List.append_assoc]
    cases houter with
    | root hroot =>
      cases hf
      exact ⟨_, _, rfl, rfl, hroot⟩
    | inside houter' hopener' h' =>
      rw [List.getLast?_cons_cons] at hf
      obtain ⟨before, after, heq, hoffset, hcovers⟩ := ih hf
      refine ⟨before, after ++ (Token.tag inner ++ s), ?_, hoffset, hcovers⟩
      rw [heq, List.append_assoc]

end Reading

/-! ## Templates -/

theorem covers_finish {template : Text} {r : Reading}
    (h : Reading.Spans r.frames r.body template) :
    Token.Covers (Parsed.finish template r).tokens template := by
  unfold Parsed.finish
  split
  · rename_i hnone
    rw [List.getLast?_eq_none_iff] at hnone
    rw [hnone] at h
    cases h with
    | root h => exact h
  · rename_i f hf
    obtain ⟨before, after, heq, hoffset, hcovers⟩ := h.outermost hf
    have hdrop : template.drop f.offset = after := by
      rw [heq, hoffset, List.drop_left]
    dsimp only
    rw [hdrop]
    have := hcovers.append (.single_text after)
    rwa [← heq] at this

/-- The tokens of a template cover all of it, whatever is wrong with it. -/
theorem covers_tokenize (limit : Int) (template : Text) :
    Token.Covers (tokenize limit template) template := by
  have hstart : Reading.Spans [] [] [] := .root .nil
  have hpieces : ∀ inner, .tag inner ∈ Piece.ofTemplate template → inner.IsInner :=
    fun _ h => Piece.isInner_of_mem_ofTemplate h
  have hend := Reading.spans_steps limit (r := {}) hstart hpieces
  rw [List.nil_append, Piece.sources_ofTemplate] at hend
  exact covers_finish hend

end Marginalia
