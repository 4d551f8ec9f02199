import Marginalia.Template.Token
import Marginalia.Text.Word

/-
The tags of a template.  A template is cut into pieces at its braces, and each
tag is read from the text between them.
-/
namespace Marginalia

inductive Piece where
  | text (t : Text)
  | tag (inner : Text)
  /-- Braces that open and are never closed, with all that follows them. -/
  | dangling (rest : Text)
deriving DecidableEq, Repr

namespace Piece

def source : Piece → Text
  | .text t => t
  | .tag inner => Token.tag inner
  | .dangling rest => Token.tagOpen ++ rest

/-- Text before a tag, unless there is none. -/
def leading (t : Text) : List Piece := if t.isEmpty then [] else [.text t]

def ofTemplate (t : Text) : List Piece :=
  match _hopen : Text.cut Token.tagOpen t with
  | none => leading t
  | some (before, after) =>
    match _hclose : Text.cut Token.tagClose after with
    | none => leading before ++ [.dangling after]
    | some (inner, rest) => leading before ++ .tag inner :: ofTemplate rest
termination_by t.length
decreasing_by
  have := Text.length_after_cut _hopen
  have := Text.length_after_cut _hclose
  simp only [Token.tagOpen, Token.tagClose, List.length_cons, List.length_nil] at *
  omega

def sources : List Piece → Text
  | [] => []
  | p :: rest => p.source ++ sources rest

theorem sources_append (ps qs : List Piece) : sources (ps ++ qs) = sources ps ++ sources qs := by
  induction ps with
  | nil => rfl
  | cons p rest ih => simp [sources, ih]

theorem sources_leading (t : Text) : sources (leading t) = t := by
  unfold leading
  split
  · simp_all [sources]
  · simp [sources, source]

/-- The pieces of a template are the whole template. -/
theorem sources_ofTemplate (t : Text) : sources (ofTemplate t) = t := by
  fun_induction ofTemplate t with
  | case1 t h => exact sources_leading t
  | case2 t before after ho hc =>
    rw [sources_append, sources_leading]
    simp [sources, source, Text.eq_of_cut ho]
  | case3 t before after ho inner rest hc ih =>
    rw [sources_append, sources_leading]
    simp only [sources, source, Token.tag, ih]
    have h1 := Text.eq_of_cut ho
    have h2 := Text.eq_of_cut hc
    rw [h1, h2]
    simp

end Piece

inductive Tag where
  /-- Open a block on `key`, which the tag with `closer` ends. -/
  | opener (key closer : Text)
  /-- Open a block on no key. -/
  | keyless
  | closer (key : Text)
  | lookup (key : Text) (filters : List Text)
  | malformed
deriving DecidableEq, Repr

namespace Tag

/-- A block's key as it is written: `if` and a space may stand before it, and
the block then ends with `if`. -/
def ofBlockKey (written : Text) : Tag :=
  let block : Text × Text :=
    match written with
    | 'i' :: 'f' :: ' ' :: rest => (Text.strip rest, ['i', 'f'])
    | key => (key, key)
  if block.1.isEmpty then .keyless else .opener block.1 block.2

/-- A variable and its filters, divided by bars; empty parts do not count. -/
def ofLookup (body : Text) : Tag :=
  match ((Text.fields '|' body).map Text.strip).filter (!·.isEmpty) with
  | [] => .malformed
  | key :: filters => if Text.isIdentifier key then .lookup key filters else .malformed

def read (inner : Text) : Tag :=
  match Text.strip inner with
  | '#' :: key => ofBlockKey (Text.strip key)
  | '/' :: key => .closer (Text.strip key)
  | body => ofLookup body

end Tag
end Marginalia
