import Marginalia.Proofs.Template.Canonical
import Marginalia.Proofs.Template.Move
import Marginalia.Template.Compiled

/-
What templates put out, token by token.  A template with one tag in it renders the text before
the tag, what the tag stands for, and the text behind it.  Text and variables outside every block
are settled as soon as they are read: whatever blocks follow, closed or not, a template renders to
a text that starts with what they stand for.
-/
namespace Marginalia
namespace Compiled

/-- A text as tokens: none for an empty one. -/
def literals (t : Text) : List Token := if t.isEmpty then [] else [.text t]

theorem steps_leading (limit : Int) (r : Reading) (offset : Nat) (t : Text) :
    r.steps limit offset (Piece.leading t) = { r with body := literals t ++ r.body } := by
  unfold Piece.leading literals
  split <;> rfl

section

variable (limit : Int) {inner key before after : Text} {filters : List Text}
  (hread : Tag.read inner = .lookup key filters) (hinner : inner.IsInner)
  (hlast : inner.getLast? ≠ some '}') (hbefore : before.IsOuter)
  (hbrace : before.getLast? ≠ some '{') (hafter : after.IsOuter)

include hread hinner hlast hbefore hbrace hafter

theorem tokens_around : (ofTemplate limit (before ++ (Token.tag inner ++ after))).tokens =
    literals before ++ .lookup key filters :: literals after := by
  have hpieces := Piece.ofTemplate_append_tag hbefore hbrace hinner hlast after
  rw [Piece.ofTemplate_of_isOuter hafter] at hpieces
  have hreverse (t : Text) : (literals t).reverse = literals t := by
    unfold literals
    split <;> rfl
  show (Parsed.ofTemplate limit (before ++ (Token.tag inner ++ after))).tokens = _
  unfold Parsed.ofTemplate
  rw [hpieces, Reading.steps_append, steps_leading, Reading.steps,
    Reading.step_lookup limit _ _ hread, steps_leading]
  simp only [Parsed.finish, Reading.push, List.getLast?_nil, List.reverse_append,
    List.reverse_cons, List.append_nil, hreverse, List.append_assoc, List.singleton_append]

end

theorem emitAll_append (c : Compiled) (b : Bindings) (es es' : List Emission) :
    c.emitAll b (es ++ es') =
      (c.emitAll b es).bind fun t => (c.emitAll b es').map (t ++ ·) := by
  induction es with
  | nil =>
    show c.emitAll b es' = (c.emitAll b es').map fun u => u
    cases c.emitAll b es' <;> rfl
  | cons e rest ih =>
    show (c.emit b e).bind (fun t => (c.emitAll b (rest ++ es')).bind fun u => .ok (t ++ u)) =
      Except.bind ((c.emit b e).bind fun t => (c.emitAll b rest).bind fun u => .ok (t ++ u)) _
    rw [ih]
    cases c.emit b e with
    | error e => rfl
    | ok t =>
      cases c.emitAll b rest with
      | error e => rfl
      | ok u =>
        cases c.emitAll b es' with
        | error e => rfl
        | ok v => exact congrArg Except.ok (List.append_assoc t u v).symm

theorem emitAll_text (c : Compiled) (b : Bindings) (t : Text) (ts : List Token) :
    c.emitAll b (Emission.ofTokens b (.text t :: ts)) =
      (c.emitAll b (Emission.ofTokens b ts)).map (t ++ ·) := by
  show (c.emitAll b (Emission.ofTokens b ts)).bind (fun u => .ok (t ++ u)) = _
  cases c.emitAll b (Emission.ofTokens b ts) <;> rfl

theorem emitAll_literals (c : Compiled) (b : Bindings) (t : Text) (ts : List Token) :
    c.emitAll b (Emission.ofTokens b (literals t ++ ts)) =
      (c.emitAll b (Emission.ofTokens b ts)).map (t ++ ·) := by
  unfold literals
  cases t with
  | nil =>
    show c.emitAll b (Emission.ofTokens b ts) = _
    cases c.emitAll b (Emission.ofTokens b ts) <;> rfl
  | cons d rest => exact emitAll_text c b (d :: rest) ts

theorem emitAll_cons_of_ok {c : Compiled} {b : Bindings} {t : Token} {u : Text}
    (h : c.emitAll b (Emission.ofToken b t) = .ok u) (ts : List Token) :
    c.emitAll b (Emission.ofTokens b (t :: ts)) =
      (c.emitAll b (Emission.ofTokens b ts)).map (u ++ ·) := by
  rw [Emission.ofTokens, emitAll_append, h]
  rfl

/-- A block is shown when its key has a value that counts as present. -/
theorem emitAll_block (c : Compiled) (b : Bindings) (key : Text) (body : List Token) :
    c.emitAll b (Emission.ofToken b (.block key body)) =
      if (b key).isTruthy then c.emitAll b (Emission.ofTokens b body) else .ok [] := by
  rw [Emission.ofToken]
  split <;> rfl

/-- Every variable but the note is put out as it is. -/
theorem emit_of_ne_note (c : Compiled) (b : Bindings) {key : Text} (h : key ≠ "note".toList)
    (filters : List Text) : c.emit b (.lookup key filters) = filterValue (b key) filters := by
  unfold emit variableText
  dsimp only
  rw [if_neg h]
  rfl

theorem emit_of_text (c : Compiled) {b : Bindings} {key t : Text} (hkey : key ≠ "note".toList)
    (h : b key = .text t) : c.emit b (.lookup key []) = .ok t := by
  rw [c.emit_of_ne_note b hkey, h]
  rfl

theorem emitAll_lookup (c : Compiled) (b : Bindings) (key : Text) (filters : List Text)
    (ts : List Token) : c.emitAll b (Emission.ofTokens b (.lookup key filters :: ts)) =
      (c.emit b (.lookup key filters)).bind fun t =>
        (c.emitAll b (Emission.ofTokens b ts)).map (t ++ ·) := by
  show (c.emit b (.lookup key filters)).bind (fun t =>
    (c.emitAll b (Emission.ofTokens b ts)).bind fun u => .ok (t ++ u)) = _
  cases c.emit b (.lookup key filters) with
  | error e => rfl
  | ok t => cases c.emitAll b (Emission.ofTokens b ts) <;> rfl

theorem render_of_tokens {c : Compiled} {key before after : Text} {filters : List Text}
    (h : c.tokens = literals before ++ .lookup key filters :: literals after) (b : Bindings) :
    c.render b = (c.emit b (.lookup key filters)).map (before ++ · ++ after) := by
  unfold render emissions
  have hend := emitAll_literals c b after []
  rw [List.append_nil] at hend
  rw [h, emitAll_literals, emitAll_lookup, hend]
  cases c.emit b (.lookup key filters) with
  | error e => rfl
  | ok t =>
    show Except.ok (before ++ (t ++ (after ++ []))) = .ok (before ++ t ++ after)
    rw [List.append_nil, List.append_assoc]

end Compiled

/-! ## Templates that start with a tag -/

namespace Reading

/-- The tokens read outside every block, last one first. -/
def settled (r : Reading) : List Token :=
  match r.frames.getLast? with
  | none => r.body
  | some f => f.before

variable (limit : Int) (r : Reading) (offset : Nat)

theorem settled_push (t : Token) : r.settled <:+ (r.push t).settled := by
  unfold settled push
  cases r.frames.getLast? with
  | none => exact List.suffix_cons t r.body
  | some f => exact List.suffix_rfl

theorem settled_move {r' : Reading} {p : Piece} (h : Move limit r offset p r') :
    r.settled <:+ r'.settled := by
  cases h with
  | text t => exact r.settled_push (.text t)
  | lookup hread => exact r.settled_push _
  | opened hread hroom =>
    unfold settled
    cases hframes : r.frames with
    | nil => exact List.suffix_rfl
    | cons f rest =>
      rw [List.getLast?_cons_cons]
      exact List.suffix_rfl
  | @closed inner f rest hread hframes =>
    unfold settled
    rw [hframes]
    cases rest with
    | nil => exact List.suffix_cons _ f.before
    | cons g rest =>
      rw [List.getLast?_cons_cons]
      exact List.suffix_rfl
  | refused hrefuses => exact r.settled_push (.text _)
  | dangling rest => exact r.settled_push (.text _)

theorem settled_steps (ps : List Piece) : r.settled <:+ (r.steps limit offset ps).settled := by
  induction ps generalizing r offset with
  | nil => exact List.suffix_rfl
  | cons p rest ih =>
    have hstep := settled_move limit r offset (move_step limit r offset p)
    exact hstep.trans (ih _ _)

end Reading

namespace Parsed

theorem settled_finish (template : Text) (r : Reading) :
    r.settled.reverse <+: (finish template r).tokens := by
  unfold finish Reading.settled
  cases r.frames.getLast? with
  | none => exact List.prefix_rfl
  | some f => exact List.prefix_append _ _

end Parsed

namespace Compiled

section

variable (limit : Int) {inner key before : Text} {filters : List Text}
  (hread : Tag.read inner = .lookup key filters) (hinner : inner.IsInner)
  (hlast : inner.getLast? ≠ some '}') (hbefore : before.IsOuter)
  (hbrace : before.getLast? ≠ some '{') (after : Text)

include hread hinner hlast hbefore hbrace

/-- A text and a variable that start a template are its first tokens. -/
theorem tokens_leading : literals before ++ [.lookup key filters] <+:
    (ofTemplate limit (before ++ (Token.tag inner ++ after))).tokens := by
  have hpieces := Piece.ofTemplate_append_tag hbefore hbrace hinner hlast after
  show _ <+: (Parsed.ofTemplate limit (before ++ (Token.tag inner ++ after))).tokens
  unfold Parsed.ofTemplate
  rw [hpieces, Reading.steps_append, steps_leading, Reading.steps,
    Reading.step_lookup limit _ _ hread]
  refine List.IsPrefix.trans ?_ (Parsed.settled_finish _ _)
  refine List.IsPrefix.trans ?_ (List.reverse_prefix.2 (Reading.settled_steps limit _ _ _))
  have hreverse : (literals before).reverse = literals before := by
    unfold literals
    split <;> rfl
  simp [Reading.settled, Reading.push, hreverse]

end

/-- A template that starts with a text and a variable renders to the text, and then what
the variable stands for, before all else. -/
theorem prefix_render {c : Compiled} {key before : Text} {filters : List Text}
    (h : literals before ++ [.lookup key filters] <+: c.tokens) {b : Bindings} {u s : Text}
    (hemit : c.emit b (.lookup key filters) = .ok u) (hrender : c.render b = .ok s) :
    before ++ u <+: s := by
  obtain ⟨rest, hrest⟩ := h
  unfold render emissions at hrender
  rw [← hrest, List.append_assoc, emitAll_literals, List.singleton_append, emitAll_lookup,
    hemit] at hrender
  cases hafter : c.emitAll b (Emission.ofTokens b rest) with
  | error e =>
    rw [hafter] at hrender
    cases hrender
  | ok v =>
    rw [hafter] at hrender
    cases hrender
    exact ⟨v, List.append_assoc before u v⟩

end Compiled

end Marginalia
