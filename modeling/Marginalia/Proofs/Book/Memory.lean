import Marginalia.Book
import Marginalia.Proofs.Template.Memory

/-
The memory of pipelines does not show in a document either: where the random texts are
always the same, a book comes to one result, whatever has been rendered before.
-/
namespace Marginalia

namespace Render

variable {α β : Type} {I : RenderState → Prop} {m : Render α}

/-- From every state with `I` the computation comes to the same result. -/
def IsSettled (I : RenderState → Prop) (m : Render α) : Prop := ∃ x, ComesTo I m x

namespace IsSettled

theorem pure (a : α) : IsSettled I (pure a) := ⟨_, .pure a⟩

theorem ofExcept (x : Except Fault α) : IsSettled I (ofExcept x) := ⟨x, .ofExcept x⟩

theorem bind {f : α → Render β} (hm : IsSettled I m) (hf : ∀ a, IsSettled I (f a)) :
    IsSettled I (m >>= f) := by
  obtain ⟨x, hx⟩ := hm
  choose y hy using hf
  exact ⟨x >>= y, hx.bind hy⟩

end IsSettled
end Render

namespace Book

open Render (ComesTo IsSettled)
open RenderState (IsTruthful)

variable {hexes : Nat → Text} {hex : Text} {compiled : Bindings → Render Text}

theorem isSettled_report (e : LogEntry) : IsSettled IsTruthful (Render.report e) :=
  ⟨.ok (), fun s hs => ⟨{ s with log := s.log ++ [e] }, rfl, hs⟩⟩

section

variable (hhexes : ∀ n, hexes n = hex) (hcompiled : ∀ b, IsSettled IsTruthful (compiled b))

include hhexes hcompiled

theorem isSettled_renderGroup (g : Group) (first : Bool) :
    IsSettled IsTruthful (renderGroup hexes compiled g first) := by
  choose x hx using hcompiled
  refine ⟨Record.ofGroup hex g first >>= fun r => x r.bindings, fun s hs => ?_⟩
  unfold renderGroup
  rw [Render.run_bind_of_returns (show Render.Returns get s s s from rfl)]
  dsimp only
  rw [hhexes]
  cases Record.ofGroup hex g first with
  | error e => exact ⟨s, rfl, hs⟩
  | ok r => exact hx r.bindings { s with drawn := s.drawn + 1 } hs

theorem isSettled_run (style : Option MarkerStyle) (steps : List BookStep) :
    IsSettled IsTruthful (run hexes compiled style steps) := by
  induction steps with
  | nil => exact .pure []
  | cons step rest ih =>
    cases step with
    | stop f => exact .ofExcept (.error f)
    | report e => exact .bind (isSettled_report e) fun _ => ih
    | block g first =>
      refine .bind (isSettled_renderGroup hhexes hcompiled g first) fun t => ?_
      exact .bind (.ofExcept _) fun t => .bind ih fun ts => .pure (t :: ts)

theorem isSettled_render (form : Form) (unknown : Text) (cmp : Chapter.Comparison)
    (grouper : Grouper) (as : List Annotation) :
    IsSettled IsTruthful (render hexes compiled form unknown cmp grouper as) :=
  .bind (isSettled_run hhexes hcompiled form.style _) fun _ => .pure _

end

end Book
end Marginalia
