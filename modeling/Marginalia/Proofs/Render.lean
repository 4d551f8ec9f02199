import Marginalia.Proofs.Ensures
import Marginalia.Template.Compiled

/-
What a rendering computation is known to have done once it has returned, and
computations whose result does not depend on what the shared state remembers.
-/
namespace Marginalia
namespace Render

variable {α β : Type} {m : Render α} {s s' : RenderState}

/-- Started from one state, a computation comes back with a value and leaves
another state behind. -/
def Returns (m : Render α) (s : RenderState) (a : α) (s' : RenderState) : Prop :=
  m.run.run s = (.ok a, s')

theorem returns_pure {a b : α} : Returns (pure a) s b s' ↔ b = a ∧ s' = s := by
  show (Except.ok a, s) = (Except.ok b, s') ↔ _
  rw [Prod.mk.injEq, Except.ok.injEq]
  exact ⟨fun h => ⟨h.1.symm, h.2.symm⟩, fun h => ⟨h.1.symm, h.2.symm⟩⟩

/-- A sequence returns exactly when both of its parts do. -/
theorem returns_bind {f : α → Render β} {b : β} :
    Returns (m >>= f) s b s' ↔ ∃ a t, Returns m s a t ∧ Returns (f a) t b s' := by
  unfold Returns
  rw [ExceptT.run_bind, StateT.run_bind]
  rcases m.run.run s with ⟨r, t⟩
  cases r with
  | error e =>
    constructor
    · intro h
      cases h
    · rintro ⟨a, t', h, _⟩
      cases h
  | ok a =>
    constructor
    · intro h
      exact ⟨a, t, rfl, h⟩
    · rintro ⟨a, t, h, hf⟩
      cases h
      exact hf

theorem not_returns_throw {f : Fault} {a : α} : ¬ Returns (throw f) s a s' := by
  intro h
  cases h

theorem returns_report {e : LogEntry} {u : Unit} :
    Returns (report e) s u s' ↔ s' = { s with log := s.log ++ [e] } := by
  show (Except.ok (), { s with log := s.log ++ [e] }) = (Except.ok u, s') ↔ _
  rw [Prod.mk.injEq]
  exact ⟨fun h => h.2.symm, fun h => ⟨rfl, h.symm⟩⟩

theorem returns_ofExcept {x : Except Fault α} {a : α} :
    Returns (ofExcept x) s a s' ↔ x = .ok a ∧ s' = s := by
  cases x with
  | error e => exact ⟨fun h => absurd h not_returns_throw, nofun⟩
  | ok b =>
    rw [Except.ok.injEq, eq_comm (a := b)]
    exact returns_pure

/-! ## Results that do not depend on the state -/

/-- From every state with `I` the computation comes to one result, and leaves a
state with `I`. -/
def ComesTo (I : RenderState → Prop) (m : Render α) (x : Except Fault α) : Prop :=
  ∀ s, I s → ∃ s', m.run.run s = (x, s') ∧ I s'

namespace ComesTo

variable {I : RenderState → Prop}

theorem pure (a : α) : ComesTo I (pure a) (.ok a) :=
  fun s hs => ⟨s, rfl, hs⟩

theorem ofExcept (x : Except Fault α) : ComesTo I (ofExcept x) x := by
  intro s hs
  cases x with
  | error e => exact ⟨s, rfl, hs⟩
  | ok a => exact ⟨s, rfl, hs⟩

theorem bind {x : Except Fault α} {f : α → Render β} {g : α → Except Fault β}
    (hm : ComesTo I m x) (hf : ∀ a, ComesTo I (f a) (g a)) :
    ComesTo I (m >>= f) (x >>= g) := by
  intro s hs
  obtain ⟨t, hrun, ht⟩ := hm s hs
  rw [ExceptT.run_bind, StateT.run_bind, hrun]
  cases x with
  | error e => exact ⟨t, rfl, ht⟩
  | ok a => exact hf a t ht

end ComesTo

/-! ## Two computations side by side -/

theorem run_bind_of_error {α' : Type} {f : α → Render α'} {e : Fault}
    (h : m.run.run s = (.error e, s')) : (m >>= f).run.run s = (.error e, s') :=
  run_bind_of_eq_error h f

theorem run_bind_of_returns {α' : Type} {f : α → Render α'} {a : α} (h : Returns m s a s') :
    (m >>= f).run.run s = (f a).run.run s' :=
  run_bind_of_eq_ok h f

/-- From every state both computations leave the same state, and end in one error or
in values that `R` relates. -/
def Agree (R : α → β → Prop) (m : Render α) (n : Render β) : Prop :=
  ∀ s, ∃ s', (∃ e, m.run.run s = (.error e, s') ∧ n.run.run s = (.error e, s')) ∨
    ∃ a b, Returns m s a s' ∧ Returns n s b s' ∧ R a b

namespace Agree

variable {R : α → β → Prop} {n : Render β}

theorem of_returns {a : α} {b : β} (h : R a b) : Agree R (Pure.pure a) (Pure.pure b) :=
  fun s => ⟨s, .inr ⟨a, b, rfl, rfl, h⟩⟩

theorem throw (f : Fault) : Agree R (throw f) (throw f) :=
  fun s => ⟨s, .inl ⟨f, rfl, rfl⟩⟩

/-- A computation agrees with itself in what it returns. -/
theorem self {P : α → Prop} (h : ∀ s a s', Returns m s a s' → P a) :
    Agree (fun a b => a = b ∧ P a) m m := by
  intro s
  cases hrun : m.run.run s with
  | mk x s' =>
    cases x with
    | error e => exact ⟨s', .inl ⟨e, rfl, rfl⟩⟩
    | ok a => exact ⟨s', .inr ⟨a, a, hrun, hrun, rfl, h s a s' hrun⟩⟩

theorem bind {α' β' : Type} {R' : α' → β' → Prop} {f : α → Render α'} {g : β → Render β'}
    (hm : Agree R m n) (hf : ∀ a b, R a b → Agree R' (f a) (g b)) :
    Agree R' (m >>= f) (n >>= g) := by
  intro s
  obtain ⟨s', ⟨e, hm, hn⟩ | ⟨a, b, hm, hn, hab⟩⟩ := hm s
  · exact ⟨s', .inl ⟨e, run_bind_of_error hm, run_bind_of_error hn⟩⟩
  · obtain ⟨s'', ⟨e, hf, hg⟩ | ⟨a', b', hf, hg, hab'⟩⟩ := hf a b hab s'
    · exact ⟨s'', .inl ⟨e, (run_bind_of_returns hm).trans hf, (run_bind_of_returns hn).trans hg⟩⟩
    · exact ⟨s'', .inr ⟨a', b', returns_bind.2 ⟨a, s', hm, hf⟩, returns_bind.2 ⟨b, s', hn, hg⟩,
        hab'⟩⟩

/-- Where values are related when they have one image, the images are the same. -/
theorem map_eq {γ : Type} {f : α → γ} {g : β → γ} (h : Agree (fun a b => f a = g b) m n) :
    f <$> m = g <$> n := by
  refine ExceptT.ext (StateT.ext fun s => ?_)
  rw [ExceptT.run_map, ExceptT.run_map, StateT.run_map, StateT.run_map]
  obtain ⟨s', ⟨e, hm, hn⟩ | ⟨a, b, hm, hn, hab⟩⟩ := h s
  · rw [hm, hn]
    rfl
  · rw [show m.run.run s = (.ok a, s') from hm, show n.run.run s = (.ok b, s') from hn]
    show (Except.ok (f a), s') = (Except.ok (g b), s')
    rw [hab]

end Agree

/-! ## The clock -/

/-- A look at the clock never fails. -/
theorem exists_returns_clock (s : RenderState) : ∃ s', Returns clock s s.now s' := by
  obtain ⟨pipelines, now, ahead, log, drawn⟩ := s
  cases ahead with
  | nil => exact ⟨⟨pipelines, now, [], log, drawn⟩, rfl⟩
  | cons next rest => exact ⟨⟨pipelines, next, rest, log, drawn⟩, rfl⟩

end Render
end Marginalia
