/-
What a computation that may fail is known to do, stated for both of its ends.
-/
namespace Marginalia

variable {α β ε : Type}

/-- The value satisfies `P`, or the error satisfies `E`. -/
def Ensures (E : ε → Prop) (P : α → Prop) : Except ε α → Prop
  | .ok a => P a
  | .error e => E e

namespace Ensures

variable {E : ε → Prop} {P Q : α → Prop} {m : Except ε α}

theorem mono (h : Ensures E P m) (hPQ : ∀ a, P a → Q a) : Ensures E Q m := by
  cases m with
  | error e => exact h
  | ok a => exact hPQ a h

theorem bind {R : β → Prop} {f : α → Except ε β} (h : Ensures E P m)
    (hf : ∀ a, P a → Ensures E R (f a)) : Ensures E R (m >>= f) := by
  cases m with
  | error e => exact h
  | ok a => exact hf a h

/-- What is known of the errors only, with the value taken as it comes. -/
theorem self (h : ∀ e, m = .error e → E e) : Ensures E (fun a => m = .ok a) m := by
  cases m with
  | error e => exact h e rfl
  | ok a => rfl

theorem of_eq_ok {a : α} (h : Ensures E P m) (hm : m = .ok a) : P a := by
  rw [hm] at h
  exact h

theorem of_eq_error {e : ε} (h : Ensures E P m) (hm : m = .error e) : E e := by
  rw [hm] at h
  exact h

/-- Where no error is possible there is a value. -/
theorem exists_ok (h : Ensures (fun _ => False) P m) : ∃ a, m = .ok a ∧ P a := by
  cases m with
  | error e => exact h.elim
  | ok a => exact ⟨a, rfl, h⟩

end Ensures

/-- What a successful sequence of two computations is made of. -/
theorem exists_of_bind_eq_ok {m : Except ε α} {f : α → Except ε β} {b : β}
    (h : (m >>= f) = .ok b) : ∃ a, m = .ok a ∧ f a = .ok b := by
  cases m with
  | error e => cases h
  | ok a => exact ⟨a, rfl, h⟩

theorem bind_of_eq_ok {m : Except ε α} {a : α} (h : m = .ok a) (f : α → Except ε β) :
    (m >>= f) = f a := by
  rw [h]
  rfl

theorem exists_of_map_eq_ok {m : Except ε α} {f : α → β} {b : β} (h : m.map f = .ok b) :
    ∃ a, m = .ok a ∧ f a = b := by
  cases m with
  | error e => cases h
  | ok a => exact ⟨a, rfl, Except.ok.inj h⟩

/-- A sequence of two computations succeeds when both do. -/
theorem exists_bind_eq_ok {m : Except ε α} {f : α → Except ε β} (hm : ∃ a, m = .ok a)
    (hf : ∀ a, m = .ok a → ∃ b, f a = .ok b) : ∃ b, (m >>= f) = .ok b := by
  obtain ⟨a, rfl⟩ := hm
  exact hf a rfl

theorem exists_of_isOk {m : Except ε α} (h : m.isOk) : ∃ a, m = .ok a := by
  cases m with
  | error e => cases h
  | ok a => exact ⟨a, rfl⟩

/-- A computation that goes through a list item by item succeeds when it does on every item. -/
theorem exists_each {f : α → Except ε β} (each : List α → Except ε (List β))
    (hnil : each [] = .ok [])
    (hcons : ∀ x xs, each (x :: xs) = f x >>= fun y => each xs >>= fun ys => .ok (y :: ys))
    {xs : List α} (h : ∀ x ∈ xs, ∃ y, f x = .ok y) : ∃ ys, each xs = .ok ys := by
  induction xs with
  | nil => exact ⟨[], hnil⟩
  | cons x xs ih =>
    obtain ⟨hx, hxs⟩ := List.forall_mem_cons.1 h
    rw [hcons]
    exact exists_bind_eq_ok hx fun _ _ => exists_bind_eq_ok (ih hxs) fun _ _ => ⟨_, rfl⟩

/-- What each item comes to is known of all that a list comes to, one for each item. -/
theorem ensures_each {E : ε → Prop} {P : β → Prop} {f : α → Except ε β}
    (each : List α → Except ε (List β)) (hnil : each [] = .ok [])
    (hcons : ∀ x xs, each (x :: xs) = f x >>= fun y => each xs >>= fun ys => .ok (y :: ys))
    {xs : List α} (h : ∀ x ∈ xs, Ensures E P (f x)) :
    Ensures E (fun ys => ys.length = xs.length ∧ ∀ y ∈ ys, P y) (each xs) := by
  induction xs with
  | nil =>
    rw [hnil]
    exact ⟨rfl, fun _ hy => absurd hy List.not_mem_nil⟩
  | cons x xs ih =>
    obtain ⟨hx, hxs⟩ := List.forall_mem_cons.1 h
    rw [hcons]
    refine hx.bind fun y hy => (ih hxs).bind fun ys hys => ?_
    exact ⟨congrArg (· + 1) hys.1, List.forall_mem_cons.2 ⟨hy, hys.2⟩⟩

/-! ## Failing -/

theorem exists_ok_iff {x : Except ε α} :
    (∃ a, x = .ok a) ↔ ¬ ∃ e, x = .error e := by
  cases x with
  | error e => exact ⟨nofun, fun h => absurd ⟨e, rfl⟩ h⟩
  | ok a => exact ⟨fun _ => nofun, fun _ => ⟨a, rfl⟩⟩

theorem exists_bind_eq_error {x : Except ε α} {f : α → Except ε β} :
    (∃ e, x >>= f = .error e) ↔
      (∃ e, x = .error e) ∨ ∃ a, x = .ok a ∧ ∃ e, f a = .error e := by
  cases x with
  | error e => exact ⟨fun _ => .inl ⟨e, rfl⟩, fun _ => ⟨e, rfl⟩⟩
  | ok a =>
    constructor
    · exact fun h => .inr ⟨a, rfl, h⟩
    · rintro (⟨e, he⟩ | ⟨a', ha, h⟩)
      · cases he
      · cases ha
        exact h

/-- Two computations, neither of which needs the other, fail where one of them does. -/
theorem exists_both_eq_error {γ : Type} {x : Except ε α} {y : Except ε β} {f : α → β → γ} :
    (∃ e, (x >>= fun a => y >>= fun b => .ok (f a b)) = .error e) ↔
      (∃ e, x = .error e) ∨ ∃ e, y = .error e := by
  cases x with
  | error e => exact ⟨fun _ => .inl ⟨e, rfl⟩, fun _ => ⟨e, rfl⟩⟩
  | ok a =>
    cases y with
    | error e => exact ⟨fun _ => .inr ⟨e, rfl⟩, fun _ => ⟨e, rfl⟩⟩
    | ok b => exact ⟨nofun, fun h => by rcases h with ⟨e, he⟩ | ⟨e, he⟩ <;> cases he⟩

theorem exists_map_eq_error {x : Except ε α} {f : α → β} :
    (∃ e, x.map f = .error e) ↔ ∃ e, x = .error e := by
  cases x with
  | error e => exact ⟨fun _ => ⟨e, rfl⟩, fun _ => ⟨e, rfl⟩⟩
  | ok a => exact ⟨nofun, nofun⟩

/-! ## With a state -/

theorem run_bind_of_eq_ok {σ : Type} {m : ExceptT ε (StateM σ) α} {a : α} {s t : σ}
    (h : m.run.run s = (.ok a, t)) (f : α → ExceptT ε (StateM σ) β) :
    (m >>= f).run.run s = (f a).run.run t := by
  rw [ExceptT.run_bind, StateT.run_bind, h]
  rfl

theorem run_bind_of_eq_error {σ : Type} {m : ExceptT ε (StateM σ) α} {e : ε} {s t : σ}
    (h : m.run.run s = (.error e, t)) (f : α → ExceptT ε (StateM σ) β) :
    (m >>= f).run.run s = (.error e, t) := by
  rw [ExceptT.run_bind, StateT.run_bind, h]
  rfl

end Marginalia
