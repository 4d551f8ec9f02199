import Mathlib.Data.List.TakeWhile
import Marginalia.Filter.Truncate
import Marginalia.Proofs.Number.Range
import Marginalia.Proofs.Number.Reading
import Marginalia.Proofs.Text.Strip

/-
Lengths that cannot be read.  An argument that is no number, or none in the range of
floating-point numbers, is read up to the end of its first digits; these are refused where
they are too many, or stand for a number out of that range.
-/
namespace Marginalia
namespace Truncate

variable {a t : Text}

/-- The digits at the start of a text, behind a sign. -/
def leadingDigits (a : Text) : Text := (a.drop (Text.sign a).length).takeWhile Text.isDigit

theorem isDigit_of_mem_leadingDigits {c : Char} (h : c ∈ leadingDigits a) : Text.isDigit c :=
  List.mem_takeWhile_imp h

theorem leadingWhole_append {ws : Text} (h : Text.isBlank ws) (a : Text) :
    leadingWhole (ws ++ a) = (leadingWhole a).map (ws ++ ·) := by
  have hspace : ∀ c ∈ ws, Text.isSpace c := List.all_eq_true.1 h
  unfold leadingWhole
  rw [List.takeWhile_append_of_pos hspace, List.dropWhile_append_of_pos hspace]
  dsimp only
  split_ifs <;> simp

theorem leadingWhole_of_head (h : ∀ c ∈ a.head?, Text.isSpace c = false) :
    leadingWhole a =
      if (leadingDigits a).isEmpty then none else some (Text.sign a ++ leadingDigits a) := by
  have hblank : a.takeWhile Text.isSpace = [] := by
    cases a with
    | nil => rfl
    | cons c rest => exact List.takeWhile_cons_of_neg (by simp [h c rfl])
  have hrest : a.dropWhile Text.isSpace = a := Text.stripLeft_eq_self h
  unfold leadingWhole leadingDigits
  rw [hblank, hrest]
  dsimp only
  split
  · rfl
  · rfl
  · rename_i hplus hminus
    have hsign : Text.sign a = [] := by
      unfold Text.sign
      split
      · exact absurd rfl (hplus _)
      · exact absurd rfl (hminus _)
      · rfl
    rw [hsign]
    rfl

/-- An argument is no number of the range of floating-point numbers, and the number it
starts with is of no use either. -/
structure IsBeyond (a : Text) : Prop where
  unread : (Decimal.read? a).filter (·.isFinite) = none
  large : Text.maxNumeralDigits < (leadingDigits a).length ∨
    Binary64.overflow ≤ Text.digitsValue (leadingDigits a)

theorem IsBeyond.leadingDigits_ne_nil (h : IsBeyond a) : leadingDigits a ≠ [] := by
  intro hnil
  have hlarge := h.large
  rw [hnil] at hlarge
  rcases hlarge with hlong | hlarge
  · cases hlong
  · exact absurd hlarge (by decide +kernel)

theorem not_isBeyond_nil : ¬ IsBeyond [] := fun h => h.leadingDigits_ne_nil rfl

theorem ofInt?_signed_eq_none_iff (p : Prop) [Decidable p] (n : Nat) :
    Binary64.ofInt? (if p then -(n : Int) else n) = none ↔ Binary64.overflow ≤ n := by
  rw [Binary64.ofInt?_eq_none_iff]
  split
  · rw [Int.natAbs_neg, Int.natAbs_natCast]
  · rw [Int.natAbs_natCast]

theorem length?_refuses_iff (h : a.Tight) :
    (∃ e, length? (some a) = .error e) ↔ IsBeyond a := by
  unfold length?
  dsimp only
  rw [h.strip_eq, leadingWhole_of_head h.head]
  cases hread : (Decimal.read? a).filter (·.isFinite) with
  | some x => exact ⟨nofun, fun hbeyond => by cases hread.symm.trans hbeyond.unread⟩
  | none =>
    dsimp only
    by_cases hne : leadingDigits a = []
    · rw [if_pos (by simpa using hne)]
      exact ⟨nofun, fun hbeyond => absurd hne hbeyond.leadingDigits_ne_nil⟩
    · rw [if_neg (by simpa using hne)]
      dsimp only
      rw [Value.readWhole_signed hne fun c hc => isDigit_of_mem_leadingDigits hc]
      by_cases hlen : Text.maxNumeralDigits < (leadingDigits a).length
      · rw [if_pos hlen]
        exact ⟨fun _ => ⟨hread, .inl hlen⟩, fun _ => ⟨_, rfl⟩⟩
      · rw [if_neg hlen]
        have hrange :=
          ofInt?_signed_eq_none_iff (Text.sign a = ['-']) (Text.digitsValue (leadingDigits a))
        dsimp only [bind, Except.bind]
        cases hof : Binary64.ofInt? (if Text.sign a = ['-'] then
            -(Text.digitsValue (leadingDigits a) : Int) else Text.digitsValue (leadingDigits a)) with
        | none => exact ⟨fun _ => ⟨hread, .inr (hrange.1 hof)⟩, fun _ => ⟨_, rfl⟩⟩
        | some x =>
          refine ⟨nofun, fun hbeyond => ?_⟩
          rw [hrange.2 (hbeyond.large.resolve_left hlen)] at hof
          cases hof

/-- A text is cut or left alone, unless the length is refused. -/
theorem apply_refuses_iff (h : a.Tight) :
    (∃ e, apply t (some a) = .error e) ↔ IsBeyond a := by
  rw [← length?_refuses_iff h]
  unfold apply
  cases hlength : length? (some a) with
  | error e => exact ⟨fun _ => ⟨e, rfl⟩, fun _ => ⟨e, rfl⟩⟩
  | ok x =>
    refine ⟨fun ⟨e, he⟩ => ?_, nofun⟩
    cases x with
    | none => cases he
    | some x =>
      dsimp only [bind, Except.bind] at he
      split_ifs at he <;> cases he

end Truncate
end Marginalia
