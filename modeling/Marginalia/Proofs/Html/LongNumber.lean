import Mathlib.Data.List.TakeWhile
import Marginalia.Proofs.Ensures
import Marginalia.Proofs.Html.Escape

/-
Texts whose references cannot be decoded.  There is one reason only, a reference by a number
with too many digits, and it does not matter where in the text it stands: no other reference
hides it.
-/
namespace Marginalia
namespace Html

variable {s t : Text}

/-- Digits that are too many to be read as a number. -/
structure AreTooMany (ds : Text) : Prop where
  digits : ∀ d ∈ ds, Text.isBasicDigit d
  long : Text.maxNumeralDigits < ds.length

/-- A reference by a number with too many digits starts somewhere in the text. -/
def HasLongNumber (t : Text) : Prop := ∃ ds, AreTooMany ds ∧ '&' :: '#' :: ds <:+: t

theorem hasLongNumber_cons {c : Char} :
    HasLongNumber (c :: t) ↔
      (c = '&' ∧ ∃ ds, AreTooMany ds ∧ '#' :: ds <+: t) ∨ HasLongNumber t := by
  simp only [HasLongNumber, List.infix_cons_iff, List.cons_prefix_cons]
  constructor
  · rintro ⟨ds, hds, ⟨rfl, hprefix⟩ | hinfix⟩
    · exact .inl ⟨rfl, ds, hds, hprefix⟩
    · exact .inr ⟨ds, hds, hinfix⟩
  · rintro (⟨rfl, ds, hds, hprefix⟩ | ⟨ds, hds, hinfix⟩)
    · exact ⟨ds, hds, .inl ⟨rfl, hprefix⟩⟩
    · exact ⟨ds, hds, .inr hinfix⟩

theorem hasLongNumber_append (h : '&' ∉ s) : HasLongNumber (s ++ t) ↔ HasLongNumber t := by
  induction s with
  | nil => rfl
  | cons c s ih =>
    rw [List.mem_cons, not_or] at h
    rw [List.cons_append, hasLongNumber_cons, ih h.2]
    exact or_iff_right fun hc => h.1 hc.1.symm

/-! ## One reference -/

/-- What a reference takes is its front and the semicolon behind it. -/
theorem mem_of_mem_counted {front after : Text} {c : Char}
    (h : c ∈ (front ++ after).take (front.length + if after.head? = some ';' then 1 else 0)) :
    c ∈ front ∨ c = ';' := by
  rw [List.take_length_add_append, List.mem_append] at h
  refine h.imp id fun hafter => ?_
  split at hafter
  · rename_i hhead
    cases after with
    | nil => cases hhead
    | cons d rest =>
      cases hhead
      simpa using hafter
  · cases hafter

/-- A number with too many digits stands at the start exactly if the first digits are too
many. -/
theorem exists_prefix_iff {rest : Text} : (∃ ds, AreTooMany ds ∧ '#' :: ds <+: '#' :: rest) ↔
    Text.maxNumeralDigits < (rest.takeWhile Text.isBasicDigit).length := by
  constructor
  · rintro ⟨ds, hds, hprefix⟩
    obtain ⟨after, rfl⟩ := (List.cons_prefix_cons.1 hprefix).2
    rw [List.takeWhile_append_of_pos hds.digits, List.length_append]
    exact Nat.lt_of_lt_of_le hds.long (Nat.le_add_right _ _)
  · intro hlong
    refine ⟨_, ⟨fun d hd => List.mem_takeWhile_imp hd, hlong⟩, ?_⟩
    exact List.cons_prefix_cons.2 ⟨rfl, List.takeWhile_prefix _⟩

theorem not_mem_take_counted {front after : Text} {n : Nat} (hfront : '&' ∉ front)
    (hn : n = front.length + if after.head? = some ';' then 1 else 0) :
    '&' ∉ (front ++ after).take n := by
  intro hmem
  rw [hn] at hmem
  rcases mem_of_mem_counted hmem with hmem | hmem
  · exact hfront hmem
  · cases hmem

/-- What may become of a reference: it is refused for its digits, or is none, or it takes a
part of the text in which there is no ampersand. -/
inductive Settles (t : Text) : Except Fault (Option (Text × Nat)) → Prop
  | refused (h : ∃ ds, AreTooMany ds ∧ '#' :: ds <+: t) (e : Fault) : Settles t (.error e)
  | none (h : ¬ ∃ ds, AreTooMany ds ∧ '#' :: ds <+: t) : Settles t (.ok none)
  | taken (h : ¬ ∃ ds, AreTooMany ds ∧ '#' :: ds <+: t) {n : Nat} (hamp : '&' ∉ t.take n)
    (s : Text) : Settles t (.ok (some (s, n)))

/-- A reference takes a front in which there is no ampersand, and a semicolon behind it. -/
theorem Settles.of_front {front after : Text} {n : Nat}
    (h : ¬ ∃ ds, AreTooMany ds ∧ '#' :: ds <+: t) (ht : t = front ++ after)
    (hfront : '&' ∉ front) (hn : n = front.length + if after.head? = some ';' then 1 else 0)
    (s : Text) : Settles t (.ok (some (s, n))) := by
  subst ht
  exact .taken h (not_mem_take_counted hfront hn) s

variable {rest : Text}

theorem settles_decimal (h : rest.takeWhile Text.isBasicDigit ≠ []) :
    Settles ('#' :: rest) (reference? ('#' :: rest)) := by
  have hrest := List.prefix_iff_eq_append.1 (List.takeWhile_prefix (l := rest) Text.isBasicDigit)
  have hamp : '&' ∉ '#' :: rest.takeWhile Text.isBasicDigit := by
    rw [List.mem_cons, not_or]
    exact ⟨nofun, fun h => absurd (List.mem_takeWhile_imp h) (by decide)⟩
  simp only [reference?]
  rw [if_pos (by simpa using h)]
  by_cases hlong : Text.maxNumeralDigits < (rest.takeWhile Text.isBasicDigit).length
  · rw [if_pos hlong]
    exact .refused (exists_prefix_iff.2 hlong) _
  · rw [if_neg hlong]
    refine .of_front (mt exists_prefix_iff.1 hlong) (congrArg ('#' :: ·) hrest.symm) hamp ?_ _
    simp only [List.length_cons]
    omega

theorem settles_hex (h : rest.takeWhile Text.isBasicDigit = []) :
    Settles ('#' :: rest) (reference? ('#' :: rest)) := by
  have hshort : ¬ ∃ ds, AreTooMany ds ∧ '#' :: ds <+: '#' :: rest := by
    rw [exists_prefix_iff, h]
    exact Nat.not_lt_zero _
  simp only [reference?]
  rw [if_neg (by simp [h])]
  cases rest with
  | nil => exact .none hshort
  | cons x r =>
    have hr := List.prefix_iff_eq_append.1
      (List.takeWhile_prefix (l := r) fun c => (hexValue? c).isSome)
    have hamp : '&' ∉ r.takeWhile fun c => (hexValue? c).isSome :=
      fun h => absurd (List.mem_takeWhile_imp h) (by decide)
    dsimp only
    generalize (r.takeWhile fun c => (hexValue? c).isSome) = ds at *
    split
    · rename_i hhex
      have hx : x ≠ '&' := by
        rintro rfl
        simp at hhex
      have hsplit : '#' :: x :: r = ('#' :: x :: ds) ++ r.drop ds.length :=
        congrArg (fun u => '#' :: x :: u) hr.symm
      refine .of_front hshort hsplit (by simp [hamp, hx.symm]) ?_ _
      simp only [List.length_cons]
      omega
    · exact .none hshort

theorem settles_name (h : ∀ rest, t ≠ '#' :: rest) : Settles t (reference? t) := by
  have hshort : ¬ ∃ ds, AreTooMany ds ∧ '#' :: ds <+: t := by
    rintro ⟨ds, _, after, rfl⟩
    exact h _ rfl
  have ht := List.prefix_iff_eq_append.1 ((List.takeWhile_prefix (l := t.take maxName)
    fun c => !endsName c).trans (List.take_prefix _ _))
  have hamp : '&' ∉ (t.take maxName).takeWhile fun c => !endsName c :=
    fun h => absurd (List.mem_takeWhile_imp h) (by decide)
  unfold reference?
  split
  · exact absurd rfl (h _)
  · dsimp only
    generalize ((t.take maxName).takeWhile fun c => !endsName c) = name at *
    by_cases hempty : name.isEmpty = true
    · rw [if_pos hempty]
      exact .none hshort
    · rw [if_neg hempty]
      refine .of_front hshort ht.symm hamp ?_ _
      split_ifs
      · exact List.length_append
      · rfl

theorem settles_reference? (t : Text) : Settles t (reference? t) := by
  by_cases h : ∃ rest, t = '#' :: rest
  · obtain ⟨rest, rfl⟩ := h
    by_cases hdigits : rest.takeWhile Text.isBasicDigit = []
    · exact settles_hex hdigits
    · exact settles_decimal hdigits
  · exact settles_name fun rest heq => h ⟨rest, heq⟩

/-! ## Whole texts -/

/-- Decoding fails where a number with too many digits is referred to, and nowhere else. -/
theorem decode_refuses_iff (t : Text) : (∃ e, decode t = .error e) ↔ HasLongNumber t := by
  induction hn : t.length using Nat.strongRecOn generalizing t with
  | ind n ih =>
    cases t with
    | nil =>
      rw [decode]
      constructor
      · rintro ⟨e, he⟩
        cases he
      · rintro ⟨ds, _, hinfix⟩
        cases List.infix_nil.1 hinfix
    | cons c rest =>
      have hlen : rest.length < n := by rw [← hn]; exact Nat.lt_succ_self _
      rw [hasLongNumber_cons]
      by_cases hc : c = '&'
      · subst hc
        have hsettles := settles_reference? rest
        generalize hread : reference? rest = r at hsettles
        cases hsettles with
        | refused h e =>
          have hdecode : decode ('&' :: rest) = .error e := by
            rw [decode, hread]
            rfl
          exact ⟨fun _ => .inl ⟨rfl, h⟩, fun _ => ⟨e, hdecode⟩⟩
        | none h =>
          have hdecode : decode ('&' :: rest) = (decode rest).map ('&' :: ·) := by
            rw [decode, hread]
            show (decode rest >>= fun d => pure ('&' :: d)) = _
            cases decode rest <;> rfl
          rw [hdecode, exists_map_eq_error, ih _ hlen rest rfl]
          exact (or_iff_right fun hleft => h hleft.2).symm
        | @taken h n' hamp s =>
          have hdrop : (rest.drop n').length < n :=
            Nat.lt_of_le_of_lt (List.drop_sublist _ _).length_le hlen
          have hrest : HasLongNumber rest ↔ HasLongNumber (rest.drop n') := by
            rw [← hasLongNumber_append (t := rest.drop n') hamp, List.take_append_drop]
          rw [decode_of_reference? hread, exists_map_eq_error, ih _ hdrop _ rfl, hrest]
          exact (or_iff_right fun hleft => h hleft.2).symm
      · rw [decode_cons hc, exists_map_eq_error, ih _ hlen rest rfl]
        exact (or_iff_right fun hleft => hc hleft.1).symm

end Html
end Marginalia
