import Mathlib.Data.List.Basic
import Marginalia.Html.Reference

/-
Escaping and what undoes it.  Decoding references takes escaped text back to what it
was, and escaped text has no tag in it, so that line breaks written as tags are the
only tags there are.
-/
namespace Marginalia

/-- None of some characters occurs in a text. -/
def Text.Avoids (cs : List Char) (t : Text) : Prop := ∀ c ∈ t, c ∉ cs

instance (cs : List Char) (t : Text) : Decidable (t.Avoids cs) :=
  List.decidableBAll (fun c => c ∉ cs) t

namespace Html

/-! ## References -/

theorem decode_of_reference? {t s : Text} {n : Nat} (h : reference? t = .ok (some (s, n))) :
    decode ('&' :: t) = (decode (t.drop n)).map (s ++ ·) := by
  rw [decode, h]
  show (decode (t.drop n) >>= fun d => pure (s ++ d)) = _
  cases decode (t.drop n) <;> rfl

theorem decode_cons {c : Char} (h : c ≠ '&') (t : Text) :
    decode (c :: t) = (decode t).map (c :: ·) := by
  rw [decode]
  · cases decode t <;> rfl
  · exact h

/-- A name is read up to its semicolon. -/
theorem reference?_name {c : Char} {name : Text} (hlen : name.length < maxName)
    (hname : ∀ d ∈ c :: name, endsName d = false) (t : Text) :
    reference? (c :: (name ++ ';' :: t)) =
      .ok (some (ofName (c :: (name ++ [';'])), name.length + 2)) := by
  have hends : endsName ';' = true := by decide
  have hc : c ≠ '#' := by
    rintro rfl
    exact absurd (hname '#' (.head _)) (by decide)
  have hread : ((c :: (name ++ ';' :: t)).take maxName).takeWhile (fun d => !endsName d) =
      c :: name := by
    have hsplit : c :: (name ++ ';' :: t) = (c :: name) ++ ';' :: t := rfl
    rw [hsplit, List.take_append, List.take_of_length_le hlen,
      List.takeWhile_append_of_pos (by simpa using hname)]
    cases maxName - (c :: name).length with
    | zero => simp
    | succ n => simp [hends]
  unfold reference?
  split
  · rename_i heq
    cases heq
    exact absurd rfl hc
  · simp only [hread]
    simp

theorem reference?_number {ds : Text} (hne : ds ≠ [])
    (hlen : ds.length ≤ Text.maxNumeralDigits) (hds : ∀ d ∈ ds, Text.isBasicDigit d) (t : Text) :
    reference? ('#' :: (ds ++ ';' :: t)) =
      .ok (some (ofNumber (Text.digitsValue ds), ds.length + 2)) := by
  have hends : Text.isBasicDigit ';' = false := by decide
  have hread : (ds ++ ';' :: t).takeWhile Text.isBasicDigit = ds := by
    rw [List.takeWhile_append_of_pos hds]
    simp [hends]
  unfold reference?
  simp only [hread]
  rw [if_pos (by simpa using hne), if_neg (by omega)]
  simp
  omega

section

variable {c d : Char}

theorem decode_name (name : Text) (hlen : name.length < maxName)
    (hname : (c :: name).any endsName = false) (hstands : ofName (c :: (name ++ [';'])) = [d])
    (t : Text) : decode ('&' :: c :: (name ++ ';' :: t)) = (decode t).map (d :: ·) := by
  have hname' : ∀ e ∈ c :: name, endsName e = false := by
    intro e he
    rw [← Bool.not_eq_true]
    exact List.any_eq_false.1 hname e he
  rw [decode_of_reference? (reference?_name hlen hname' t), hstands, List.drop_succ_cons,
    List.drop_length_add_append]
  rfl

theorem decode_number (ds : Text) (hne : ds ≠ []) (hlen : ds.length ≤ Text.maxNumeralDigits)
    (hds : ds.all Text.isBasicDigit) (hstands : ofNumber (Text.digitsValue ds) = [d])
    (t : Text) : decode ('&' :: '#' :: (ds ++ ';' :: t)) = (decode t).map (d :: ·) := by
  rw [decode_of_reference? (reference?_number hne hlen (List.all_eq_true.1 hds) t), hstands, List.drop_succ_cons,
    List.drop_length_add_append]
  rfl

end

/-! ## Escaped texts -/

theorem escape_cons (c : Char) (t : Text) : escape (c :: t) = escapeChar c ++ escape t :=
  List.flatMap_cons

/-- A reference that escaping writes is decoded to the character it was written for. -/
theorem decode_escapeChar_append (c : Char) (t : Text) :
    decode (escapeChar c ++ t) = (decode t).map (c :: ·) := by
  unfold escapeChar
  split
  · exact decode_name ['m', 'p'] (by decide) (by decide) (by decide +kernel) t
  · exact decode_name ['t'] (by decide) (by decide) (by decide +kernel) t
  · exact decode_name ['t'] (by decide) (by decide) (by decide +kernel) t
  · exact decode_name ['u', 'o', 't'] (by decide) (by decide) (by decide) t
  · exact decode_number ['3', '9'] nofun (by decide) (by decide) (by decide) t
  · rename_i h _ _ _ _
    exact decode_cons h t

theorem decode_escape (t : Text) : decode (escape t) = .ok t := by
  induction t with
  | nil =>
    unfold escape
    rw [List.flatMap_nil, decode]
  | cons c rest ih =>
    rw [escape_cons, decode_escapeChar_append, ih]
    rfl

/-- The characters that tags and the values in them are bounded by. -/
def signs : List Char := ['<', '>', '"', '\'']

theorem escapeChar_avoids (c : Char) : (escapeChar c).Avoids signs := by
  unfold escapeChar
  split
  · decide
  · decide
  · decide
  · decide
  · decide
  · rename_i hamp hlt hgt hquot hapos
    refine List.forall_mem_singleton.2 fun hc => ?_
    simp only [signs, List.mem_cons, List.not_mem_nil, or_false] at hc
    rcases hc with hc | hc | hc | hc
    · exact hlt hc
    · exact hgt hc
    · exact hquot hc
    · exact hapos hc

theorem escape_avoids (t : Text) : (escape t).Avoids signs := by
  intro s hs
  obtain ⟨c, _, hc⟩ := List.mem_flatMap.1 hs
  exact escapeChar_avoids c s hc

theorem markup_not_mem_escape (t : Text) : '<' ∉ escape t :=
  fun h => escape_avoids t '<' h (by decide)

theorem escapeChar_of_not_mem {c : Char} (h : c ∉ '&' :: signs) : escapeChar c = [c] := by
  unfold escapeChar
  split
  all_goals first | rfl | exact absurd (by decide) h

/-- What holds no reserved character is left as it is. -/
theorem escape_of_avoids {t : Text} (h : t.Avoids ('&' :: signs)) : escape t = t := by
  induction t with
  | nil => rfl
  | cons c rest ih =>
    obtain ⟨hc, hrest⟩ := List.forall_mem_cons.1 h
    rw [escape_cons, escapeChar_of_not_mem hc, ih hrest]
    rfl

theorem escape_eq_nil {t : Text} : escape t = [] ↔ t = [] := by
  cases t with
  | nil => exact iff_of_true rfl rfl
  | cons c rest =>
    refine iff_of_false (fun h => ?_) nofun
    have := decode_escape (c :: rest)
    rw [h, decode] at this
    cases this

/-! ## Line breaks -/

theorem afterVoidTag?_of_ne {c : Char} (h : c ≠ '<') (name t : Text) (blank : Bool) :
    afterVoidTag? name blank (c :: t) = none := by
  unfold afterVoidTag?
  split
  · rename_i heq
    cases heq
    exact absurd rfl h
  · rfl

theorem breaksToLines_append {s : Text} (h : '<' ∉ s) (fuel : Nat) (t : Text) :
    breaksToLines (s.length + fuel) (s ++ t) = s ++ breaksToLines fuel t := by
  induction s with
  | nil => rw [List.length_nil, Nat.zero_add, List.nil_append, List.nil_append]
  | cons c rest ih =>
    rw [List.mem_cons, not_or] at h
    rw [List.length_cons, Nat.add_right_comm, List.cons_append, breaksToLines,
      afterVoidTag?_of_ne (Ne.symm h.1)]
    exact congrArg _ (ih h.2)

theorem breaksToLines_break (fuel : Nat) (t : Text) :
    breaksToLines (fuel + 1) ('<' :: 'b' :: 'r' :: '>' :: t) = '\n' :: breaksToLines fuel t :=
  rfl

end Html
end Marginalia
