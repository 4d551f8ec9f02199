/-
Text as the list of its code points, so that every count and every cut is in
code points.  The searching and splitting operations come with the equations
that say nothing is lost.
-/
namespace Marginalia

abbrev Text := List Char

namespace Text

/-- Cut at the first occurrence of `mark`: what stands before it and what
follows it. -/
def cut (mark : Text) : Text → Option (Text × Text)
  | [] => if mark.isEmpty then some ([], []) else none
  | c :: rest =>
    if mark.isPrefixOf (c :: rest) then some ([], (c :: rest).drop mark.length)
    else (cut mark rest).map fun (before, after) => (c :: before, after)

theorem eq_of_isPrefixOf {mark t : Text} (h : mark.isPrefixOf t = true) :
    t = mark ++ t.drop mark.length := by
  obtain ⟨r, rfl⟩ := List.isPrefixOf_iff_prefix.1 h
  simp

/-- The two sides of a cut and the mark between them are the whole text. -/
theorem eq_of_cut {mark t before after : Text} (h : cut mark t = some (before, after)) :
    t = before ++ mark ++ after := by
  induction t generalizing before with
  | nil =>
    unfold cut at h
    split at h
    · rename_i hm
      simp_all
    · simp at h
  | cons c rest ih =>
    unfold cut at h
    split at h
    · rename_i hm
      have := eq_of_isPrefixOf hm
      simp only [Option.some.injEq, Prod.mk.injEq] at h
      obtain ⟨rfl, rfl⟩ := h
      simpa using this
    · obtain ⟨⟨b, a⟩, hb, he⟩ := Option.map_eq_some_iff.1 h
      simp only [Prod.mk.injEq] at he
      obtain ⟨rfl, rfl⟩ := he
      simp [ih hb]

theorem length_after_cut {mark t before after : Text}
    (h : cut mark t = some (before, after)) : after.length + mark.length ≤ t.length := by
  have := congrArg List.length (eq_of_cut h)
  simp only [List.length_append] at this
  omega

def holds (mark t : Text) : Bool := (cut mark t).isSome

/-- The parts between the occurrences of `sep`; there is always at least one. -/
def fields (sep : Char) : Text → List Text
  | [] => [[]]
  | c :: rest =>
    if c = sep then [] :: fields sep rest
    else match fields sep rest with
      | [] => [[c]]
      | f :: fs => (c :: f) :: fs

/-- Join with `sep` between neighbours. -/
def join (sep : Text) : List Text → Text
  | [] => []
  | [t] => t
  | t :: rest => t ++ sep ++ join sep rest

theorem fields_ne_nil (sep : Char) (t : Text) : fields sep t ≠ [] := by
  cases t with
  | nil => simp [fields]
  | cons c rest =>
    simp only [fields]
    split
    · simp
    · split <;> simp

/-- Joining what was split restores the text. -/
theorem join_fields (sep : Char) (t : Text) : join [sep] (fields sep t) = t := by
  induction t with
  | nil => rfl
  | cons c rest ih =>
    have hne := fields_ne_nil sep rest
    simp only [fields]
    split
    · rename_i hc
      subst hc
      match hf : fields c rest, hne with
      | f :: fs, _ => rw [hf] at ih; simp [join, ih]
    · match hf : fields sep rest, hne with
      | f :: fs, _ =>
        rw [hf] at ih
        cases fs with
        | nil => simpa [join] using ih
        | cons g gs => simpa [join] using ih

/-- Every occurrence of `mark`, found from the left, becomes `other`. -/
def replace (mark other : Text) (t : Text) : Text :=
  match _h : cut mark t with
  | none => t
  | some (before, after) =>
    if mark.length = 0 then t
    else before ++ other ++ replace mark other after
termination_by t.length
decreasing_by
  have := length_after_cut _h
  omega

/-- Drop `mark` from the end when the text ends in it. -/
def dropTail? (mark t : Text) : Option Text :=
  if mark.isSuffixOf t then some (t.take (t.length - mark.length)) else none

def ofNat (n : Nat) : Text := (toString n).toList

end Text

end Marginalia
