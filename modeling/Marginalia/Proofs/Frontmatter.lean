import Marginalia.Frontmatter
import Marginalia.Proofs.Text.Utf8
import Marginalia.Proofs.Yaml.Writer

/-
Settings that have been written before a template.  Between two lines of hyphens they are found
again as they are, if no line of theirs starts with a hyphen; of the template, the blanks that
it starts with are lost.
-/
namespace Marginalia
namespace Frontmatter

open Text (GoesOn)

variable {t rest after : Text}

/-! ## The content of a file -/

theorem suffix_of_afterLineEnd? (h : afterLineEnd? t = some after) : after <:+ t := by
  unfold afterLineEnd? at h
  split at h
  · cases h
    exact List.suffix_cons _ _
  · cases h
    exact (List.suffix_cons _ _).trans (List.suffix_cons _ _)
  · cases h

theorem suffix_of_afterFence? (h : afterFence? t = some after) : after <:+ t := by
  unfold afterFence? at h
  split at h
  · rename_i rest
    cases h
    exact (List.dropWhile_suffix _).trans (List.suffix_append ['-', '-', '-'] rest)
  · cases h

theorem suffix_of_afterClosing? (h : afterClosing? t = some after) : after <:+ t := by
  obtain ⟨line, hline, h⟩ := Option.bind_eq_some_iff.1 h
  obtain ⟨fence, hfence, h⟩ := Option.bind_eq_some_iff.1 h
  have hsuffix := (suffix_of_afterFence? hfence).trans (suffix_of_afterLineEnd? hline)
  split at h
  · cases h
    exact List.nil_suffix
  · exact (suffix_of_afterLineEnd? h).trans hsuffix

theorem suffix_of_cutClosing {block : Text} (h : cutClosing t = some (block, after)) :
    after <:+ t := by
  induction t generalizing block with
  | nil => cases h
  | cons c rest ih =>
    unfold cutClosing at h
    split at h
    · rename_i hclosing
      cases h
      exact suffix_of_afterClosing? hclosing
    · obtain ⟨⟨block', after'⟩, hcut, h⟩ := Option.map_eq_some_iff.1 h
      cases h
      exact (ih hcut).trans (List.suffix_cons _ _)

theorem suffix_of_cut? {block : Text} (h : cut? t = some (block, after)) : after <:+ t := by
  obtain ⟨fence, hfence, h⟩ := Option.bind_eq_some_iff.1 h
  obtain ⟨line, hline, h⟩ := Option.bind_eq_some_iff.1 h
  obtain ⟨⟨block', after'⟩, hcut, h⟩ := Option.bind_eq_some_iff.1 h
  cases h
  exact (List.dropWhile_suffix _).trans ((suffix_of_cutClosing hcut).trans
    ((suffix_of_afterLineEnd? hline).trans (suffix_of_afterFence? hfence)))

/-- The content of a template is the end of its file. -/
theorem suffix_of_split {f : Frontmatter} (h : split t = .ok f) : f.content <:+ t := by
  unfold split at h
  split at h
  · cases h
    exact List.suffix_rfl
  · rename_i hcut
    split at h
    · cases h
      exact suffix_of_cut? hcut
    · cases h
      exact List.suffix_rfl
    · cases h
      exact List.suffix_rfl
    · cases h

/-! ## Settings between lines of hyphens -/

theorem afterFence?_of_ne {c : Char} (h : c ≠ '-') (t : Text) : afterFence? (c :: t) = none := by
  unfold afterFence?
  split
  · rename_i heq
    cases heq
    exact absurd rfl h
  · rfl

theorem afterLineEnd?_of_ne {c : Char} (hfeed : c ≠ '\n') (hreturn : c ≠ '\r') (t : Text) :
    afterLineEnd? (c :: t) = none := by
  unfold afterLineEnd?
  split
  · rename_i heq
    cases heq
    exact absurd rfl hfeed
  · rename_i heq
    cases heq
    exact absurd rfl hreturn
  · rfl

/-- No closing line starts where another line goes on. -/
theorem afterClosing?_of_goesOn {c : Char} (h : GoesOn (c :: t)) (rest : Text) :
    afterClosing? (c :: (t ++ rest)) = none := by
  obtain ⟨hreturn, hline, _⟩ := h
  by_cases hc : c = '\n'
  · subst hc
    obtain ⟨d, hd, hhyphen⟩ := hline rfl
    obtain ⟨tail, rfl⟩ := List.head?_eq_some_iff.1 hd
    exact congrArg (· >>= _) (afterFence?_of_ne hhyphen (tail ++ rest))
  · rw [afterClosing?, afterLineEnd?_of_ne hc hreturn]
    rfl

/-- The block of settings ends at the first closing line. -/
theorem cutClosing_append (ht : GoesOn t) (hrest : afterClosing? rest = some after) :
    cutClosing (t ++ rest) = some (t, after) := by
  induction t with
  | nil =>
    cases rest with
    | nil => cases hrest
    | cons c rest => rw [List.nil_append, cutClosing, hrest]
  | cons c t ih =>
    rw [List.cons_append, cutClosing, afterClosing?_of_goesOn ht, ih ht.2.2]
    rfl

/-- A block of settings between its lines of hyphens, and what follows. -/
def fenced (block rest : Text) : Text := "---\n".toList ++ block ++ "\n---\n".toList ++ rest

theorem cut?_fenced (h : GoesOn t) (rest : Text) :
    cut? (fenced t rest) = some (t, Text.stripLeft rest) := by
  have hclosing : afterClosing? ("\n---\n".toList ++ rest) = some rest := rfl
  have hopening : cut? (fenced t rest) =
      cutClosing (t ++ ("\n---\n".toList ++ rest)) >>= fun p => some (p.1, Text.stripLeft p.2) := by
    rw [fenced, List.append_assoc, List.append_assoc]
    rfl
  rw [hopening, cutClosing_append h hclosing]
  rfl

theorem split_fenced (h : GoesOn t) {entries : List (Value × Value)}
    (hread : Yaml.readMapping t = .ok (some entries)) (rest : Text) :
    split (fenced t rest) = .ok { entries, content := Text.stripLeft rest } := by
  rw [split, cut?_fenced h]
  dsimp only
  rw [hread]

end Frontmatter
end Marginalia
