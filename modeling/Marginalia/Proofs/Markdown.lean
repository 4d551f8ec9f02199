import Marginalia.Markdown
import Marginalia.Proofs.Text.Cut

/-
Quotations and escaped text.  A text that is shown as a quotation has the mark at the start of
every line, save for empty lines, which end it; so lines of quotations make a quotation, wherever
they come from.  An escaped text reads, from left to right, as pairs of a backslash and a special
character with ordinary characters between them, and the second halves of the pairs with what is
between them are the text that was escaped.
-/
namespace Marginalia
namespace Markdown

/-! ## Quotations -/

/-- Every line that is not empty starts with the mark of a quotation. -/
def IsQuotation (t : Text) : Prop :=
  ∀ line ∈ Text.fields '\n' t, line ≠ [] → line.head? = some '>'

instance : DecidablePred IsQuotation := fun t =>
  inferInstanceAs (Decidable (∀ line ∈ Text.fields '\n' t, line ≠ [] → line.head? = some '>'))

theorem isQuotation_nil : IsQuotation [] := by decide

section

variable {line : Text}

theorem isQuotation_cons (h : '\n' ∉ line) : IsQuotation ('>' :: line) := by
  have hline : '\n' ∉ '>' :: line := List.not_mem_cons_of_ne_of_not_mem (by decide) h
  unfold IsQuotation
  rw [Text.fields_of_not_mem hline]
  exact List.forall_mem_singleton.2 fun _ => rfl

theorem isQuotation_mark (h : '\n' ∉ line) : IsQuotation ('>' :: ' ' :: line) :=
  isQuotation_cons (List.not_mem_cons_of_ne_of_not_mem (by decide) h)

theorem isQuotation_quoteLine (h : '\n' ∉ line) : IsQuotation (quoteLine line) := by
  unfold quoteLine
  split
  · decide
  · exact isQuotation_mark h

end

theorem IsQuotation.append {s t : Text} (hs : IsQuotation s) (ht : IsQuotation t) :
    IsQuotation (s ++ '\n' :: t) := by
  unfold IsQuotation
  rw [Text.fields_append]
  exact List.forall_mem_append.2 ⟨hs, ht⟩

theorem isQuotation_join {lines : List Text} (h : ∀ line ∈ lines, IsQuotation line) :
    IsQuotation (Text.join ['\n'] lines) := by
  induction lines with
  | nil => exact isQuotation_nil
  | cons line rest ih =>
    obtain ⟨hline, hrest⟩ := List.forall_mem_cons.1 h
    cases rest with
    | nil => exact hline
    | cons next rest =>
      rw [Text.join_cons_of_ne_nil (List.cons_ne_nil next rest)]
      exact hline.append (ih hrest)

/-- What puts a mark before every line makes a quotation of any text. -/
theorem isQuotation_lines {f : Text → Text} (h : ∀ line, '\n' ∉ line → IsQuotation (f line))
    (t : Text) : IsQuotation (Text.join ['\n'] ((Text.fields '\n' t).map f)) := by
  refine isQuotation_join (List.forall_mem_map.2 fun line hline => ?_)
  exact h line (Text.not_mem_of_mem_fields hline)

theorem isQuotation_quote (t : Text) : IsQuotation (quote t) :=
  isQuotation_lines (fun _ => isQuotation_quoteLine) t

theorem isQuotation_quoteAll (t : Text) : IsQuotation (quoteAll t) :=
  isQuotation_lines (fun _ => isQuotation_mark) t

/-! ## Escaping -/

/-- Where a character stands when a text is read from the left and a backslash makes a pair with
whatever follows it. -/
inductive Standing where
  | first
  | second
  | alone
deriving DecidableEq, Repr

/-- The characters of a text with their standing; a backslash at the end has nothing to make a
pair with. -/
def standings : Text → List (Char × Standing)
  | [] => []
  | '\\' :: c :: rest => ('\\', .first) :: (c, .second) :: standings rest
  | c :: rest => (c, .alone) :: standings rest

/-- What is left without the first halves of pairs. -/
def dropFirsts (marks : List (Char × Standing)) : Text :=
  (marks.filter (·.2 ≠ .first)).map Prod.fst

theorem standings_cons {c : Char} (h : c ≠ '\\') (t : Text) :
    standings (c :: t) = (c, .alone) :: standings t := by
  rw [standings]
  rintro d rest rfl
  exact absurd rfl h

/-- Reading leaves nothing out. -/
theorem map_fst_standings (t : Text) : (standings t).map Prod.fst = t := by
  fun_induction standings t with
  | case1 => rfl
  | case2 c rest ih => rw [List.map_cons, List.map_cons, ih]
  | case3 c rest _ ih => rw [List.map_cons, ih]

/-- How one character of a text stands once it is escaped. -/
def escapedStandings (c : Char) : List (Char × Standing) :=
  if isSpecial c then [('\\', .first), (c, .second)] else [(c, .alone)]

/-- Pairs are not torn apart: no backslash of an escaped text takes what belongs to the next
character. -/
theorem standings_escape (t : Text) : standings (escape t) = t.flatMap escapedStandings := by
  induction t with
  | nil => rfl
  | cons c t ih =>
    have hcons : escape (c :: t) = (if isSpecial c then ['\\', c] else [c]) ++ escape t := rfl
    rw [hcons, List.flatMap_cons, ← ih, escapedStandings]
    by_cases hc : isSpecial c
    · rw [if_pos hc, if_pos hc]
      rfl
    · have hne : c ≠ '\\' := by
        rintro rfl
        exact hc rfl
      rw [if_neg hc, if_neg hc]
      exact standings_cons hne _

theorem dropFirsts_escapedStandings (t : Text) : dropFirsts (t.flatMap escapedStandings) = t := by
  have hone (c : Char) : dropFirsts (escapedStandings c) = [c] := by
    unfold escapedStandings
    split <;> rfl
  induction t with
  | nil => rfl
  | cons c t ih =>
    unfold dropFirsts at hone ih ⊢
    rw [List.flatMap_cons, List.filter_append, List.map_append, hone, ih, List.singleton_append]

/-- An escaped text holds a special character as the second half of a pair and nowhere else, but
for the backslashes that are first halves.  No backslash stands alone, and without the first
halves the text is the one that was escaped. -/
theorem escape_pairs (t : Text) :
    (standings (escape t)).map Prod.fst = escape t ∧
      (∀ c s, (c, s) ∈ standings (escape t) →
        (isSpecial c ↔ s = .second ∨ c = '\\' ∧ s = .first) ∧ (c = '\\' → s ≠ .alone)) ∧
      dropFirsts (standings (escape t)) = t := by
  refine ⟨map_fst_standings _, fun c s hmem => ?_, ?_⟩
  · rw [standings_escape] at hmem
    obtain ⟨d, _, hd⟩ := List.mem_flatMap.1 hmem
    unfold escapedStandings at hd
    split at hd
    · rename_i hspecial
      rcases List.mem_pair.1 hd with heq | heq <;> cases heq
      · exact ⟨⟨fun _ => .inr ⟨rfl, rfl⟩, fun _ => rfl⟩, nofun⟩
      · exact ⟨⟨fun _ => .inl rfl, fun _ => hspecial⟩, nofun⟩
    · rename_i hspecial
      cases List.mem_singleton.1 hd
      refine ⟨⟨fun h => absurd h hspecial, ?_⟩, ?_⟩
      · rintro (h | ⟨_, h⟩) <;> cases h
      · rintro rfl
        exact absurd rfl hspecial
  · rw [standings_escape]
    exact dropFirsts_escapedStandings t

end Markdown
end Marginalia
