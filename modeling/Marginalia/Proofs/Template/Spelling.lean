import Marginalia.Proofs.Template.Keys
import Marginalia.Proofs.Template.Lines

/-
Templates with the same tokens.  They put out the same variables, and differ in nothing but who
quotes a note, which is read off the lines of a template and not off its tokens.  So they render
to the same where their tags keep their lines, or where no note is put out; and in any case one
of them renders as the other does with the note already quoted.
-/
namespace Marginalia

/-- A note with the mark of a quotation in front of each of its lines. -/
def Quoting.quoted (note : Text) : Text := if note.isEmpty then [] else Markdown.quoteAll note

theorem Quoting.isEmpty_quoted (note : Text) : (quoted note).isEmpty = note.isEmpty := by
  unfold quoted
  cases note with
  | nil => rfl
  | cons c rest =>
    have hne : Markdown.quoteAll (c :: rest) ≠ [] := by
      refine Text.join_ne_nil (by simp [Text.fields_ne_nil]) fun line hline => ?_
      obtain ⟨_, _, rfl⟩ := List.mem_map.1 hline
      exact List.cons_ne_nil _ _
    simpa using hne

/-- The same values, with another note. -/
def Bindings.withNote (b : Bindings) (note : Text) : Bindings :=
  fun key => if key = "note".toList then .text note else b key

namespace Compiled

variable {c c' : Compiled} {b : Bindings}

theorem rendersAs_of_quoting (htokens : c.tokens = c'.tokens)
    (h : c.quoting = c'.quoting ∨ ∀ filters, .lookup "note".toList filters ∉ Token.withins c.tokens)
    (b : Bindings) : c.RendersAs b c' b := by
  refine rendersAs_of_emissions (congrArg (Emission.ofTokens b) htokens) fun key filters hmem => ?_
  rw [variableText, variableText]
  by_cases hkey : key = "note".toList
  · rw [if_pos hkey, if_pos hkey]
    rcases h with hquoting | hnone
    · rw [hquoting]
    · rw [hkey] at hmem
      exact absurd (Emission.mem_withins_of_ofTokens hmem) (hnone filters)
  · rw [if_neg hkey, if_neg hkey]

/-- A template that quotes the note renders as one that does not, given a note that is quoted
already. -/
theorem rendersAs_quoted (htokens : c.tokens = c'.tokens) (hc : c.quoting = .auto)
    (hc' : c'.quoting = .manual) {note : Text} (hnote : b "note".toList = .text note) :
    c.RendersAs b c' (b.withNote (Quoting.quoted note)) := by
  have htruthy : ∀ k ∈ Token.keys c.tokens,
      (b k).isTruthy = (b.withNote (Quoting.quoted note) k).isTruthy := by
    intro k _
    rw [Bindings.withNote]
    by_cases hk : k = "note".toList
    · rw [if_pos hk, hk, hnote]
      exact congrArg not (Quoting.isEmpty_quoted note).symm
    · rw [if_neg hk]
  have hes : c.emissions b = c'.emissions (b.withNote (Quoting.quoted note)) := by
    rw [emissions, emissions, ← htokens, Emission.ofTokens_congr htruthy]
  refine rendersAs_of_emissions hes fun key filters _ => ?_
  rw [variableText, variableText, Bindings.withNote]
  by_cases hkey : key = "note".toList
  · rw [if_pos hkey, if_pos hkey, if_pos hkey, hkey, hnote, hc, hc']
    rfl
  · rw [if_neg hkey, if_neg hkey, if_neg hkey]

/-- Templates with the same tokens render to the same on every record, where no note is put out
or the tags of both keep their lines.  And where the note is a text, they render to the same, or
one of them as the other does with the note quoted. -/
theorem rendersAs_of_tokenize {limit : Int} {t t' : Text}
    (h : tokenize limit t = tokenize limit t') :
    ((∀ filters, .lookup "note".toList filters ∉ Token.withins (tokenize limit t)) ∨
        Piece.KeepLines (Piece.ofTemplate t) ∧ Piece.KeepLines (Piece.ofTemplate t') →
      ∀ b, (ofTemplate limit t).RendersAs b (ofTemplate limit t') b) ∧
    ∀ (b : Bindings) note, b "note".toList = .text note →
      (ofTemplate limit t).RendersAs b (ofTemplate limit t') b ∨
      (ofTemplate limit t).RendersAs b (ofTemplate limit t')
        (b.withNote (Quoting.quoted note)) ∨
      (ofTemplate limit t').RendersAs b (ofTemplate limit t)
        (b.withNote (Quoting.quoted note)) := by
  have htokens : (ofTemplate limit t).tokens = (ofTemplate limit t').tokens := h
  refine ⟨fun hkept b => rendersAs_of_quoting htokens ?_ b, fun b note hnote => ?_⟩
  · rcases hkept with hnone | ⟨ht, ht'⟩
    · exact .inr hnone
    · left
      show Quoting.ofTemplate t = Quoting.ofTemplate t'
      rw [Quoting.ofTemplate_eq_canonicals limit ht, Quoting.ofTemplate_eq_canonicals limit ht', h]
  · cases hq : (ofTemplate limit t).quoting with
    | auto =>
      cases hq' : (ofTemplate limit t').quoting with
      | auto => exact .inl (rendersAs_of_quoting htokens (.inl (hq.trans hq'.symm)) b)
      | manual => exact .inr (.inl (rendersAs_quoted htokens hq hq' hnote))
    | manual =>
      cases hq' : (ofTemplate limit t').quoting with
      | auto => exact .inr (.inr (rendersAs_quoted htokens.symm hq' hq hnote))
      | manual => exact .inl (rendersAs_of_quoting htokens (.inl (hq.trans hq'.symm)) b)

/-- A quoted note, with a bar in front of it and without. -/
def barredNote : Text := "> \x7b\x7b|note\x7d\x7d".toList

def plainNote : Text := "> \x7b\x7bnote\x7d\x7d".toList

/-- A quoted note and a block, with blanks and an empty part. -/
def spacedNote : Text :=
  "> \x7b\x7b note | |upper \x7d\x7d\n\x7b\x7b #if  chapter\x7d\x7d.\x7b\x7b/ if \x7d\x7d".toList

/-- The same, written canonically. -/
def tidyNote : Text :=
  "> \x7b\x7bnote|upper\x7d\x7d\n\x7b\x7b#chapter\x7d\x7d.\x7b\x7b/chapter\x7d\x7d".toList

theorem rendersAs_of_tokenize_spacedNote :
    (tokenize 1 spacedNote = tokenize 1 tidyNote ∧
      Piece.KeepLines (Piece.ofTemplate spacedNote) ∧ Piece.KeepLines (Piece.ofTemplate tidyNote) ∧
      ∀ b, (ofTemplate 1 spacedNote).RendersAs b (ofTemplate 1 tidyNote) b) ∧
    tokenize 1 plainNote = tokenize 1 barredNote ∧
      ∀ (b : Bindings) note, b "note".toList = .text note →
        (ofTemplate 1 plainNote).RendersAs b (ofTemplate 1 barredNote) b ∨
        (ofTemplate 1 plainNote).RendersAs b (ofTemplate 1 barredNote)
          (b.withNote (Quoting.quoted note)) ∨
        (ofTemplate 1 barredNote).RendersAs b (ofTemplate 1 plainNote)
          (b.withNote (Quoting.quoted note)) := by
  have hspaced : tokenize 1 spacedNote = tokenize 1 tidyNote := by decide +kernel
  have hbarred : tokenize 1 plainNote = tokenize 1 barredNote := by decide +kernel
  have hlines : Piece.KeepLines (Piece.ofTemplate spacedNote) ∧
      Piece.KeepLines (Piece.ofTemplate tidyNote) := by decide +kernel
  exact ⟨⟨hspaced, hlines.1, hlines.2, (rendersAs_of_tokenize hspaced).1 (.inr hlines)⟩,
    hbarred, (rendersAs_of_tokenize hbarred).2⟩

def shortNote : Record := { note := "hi".toList }

/-- A bar in front of the note makes no difference to the tokens, but to the text. -/
theorem not_rendersAs_barredNote :
    tokenize 20 barredNote = tokenize 20 plainNote ∧
      (ofTemplate 20 barredNote).render shortNote.bindings = .ok "> > hi".toList ∧
      (ofTemplate 20 plainNote).render shortNote.bindings = .ok "> hi".toList := by
  refine ⟨?_, ?_, ?_⟩
  · decide +kernel
  · decide +kernel
  · decide +kernel

end Compiled
end Marginalia
