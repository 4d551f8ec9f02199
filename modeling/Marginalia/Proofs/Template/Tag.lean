import Marginalia.Proofs.Text.Cut
import Marginalia.Template.Tag

/-
What a tag asks for, by its inner text.  Blanks around the parts of a tag never
count.
-/
namespace Marginalia
namespace Token

/-- The parts between bars, trimmed, without the empty ones. -/
def parts (inner : Text) : List Text :=
  ((Text.fields '|' inner).map Text.strip).filter (!·.isEmpty)

/-- A part of a tag: trimmed, not empty, without a bar, and a stretch of the tag. -/
theorem of_mem_parts {f inner : Text} (h : f ∈ parts inner) :
    f ≠ [] ∧ Text.strip f = f ∧ '|' ∉ f ∧ f <:+: inner := by
  obtain ⟨hmem, hne⟩ := List.mem_filter.1 h
  obtain ⟨g, hg, rfl⟩ := List.mem_map.1 hmem
  refine ⟨by simpa using hne, Text.strip_strip g, ?_, ?_⟩
  · exact fun hbar => Text.not_mem_of_mem_fields hg ((Text.strip_infix g).subset hbar)
  · exact (Text.strip_infix g).trans (Text.infix_of_mem_fields hg)

/-- The key and the closer of a block whose opener asks for `written`. -/
inductive Opens : Text → Text → Text → Prop where
  | plain {key : Text} (hne : key ≠ []) (hif : ¬ ['i', 'f', ' '] <+: key) : Opens key key key
  | conditional {rest : Text} (hne : Text.strip rest ≠ []) :
    Opens ('i' :: 'f' :: ' ' :: rest) (Text.strip rest) ['i', 'f']

/-- The key of a block: trimmed, not empty, and a stretch of what was written. -/
theorem Opens.key_of_strip {written key closing : Text}
    (h : Opens (Text.strip written) key closing) :
    key ≠ [] ∧ Text.strip key = key ∧ key <:+: written := by
  have hpart := Text.strip_infix written
  have htrimmed := Text.strip_strip written
  generalize Text.strip written = u at h hpart htrimmed
  cases h with
  | plain hne _ => exact ⟨hne, htrimmed, hpart⟩
  | @conditional rest hne =>
    refine ⟨hne, Text.strip_strip rest, (Text.strip_infix rest).trans ?_⟩
    exact (List.suffix_append ['i', 'f', ' '] rest).isInfix.trans hpart

/-- A key as long as what was written for it was written without `if`. -/
theorem Opens.plain_of_length {written key closing : Text}
    (h : Opens (Text.strip written) key closing) (hlen : written.length ≤ key.length) :
    ¬ ['i', 'f', ' '] <+: key ∧ closing = key := by
  have hstrip := (Text.strip_infix written).length_le
  generalize Text.strip written = u at h hstrip
  cases h with
  | plain _ hif => exact ⟨hif, rfl⟩
  | @conditional rest _ =>
    have hrest := (Text.strip_infix rest).length_le
    simp only [List.length_cons] at hstrip
    omega

end Token

namespace Tag

theorem ofBlockKey_of_if (rest : Text) : ofBlockKey ('i' :: 'f' :: ' ' :: rest) =
    if (Text.strip rest).isEmpty then .keyless else .opener (Text.strip rest) ['i', 'f'] :=
  rfl

theorem ofBlockKey_of_not_if {key : Text} (h : ¬ ['i', 'f', ' '] <+: key) :
    ofBlockKey key = if key.isEmpty then .keyless else .opener key key := by
  unfold ofBlockKey
  split
  · exact absurd ⟨_, rfl⟩ h
  · rfl

theorem ofBlockKey_of_opens {written key closing : Text}
    (h : Token.Opens written key closing) : ofBlockKey written = .opener key closing := by
  cases h with
  | plain hne hif =>
    rw [ofBlockKey_of_not_if hif]
    exact if_neg (by simpa using hne)
  | conditional hne =>
    rw [ofBlockKey_of_if]
    exact if_neg (by simpa using hne)

theorem keyless_or_opens (written : Text) : ofBlockKey written = .keyless ∨
    ∃ key closing, Token.Opens written key closing ∧
      ofBlockKey written = .opener key closing := by
  have hopens : ∀ {key closing}, Token.Opens written key closing →
      ∃ key closing, Token.Opens written key closing ∧
        ofBlockKey written = .opener key closing :=
    fun h => ⟨_, _, h, ofBlockKey_of_opens h⟩
  by_cases hif : ['i', 'f', ' '] <+: written
  · obtain ⟨rest, rfl⟩ := hif
    by_cases hne : Text.strip rest = []
    · left
      show ofBlockKey ('i' :: 'f' :: ' ' :: rest) = .keyless
      rw [ofBlockKey_of_if, hne]
      rfl
    · exact .inr (hopens (.conditional hne))
  · by_cases hne : written = []
    · left
      rw [hne]
      rfl
    · exact .inr (hopens (.plain hne hif))

theorem ofLookup_eq (body : Text) : ofLookup body =
    match Token.parts body with
    | [] => .malformed
    | key :: filters => if Text.isIdentifier key then .lookup key filters else .malformed :=
  rfl

/-- What is known of the inner text of a tag that was read. -/
def Says (inner : Text) : Tag → Prop
  | .opener key closing =>
    ∃ k, Text.strip inner = '#' :: k ∧ Token.Opens (Text.strip k) key closing
  | .closer key => ∃ k, Text.strip inner = '/' :: k ∧ Text.strip k = key
  | .lookup key filters => Token.parts inner = key :: filters
  | .keyless | .malformed => True

theorem says_ofBlockKey {inner k : Text} (h : Text.strip inner = '#' :: k) :
    Says inner (ofBlockKey (Text.strip k)) := by
  rcases keyless_or_opens (Text.strip k) with hkeyless | ⟨key, closing, hopens, heq⟩
  · rw [hkeyless]
    trivial
  · rw [heq]
    exact ⟨k, h, hopens⟩

theorem says_ofLookup (inner : Text) : Says inner (ofLookup (Text.strip inner)) := by
  have hparts : Token.parts (Text.strip inner) = Token.parts inner := by
    unfold Token.parts
    rw [Text.map_strip_fields_strip (by decide)]
  rw [ofLookup_eq, hparts]
  split
  · trivial
  · rename_i key filters hkey
    split
    · exact hkey
    · trivial

theorem says_read (inner : Text) : Says inner (read inner) := by
  unfold read
  split
  · rename_i k h
    exact says_ofBlockKey h
  · rename_i k h
    exact ⟨k, h, rfl⟩
  · exact says_ofLookup inner

theorem says_of_read {inner : Text} {tag : Tag} (h : read inner = tag) : Says inner tag :=
  h ▸ says_read inner

theorem isIdentifier_of_read {inner key : Text} {filters : List Text}
    (h : read inner = .lookup key filters) : Text.isIdentifier key := by
  have hblock : ∀ written, ofBlockKey written ≠ .lookup key filters := by
    intro written heq
    rcases keyless_or_opens written with hkeyless | ⟨k, closing, _, hopener⟩
    · rw [hkeyless] at heq
      cases heq
    · rw [hopener] at heq
      cases heq
  unfold read at h
  split at h
  · exact absurd h (hblock _)
  · cases h
  · rw [ofLookup_eq] at h
    split at h
    · cases h
    · split at h
      · rename_i hkey
        cases h
        exact hkey
      · cases h

end Tag
end Marginalia
