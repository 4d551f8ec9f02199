import Marginalia.Proofs.Template.Block

/-
Blanks behind the `if` of a block.  The longer form of an opener is known by `if` and a space,
looked for when the tag is already trimmed: a space in front of the key makes it, whatever
blanks follow.  Any other blank becomes a part of the key, which `/if` does not close; and
where no key follows, the trimmed tag is the opener of a block on `if`.
-/
namespace Marginalia

theorem Text.not_mem_of_isBlank {w : Text} {c : Char} (h : isBlank w)
    (hc : isSpace c = false) : c ∉ w := by
  intro hmem
  have hspace := List.all_eq_true.1 h c hmem
  rw [hc] at hspace
  cases hspace

/-! ## Openers -/

namespace Tag

open Token (IsBlockKey)

variable {w key : Text}

/-- The opener of a block in the longer form, with blanks in front of the key. -/
def conditional (w key : Text) : Text := "#if".toList ++ w ++ key

theorem conditional_isClosed (hw : Text.isBlank w) (hkey : key = [] ∨ Text.isIdentifier key) :
    (conditional w key).IsInner ∧ (conditional w key).getLast? ≠ some '}' := by
  have hbrace : '}' ∉ conditional w key := by
    unfold conditional
    rw [List.mem_append, List.mem_append, not_or, not_or]
    refine ⟨⟨by decide, Text.not_mem_of_isBlank hw (by decide)⟩, ?_⟩
    rcases hkey with rfl | hkey
    · exact List.not_mem_nil
    · intro hmem
      have hlookup : Token.IsLookup key [] := ⟨hkey, nofun, nofun⟩
      exact Text.ne_mark_of_isWord (hlookup.isWord_of_mem hmem) (by decide) rfl
  exact ⟨Text.holds_of_not_mem hbrace, fun h => hbrace (List.mem_of_getLast? h)⟩

theorem read_conditional_nil (hw : Text.isBlank w) :
    read (conditional w []) = .opener "if".toList "if".toList := by
  have hstrip : Text.strip (conditional w []) = Text.strip "#if".toList := by
    unfold conditional
    rw [List.append_nil, Text.strip_append_right hw]
  unfold read
  rw [hstrip]
  rfl

/-- A tag that ends with a key is trimmed, so that its blanks stand where they are looked for. -/
theorem read_conditional_key (h : IsBlockKey key) :
    read (conditional w key) = ofBlockKey ('i' :: 'f' :: (w ++ key)) := by
  have hlast : ∀ c ∈ key.getLast?, Text.isSpace c = false := (Text.tight_iff.2 h.trimmed).last
  have hwritten : Text.Tight ('i' :: 'f' :: (w ++ key)) := by
    refine ⟨fun c hc => ?_, fun c hc => hlast c ?_⟩
    · obtain rfl : 'i' = c := Option.some.inj hc
      decide
    · rwa [← List.getLast?_append_of_ne_nil ('i' :: 'f' :: w) h.ne_nil]
  have hstrip : Text.strip (conditional w key) = '#' :: 'i' :: 'f' :: (w ++ key) := by
    have htight := hwritten.cons (by decide : Text.isSpace '#' = false) (List.cons_ne_nil _ _)
    simpa [conditional] using htight.strip_eq
  unfold read
  rw [hstrip]
  show ofBlockKey (Text.strip ('i' :: 'f' :: (w ++ key))) = _
  rw [hwritten.strip_eq]

theorem read_conditional_space (hw : Text.isBlank w) (h : IsBlockKey key) :
    read (conditional (' ' :: w) key) = .opener key "if".toList := by
  rw [read_conditional_key h]
  show ofBlockKey ('i' :: 'f' :: ' ' :: (w ++ key)) = _
  rw [ofBlockKey_of_if, Text.strip_append_left hw, h.trimmed]
  exact if_neg (by simpa using h.ne_nil)

theorem read_conditional_other (hw : w.head? ≠ some ' ') (h : IsBlockKey key)
    (hkey : key.head? ≠ some ' ') :
    read (conditional w key) = .opener ('i' :: 'f' :: (w ++ key)) ('i' :: 'f' :: (w ++ key)) := by
  have hif : ¬ ['i', 'f', ' '] <+: 'i' :: 'f' :: (w ++ key) := by
    intro hstart
    obtain ⟨rest, hrest⟩ := hstart
    simp only [List.cons_append, List.nil_append, List.cons.injEq, true_and] at hrest
    cases w with
    | nil =>
      rw [List.nil_append] at hrest
      rw [← hrest] at hkey
      exact hkey rfl
    | cons c w =>
      rw [List.cons_append, List.cons.injEq] at hrest
      rw [← hrest.1] at hw
      exact hw rfl
  rw [read_conditional_key h, ofBlockKey_of_not_if hif]
  rfl

end Tag

/-! ## Blocks -/

namespace Parsed

open Tag (conditional)

variable {limit : Int} {body w key : Text}

/-- A block is given up where its last tag does not belong to it. -/
theorem ofTemplate_unclosed {opener closer key closing other : Text}
    (hopener : Tag.read opener = .opener key closing) (hcloser : Tag.read closer = .closer other)
    (hother : closing ≠ other) (hopen : opener.IsInner ∧ opener.getLast? ≠ some '}')
    (hclose : closer.IsInner ∧ closer.getLast? ≠ some '}') (hlimit : 1 ≤ limit)
    (hclean : (ofTemplate (limit - 1) body).anomalies = []) (hlast : body.getLast? ≠ some '{') :
    ofTemplate limit (Token.tag opener ++ body ++ Token.tag closer) =
      ⟨[.text (Token.tag opener ++ body ++ Token.tag closer)],
        [⟨.strayCloser, (Token.tag opener ++ body).length, Token.tag closer⟩,
          ⟨.unclosedBlock, 0, Token.tag opener ++ body ++ Token.tag closer⟩]⟩ := by
  have hread := readFrom_of_clean hclean
  have hpieces := Piece.ofTemplate_between hopen hclose hread.not_dangling hlast
  have hdepth : Token.depths (tokenize (limit - 1) body) ≤ (limit - 1).toNat :=
    depths_ofTemplate (limit - 1) body
  have hfirst : Reading.step limit {} 0 (.tag opener) =
      { body := [], frames := [⟨key, closing, 0, []⟩], anomalies := [] } := by
    rw [Reading.step_opener limit {} 0 hopener]
    exact if_neg (by simp only [List.length_nil]; omega)
  have hroom : ((1 : Nat) : Int) + Token.depths (tokenize (limit - 1) body) ≤ limit := by omega
  unfold ofTemplate
  rw [hpieces, Reading.steps, hfirst, Reading.steps_append,
    Reading.steps_of_readFrom hread (by simpa using hroom), Reading.steps,
    Reading.step_closer limit _ _ hcloser, Piece.sources_ofTemplate]
  simp [Reading.closeBlock, hother, Reading.recover, Reading.steps, finish, Piece.source]

/-- What stands between `#if`, blanks and a key, or none, and `/if`: a block on the key if the
first of the blanks is a space, a block on `if` without a key, and else no block at all. -/
theorem ofTemplate_conditional (hlimit : 1 ≤ limit) (hw : Text.isBlank w)
    (hkey : key = [] ∨ Text.isIdentifier key)
    (hclean : (ofTemplate (limit - 1) body).anomalies = []) (hlast : body.getLast? ≠ some '{') :
    ofTemplate limit (Token.tag (conditional w key) ++ body ++ Token.tag "/if".toList) =
      if key = [] then ⟨[.block "if".toList (tokenize (limit - 1) body)], []⟩
      else if w.head? = some ' ' then ⟨[.block key (tokenize (limit - 1) body)], []⟩
      else
        ⟨[.text (Token.tag (conditional w key) ++ body ++ Token.tag "/if".toList)],
          [⟨.strayCloser, (Token.tag (conditional w key) ++ body).length,
              Token.tag "/if".toList⟩,
            ⟨.unclosedBlock, 0,
              Token.tag (conditional w key) ++ body ++ Token.tag "/if".toList⟩]⟩ := by
  have hif := Token.IsBlockKey.of_isIdentifier (by decide +kernel : Text.isIdentifier "if".toList)
  have hclose := hif.isClosed (by decide : '/' ≠ '}')
  have hopen := Tag.conditional_isClosed hw hkey
  rcases hkey with rfl | hkey
  · rw [if_pos rfl]
    exact ofTemplate_block (Tag.read_conditional_nil hw) hif.read_closer hopen hclose hlimit
      hclean hlast
  · have hk := Token.IsBlockKey.of_isIdentifier hkey
    rw [if_neg hk.ne_nil]
    by_cases hspace : w.head? = some ' '
    · obtain ⟨rest, rfl⟩ := List.head?_eq_some_iff.1 hspace
      rw [if_pos hspace]
      exact ofTemplate_block (Tag.read_conditional_space (Text.isBlank_cons.1 hw).2 hk)
        hif.read_closer hopen hclose hlimit hclean hlast
    · rw [if_neg hspace]
      have hhead : key.head? ≠ some ' ' := by
        intro hhead
        have := (Text.tight_iff.2 hk.trimmed).head ' ' hhead
        cases this
      have hne : 'i' :: 'f' :: (w ++ key) ≠ "if".toList := by
        intro heq
        have hnil : w ++ key = [] := by simpa using heq
        exact hk.ne_nil (List.append_eq_nil_iff.1 hnil).2
      exact ofTemplate_unclosed (Tag.read_conditional_other hspace hk hhead) hif.read_closer
        hne hopen hclose hlimit hclean hlast

/-- A space and a tab in front of the key, a tab alone, and no key at all. -/
theorem ofTemplate_conditional_tabs :
    (ofTemplate (3 - 1) sameKeyBody).anomalies = [] ∧
      ofTemplate 3 (Token.tag "#if \tnote".toList ++ sameKeyBody ++ Token.tag "/if".toList) =
        ⟨[.block "note".toList (tokenize (3 - 1) sameKeyBody)], []⟩ ∧
      tokenize 3 (Token.tag "#if\tnote".toList ++ sameKeyBody ++ Token.tag "/if".toList) =
        [.text (Token.tag "#if\tnote".toList ++ sameKeyBody ++ Token.tag "/if".toList)] ∧
      ofTemplate 3 (Token.tag "#if\t".toList ++ sameKeyBody ++ Token.tag "/if".toList) =
        ⟨[.block "if".toList (tokenize (3 - 1) sameKeyBody)], []⟩ := by
  have hclean : (ofTemplate (3 - 1) sameKeyBody).anomalies = [] := by decide +kernel
  have hlast : sameKeyBody.getLast? ≠ some '{' := by decide
  have hnote : "note".toList = [] ∨ Text.isIdentifier "note".toList := .inr (by decide +kernel)
  have hspace := ofTemplate_conditional (by decide) (by decide : Text.isBlank " \t".toList) hnote
    hclean hlast
  have htab := ofTemplate_conditional (by decide) (by decide : Text.isBlank "\t".toList) hnote
    hclean hlast
  have hnone := ofTemplate_conditional (by decide) (by decide : Text.isBlank "\t".toList)
    (.inl rfl) hclean hlast
  exact ⟨hclean, hspace, congrArg Parsed.tokens htab, hnone⟩

/-- A tab in front of the key leaves the block open, and without a key nothing is refused. -/
theorem conditional_misread_blanks :
    ofTemplate 20 "\x7b\x7b#if\tx\x7d\x7dy\x7b\x7b/if\x7d\x7d".toList ≠
        ⟨[.block "x".toList [.text "y".toList]], []⟩ ∧
      (ofTemplate 20 "\x7b\x7b#if \x7d\x7dy\x7b\x7b/if\x7d\x7d".toList).anomalies = [] := by
  constructor
  · decide +kernel
  · decide +kernel

end Parsed
end Marginalia
