import Marginalia.Proofs.Template.Stability

/-
Blocks are put together from their bodies.  Pieces that are read without recovery by
themselves are read the same way inside any open blocks, as long as these leave room for the
blocks in them.  So a body between two tags that belong together is the body of one block,
in whichever of the two forms the tags are written.
-/
namespace Marginalia

/-! ## Reading inside open blocks -/

namespace Reading

open Token (ReadFrom depth depths)

/-- Pieces that tokens come from add these tokens to the sequence that is open. -/
theorem steps_of_readFrom {limit : Int} {ts : List Token} {ps : List Piece}
    (h : ReadFrom true ts ps) {r : Reading} (hdepth : r.frames.length + depths ts ≤ limit)
    (offset : Nat) : r.steps limit offset ps = { r with body := ts.reverse ++ r.body } := by
  induction h generalizing r offset with
  | nil => rfl
  | recovered _ hclean _ _ => cases hclean
  | @text rest ps t _ ih =>
    rw [depths] at hdepth
    rw [steps]
    show (r.push (.text t)).steps limit _ ps = _
    rw [ih (by simp only [push]; omega)]
    simp [push]
  | @lookup rest ps inner key filters hread _ ih =>
    rw [depths] at hdepth
    rw [steps, step_lookup limit r offset hread, ih (by simp only [push]; omega)]
    simp [push]
  | @block body rest inside ps opener closer key closing hopener _ hcloser _ ihbody ih =>
    rw [depths, depth] at hdepth
    -- the body is read in the frame of its opener, which is on top again at its closer
    have hopen : r.step limit offset (.tag opener) =
        { r with body := [], frames := ⟨key, closing, offset, r.body⟩ :: r.frames } := by
      rw [step_opener limit r offset hopener]
      exact if_neg (by omega)
    rw [steps, hopen, steps_append, ihbody (by simp only [List.length_cons]; omega), steps,
      step_closer limit _ _ hcloser]
    simp only [closeBlock, if_true, List.append_nil, List.reverse_reverse]
    rw [ih (by dsimp only; omega)]
    simp

end Reading

/-! ## Tags of a block -/

namespace Token.IsBlockKey

variable {key : Text}

/-- A word is written as a key just as it is read. -/
theorem of_isIdentifier (h : Text.isIdentifier key) : IsBlockKey key := by
  have hlookup : IsLookup key [] := ⟨h, nofun, nofun⟩
  obtain ⟨hne, htrimmed, _, hinner⟩ := hlookup.isFilter_key
  refine ⟨hne, htrimmed, hinner, ?_, ?_⟩
  · intro hlast
    have hword := hlookup.isWord_of_mem (List.mem_of_mem_getLast? hlast)
    exact Text.ne_mark_of_isWord hword (by decide) rfl
  · intro hif
    have hword := hlookup.isWord_of_mem (hif.subset (by simp : ' ' ∈ ['i', 'f', ' ']))
    exact Text.ne_mark_of_isWord hword (by decide) rfl

/-- The tags of a block start with a sign that is no brace. -/
theorem isClosed (h : IsBlockKey key) {c : Char} (hc : c ≠ '}') :
    Text.IsInner (c :: key) ∧ (c :: key).getLast? ≠ some '}' :=
  ⟨isInner_cons hc h.inner, getLast?_cons_ne h.ne_nil h.last⟩

theorem getLast?_conditional (h : IsBlockKey key) :
    ("#if ".toList ++ key).getLast? = key.getLast? :=
  List.getLast?_append_of_ne_nil _ h.ne_nil

theorem isClosed_conditional (h : IsBlockKey key) :
    Text.IsInner ("#if ".toList ++ key) ∧ ("#if ".toList ++ key).getLast? ≠ some '}' := by
  refine ⟨?_, ?_⟩
  · have hspaced : Text.IsInner (' ' :: key) := isInner_cons (by decide) h.inner
    have hif : Text.IsInner ('i' :: 'f' :: ' ' :: key) :=
      isInner_cons (by decide) (isInner_cons (by decide) hspaced)
    exact isInner_cons (by decide) hif
  · rw [h.getLast?_conditional]
    exact h.last

theorem read_conditional (h : IsBlockKey key) :
    Tag.read ("#if ".toList ++ key) = .opener key "if".toList := by
  have hlast : ∀ c ∈ key.getLast?, Text.isSpace c = false := (Text.tight_iff.2 h.trimmed).last
  have hwritten : Text.Tight ('i' :: 'f' :: ' ' :: key) := by
    refine ⟨fun c hc => ?_, fun c hc => hlast c ?_⟩
    · obtain rfl : 'i' = c := Option.some.inj hc
      decide
    · rwa [← List.getLast?_append_of_ne_nil ['i', 'f', ' '] h.ne_nil]
  have hstrip : Text.strip ("#if ".toList ++ key) = '#' :: 'i' :: 'f' :: ' ' :: key :=
    (hwritten.cons (by decide) (List.cons_ne_nil _ _)).strip_eq
  unfold Tag.read
  rw [hstrip]
  show Tag.ofBlockKey (Text.strip ('i' :: 'f' :: ' ' :: key)) = _
  rw [hwritten.strip_eq, Tag.ofBlockKey_of_if, h.trimmed]
  exact if_neg (by simpa using h.ne_nil)

end Token.IsBlockKey

/-! ## Blocks of a template -/

namespace Piece

theorem areCut_append_tag {ps : List Piece} {inner : Text} (h : AreCut ps)
    (hlast : (sources ps).getLast? ≠ some '{') (hinner : inner.IsInner)
    (hbrace : inner.getLast? ≠ some '}') : AreCut (ps ++ [.tag inner]) := by
  induction ps with
  | nil => exact ⟨hinner, hbrace, trivial⟩
  | cons p rest ih =>
    rw [sources, List.getLast?_append] at hlast
    have hrest : (sources rest).getLast? ≠ some '{' := by
      intro hsome
      rw [hsome] at hlast
      exact hlast rfl
    cases p with
    | dangling _ => exact h.elim
    | tag other => exact ⟨h.1, h.2.1, ih h.2.2 hrest⟩
    | text t =>
      obtain ⟨hne, houter, hmiddle, hhead, htail⟩ := h
      refine ⟨hne, houter, fun _ => ?_, fun u => ?_, ih htail hrest⟩
      · cases rest with
        | nil => exact hlast
        | cons q rest => exact hmiddle (List.cons_ne_nil q rest)
      · cases rest with
        | nil => nofun
        | cons q rest => exact hhead u

/-- A template whose tags are all closed, between two tags. -/
theorem ofTemplate_between {opener closer body : Text}
    (hopen : opener.IsInner ∧ opener.getLast? ≠ some '}')
    (hclose : closer.IsInner ∧ closer.getLast? ≠ some '}')
    (hbody : ∀ rest, .dangling rest ∉ ofTemplate body) (hlast : body.getLast? ≠ some '{') :
    ofTemplate (Token.tag opener ++ body ++ Token.tag closer) =
      .tag opener :: (ofTemplate body ++ [.tag closer]) := by
  have hcut : AreCut (.tag opener :: (ofTemplate body ++ [.tag closer])) := by
    rw [← sources_ofTemplate body] at hlast
    exact ⟨hopen.1, hopen.2,
      areCut_append_tag (areCut_ofTemplate hbody) hlast hclose.1 hclose.2⟩
  rw [← ofTemplate_sources hcut, sources, sources_append, sources_ofTemplate]
  simp [sources, source]

end Piece

namespace Parsed

variable {limit : Int} {body : Text}

theorem readFrom_of_clean (h : (ofTemplate limit body).anomalies = []) :
    Token.ReadFrom true (tokenize limit body) (Piece.ofTemplate body) := by
  have hread := readFrom_ofTemplate limit body
  rwa [h] at hread

/-- A body that is read without recovery is the body of the block that two tags make of it. -/
theorem ofTemplate_block {opener closer key closing : Text}
    (hopener : Tag.read opener = .opener key closing) (hcloser : Tag.read closer = .closer closing)
    (hopen : opener.IsInner ∧ opener.getLast? ≠ some '}')
    (hclose : closer.IsInner ∧ closer.getLast? ≠ some '}') (hlimit : 1 ≤ limit)
    (hclean : (ofTemplate (limit - 1) body).anomalies = []) (hlast : body.getLast? ≠ some '{') :
    ofTemplate limit (Token.tag opener ++ body ++ Token.tag closer) =
      ⟨[.block key (tokenize (limit - 1) body)], []⟩ := by
  have hread := readFrom_of_clean hclean
  have hpieces := Piece.ofTemplate_between hopen hclose hread.not_dangling hlast
  have hblock : Token.ReadFrom true [.block key (tokenize (limit - 1) body)]
      (.tag opener :: (Piece.ofTemplate body ++ [.tag closer])) :=
    .block hopener hread hcloser .nil
  have hdepth : Token.depths (tokenize (limit - 1) body) ≤ (limit - 1).toNat :=
    depths_ofTemplate (limit - 1) body
  have hroom : ((0 : Nat) : Int) +
      Token.depths [.block key (tokenize (limit - 1) body)] ≤ limit := by
    simp only [Token.depths, Token.depth]
    omega
  show finish _ (Reading.steps limit {} 0 (Piece.ofTemplate _)) = _
  rw [hpieces, Reading.steps_of_readFrom hblock hroom]
  rfl

/-- A block on a word is the same in both forms, and has the tokens of its body in it. -/
theorem ofTemplate_both_forms {key : Text} (hlimit : 1 ≤ limit) (hkey : Text.isIdentifier key)
    (hclean : (ofTemplate (limit - 1) body).anomalies = []) (hlast : body.getLast? ≠ some '{') :
    ofTemplate limit (Token.tag ('#' :: key) ++ body ++ Token.tag ('/' :: key)) =
        ⟨[.block key (tokenize (limit - 1) body)], []⟩ ∧
      ofTemplate limit (Token.tag ("#if ".toList ++ key) ++ body ++ Token.tag "/if".toList) =
        ⟨[.block key (tokenize (limit - 1) body)], []⟩ := by
  have hk := Token.IsBlockKey.of_isIdentifier hkey
  have hif := Token.IsBlockKey.of_isIdentifier (by decide +kernel : Text.isIdentifier "if".toList)
  constructor
  · exact ofTemplate_block hk.read_opener hk.read_closer (hk.isClosed (by decide))
      (hk.isClosed (by decide)) hlimit hclean hlast
  · exact ofTemplate_block hk.read_conditional hif.read_closer hk.isClosed_conditional
      (hif.isClosed (by decide)) hlimit hclean hlast

/-- A block on `if` in the longer form, which holds one in the shorter form. -/
def sameKeyBody : Text :=
  "\x7d \x7b\x7b#if if\x7d\x7da\x7b\x7b#if\x7d\x7db\x7b\x7b/if\x7d\x7d\x7b\x7b/if\x7d\x7d".toList

theorem ofTemplate_both_forms_sameKey :
    ((ofTemplate (3 - 1) sameKeyBody).anomalies = [] ∧ sameKeyBody.getLast? ≠ some '{') ∧
      ofTemplate 3 (Token.tag "#if".toList ++ sameKeyBody ++ Token.tag "/if".toList) =
          ⟨[.block "if".toList (tokenize (3 - 1) sameKeyBody)], []⟩ ∧
        ofTemplate 3 (Token.tag "#if if".toList ++ sameKeyBody ++ Token.tag "/if".toList) =
          ⟨[.block "if".toList (tokenize (3 - 1) sameKeyBody)], []⟩ := by
  have hclean : (ofTemplate (3 - 1) sameKeyBody).anomalies = [] := by decide +kernel
  have hlast : sameKeyBody.getLast? ≠ some '{' := by decide
  exact ⟨⟨hclean, hlast⟩, ofTemplate_both_forms (by decide) (by decide +kernel) hclean hlast⟩

end Parsed
end Marginalia
