import Marginalia.Proofs.Template.Depth
import Marginalia.Proofs.Template.Origin

/-
Which templates keep their tokens when they are written canonically.  The canonical
text leaves out the blanks that stood between the braces of a tag and a brace of its own,
and writes the key of a block without `if`; a template that was read without recovery
keeps its tokens exactly if neither changes what its tags say.
-/
namespace Marginalia

open Text (IsInner IsOuter)

namespace Token

/-- A token whose tags still say the same when they are written canonically. -/
def KeepsForm : Token → Prop
  | .text _ => True
  | .lookup _ fs => ∀ f ∈ fs.getLast?, f.getLast? ≠ some '}'
  | .block k _ => k.getLast? ≠ some '}' ∧ ¬ ['i', 'f', ' '] <+: k

instance (t : Token) : Decidable t.KeepsForm :=
  match t with
  | .text _ => isTrue trivial
  | .lookup _ fs => inferInstanceAs (Decidable (∀ f ∈ fs.getLast?, f.getLast? ≠ some '}'))
  | .block k _ => inferInstanceAs (Decidable (k.getLast? ≠ some '}' ∧ ¬ ['i', 'f', ' '] <+: k))

/-! ## Tags that are read -/

section

variable {inner key : Text}

theorem isLookup_of_read {filters : List Text} (hread : Tag.read inner = .lookup key filters)
    (hinner : inner.IsInner) (hkeeps : (Token.lookup key filters).KeepsForm) :
    IsLookup key filters := by
  have hparts : parts inner = key :: filters := Tag.says_of_read hread
  refine ⟨Tag.isIdentifier_of_read hread, fun f hf => ?_, hkeeps⟩
  have hmem : f ∈ parts inner := by
    rw [hparts]
    exact .tail _ hf
  obtain ⟨hne, hstrip, hbar, hpart⟩ := of_mem_parts hmem
  exact ⟨hne, hstrip, hbar, Text.holds_of_infix hpart hinner⟩

theorem isBlockKey_of_read {closing : Text} {body : List Token}
    (hread : Tag.read inner = .opener key closing) (hinner : inner.IsInner)
    (hkeeps : (Token.block key body).KeepsForm) : IsBlockKey key := by
  obtain ⟨k, hstrip, hopens⟩ := Tag.says_of_read hread
  obtain ⟨hne, htrimmed, hpart⟩ := hopens.key_of_strip
  have hk : k <:+: inner := by
    have := Text.strip_infix inner
    rw [hstrip] at this
    exact (List.suffix_cons '#' k).isInfix.trans this
  exact ⟨hne, htrimmed, Text.holds_of_infix (hpart.trans hk) hinner, hkeeps.1, hkeeps.2⟩

end

/-! ## Clean readings -/

theorem ReadFrom.head?_eq_text {ts : List Token} {ps : List Piece} {w : Text}
    (h : ReadFrom true ts ps) (hw : ts.head? = some (.text w)) : ps.head? = some (.text w) := by
  cases h with
  | nil => cases hw
  | text t _ =>
    cases hw
    rfl
  | recovered _ hclean _ => cases hclean
  | lookup => cases hw
  | block => cases hw

/-- What was read without recovery is canonical, where every token keeps its form. -/
theorem ReadFrom.areCanonical {root : Bool} {ts : List Token} {ps qs : List Piece}
    (h : ReadFrom true ts ps) (hend : EndsAt root qs) (hcut : Piece.AreCut (ps ++ qs))
    (hkeeps : ∀ u ∈ withins ts, u.KeepsForm) : AreCanonical root ts := by
  induction h generalizing root qs with
  | nil => trivial
  | recovered _ hclean _ _ => cases hclean
  | @text rest ps t h ih =>
    obtain ⟨hne, houter, hlast, hhead, hcut⟩ := hcut
    rw [withins_text, List.forall_mem_cons] at hkeeps
    refine ⟨⟨hne, houter⟩, ⟨fun w hw => ?_, fun hbrace => ?_⟩, ih hend hcut hkeeps.2⟩
    · have hps := h.head?_eq_text hw
      exact hhead w (List.mem_head?_append_of_mem_head? hps)
    · -- a text that ends in half of a brace has no piece behind it
      have hnil : ps ++ qs = [] := by
        by_contra hne'
        exact hlast hne' hbrace
      obtain ⟨rfl, rfl⟩ := List.append_eq_nil_iff.1 hnil
      refine ⟨?_, h.eq_nil⟩
      cases root with
      | true => rfl
      | false =>
        obtain ⟨_, _, heq⟩ := hend
        cases heq
  | @lookup rest ps inner key filters hread h ih =>
    obtain ⟨hinner, _, hcut⟩ := hcut
    rw [withins_lookup, List.forall_mem_cons] at hkeeps
    exact ⟨isLookup_of_read hread hinner hkeeps.1, trivial, ih hend hcut hkeeps.2⟩
  | @block body rest inside ps opener closer key closing hopener hbody hcloser h ihbody ih =>
    rw [List.cons_append, List.append_assoc, List.cons_append] at hcut
    obtain ⟨hinner, _, hcut⟩ := hcut
    have hafter := Piece.areCut_of_append hcut
    rw [withins_block, List.forall_mem_cons, List.forall_mem_append] at hkeeps
    obtain ⟨hkey, hinside, hrest⟩ := hkeeps
    exact ⟨⟨isBlockKey_of_read hopener hinner hkey, ihbody ⟨_, _, rfl⟩ hcut hinside⟩, trivial,
      ih hend hafter.2.2 hrest⟩

theorem ReadFrom.not_dangling {ts : List Token} {ps : List Piece} (h : ReadFrom true ts ps)
    (rest : Text) : .dangling rest ∉ ps := by
  induction h with
  | nil => nofun
  | recovered _ hclean _ _ => cases hclean
  | text t _ ih => exact List.not_mem_cons_of_ne_of_not_mem nofun ih
  | lookup _ _ ih => exact List.not_mem_cons_of_ne_of_not_mem nofun ih
  | block _ _ _ _ ihbody ih =>
    refine List.not_mem_cons_of_ne_of_not_mem nofun ?_
    rw [List.mem_append, not_or]
    exact ⟨ihbody, List.not_mem_cons_of_ne_of_not_mem nofun ih⟩

/-! ## Canonical texts that are read as they were -/

/-- Of two tags that the same text starts with, the first is no longer than the other. -/
theorem eq_of_tag_append {s t x y : Text} (hs : s.IsInner) (hlast : s.getLast? ≠ some '}')
    (hlen : t.length ≤ s.length) (h : tag s ++ x = tag t ++ y) : s = t ∧ x = y := by
  have hclose : s ++ ('}' :: '}' :: x) = t ++ ('}' :: '}' :: y) := by
    simpa [tag, tagOpen, tagClose] using h
  rcases List.append_eq_append_iff.1 hclose with ⟨z, rfl, hx⟩ | ⟨z, rfl, hy⟩
  · rw [List.length_append] at hlen
    obtain rfl : z = [] := List.eq_nil_of_length_eq_zero (by omega)
    cases hx
    exact ⟨(List.append_nil s).symm, rfl⟩
  · rcases z with _ | ⟨c, _ | ⟨d, z⟩⟩
    · cases hy
      exact ⟨List.append_nil t, rfl⟩
    · cases hy
      exact absurd List.getLast?_concat hlast
    · cases hy
      have hpair : tagClose <:+: t ++ '}' :: '}' :: z := ⟨t, z, by simp [tagClose]⟩
      rw [← Text.holds_iff_infix] at hpair
      exact Bool.noConfusion (hpair.symm.trans hs)

/-- Trimming the parts of a tag and leaving out the empty ones makes it no longer. -/
theorem length_join_parts (inner : Text) :
    (Text.join ['|'] (parts inner)).length ≤ inner.length := by
  suffices ∀ fs : List Text, (Text.join ['|'] ((fs.map Text.strip).filter (!·.isEmpty))).length ≤
      (Text.join ['|'] fs).length by
    have h := this (Text.fields '|' inner)
    rwa [Text.join_fields] at h
  intro fs
  induction fs with
  | nil => exact Nat.le_refl _
  | cons f rest ih =>
    have hf := (Text.strip_infix f).length_le
    rw [List.map_cons, List.filter_cons]
    cases rest with
    | nil =>
      split
      · exact hf
      · exact Nat.zero_le _
    | cons g rest =>
      rw [Text.join_cons_of_ne_nil (List.cons_ne_nil g rest), List.length_append,
        List.length_cons]
      split
      · have := Text.length_join_cons_le '|' (Text.strip f)
          (((g :: rest).map Text.strip).filter (!·.isEmpty))
        omega
      · omega

theorem keepsForm_of_parts {inner key : Text} {filters : List Text}
    (hparts : parts inner = key :: filters) (hinner : inner = Text.join ['|'] (key :: filters))
    (hlast : inner.getLast? ≠ some '}') : (Token.lookup key filters).KeepsForm := by
  intro f hf hbrace
  have hne : ∀ g ∈ key :: filters, g ≠ [] := by
    intro g hg
    rw [← hparts] at hg
    exact (of_mem_parts hg).1
  have hfilters : filters ≠ [] := by
    rintro rfl
    cases hf
  rw [hinner, Text.getLast?_join hne, List.getLast?_cons_of_ne_nil hfilters, hf] at hlast
  exact hlast hbrace

section

variable {opener closer key closing x y : Text}

/-- The tag that opens a block is its canonical one only if it has the whole key. -/
theorem eq_of_opener_append (hread : Tag.read opener = .opener key closing)
    (hinner : opener.IsInner) (hlast : opener.getLast? ≠ some '}')
    (heq : tag opener ++ x = tag ('#' :: key) ++ y) (body : List Token) :
    closing = key ∧ (Token.block key body).KeepsForm ∧ x = y := by
  obtain ⟨k, hstrip, hopens⟩ := Tag.says_of_read hread
  obtain ⟨hne, _, hpart⟩ := hopens.key_of_strip
  have hk := hpart.length_le
  have hlen := (Text.strip_infix opener).length_le
  rw [hstrip, List.length_cons] at hlen
  obtain ⟨rfl, hxy⟩ := eq_of_tag_append hinner hlast (by rw [List.length_cons]; omega) heq
  rw [List.getLast?_cons_of_ne_nil hne] at hlast
  rw [List.length_cons] at hlen
  obtain ⟨hif, hclosing⟩ := hopens.plain_of_length (by omega)
  exact ⟨hclosing, ⟨hlast, hif⟩, hxy⟩

theorem eq_of_closer_append (hread : Tag.read closer = .closer key) (hinner : closer.IsInner)
    (hlast : closer.getLast? ≠ some '}') (heq : tag closer ++ x = tag ('/' :: key) ++ y) :
    x = y := by
  obtain ⟨k, hstrip, rfl⟩ := Tag.says_of_read hread
  have hk := (Text.strip_infix k).length_le
  have hlen := (Text.strip_infix closer).length_le
  rw [hstrip, List.length_cons] at hlen
  exact (eq_of_tag_append hinner hlast (by rw [List.length_cons]; omega) heq).2

end

/-- Where tokens come from their own canonical text, nothing was left out of their
tags. -/
theorem ReadFrom.keepsForm {clean : Bool} {ts : List Token} {ps : List Piece}
    (h : ReadFrom clean ts ps) (hps : Piece.AreClosed ps) {x y : Text}
    (heq : Piece.sources ps ++ x = canonicals ts ++ y) :
    x = y ∧ ∀ u ∈ withins ts, u.KeepsForm := by
  induction h generalizing x y with
  | nil => exact ⟨heq, nofun⟩
  | text t _ ih =>
    rw [Piece.sources, canonicals, canonical, Piece.source, List.append_assoc,
      List.append_assoc, List.append_right_inj] at heq
    rw [withins_text, List.forall_mem_cons]
    obtain ⟨hxy, hrest⟩ := ih (fun inner hmem => hps inner (.tail _ hmem)) heq
    exact ⟨hxy, trivial, hrest⟩
  | recovered lost _ _ ih =>
    rw [Piece.sources_append, canonicals, canonical, List.append_assoc, List.append_assoc,
      List.append_right_inj] at heq
    rw [withins_text, List.forall_mem_cons]
    obtain ⟨hxy, hrest⟩ := ih (fun inner hmem => hps inner (List.mem_append_right _ hmem)) heq
    exact ⟨hxy, trivial, hrest⟩
  | @lookup rest ps inner key filters hread _ ih =>
    have hparts : parts inner = key :: filters := Tag.says_of_read hread
    obtain ⟨hinner, hlast⟩ := hps inner (.head _)
    have hlen := length_join_parts inner
    rw [hparts] at hlen
    rw [Piece.sources, canonicals, canonical, Piece.source, List.append_assoc,
      List.append_assoc] at heq
    obtain ⟨htag, heq⟩ := eq_of_tag_append hinner hlast hlen heq
    rw [withins_lookup, List.forall_mem_cons]
    obtain ⟨hxy, hrest⟩ := ih (fun inner hmem => hps inner (.tail _ hmem)) heq
    exact ⟨hxy, keepsForm_of_parts hparts htag hlast, hrest⟩
  | @block body rest inside ps opener closer key closing hopener _ hcloser _ ihbody ih =>
    have hwithin : Piece.AreClosed inside :=
      fun inner hmem => hps inner (.tail _ (List.mem_append_left _ hmem))
    have hbehind : Piece.AreClosed (.tag closer :: ps) :=
      fun inner hmem => hps inner (.tail _ (List.mem_append_right _ hmem))
    rw [Piece.sources, Piece.sources_append, Piece.sources, canonicals, canonical, Piece.source,
      Piece.source] at heq
    simp only [List.append_assoc] at heq
    obtain ⟨hinner, hlast⟩ := hps opener (.head _)
    obtain ⟨rfl, hblock, heq⟩ := eq_of_opener_append hopener hinner hlast heq body
    obtain ⟨heq, hbody⟩ := ihbody hwithin heq
    obtain ⟨hinner', hlast'⟩ := hbehind closer (.head _)
    have heq := eq_of_closer_append hcloser hinner' hlast' heq
    obtain ⟨hxy, hrest⟩ := ih (fun inner hmem => hbehind inner (.tail _ hmem)) heq
    rw [withins_block, List.forall_mem_cons, List.forall_mem_append]
    exact ⟨hxy, hblock, hbody, hrest⟩

end Token

/-! ## Templates -/

namespace Parsed

open Token (withins canonicals)

variable {limit : Int} {template : Text}

theorem ofTemplate_of_keepsForm (h : (ofTemplate limit template).anomalies = [])
    (hkeeps : ∀ u ∈ withins (tokenize limit template), u.KeepsForm) :
    ofTemplate limit (canonicals (tokenize limit template)) = ⟨tokenize limit template, []⟩ := by
  have hread := readFrom_ofTemplate limit template
  rw [h] at hread
  have hcut : Piece.AreCut (Piece.ofTemplate template ++ []) := by
    rw [List.append_nil]
    exact Piece.areCut_ofTemplate hread.not_dangling
  have hcanonical : Token.AreCanonical true (tokenize limit template) :=
    hread.areCanonical (rfl : Token.EndsAt true []) hcut hkeeps
  have hdepth : Token.depths (tokenize limit template) ≤ limit.toNat :=
    depths_ofTemplate limit template
  rw [ofTemplate_toNat]
  unfold ofTemplate
  have hroom : ((0 : Nat) : Int) + Token.depths (tokenize limit template) ≤ limit.toNat := by
    omega
  rw [Token.pieces_canonicals hcanonical,
    Reading.steps_piecesOf limit.toNat {} 0 _ hcanonical hroom]
  simp [finish]

end Parsed

/-- Tokens that were read without recovery are read again from their canonical text
exactly if every one of them keeps its form. -/
theorem tokenize_canonicals_iff {limit : Int} {template : Text}
    (h : (Parsed.ofTemplate limit template).anomalies = []) :
    tokenize limit (Token.canonicals (tokenize limit template)) = tokenize limit template ↔
      ∀ u ∈ Token.withins (tokenize limit template), u.KeepsForm := by
  constructor
  · intro heq
    have hread := Parsed.readFrom_ofTemplate limit (Token.canonicals (tokenize limit template))
    rw [show (Parsed.ofTemplate limit (Token.canonicals (tokenize limit template))).tokens =
      tokenize limit template from heq] at hread
    refine (hread.keepsForm (Piece.areClosed_ofTemplate _) (x := []) (y := []) ?_).2
    rw [Piece.sources_ofTemplate]
  · intro hkeeps
    show (Parsed.ofTemplate limit (Token.canonicals (tokenize limit template))).tokens = _
    rw [Parsed.ofTemplate_of_keepsForm h hkeeps]

/-- Blanks, empty parts and braces in places where they do no harm. -/
def untidy : Text :=
  "\x7b\x7b #if  \x7bnote \x7d\x7d\x7b\x7b note | |dateFormat:\x7bYYYY\x7d- \x7d\x7d.\x7b \x7b\x7b/ if \x7d\x7d".toList

theorem tokenize_canonicals_untidy :
    (Parsed.ofTemplate 1 untidy).anomalies = [] ∧
      tokenize 1 (Token.canonicals (tokenize 1 untidy)) = tokenize 1 untidy := by
  have h : (Parsed.ofTemplate 1 untidy).anomalies = [] := by decide +kernel
  exact ⟨h, (tokenize_canonicals_iff h).2 (by decide +kernel)⟩

/-- A mask in braces at the end of a tag, kept from the braces of the tag by a blank. -/
def masked : Text :=
  "\x7b\x7bdatetime|dateFormat:\x7bYYYY\x7d \x7d\x7d".toList

/-- The canonical text loses the blank, and the last brace of the mask with it. -/
theorem tokenize_canonicals_masked :
    (Parsed.ofTemplate 1 masked).anomalies = [] ∧
      tokenize 1 (Token.canonicals (tokenize 1 masked)) ≠ tokenize 1 masked := by
  constructor
  · decide +kernel
  · decide +kernel

end Marginalia
