import Marginalia.Proofs.Highlight.Breaks
import Marginalia.Proofs.Record

/-
Gaps between the highlights of a group.  Each gap is shown by one mark with a paragraph break
right before it and right behind it, and however many blank highlights stand between gaps, no
break is written twice.
-/
namespace Marginalia

namespace Group

open Highlight

variable {out block : Text}

/-! ## What stands between two blocks -/

/-- What stands for a separator behind the text so far: a space, or a mark between breaks, the
first of which is not written where it stands already. -/
def IsSeam (before : Text) : Separator → Text → Prop
  | .contiguous, seam => seam = [' ']
  | .gap, seam => ∃ lead, seam = lead ++ gapMark ++ paragraphBreak ∧
    paragraphBreak <:+ before ++ lead ∧
    (lead = [] ∨ lead = paragraphBreak ∧ ¬ paragraphBreak <:+ before)

/-- A first block, and each further one behind its seam. -/
def sewn (first : Text) (pieces : List (Text × Text)) : Text :=
  first ++ pieces.flatMap fun (seam, block) => seam ++ block

/-- A text that is made of the blocks in their order, with a seam between two of them as their
separator has it; where there is no separator the blocks are contiguous. -/
def IsSewn (blocks : List Text) (seps : List Separator) (t : Text) : Prop :=
  ∃ first pieces, blocks = first :: pieces.map Prod.snd ∧ t = sewn first pieces ∧
    ∀ front seam block back, pieces = front ++ (seam, block) :: back →
      IsSeam (sewn first front) (seps.getD front.length .contiguous) seam

theorem sewn_cons (out seam block : Text) (pieces : List (Text × Text)) :
    sewn out ((seam, block) :: pieces) = sewn (out ++ seam ++ block) pieces := by
  unfold sewn
  rw [List.flatMap_cons]
  simp only [List.append_assoc]

theorem exists_seam (out : Text) (s : Separator) (block : Text) :
    ∃ seam, IsSeam out s seam ∧ joinBlock out s block = out ++ seam ++ block := by
  cases s with
  | contiguous => exact ⟨[' '], rfl, (List.append_assoc out [' '] block).symm⟩
  | gap =>
    unfold joinBlock
    dsimp only
    split
    · rename_i hbreak
      rw [List.isSuffixOf_iff_suffix] at hbreak
      refine ⟨_, ⟨[], rfl, ?_, .inl rfl⟩, ?_⟩
      · rwa [List.append_nil]
      · simp only [List.nil_append, List.append_assoc]
    · rename_i hbreak
      rw [List.isSuffixOf_iff_suffix] at hbreak
      refine ⟨_, ⟨paragraphBreak, rfl, List.suffix_append _ _, .inr ⟨rfl, hbreak⟩⟩, ?_⟩
      simp only [List.append_assoc]

theorem exists_pieces (out : Text) (blocks : List Text) (seps : List Separator) :
    ∃ pieces, blocks = pieces.map Prod.snd ∧ joinFrom out blocks seps = sewn out pieces ∧
      ∀ front seam block back, pieces = front ++ (seam, block) :: back →
        IsSeam (sewn out front) (seps.getD front.length .contiguous) seam := by
  induction blocks generalizing out seps with
  | nil => exact ⟨[], rfl, (List.append_nil out).symm, fun _ _ _ _ h => by simp at h⟩
  | cons b rest ih =>
    obtain ⟨seam, hseam, hjoin⟩ := exists_seam out (seps.getD 0 .contiguous) b
    obtain ⟨pieces, hrest, hmore, hseams⟩ := ih (out ++ seam ++ b) seps.tail
    have hstep : joinFrom out (b :: rest) seps = joinFrom (out ++ seam ++ b) rest seps.tail := by
      rw [← hjoin]
      cases seps <;> rfl
    refine ⟨(seam, b) :: pieces, by rw [hrest]; rfl, ?_, fun front seam' block back heq => ?_⟩
    · rw [hstep, hmore, sewn_cons]
    · cases front with
      | nil =>
        cases heq
        rwa [sewn, List.flatMap_nil, List.append_nil]
      | cons p front =>
        cases heq
        have := hseams front seam' block back rfl
        rw [sewn_cons, List.length_cons]
        cases seps with
        | nil => exact this
        | cons s seps => exact this

theorem isSewn_joinBlocks {blocks : List Text} (hne : blocks ≠ []) (seps : List Separator) :
    IsSewn blocks seps (joinBlocks blocks seps) := by
  obtain ⟨b, rest, rfl⟩ := List.exists_cons_of_ne_nil hne
  obtain ⟨pieces, hrest, hjoin, hseams⟩ := exists_pieces b rest seps
  exact ⟨b, pieces, by rw [hrest], hjoin, hseams⟩

/-! ## Breaks that are not doubled -/

/-- The text so far has no three breaks in a row, and ends in a break between paragraphs if it
ends in a break. -/
structure IsSpaced (out : Text) : Prop where
  isCalm : IsCalm out
  stop : lineBreak <:+ out → paragraphBreak <:+ out

theorem isSpaced_of_isBlock (h : IsBlock block) : IsSpaced block :=
  ⟨h.isCalm, fun hbreak => absurd hbreak h.stop⟩

theorem IsSpaced.append_seam {seam : Text} {s : Separator} (hout : IsSpaced out)
    (hseam : IsSeam out s seam) (hblock : IsBlock block) : IsSpaced (out ++ seam ++ block) := by
  cases s with
  | contiguous =>
    obtain rfl : seam = [' '] := hseam
    rw [List.append_assoc]
    refine ⟨hout.isCalm.across (by decide) hblock.isCalm, fun hbreak => ?_⟩
    exact absurd hbreak (not_suffix_across (by decide) hblock.stop out)
  | gap =>
    obtain ⟨lead, rfl, _, hlead⟩ := hseam
    have hbefore : IsCalm (out ++ lead) := by
      rcases hlead with rfl | ⟨rfl, hnew⟩
      · rw [List.append_nil]
        exact hout.isCalm
      · exact hout.isCalm.append_break fun hbreak => hnew (hout.stop hbreak)
    have hafter : IsCalm ("...]".toList ++ (paragraphBreak ++ block)) :=
      .behind (by decide) (hblock.isCalm.break_append hblock.start)
    have hparts : out ++ (lead ++ gapMark ++ paragraphBreak) ++ block =
        out ++ lead ++ gapMark ++ (paragraphBreak ++ block) := by
      simp only [List.append_assoc]
    rw [hparts]
    constructor
    · rw [List.append_assoc]
      exact hbefore.across (by decide) hafter
    · intro hbreak
      by_cases hblank : block = []
      · rw [hblank, List.append_nil]
        exact List.suffix_append _ _
      · exact absurd hbreak (not_suffix_behind_break hblank hblock.stop _)

theorem isSpaced_joinBlocks {blocks : List Text} (hne : blocks ≠ [])
    (hblocks : ∀ b ∈ blocks, IsBlock b) (seps : List Separator) :
    IsSpaced (joinBlocks blocks seps) := by
  refine joinBlocks_induction (fun _ => isSpaced_of_isBlock) (fun out s b hout hb => ?_) hne
    hblocks seps
  obtain ⟨seam, hseam, hjoin⟩ := exists_seam out s b
  rw [hjoin]
  exact hout.append_seam hseam hb

/-! ## The texts of a group -/

theorem plainText_isBlock (v : Value) : Ensures (fun _ => True) IsBlock (plainText v) := by
  unfold plainText
  split
  · exact isBlock_joinParagraphs _
  · trivial

/-- Blocks, joined, have a seam for each separator and no three breaks in a row. -/
theorem sewn_of_each {f : Annotation → Except Fault Text}
    {each : List Annotation → Except Fault (List Text)} (hnil : each [] = .ok [])
    (hcons : ∀ a as, each (a :: as) = f a >>= fun t => each as >>= fun ts => .ok (t :: ts))
    (hf : ∀ a, Ensures (fun _ => True) IsBlock (f a)) {as : List Annotation} (hne : as ≠ [])
    {blocks : List Text} (h : each as = .ok blocks) (seps : List Separator) :
    IsCalm (joinBlocks blocks seps) ∧ IsSewn blocks seps (joinBlocks blocks seps) := by
  obtain ⟨hlength, hblocks⟩ := (ensures_each each hnil hcons fun a _ => hf a).of_eq_ok h
  have hne' : blocks ≠ [] := by
    rintro rfl
    exact hne (List.length_eq_zero_iff.1 hlength.symm)
  exact ⟨(isSpaced_joinBlocks hne' hblocks seps).isCalm, isSewn_joinBlocks hne' seps⟩

end Group

namespace Record

open Highlight

/-- A group whose annotations hold texts, if anything, has a record.  Its highlight and its plain
highlight are the texts of its annotations with a space between two of them, or for a gap one
mark right between breaks, and nowhere are there three line breaks in a row. -/
theorem gaps_between_breaks (hex : Text) (g : Group) (first : Bool) :
    (g.annotations ≠ [] → (∀ a ∈ g.annotations, a.text.IsWritten ∧ a.IsReadable) →
      ∃ r, ofGroup hex g first = .ok r) ∧
    ∀ r, ofGroup hex g first = .ok r →
      ∃ styled plain, Group.styledTexts g.annotations = .ok styled ∧
        Group.plainTexts g.annotations = .ok plain ∧
        (IsCalm r.highlight ∧ Group.IsSewn styled g.separators r.highlight) ∧
        (IsCalm r.highlightPlain ∧ Group.IsSewn plain g.separators r.highlightPlain) := by
  refine ⟨fun hne h => ?_, fun r hr => ?_⟩
  · exact exists_ofGroup_of_written hne (fun a ha => (h a ha).1) fun a ha => (h a ha).2
  · obtain ⟨styled, plain, hstyled, hplain, hhighlight, hhighlightPlain⟩ := texts_of_ofGroup hr
    obtain ⟨_, head, rest, hcons, _⟩ := hasHead_of_ofGroup hr
    have hne : g.annotations ≠ [] := hcons ▸ List.cons_ne_nil head rest
    refine ⟨styled, plain, hstyled, hplain, ?_, ?_⟩
    · rw [hhighlight]
      exact Group.sewn_of_each rfl (fun _ _ => rfl)
        (fun a => style_isBlock a.text a.color a.drawer) hne hstyled g.separators
    · rw [hhighlightPlain]
      exact Group.sewn_of_each rfl (fun _ _ => rfl) (fun a => Group.plainText_isBlock a.text) hne
        hplain g.separators

/-- Two blank highlights between gaps, fewer separators than there are seams, and a text that
looks like a gap itself. -/
def patchyGroup : Group where
  annotations :=
    [{ text := .text "one\\two".toList, drawer := .text "underscore".toList },
     { text := .text " ".toList, color := .text "red".toList },
     { text := .text "\\".toList },
     { text := .text "three\n\n[...]\n\nfour".toList, drawer := .text "invert".toList }]
  separators := [.gap, .gap]

def patchyText : Text :=
  "<u>one<br><br>two</u><br><br>[...]<br><br>[...]<br><br> ".toList ++
    "<mark style=\"background:transparent;color:var(--text-accent);\">".toList ++
    "three\n\n[...]\n\nfour</mark>".toList

def patchyPlain : Text :=
  "one\\two<br><br>[...]<br><br>[...]<br><br>\\ three<br><br>[...]<br><br>four".toList

theorem gaps_between_breaks_patchyGroup :
    ∃ r, ofGroup [] patchyGroup true = .ok r ∧ r.highlight = patchyText ∧
      r.highlightPlain = patchyPlain ∧ IsCalm patchyText ∧ IsCalm patchyPlain ∧
      ∃ styled, Group.IsSewn styled [.gap, .gap] patchyText := by
  obtain ⟨hmade, hgaps⟩ := gaps_between_breaks [] patchyGroup true
  have hreadable : ∀ a ∈ patchyGroup.annotations, a.text.IsWritten ∧ a.IsReadable := by
    have htext (t : Text) : (Value.text t).IsWritten := .inr ⟨t, rfl⟩
    have hnone : Value.null.IsWritten := .inl rfl
    refine List.forall_mem_cons.2 ⟨⟨htext _, hnone, htext _, hnone⟩, ?_⟩
    refine List.forall_mem_cons.2 ⟨⟨htext _, htext _, htext _, hnone⟩, ?_⟩
    refine List.forall_mem_cons.2 ⟨⟨htext _, hnone, htext _, hnone⟩, ?_⟩
    exact List.forall_mem_singleton.2 ⟨htext _, hnone, htext _, hnone⟩
  obtain ⟨r, hr⟩ := hmade (by decide) hreadable
  obtain ⟨styled, plain, hstyled, hplain, ⟨hcalm, hsewn⟩, hcalmPlain, _⟩ := hgaps r hr
  obtain ⟨_, _, hstyled', hplain', hhighlight, hhighlightPlain⟩ := texts_of_ofGroup hr
  have hjoined : (Group.styledTexts patchyGroup.annotations).map
      (Group.joinBlocks · patchyGroup.separators) = .ok patchyText := by decide +kernel
  have hjoinedPlain : (Group.plainTexts patchyGroup.annotations).map
      (Group.joinBlocks · patchyGroup.separators) = .ok patchyPlain := by decide +kernel
  rw [hstyled'] at hjoined
  rw [hplain'] at hjoinedPlain
  have htext : r.highlight = patchyText := hhighlight.trans (Except.ok.inj hjoined)
  have htextPlain : r.highlightPlain = patchyPlain :=
    hhighlightPlain.trans (Except.ok.inj hjoinedPlain)
  rw [htext] at hcalm hsewn
  rw [htextPlain] at hcalmPlain
  exact ⟨r, hr, htext, htextPlain, hcalm, hcalmPlain, styled, hsewn⟩

end Record
end Marginalia
