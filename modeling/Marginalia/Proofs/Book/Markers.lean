import Marginalia.Book
import Marginalia.Proofs.Annotation.Chapter
import Marginalia.Proofs.Annotation.Group
import Marginalia.Proofs.Marker.BlankLines
import Marginalia.Proofs.Marker.Payload
import Marginalia.Proofs.Render

/-
A book with markers and without.  Markers stand on lines of their own in front of
blocks, behind a blank line or at the start, so the line breaks that are left when they
are removed do not show.
-/
namespace Marginalia
namespace Book

open Marker (lines wrap word replace collapseBlankLines removeAll IsWhole NoEnd)

variable {style : MarkerStyle} {sep t t' : Text} {ts ts' : List Text}

/-! ## Blocks and breaks -/

/-- A break starts and ends with line breaks, has a blank line at its end, and holds
nothing of markers. -/
structure IsBreak (sep : Text) : Prop where
  exists_middle : ∃ middle, sep = '\n' :: (middle ++ ['\n']) ∧ Text.holds word middle = false
  exists_before : ∃ before, sep = before ++ ['\n', '\n']

theorem isBreak_blockBreak : IsBreak blockBreak :=
  ⟨⟨[], rfl, by decide⟩, ⟨[], rfl⟩⟩

theorem isBreak_dividerBreak : IsBreak dividerBreak :=
  ⟨⟨"\n---\n".toList, rfl, by decide⟩, ⟨"\n\n---".toList, rfl⟩⟩

/-- A block with markers in front, and the same block without. -/
def Marked (style : MarkerStyle) (t' t : Text) : Prop :=
  Text.holds word t = false ∧ ∃ p ps, (∀ q ∈ p :: ps, IsWhole q) ∧
    t' = wrap style p ++ (lines style ps ++ '\n' :: t)

theorem IsBreak.holds_append (h : IsBreak sep) (ht : Text.holds word t = false) {u : Text}
    (hu : Text.holds word u = false) : Text.holds word (t ++ (sep ++ u)) = false := by
  obtain ⟨middle, rfl, hmiddle⟩ := h.exists_middle
  rw [List.cons_append, List.append_assoc, List.singleton_append]
  exact Text.holds_across (by decide) ht (Text.holds_across (by decide) hmiddle hu)

/-- Without markers there are none in the document either. -/
theorem holds_blocks (h : IsBreak sep) (hts : ∀ t ∈ ts, Text.holds word t = false)
    (ht : Text.holds word t = false) : Text.holds word (t ++ ts.flatMap (sep ++ ·)) = false := by
  induction ts generalizing t with
  | nil => rwa [List.flatMap_nil, List.append_nil]
  | cons u ts ih =>
    obtain ⟨hu, hts⟩ := List.forall_mem_cons.1 hts
    rw [List.flatMap_cons, List.append_assoc]
    exact h.holds_append ht (ih hts hu)

/-- Of the markers of a block the line breaks behind them are left. -/
theorem replace_marked (h : Marked style t' t) (rest : Text) : ∃ k,
    replace (fun _ _ => []) (t' ++ rest) =
      List.replicate k '\n' ++ replace (fun _ _ => []) (t ++ rest) := by
  obtain ⟨_, p, ps, hps, rfl⟩ := h
  obtain ⟨hp, hps⟩ := List.forall_mem_cons.1 hps
  refine ⟨ps.length + 1, ?_⟩
  rw [List.append_assoc, List.append_assoc, Marker.replace_wrap hp, List.nil_append,
    Marker.replace_lines hps, List.cons_append, Marker.replace_cons rfl, List.replicate_succ',
    List.append_assoc]
  rfl

theorem Marked.atOpening (h : Marked style t' t) (rest : Text) : Marker.AtOpening (t' ++ rest) := by
  obtain ⟨_, p, ps, _, rfl⟩ := h
  rw [List.append_assoc]
  exact Marker.atOpening_wrap style p _

/-- Behind a break line breaks do not show. -/
theorem collapse_behind_break (h : IsBreak sep) (x : Text) (k : Nat) (y : Text) :
    collapseBlankLines (x ++ (sep ++ (List.replicate k '\n' ++ y))) =
      collapseBlankLines (x ++ (sep ++ y)) := by
  obtain ⟨before, rfl⟩ := h.exists_before
  induction k with
  | zero => rfl
  | succ k ih =>
    have hextra := Marker.collapse_extra_break (x ++ before) (List.replicate k '\n' ++ y)
    simp only [List.append_assoc, List.cons_append, List.nil_append, List.replicate_succ] at *
    rw [hextra, ih]

/-- Behind whatever stands first, blocks are the same with markers removed. -/
theorem collapse_blocks (hsep : IsBreak sep) (h : List.Forall₂ (Marked style) ts' ts) (x : Text)
    (ht : Text.holds word t = false) :
    collapseBlankLines (x ++ replace (fun _ _ => []) (t ++ ts'.flatMap (sep ++ ·))) =
      collapseBlankLines (x ++ (t ++ ts.flatMap (sep ++ ·))) := by
  -- `t` is the block before, whose text is scanned together with the break behind it; once
  -- its break is dealt with it goes over to `x`
  induction h generalizing x t with
  | nil => rw [List.flatMap_nil, List.append_nil, Marker.replace_eq_self ht]
  | @cons u' u ts' ts hu _ ih =>
    have hplain : Text.holds word (t ++ sep) = false := by
      have := hsep.holds_append ht (u := []) (by decide)
      rwa [List.append_nil] at this
    obtain ⟨k, hk⟩ := replace_marked hu (ts'.flatMap (sep ++ ·))
    have hreplace : replace (fun _ _ => []) (t ++ (u' :: ts').flatMap (sep ++ ·)) =
        t ++ (sep ++ (List.replicate k '\n' ++
          replace (fun _ _ => []) (u ++ ts'.flatMap (sep ++ ·)))) := by
      rw [List.flatMap_cons, List.append_assoc, ← List.append_assoc t,
        Marker.replace_text hplain (hu.atOpening _), hk, List.append_assoc]
    have hrest := ih (x ++ (t ++ sep)) hu.1
    rw [hreplace, ← List.append_assoc x, collapse_behind_break hsep]
    simp only [List.append_assoc, List.flatMap_cons] at hrest ⊢
    exact hrest

theorem holds_of_marked (h : List.Forall₂ (Marked style) ts' ts) :
    ∀ t ∈ ts, Text.holds word t = false := by
  induction h with
  | nil => nofun
  | cons ht _ ih => exact List.forall_mem_cons.2 ⟨ht.1, ih⟩

/-- A document of marked blocks is the same as one without markers once these are removed
and it is trimmed. -/
theorem strip_removeAll_join (hsep : IsBreak sep) (h : List.Forall₂ (Marked style) ts' ts) :
    Text.strip (removeAll (Text.join sep ts')) = Text.strip (removeAll (Text.join sep ts)) := by
  have hplain := holds_of_marked h
  cases h with
  | nil => rfl
  | @cons u' u ts' ts hu h =>
    obtain ⟨hu', hts⟩ := List.forall_mem_cons.1 hplain
    obtain ⟨k, hk⟩ := replace_marked hu (ts'.flatMap (sep ++ ·))
    have hblank : Text.isBlank (List.replicate k '\n') := by
      refine List.all_eq_true.2 fun c hc => ?_
      rw [List.eq_of_mem_replicate hc]
      decide
    rw [Text.join_cons, Text.join_cons]
    unfold removeAll
    rw [hk, Marker.strip_collapse_of_isBlank hblank,
      Marker.replace_eq_self (holds_blocks hsep hts hu')]
    exact congrArg Text.strip (collapse_blocks hsep h [] hu')

/-! ## The two runs -/

variable {hexes : Nat → Text} {compiled : Bindings → Render Text} {grouper : Grouper}
  {unknown : Text} {cmp : Chapter.Comparison} {as : List Annotation}

/-- A marker can be written for an annotation, and no payload ends inside it. -/
def CanBeMarked (a : Annotation) : Prop := a.IsMarkable NoEnd ∧ a.IsWorded

/-- A group that is not empty gets markers in front of its block. -/
theorem exists_withMarkers (style : MarkerStyle) {g : Group} (hne : g.annotations ≠ [])
    (hg : ∀ a ∈ g.annotations, CanBeMarked a) (ht : Text.holds word t = false) :
    ∃ t', withMarkers (some style) g t = .ok t' ∧ Marked style t' t := by
  obtain ⟨ps, hps⟩ := Marker.exists_payloads fun a ha => (hg a ha).1.isData (hg a ha).2
  have hcreate := hps.createAll style
  have hwhole := hps.isWhole fun a ha => (hg a ha).1
  cases ps with
  | nil => exact absurd (List.forall₂_nil_right_iff.1 hps) hne
  | cons p ps =>
    refine ⟨_, ?_, ht, p, ps, hwhole, rfl⟩
    show (Marker.createAll style g.annotations >>= fun m => .ok (m ++ '\n' :: t)) = _
    rw [hcreate, List.map_cons, Text.join_cons]
    exact congrArg Except.ok (List.append_assoc ..)

/-- What a render function never returns is not in the text of a group. -/
theorem renderGroup_agrees {P : Text → Prop}
    (h : ∀ b s t s', (compiled b).Returns s t s' → P t) (g : Group) (first : Bool) :
    Render.Agree (fun t u => t = u ∧ P t) (renderGroup hexes compiled g first)
      (renderGroup hexes compiled g first) := by
  refine .self fun s t s' ht => ?_
  obtain ⟨_, _, _, ht⟩ := Render.returns_bind.1 ht
  obtain ⟨_, _, _, ht⟩ := Render.returns_bind.1 ht
  obtain ⟨_, _, _, ht⟩ := Render.returns_bind.1 ht
  exact h _ _ t s' ht

theorem run_agrees {steps : List BookStep}
    (hcompiled : ∀ b s t s', (compiled b).Returns s t s' → Text.holds word t = false)
    (hsteps : ∀ g first, .block g first ∈ steps →
      g.annotations ≠ [] ∧ ∀ a ∈ g.annotations, CanBeMarked a) :
    Render.Agree (List.Forall₂ (Marked style)) (run hexes compiled (some style) steps)
      (run hexes compiled none steps) := by
  induction steps with
  | nil => exact .of_returns .nil
  | cons step rest ih =>
    have hrest := ih fun g first hg => hsteps g first (List.mem_cons_of_mem step hg)
    cases step with
    | stop f => exact .throw f
    | report e =>
      have hreport : Render.Agree (fun _ _ => True) (Render.report e) (Render.report e) :=
        fun s => ⟨_, .inr ⟨(), (), rfl, rfl, trivial⟩⟩
      exact hreport.bind fun _ _ _ => hrest
    | block g first =>
      obtain ⟨hne, hg⟩ := hsteps g first List.mem_cons_self
      refine (renderGroup_agrees hcompiled g first).bind ?_
      rintro t _ ⟨rfl, ht⟩
      obtain ⟨t', ht', hmarked⟩ := exists_withMarkers style hne hg ht
      rw [ht']
      have hblock : Render.Agree (Marked style) (Render.ofExcept (.ok t'))
        (Render.ofExcept (withMarkers none g t)) := .of_returns hmarked
      refine hblock.bind fun t' t ht => hrest.bind fun ts' ts hts => ?_
      exact .of_returns (.cons ht hts)

/-! ## The steps of a book -/

theorem mem_of_blocks {gs : List Group} {g : Group} {first : Bool}
    (h : BookStep.block g first ∈ blocks gs) : g ∈ gs := by
  cases gs with
  | nil => cases h
  | cons k rest =>
    rcases List.mem_cons.1 h with h | h
    · cases h
      exact List.mem_cons_self
    · obtain ⟨_, hk, heq⟩ := List.mem_map.1 h
      cases heq
      exact List.mem_cons_of_mem _ hk

/-- Steps hand out annotations of the book, relabelled, and no empty group. -/
theorem block_of_steps {gap : Gap} {contiguousGap : Int} {g : Group} {first : Bool}
    (h : .block g first ∈ steps unknown cmp (Group.successive gap contiguousGap) as) :
    g.annotations ≠ [] ∧ ∀ a ∈ g.annotations, ∃ b ∈ as, a = b.relabelled unknown := by
  unfold steps at h
  cases hcs : Chapter.ofAnnotations unknown cmp as with
  | error f =>
    rw [hcs] at h
    cases List.mem_singleton.1 h
  | ok cs =>
    rw [hcs] at h
    obtain ⟨c, hc, h⟩ := List.mem_flatMap.1 h
    unfold chapterSteps at h
    cases hgs : Group.successive gap contiguousGap c.annotations with
    | error f =>
      rw [hgs] at h
      cases List.mem_singleton.1 h
    | ok gs =>
      rw [hgs] at h
      have hsplits := Group.splits_of_successive hgs
      have hg : g ∈ gs := by
        rcases List.mem_append.1 h with h | h
        · exact mem_of_blocks h
        · cases List.mem_singleton.1 h
      refine ⟨hsplits.ne_nil hg, fun a ha => ?_⟩
      have hmem : a ∈ c.annotations := hsplits.annotations ▸ List.mem_flatMap.2 ⟨g, hg, ha⟩
      have hordered := (Chapter.arranges_of_ofAnnotations hcs).filed.annotations c hc
      obtain ⟨b, hb, heq⟩ := List.mem_map.1 (hordered.perm.mem_iff.1 hmem)
      exact ⟨b, List.mem_of_mem_filter hb, heq.symm⟩

theorem CanBeMarked.relabelled {a : Annotation} (h : CanBeMarked a) (unknown : Text) :
    CanBeMarked (a.relabelled unknown) :=
  ⟨⟨h.1.pageno, h.1.id, h.1.pageref, h.1.pos0, h.1.pos1, h.1.datetime, h.1.color, h.1.drawer⟩, h.2⟩

/-- Markers do not show once they are removed: the document is the one that was rendered
without, and so is everything else the rendering does. -/
theorem removeAll_render {gap : Gap} {contiguousGap : Int} {divider : Bool}
    (has : ∀ a ∈ as, CanBeMarked a)
    (hcompiled : ∀ b s t s', (compiled b).Returns s t s' → Text.holds word t = false) :
    (fun t => Text.strip (removeAll t)) <$> render hexes compiled ⟨some style, divider⟩ unknown
        Annotation.compare (Group.successive gap contiguousGap) as =
      (fun t => Text.strip (removeAll t)) <$> render hexes compiled ⟨none, divider⟩ unknown
        Annotation.compare (Group.successive gap contiguousGap) as := by
  have hsep : IsBreak (if divider then dividerBreak else blockBreak) := by
    cases divider
    · exact isBreak_blockBreak
    · exact isBreak_dividerBreak
  refine Render.Agree.map_eq (.bind (run_agrees hcompiled fun g first hg => ?_) fun ts' ts h => ?_)
  · obtain ⟨hne, hmem⟩ := block_of_steps hg
    refine ⟨hne, fun a ha => ?_⟩
    obtain ⟨b, hb, rfl⟩ := hmem a ha
    exact (has b hb).relabelled unknown
  · exact .of_returns (strip_removeAll_join hsep h)

/-- Two pages far apart, so that there are two blocks. -/
def distantBook : List Annotation :=
  [{ pageno := 1, id := .text "a".toList, pos0 := .map [(.text "x -->".toList, .int 3)] },
    { pageno := 9, pageref := .text "ix \x7d".toList, note := .text "late".toList }]

/-- A render function that shows blanks around its words. -/
def blankWords (_ : Bindings) : Render Text := pure "\n\n two\nlines \n\n\n".toList

theorem removeAll_render_distantBook :
    (∀ a ∈ distantBook, CanBeMarked a) ∧
      (∀ b s t s', (blankWords b).Returns s t s' → Text.holds word t = false) ∧
      (fun t => Text.strip (removeAll t)) <$> render (fun _ => []) blankWords
          ⟨some .percent, true⟩ "?".toList Annotation.compare (Group.successive (.whole 2) 2)
          distantBook =
        (fun t => Text.strip (removeAll t)) <$> render (fun _ => []) blankWords ⟨none, true⟩
          "?".toList Annotation.compare (Group.successive (.whole 2) 2) distantBook := by
  have hmarked : ∀ a ∈ distantBook, CanBeMarked a := by
    have hshort : ∀ n : Int, n.natAbs < 10 → Value.IsShort n := fun _ => Value.isShort_of_lt
    have hnoEnd : NoEnd "x -->".toList ∧ NoEnd "ix \x7d".toList := ⟨rfl, rfl⟩
    have hpos0 : Value.IsPosition NoEnd (.map [(.text "x -->".toList, .int 3)]) := by
      refine @Value.IsPosition.map _ [("x -->".toList, 3)] (by decide) ?_
      exact List.forall_mem_singleton.2 ⟨hnoEnd.1, hshort 3 (by decide)⟩
    simp only [distantBook, List.forall_mem_cons]
    exact ⟨⟨⟨hshort 1 (by decide), .text rfl, .absent, hpos0, .field .absent, .text rfl, .absent,
        .absent⟩, .inr ⟨[], rfl⟩, .inl rfl⟩,
      ⟨⟨hshort 9 (by decide), .absent, .text hnoEnd.2, .field .absent, .field .absent, .text rfl,
        .absent, .absent⟩, .inr ⟨[], rfl⟩, .inr ⟨_, rfl⟩⟩, nofun⟩
  have hwords : ∀ b s t s', (blankWords b).Returns s t s' → Text.holds word t = false := by
    intro b s t s' ht
    rw [(Render.returns_pure.1 ht).1]
    decide
  exact ⟨hmarked, hwords, removeAll_render hmarked hwords⟩

/-- A position with a key that holds a closing brace and the end of a comment. -/
def bracedBook : List Annotation :=
  [{ pageno := 1, id := .text "a".toList, pos0 := .map [(.text "\x7d -->".toList, .int 1)] }]

/-- Render the braced book with its words only. -/
def renderBraced (style : Option MarkerStyle) : Render Text :=
  render (fun _ => []) (fun _ => pure "words".toList) ⟨style, false⟩ "?".toList
    Annotation.compare (Group.successive (.whole 250) 2) bracedBook

theorem removeAll_render_braced :
    (∀ a ∈ bracedBook, a.IsMarkable (fun _ => True) ∧ a.IsWorded) ∧
      Text.holds word "words".toList = false ∧
      (fun t => Text.strip (removeAll t)) <$> renderBraced (some .html) ≠
        (fun t => Text.strip (removeAll t)) <$> renderBraced none := by
  refine ⟨?_, by decide, fun h => ?_⟩
  · have hone : Value.IsShort 1 := Value.isShort_of_lt (by decide)
    have hpos0 : Value.IsPosition (fun _ => True) (.map [(.text "\x7d -->".toList, .int 1)]) := by
      refine @Value.IsPosition.map _ [("\x7d -->".toList, 1)] (by decide) ?_
      exact List.forall_mem_singleton.2 ⟨trivial, hone⟩
    exact List.forall_mem_singleton.2 ⟨⟨hone, .text trivial, .absent, hpos0, .field .absent,
      .text trivial, .absent, .absent⟩, .inr ⟨[], rfl⟩, .inl rfl⟩
  · have := congrArg (fun m : Render Text => (m.run.run {}).1) h
    revert this
    decide +kernel

end Book
end Marginalia
