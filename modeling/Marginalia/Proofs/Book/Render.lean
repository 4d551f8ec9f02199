import Marginalia.Proofs.Annotation.Permutation
import Marginalia.Proofs.Book.Arrangement
import Marginalia.Proofs.Render

/-
Rendering a book.  Whatever a render function does with a group, the groups it is
given are an arrangement of the annotations, and what it makes of them is joined
in that order.
-/
namespace Marginalia
namespace Book

open Annotation (Untied PagesApart)

variable {hexes : Nat → Text} {compiled : Bindings → Render Text} {grouper : Grouper}
  {unknown : Text} {cmp : Chapter.Comparison} {as : List Annotation}

/-- The texts that groups are rendered to, one after another; in between the log
may grow. -/
inductive Rendered (hexes : Nat → Text) (compiled : Bindings → Render Text) :
    RenderState → List (Group × Bool) → List Text → RenderState → Prop where
  | done (s : RenderState) : Rendered hexes compiled s [] [] s
  | report {s s' : RenderState} {hs : List (Group × Bool)} {ts : List Text} (e : LogEntry) :
    Rendered hexes compiled { s with log := s.log ++ [e] } hs ts s' →
      Rendered hexes compiled s hs ts s'
  | group {s s₁ s' : RenderState} {g : Group} {first : Bool} {t : Text}
    {hs : List (Group × Bool)} {ts : List Text} :
    (renderGroup hexes compiled g first).Returns s t s₁ → Rendered hexes compiled s₁ hs ts s' →
      Rendered hexes compiled s ((g, first) :: hs) (t :: ts) s'

/-- Steps that were carried out to the end rendered what they hand out, and none
of them gave up. -/
theorem rendered_of_run {steps : List BookStep} {s s' : RenderState} {ts : List Text}
    (h : (run hexes compiled none steps).Returns s ts s') :
    (∀ f, .stop f ∉ steps) ∧ Rendered hexes compiled s (handed steps) ts s' := by
  induction steps generalizing s ts with
  | nil =>
    obtain ⟨rfl, rfl⟩ := Render.returns_pure.1 h
    exact ⟨nofun, .done s'⟩
  | cons step rest ih =>
    cases step with
    | stop f => exact absurd h Render.not_returns_throw
    | report e =>
      obtain ⟨_, s₁, he, h⟩ := Render.returns_bind.1 h
      obtain rfl := Render.returns_report.1 he
      obtain ⟨hstop, hrest⟩ := ih h
      exact ⟨by simpa using hstop, .report e hrest⟩
    | block g first =>
      obtain ⟨t, s₁, ht, h⟩ := Render.returns_bind.1 h
      obtain ⟨t', s₂, ht', h⟩ := Render.returns_bind.1 h
      obtain ⟨hmarkers, rfl⟩ := Render.returns_ofExcept.1 ht'
      cases hmarkers
      obtain ⟨ts', s₃, hts, h⟩ := Render.returns_bind.1 h
      obtain ⟨rfl, rfl⟩ := Render.returns_pure.1 h
      obtain ⟨hstop, hrest⟩ := ih hts
      exact ⟨by simpa using hstop, .group ht hrest⟩

/-! ## The steps of a book -/

/-- Steps that do not give up come from chapters that could all be grouped. -/
theorem exists_chapters_of_steps (h : ∀ f, .stop f ∉ steps unknown cmp grouper as) :
    ∃ cs, Chapter.ofAnnotations unknown cmp as = .ok cs ∧
      steps unknown cmp grouper as = cs.flatMap (chapterSteps grouper) ∧
      ∀ c ∈ cs, ∃ gs, grouper c.annotations = .ok gs := by
  unfold steps at *
  cases hcs : Chapter.ofAnnotations unknown cmp as with
  | error f =>
    simp only [hcs] at h
    exact absurd List.mem_cons_self (h f)
  | ok cs =>
    simp only [hcs] at h
    refine ⟨cs, rfl, rfl, fun c hc => ?_⟩
    cases hgs : grouper c.annotations with
    | error f =>
      refine absurd (List.mem_flatMap.2 ⟨c, hc, ?_⟩) (h f)
      unfold chapterSteps
      rw [hgs]
      exact List.mem_cons_self
    | ok gs => exact ⟨gs, rfl⟩

theorem handed_chapterSteps {c : Chapter} {gs : List Group}
    (h : grouper c.annotations = .ok gs) : handed (chapterSteps grouper c) = flagged gs := by
  unfold chapterSteps
  rw [h]
  show handed (blocks gs ++ [.report (chapterEntry c gs)]) = flagged gs
  rw [handed_append, handed_blocks]
  exact List.append_nil _

/-- Every annotation of a book is rendered once, in its place: the groups that are
handed out arrange the annotations, and the document is what becomes of them. -/
theorem render_arranges {gap : Gap} {contiguousGap : Int} {divider : Bool} {s s' : RenderState}
    {out : Text}
    (h : (render hexes compiled ⟨none, divider⟩ unknown Annotation.compare
      (Group.successive gap contiguousGap) as).Returns s out s') :
    let hs := handed (steps unknown Annotation.compare (Group.successive gap contiguousGap) as)
    Arranged unknown as hs ∧ ∃ ts, Rendered hexes compiled s hs ts s' ∧
      out = Text.join (if divider then dividerBreak else blockBreak) ts := by
  obtain ⟨ts, s₁, hrun, h⟩ := Render.returns_bind.1 h
  obtain ⟨rfl, rfl⟩ := Render.returns_pure.1 h
  obtain ⟨hstop, hrendered⟩ := rendered_of_run hrun
  refine ⟨?_, ts, hrendered, rfl⟩
  obtain ⟨cs, hcs, hsteps, hgroups⟩ := exists_chapters_of_steps hstop
  rw [hsteps, handed, List.filterMap_flatMap]
  refine arranged (Chapter.arranges_of_ofAnnotations hcs) fun c hc => ?_
  obtain ⟨gs, hgs⟩ := hgroups c hc
  exact ⟨gs, Group.splits_of_successive hgs, handed_chapterSteps hgs⟩

/-- Two annotations of one chapter, one of another, and one of none. -/
def smallBook : List Annotation :=
  [{ pageno := 7, chapter := .text "B".toList }, { pageno := 3, chapter := .text " A ".toList },
    { pageno := 3 }, { pageno := 2, chapter := .text "A".toList }]

/-- Render annotations, with the title of its chapter for each group. -/
def renderTitles (as : List Annotation) : Render Text :=
  render (fun _ => []) (fun b => match b "chapter".toList with
    | .text t => pure t
    | _ => pure []) ⟨none, false⟩ "?".toList Annotation.compare
    (Group.successive (.whole 1) 1) as

theorem renderTitles_smallBook : (renderTitles smallBook).Returns {} "A\n\n?\n\nB".toList
    ((renderTitles smallBook).run.run {}).2 :=
  Prod.ext (by decide +kernel : ((renderTitles smallBook).run.run {}).1 = .ok _) rfl

/-- The four annotations of the small book are rendered in three groups. -/
theorem render_arranges_smallBook :
    (∃ s', (renderTitles smallBook).Returns {} "A\n\n?\n\nB".toList s') ∧
      Arranged "?".toList smallBook (handed (steps "?".toList Annotation.compare
        (Group.successive (.whole 1) 1) smallBook)) :=
  ⟨⟨_, renderTitles_smallBook⟩, (render_arranges renderTitles_smallBook).1⟩

/-! ## The order of the input -/

/-- The order in which annotations come does not matter, where no two of a label
are alike and no two labels have the same smallest page. -/
theorem render_perm {form : Form} {gap : Gap} {contiguousGap : Int} {bs : List Annotation}
    {s s' : RenderState} {out : Text} (hp : as.Perm bs) (hties : Untied unknown as)
    (hpages : PagesApart unknown as)
    (h : (render hexes compiled form unknown Annotation.compare
      (Group.successive gap contiguousGap) as).Returns s out s') :
    (render hexes compiled form unknown Annotation.compare
      (Group.successive gap contiguousGap) bs).Returns s out s' := by
  obtain ⟨ts, s₁, hrun, hjoin⟩ := Render.returns_bind.1 h
  cases hcs : Chapter.ofAnnotations unknown Annotation.compare as with
  | error f =>
    unfold steps at hrun
    rw [hcs] at hrun
    exact absurd hrun Render.not_returns_throw
  | ok cs =>
    have hsteps : steps unknown Annotation.compare (Group.successive gap contiguousGap) bs =
        steps unknown Annotation.compare (Group.successive gap contiguousGap) as := by
      unfold steps
      rw [hcs, Chapter.ofAnnotations_perm hp hties hpages hcs]
    unfold render
    rw [hsteps]
    exact h

/-- The small book is the same document when its annotations come backwards. -/
theorem render_perm_smallBook :
    (Untied "?".toList smallBook ∧ PagesApart "?".toList smallBook) ∧
      ∃ s', (renderTitles smallBook.reverse).Returns {} "A\n\n?\n\nB".toList s' := by
  have hties : Untied "?".toList smallBook := by
    unfold Untied
    decide +kernel
  have hpages : PagesApart "?".toList smallBook := by
    unfold PagesApart
    decide +kernel
  have hp : smallBook.Perm smallBook.reverse := (List.reverse_perm smallBook).symm
  exact ⟨⟨hties, hpages⟩, _, render_perm hp hties hpages renderTitles_smallBook⟩

end Book
end Marginalia
