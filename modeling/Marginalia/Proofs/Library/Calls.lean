import Marginalia.Proofs.Cache.Run
import Marginalia.Proofs.Library.Finding

/-
The calls of a library.  A compiled template that is asked for is one that is remembered
under its id or one that has just been loaded and checked; nothing else is remembered, and
so nothing is served that has not passed validation.
-/
namespace Marginalia

open Use

/-- A call of a library. -/
inductive LibraryCall where
  | load (id : Option Text)
  | compiled (id : Option Text)
  | render (as : List Annotation) (id style : Option Text) (gap : Option Gap)
  | forget

/-- What a library answers to a call. -/
inductive LibraryAnswer where
  | content (t : Text)
  | template (c : Compiled) (source : Text) (divider : Bool)
  | document (t : Text)
  | done

/-- A compiled template is what compiling a text makes of it. -/
structure StoredTemplate.IsOf (l : Library) (source : Text) (v : StoredTemplate) : Prop where
  compiled_eq : v.compiled = Compiled.ofTemplate l.settings.maxTemplateNesting source
  source_eq : v.source = source
  divider_eq : v.divider = wantsDivider source

namespace Use

theorem outcome_return {α β : Type} (m : Use α) (f : α → β) (s : Shelf) :
    (m >>= fun a => pure (f a)).outcome s = ((m.outcome s).1.map f, (m.outcome s).2) := by
  rcases hrun : m.outcome s with ⟨_ | a, t⟩
  · exact outcome_bind_of_error hrun
  · exact (outcome_bind_of_ok hrun).trans (outcome_pure _ t)

theorem outcome_render {α : Type} (m : Render α) (s : Shelf) : (Use.render m).outcome s =
    ((m.run.run s.render).1, { s with render := (m.run.run s.render).2 }) := by
  have hmodify : (modify fun s => { s with render := (m.run.run s.render).2 } : Use Unit).outcome
      s = (.ok (), { s with render := (m.run.run s.render).2 }) := rfl
  exact (outcome_bind_of_ok (outcome_get s)).trans
    ((outcome_bind_of_ok hmodify).trans (outcome_ofExcept _ _))

/-- A look at the clock changes nothing but the clock. -/
theorem outcome_clock (s : Shelf) : ∃ r, (Use.render Render.clock).outcome s =
    (.ok s.render.now, { s with render := r }) ∧ r.pipelines = s.render.pipelines := by
  rw [outcome_render]
  rcases hs : s.render with ⟨pipelines, now, ahead, log, drawn⟩
  cases ahead with
  | nil => exact ⟨_, rfl, rfl⟩
  | cons next rest => exact ⟨_, rfl, rfl⟩

end Use

namespace Library

variable {l : Library} {s : Shelf}

@[simp] theorem chosenId_chosenId (id : Option Text) :
    l.chosenId (some (l.chosenId id)) = l.chosenId id := by
  cases h : l.chosenId id with
  | cons c rest => rfl
  | nil =>
    unfold chosenId at h
    split at h
    · cases h
    · exact h

/-! ## Compiled templates -/

/-- What a call that needs a template leaves as it is: the files, and of the built-in
templates all but what is read now. -/
structure Keeps (l : Library) (s t : Shelf) : Prop where
  files_eq : t.files = s.files
  builtIns_eq : t.builtIns = s.builtIns ∨ t.builtIns = l.kept s.files s.builtIns

/-- How a compiled template is come by. -/
inductive Provides (l : Library) (s : Shelf) (key : Text) :
    Except Fault StoredTemplate → Shelf → Prop
  | remembered {now : Binary64} {v : StoredTemplate} {c : Cache Text StoredTemplate} {t : Shelf} :
    s.stored.lookup now key = (some v, c) → t.stored = c → t.builtIns = s.builtIns →
      Provides l s key (.ok v) t
  | refused {now : Binary64} {c : Cache Text StoredTemplate} {e : Fault} {t : Shelf} :
    s.stored.lookup now key = (none, c) →
      l.loaded s.files (l.given s.files s.builtIns) key = .error e → t.stored = c →
      Provides l s key (.error e) t
  | made {now later : Binary64} {c : Cache Text StoredTemplate} {source : Text}
    {v : StoredTemplate} {t : Shelf} :
    s.stored.lookup now key = (none, c) →
      l.loaded s.files (l.given s.files s.builtIns) key = .ok source → v.IsOf l source →
      t.stored = c.store later key v →
      l.given s.files t.builtIns = l.given s.files s.builtIns →
      Provides l s key (if c.hasBound then .ok v else .error .noRoom) t

theorem outcome_compileAs (l : Library) (id source : Text) (s : Shelf) : ∃ v r later n,
    v.IsOf l source ∧ r.pipelines = s.render.pipelines ∧
      (l.compileAs id source).outcome s = (if s.stored.hasBound then .ok v else .error .noRoom,
        { s with stored := s.stored.store later id v, compilations := n, render := r }) := by
  let compiled := Compiled.ofTemplate l.settings.maxTemplateNesting source
  let v : StoredTemplate := ⟨compiled, source, wantsDivider source, s.compilations⟩
  have hreport : (reportAll compiled.log).outcome s = (.ok (), s.noting compiled.log) := rfl
  obtain ⟨r, hclock, hr⟩ := outcome_clock (s.noting compiled.log)
  let t : Shelf := { s with
    stored := s.stored.store s.render.now id v, compilations := s.compilations + 1, render := r }
  refine ⟨v, r, s.render.now, s.compilations + 1, ⟨rfl, rfl, rfl⟩, hr, ?_⟩
  have hstored : (l.compileAs id source).outcome s = Use.outcome (do
      if !(← get).stored.hasBound then throw .noRoom
      return v) t := by
    refine (outcome_bind_of_ok hreport).trans ((outcome_bind_of_ok (outcome_get _)).trans ?_)
    exact (outcome_bind_of_ok hclock).trans (outcome_bind_of_ok rfl)
  have hbound : t.stored.hasBound = s.stored.hasBound := rfl
  rw [hstored, outcome_bind_of_ok (outcome_get t), hbound]
  cases s.stored.hasBound with
  | true => exact outcome_pure v t
  | false => exact outcome_throw _ t

/-- Asking for a compiled template: it is remembered, or loaded and compiled, or refused. -/
theorem provides_compiled (l : Library) (id : Option Text) (s : Shelf) :
    l.Provides s (l.chosenId id) ((l.compiled id).outcome s).1 ((l.compiled id).outcome s).2 ∧
      l.Keeps s ((l.compiled id).outcome s).2 ∧
      ((l.compiled id).outcome s).2.render.pipelines = s.render.pipelines := by
  obtain ⟨r, hclock, hr⟩ := outcome_clock s
  rcases hlookup : s.stored.lookup s.render.now (l.chosenId id) with ⟨hit, c⟩
  let t : Shelf := { s with render := r, stored := c }
  have hstart : (l.compiled id).outcome s = Use.outcome
      (hit.elim (do l.compileAs (l.chosenId id) (← l.load (some (l.chosenId id)))) pure) t := by
    refine (outcome_bind_of_ok hclock).trans ((outcome_bind_of_ok (outcome_get _)).trans ?_)
    dsimp only
    rw [hlookup]
    cases hit <;> exact outcome_bind_of_ok rfl
  rw [hstart]
  cases hit with
  | some v => exact ⟨.remembered hlookup rfl rfl, ⟨rfl, .inl rfl⟩, hr⟩
  | none =>
    rw [Option.elim_none]
    obtain ⟨log, ds, hload, hds, hgiven⟩ := finds_load (some (l.chosenId id)) t rfl rfl
    rw [chosenId_chosenId] at hload hgiven
    cases hloaded : l.loaded s.files (l.given s.files s.builtIns) (l.chosenId id) with
    | error e =>
      rw [show l.loaded t.files (l.given t.files t.builtIns) (l.chosenId id) = .error e from
        hloaded] at hload
      rw [outcome_bind_of_error hload]
      exact ⟨.refused hlookup hloaded rfl, ⟨rfl, hds⟩, hr⟩
    | ok source =>
      rw [show l.loaded t.files (l.given t.files t.builtIns) (l.chosenId id) = .ok source from
        hloaded] at hload
      obtain ⟨v, r', later, n, hv, hr', hmade⟩ :=
        outcome_compileAs l (l.chosenId id) source ((t.noting log).holding ds)
      rw [outcome_bind_of_ok hload, hmade]
      exact ⟨.made hlookup hloaded hv rfl (hgiven source hloaded), ⟨rfl, hds⟩, hr'.trans hr⟩

/-! ## Documents -/

/-- Rendering a document with a compiled template. -/
def book (l : Library) (v : StoredTemplate) (as : List Annotation) (style : Option Text)
    (gap : Option Gap) : Render Text :=
  Book.render l.hexes v.compiled.renderShared ⟨Book.markerStyle (l.chosenStyle style), v.divider⟩
    l.settings.unknownChapterLabel Annotation.compare
    (Group.successive (gap.getD (.whole l.settings.maxHighlightGap)) l.settings.contiguousGap) as

theorem outcome_render_of_error {id style : Option Text} {as : List Annotation}
    {gap : Option Gap} {e : Fault} {t : Shelf} (h : (l.compiled id).outcome s = (.error e, t)) :
    (l.render as id style gap).outcome s = (.error e, t) :=
  outcome_bind_of_error h

theorem outcome_render_of_ok {id : Option Text} {v : StoredTemplate} {t : Shelf}
    (h : (l.compiled id).outcome s = (.ok v, t)) (as : List Annotation) (style : Option Text)
    (gap : Option Gap) : (l.render as id style gap).outcome s =
      (((l.book v as style gap).run.run t.render).1.map tidy,
        { t with render := ((l.book v as style gap).run.run t.render).2 }) := by
  have hbook := outcome_return (Use.render (l.book v as style gap)) tidy t
  rw [outcome_render] at hbook
  exact (outcome_bind_of_ok h).trans hbook

/-- Rendering remembers what asking for the template does. -/
theorem stored_render (l : Library) (as : List Annotation) (id style : Option Text)
    (gap : Option Gap) (s : Shelf) : ((l.render as id style gap).outcome s).2.stored =
      ((l.compiled id).outcome s).2.stored := by
  rcases hrun : (l.compiled id).outcome s with ⟨_ | v, t⟩
  · rw [outcome_render_of_error hrun]
  · rw [outcome_render_of_ok hrun]

theorem keeps_load (l : Library) (id : Option Text) (s : Shelf) :
    l.Keeps s ((l.load id).outcome s).2 := by
  obtain ⟨log, ds, hload, hds, _⟩ := finds_load id s rfl rfl
  rw [hload]
  exact ⟨rfl, hds⟩

theorem keeps_render (l : Library) (as : List Annotation) (id style : Option Text)
    (gap : Option Gap) (s : Shelf) : l.Keeps s ((l.render as id style gap).outcome s).2 := by
  have hkeeps := (provides_compiled l id s).2.1
  rcases hrun : (l.compiled id).outcome s with ⟨_ | v, t⟩
  · rw [hrun] at hkeeps
    rwa [outcome_render_of_error hrun]
  · rw [hrun] at hkeeps
    rw [outcome_render_of_ok hrun]
    exact ⟨hkeeps.files_eq, hkeeps.builtIns_eq⟩

/-! ## Calls -/

/-- Make a call. -/
def perform (l : Library) : LibraryCall → Use LibraryAnswer
  | .load id => return .content (← l.load id)
  | .compiled id => do
    let v ← l.compiled id
    return .template v.compiled v.source v.divider
  | .render as id style gap => return .document (← l.render as id style gap)
  | .forget => do
    forget
    return .done

/-- No call changes the files, or more of the built-in templates than it reads. -/
theorem keeps_perform (l : Library) (c : LibraryCall) (s : Shelf) :
    l.Keeps s ((l.perform c).outcome s).2 := by
  unfold perform
  cases c with
  | load id =>
    rw [outcome_return]
    exact keeps_load l id s
  | compiled id =>
    rw [outcome_return]
    exact (provides_compiled l id s).2.1
  | render as id style gap =>
    rw [outcome_return]
    exact keeps_render l as id style gap s
  | forget => exact ⟨rfl, .inl rfl⟩

end Library
end Marginalia
