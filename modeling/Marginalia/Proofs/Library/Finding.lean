import Marginalia.Proofs.Ensures
import Marginalia.Proofs.Library.BuiltIns

/-
What a library finds.  The template that is meant by an id depends on the files and on the
built-in templates that a use is given; whatever the shelf holds besides does not matter,
and of the shelf only the log and the built-in templates change.
-/
namespace Marginalia

open Use TemplateDefinition

/-! ## The shipped templates -/

namespace Shipped

/-- The template in a shipped file. -/
def define (f : Text × Text) : Except Fault TemplateDefinition :=
  (ofText (Path.stemOf f.1) true f.2).1

def definitions : List TemplateDefinition := files.filterMap fun f => (define f).toOption

theorem exists_define : ∀ f ∈ files, (define f).isOk :=
  List.all_eq_true.1 (by decide +kernel)

end Shipped

namespace Library

theorem outcome_addShipped (fs : List (Text × Text)) (h : ∀ f ∈ fs, (Shipped.define f).isOk)
    (s : Shelf) : ∃ log, (addShipped fs).outcome s = (.ok (), (s.noting log).holding
      (insertAll (fs.filterMap fun f => (Shipped.define f).toOption) s.builtIns)) := by
  induction fs generalizing s with
  | nil =>
    refine ⟨[], ?_⟩
    rw [Shelf.noting_nil]
    rfl
  | cons f rest ih =>
    obtain ⟨hf, hrest⟩ := List.forall_mem_cons.1 h
    obtain ⟨d, hd⟩ := exists_of_isOk hf
    have hdefine := outcome_define (Path.stemOf f.1) true f.2 s
    rw [show (ofText (Path.stemOf f.1) true f.2).1 = .ok d from hd] at hdefine
    let t := (s.noting (ofText (Path.stemOf f.1) true f.2).2).holding (d.insert s.builtIns)
    have hadd : (addBuiltIn d).outcome (s.noting (ofText (Path.stemOf f.1) true f.2).2) =
        (.ok (), t) := rfl
    obtain ⟨log, hlog⟩ := ih hrest t
    refine ⟨(ofText (Path.stemOf f.1) true f.2).2 ++ log, ?_⟩
    refine (outcome_bind_of_ok hdefine).trans ((outcome_bind_of_ok hadd).trans ?_)
    rw [hlog, ← Shelf.noting_noting, List.filterMap_cons, hd]
    rfl

/-! ## The built-in templates that a use is given -/

section

variable (l : Library) (files : FileTree) (known : List TemplateDefinition)

/-- The built-in templates that a first use reads, and how it ends. -/
def reading : List TemplateDefinition × Except Fault Unit :=
  match l.builtInSource with
  | .shipped => (Shipped.definitions, .ok ())
  | .directory p => firstReading files p

/-- What a use that needs the built-in templates is given, when the shelf has some. -/
def given : Except Fault (List TemplateDefinition) :=
  if known.isEmpty then (l.reading files).2.map fun _ => insertAll (l.reading files).1 []
  else .ok known

/-- The built-in templates that it leaves on the shelf. -/
def kept : List TemplateDefinition :=
  if known.isEmpty then insertAll (l.reading files).1 [] else known

end

variable {l : Library} {files : FileTree} {known ds : List TemplateDefinition}
  {g : Except Fault (List TemplateDefinition)} {s : Shelf}

theorem reading_of_shipped (h : l.builtInSource = .shipped) :
    l.reading files = (Shipped.definitions, .ok ()) := by
  rw [reading, h]

theorem reading_of_directory {p : Path} (h : l.builtInSource = .directory p) :
    l.reading files = firstReading files p := by
  rw [reading, h]

theorem given_nil : l.given files [] =
    (l.reading files).2.map fun _ => insertAll (l.reading files).1 [] :=
  rfl

theorem kept_nil : l.kept files [] = insertAll (l.reading files).1 [] :=
  rfl

theorem given_of_ne_nil (h : known ≠ []) : l.given files known = .ok known := by
  unfold given
  rw [if_neg (by simpa using h)]

theorem kept_of_ne_nil (h : known ≠ []) : l.kept files known = known := by
  unfold kept
  rw [if_neg (by simpa using h)]

theorem kept_kept : l.kept files (l.kept files known) = l.kept files known := by
  by_cases h : l.kept files known = []
  · cases known with
    | nil => rw [h, h]
    | cons d rest => cases h
  · exact kept_of_ne_nil h

/-- What a use is given is what it leaves on the shelf. -/
theorem kept_of_given (h : l.given files known = .ok ds) : l.kept files known = ds := by
  cases known with
  | cons d rest => exact Except.ok.inj h
  | nil =>
    rw [given_nil] at h
    cases hread : (l.reading files).2 with
    | error e =>
      rw [hread] at h
      cases h
    | ok u =>
      rw [hread] at h
      exact Except.ok.inj h

/-- Built-in templates that a use was given are what later uses are given. -/
theorem given_kept (h : l.given files known = .ok ds) :
    l.given files (l.kept files known) = .ok ds := by
  have hkept := kept_of_given h
  by_cases hempty : known = []
  · subst hempty
    by_cases hds : ds = []
    · rw [hkept, hds]
      exact hds ▸ h
    · rw [hkept, given_of_ne_nil hds]
  · rwa [kept_of_ne_nil hempty]

theorem outcome_builtIns_of_shipped (hsource : l.builtInSource = .shipped)
    (hs : s.builtIns = []) : ∃ log, l.builtIns.outcome s = (.ok (insertAll Shipped.definitions []),
      (s.noting log).holding (insertAll Shipped.definitions [])) := by
  obtain ⟨log, hadd⟩ : ∃ log, (addShipped Shipped.files).outcome s =
      (.ok (), (s.noting log).holding (insertAll Shipped.definitions s.builtIns)) :=
    outcome_addShipped Shipped.files Shipped.exists_define s
  rw [hs] at hadd
  rw [builtIns, outcome_bind_of_ok (outcome_get s), if_neg (by simp [hs]), hsource]
  -- what the shipped templates are does not matter
  generalize Shipped.files = fs, Shipped.definitions = ds at hadd ⊢
  refine ⟨log ++ [countEntry (insertAll ds [])], (outcome_bind_of_ok hadd).trans ?_⟩
  rw [← Shelf.noting_noting]
  rfl

/-- Whatever is on the shelf, the built-in templates are the ones it is given. -/
theorem outcome_builtIns_given (l : Library) (s : Shelf) : ∃ log,
    l.builtIns.outcome s = (l.given s.files s.builtIns,
      (s.noting log).holding (l.kept s.files s.builtIns)) := by
  by_cases hs : s.builtIns = []
  · rw [hs, given_nil, kept_nil]
    cases hsource : l.builtInSource with
    | shipped =>
      have hread := outcome_builtIns_of_shipped hsource hs
      rw [reading_of_shipped hsource]
      generalize Shipped.definitions = ds at hread ⊢
      exact hread
    | directory p =>
      rw [reading_of_directory hsource]
      exact outcome_builtIns hsource hs
  · refine ⟨[], ?_⟩
    rw [outcome_builtIns_of_known hs, given_of_ne_nil hs, kept_of_ne_nil hs, Shelf.noting_nil]
    rfl

/-! ## Finding -/

/-- On every shelf with these files that is given these built-in templates, a use comes
to `x`.  It may report something and may leave the built-in templates on the shelf; what it
is given is the same after it, unless it fails. -/
def Finds (l : Library) (files : FileTree) (g : Except Fault (List TemplateDefinition))
    {α : Type} (m : Use α) (x : Except Fault α) : Prop :=
  ∀ s : Shelf, s.files = files → l.given files s.builtIns = g → ∃ log ds,
    m.outcome s = (x, (s.noting log).holding ds) ∧
    (ds = s.builtIns ∨ ds = l.kept files s.builtIns) ∧ ∀ a, x = .ok a → l.given files ds = g

namespace Finds

variable {α β : Type} {m : Use α} {x : Except Fault α}

/-- A use that only reports. -/
theorem of_noting (h : ∀ s : Shelf, s.files = files → ∃ log, m.outcome s = (x, s.noting log)) :
    l.Finds files g m x := by
  intro s hfiles hg
  obtain ⟨log, hlog⟩ := h s hfiles
  exact ⟨log, s.builtIns, hlog, .inl rfl, fun _ _ => hg⟩

theorem ofExcept (x : Except Fault α) : l.Finds files g (Use.ofExcept x) x :=
  of_noting fun s _ => ⟨[], by rw [outcome_ofExcept, Shelf.noting_nil]⟩

theorem pure (a : α) : l.Finds files g (Pure.pure a) (.ok a) := ofExcept (.ok a)

theorem throw (e : Fault) : l.Finds files g (MonadExcept.throw e : Use α) (.error e) :=
  ofExcept (.error e)

theorem report (e : LogEntry) : l.Finds files g (Use.report e) (.ok ()) :=
  of_noting fun _ _ => ⟨[e], rfl⟩

theorem reportAll (log : Log) : l.Finds files g (Use.reportAll log) (.ok ()) :=
  of_noting fun _ _ => ⟨log, rfl⟩

theorem query (f : FileTree → Except FileProblem α) :
    l.Finds files g (Use.query f) ((f files).mapError .file) :=
  of_noting fun s hfiles => ⟨[], by rw [outcome_query, hfiles, Shelf.noting_nil]⟩

theorem next {f : α → Use β} {a : α} {y : Except Fault β} (hm : l.Finds files g m (.ok a))
    (hf : l.Finds files g (f a) y) : l.Finds files g (m >>= f) y := by
  intro s hfiles hg
  obtain ⟨log, ds, hrun, hds, hgiven⟩ := hm s hfiles hg
  obtain ⟨log', ds', hrest, hds', hgiven'⟩ :=
    hf ((s.noting log).holding ds) hfiles (hgiven a rfl)
  refine ⟨log ++ log', ds', ?_, ?_, hgiven'⟩
  · rw [outcome_bind_of_ok hrun, hrest, ← Shelf.noting_noting]
    rfl
  · rcases hds' with rfl | rfl
    · exact hds
    · rcases hds with rfl | rfl
      · exact .inr rfl
      · exact .inr kept_kept

theorem fails {f : α → Use β} {e : Fault} (hm : l.Finds files g m (.error e)) :
    l.Finds files g (m >>= f) (.error e) := by
  intro s hfiles hg
  obtain ⟨log, ds, hrun, hds, _⟩ := hm s hfiles hg
  exact ⟨log, ds, outcome_bind_of_error hrun, hds, nofun⟩

theorem bind {f : α → Use β} {y : α → Except Fault β} (hm : l.Finds files g m x)
    (hf : ∀ a, l.Finds files g (f a) (y a)) : l.Finds files g (m >>= f) (x >>= y) := by
  cases x with
  | error e => exact hm.fails
  | ok a => exact hm.next (hf a)

end Finds

/-- The default template among built-in ones. -/
def defaultIn (l : Library) (ds : List TemplateDefinition) : Except Fault TemplateDefinition :=
  match find? l.settings.defaultTemplate ds with
  | some d => .ok d
  | none => .error (.template (.noDefault l.settings.defaultTemplate))

/-- The file that an id leads to in the user's directory, if it is one. -/
def userFile (l : Library) (files : FileTree) (id : Text) : Except Fault (Option Path) :=
  match l.userDirectory with
  | none => .ok none
  | some directory =>
    match files.isFile (directory.child (fileName id)) with
    | .error e => .error (.file e)
    | .ok found => .ok (if found then some (directory.child (fileName id)) else none)

/-- The user's template of an id. -/
def userTemplate (l : Library) (files : FileTree) (id : Text) :
    Except Fault (Option TemplateDefinition) := do
  match ← l.userFile files id with
  | none => .ok none
  | some p => return some (← (ofFile files p false).1)

/-- The template of an id: the user's, else a built-in one, else the default. -/
def found (l : Library) (files : FileTree) (g : Except Fault (List TemplateDefinition))
    (id : Text) : Except Fault TemplateDefinition := do
  match ← l.userTemplate files id with
  | some d => .ok d
  | none =>
    match find? id (← g) with
    | some d => .ok d
    | none => g >>= l.defaultIn

/-- The checked text of a template, or the text of the default. -/
def loaded (l : Library) (files : FileTree) (g : Except Fault (List TemplateDefinition))
    (id : Text) : Except Fault Text := do
  let d ← l.found files g id
  let v ← Validation.ofTemplate l.settings.maxTemplateNesting d.content
  if v.isValid then .ok d.content else return (← g >>= l.defaultIn).content

theorem finds_builtIns : l.Finds files g l.builtIns g := by
  intro s hfiles hg
  obtain ⟨log, hrun⟩ := outcome_builtIns_given l s
  rw [hfiles, hg] at hrun
  refine ⟨log, _, hrun, .inr rfl, ?_⟩
  rintro ds rfl
  exact given_kept hg

theorem finds_fallback : l.Finds files g l.fallback (g >>= l.defaultIn) := by
  refine finds_builtIns.bind fun ds => ?_
  unfold defaultIn
  cases find? l.settings.defaultTemplate ds with
  | none => exact .throw _
  | some d => exact .pure d

theorem finds_readDefinition (p : Path) (builtIn : Bool) :
    l.Finds files g (readDefinition p builtIn) (ofFile files p builtIn).1 :=
  .of_noting fun s hfiles => ⟨_, hfiles ▸ outcome_readDefinition p builtIn s⟩

theorem finds_findUser? (id : Text) :
    l.Finds files g (l.findUser? id) (l.userTemplate files id) := by
  unfold findUser? userTemplate userFile
  cases l.userDirectory with
  | none => exact .pure none
  | some directory =>
    have hquery : l.Finds files g (Use.query (·.isFile (directory.child (fileName id)))) _ :=
      .query _
    dsimp only
    cases hfile : files.isFile (directory.child (fileName id)) with
    | error e =>
      rw [hfile] at hquery
      exact hquery.fails
    | ok found =>
      rw [hfile] at hquery
      refine hquery.next ?_
      cases found with
      | false => exact .pure none
      | true =>
        refine (Finds.report _).next ?_
        exact (finds_readDefinition _ false).bind fun d => .pure (some d)

theorem finds_find (id : Text) : l.Finds files g (l.find id) (l.found files g id) := by
  refine (finds_findUser? id).bind fun d => ?_
  cases d with
  | some d => exact .pure d
  | none =>
    refine finds_builtIns.bind fun ds => ?_
    cases find? id ds with
    | some d => exact (Finds.report _).next (.pure d)
    | none => exact (Finds.report _).next finds_fallback

theorem finds_load (id : Option Text) :
    l.Finds files g (l.load id) (l.loaded files g (l.chosenId id)) := by
  refine (finds_find (l.chosenId id)).bind fun d => (Finds.reportAll _).next ?_
  refine (Finds.ofExcept _).bind fun v => (Finds.reportAll _).next ?_
  cases v.isValid with
  | true => exact .pure d.content
  | false => exact (Finds.report _).next (finds_fallback.bind fun d => .pure d.content)

end Library
end Marginalia
