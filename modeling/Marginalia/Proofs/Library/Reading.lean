import Mathlib.Data.List.Sort
import Marginalia.Proofs.File.Growth
import Marginalia.Proofs.Library.Listing

/-
Where built-in templates come from, and what becomes of them in a tree that grows.  A first
reading takes every name with the suffix for that of a file: when directories have been made in
the meantime it comes to the same, or it fails because one of them bears such a name.
-/
namespace Marginalia

open Use TemplateDefinition

namespace Library

variable {l : Library} {s : Shelf} {directory : Path} {place : FileTree.Names}
  {ds : List TemplateDefinition} {d : TemplateDefinition}

/-! ## Trees that grow -/

/-- A directory stands at a place. -/
structure Stands (files : FileTree) (directory : Path) (place : FileTree.Names) : Prop where
  located : files.locate directory = .ok place
  is_directory : files.entry? place = some .directory

theorem Stands.grows {files files' : FileTree} (h : Stands files directory place)
    (hgrows : files.Grows files') : Stands files' directory place :=
  ⟨hgrows.locate h.located, hgrows.entries place _ h.is_directory⟩

section

variable {files files' : FileTree} {p : Path}

theorem ofFile_of_grows (h : files.Grows files') {builtIn : Bool}
    (hd : (ofFile files p builtIn).1 = .ok d) : ofFile files' p builtIn = ofFile files p builtIn := by
  have htext : ∀ t, textOf files p = .ok t → textOf files' p = .ok t := by
    intro t ht
    unfold textOf at ht ⊢
    split at ht
    · cases ht
    · rename_i hread
      rw [h.read hread]
      exact ht
  unfold ofFile at hd ⊢
  cases ht : textOf files p with
  | error e =>
    rw [ht] at hd
    cases hd
  | ok t => rw [htext t ht]

theorem readAll_of_grows (h : files.Grows files') {names : List Text}
    (hread : (readAll files p names).2 = .ok ()) :
    readAll files' p names = readAll files p names := by
  induction names with
  | nil => rfl
  | cons name rest ih =>
    unfold readAll at hread ⊢
    cases hname : builtIn? files p name with
    | error e =>
      rw [hname] at hread
      cases hread
    | ok d =>
      rw [hname] at hread
      have hsame : builtIn? files' p name = .ok d := by
        rw [builtIn?, ofFile_of_grows h hname]
        exact hname
      rw [hsame, ih hread]

theorem builtIn?_of_readAll {names : List Text} (h : (readAll files p names).2 = .ok ()) :
    ∀ name ∈ names, ∃ d, builtIn? files p name = .ok d := by
  induction names with
  | nil => nofun
  | cons name rest ih =>
    unfold readAll at h
    cases hname : builtIn? files p name with
    | error e =>
      rw [hname] at h
      cases h
    | ok d =>
      rw [hname] at h
      exact List.forall_mem_cons.2 ⟨⟨d, hname⟩, ih h⟩

/-- Of the names of templates that a later tree has and an earlier one has not, none is that of
a file. -/
theorem new_name_fails (hgrows : files.Grows files') (hkeeps : files.KeepsContents files')
    (hnames : files'.HasNames) (hplace : Stands files p place) {name : Text}
    (hnew : name ∈ namesAt files' place) (hold : name ∉ namesAt files place) :
    ∀ d, builtIn? files' p name ≠ .ok d := by
  intro d hd
  obtain ⟨b, rfl, _, hname⟩ := isName_of_mem_namesAt hnames hnew
  have hlater := hplace.grows hgrows
  obtain ⟨names, bytes, hlocate, hentry⟩ := FileTree.isFile_eq_true.1 (ofFile_eq_ok hd).2.2
  obtain rfl := FileTree.locate_child_eq hname hlater.located hlater.is_directory hlocate
  have hcontent : files.content? (place ++ [fileName b]) = some bytes := by
    rw [← hkeeps, FileTree.content?, hentry]
  refine hold (mem_namesAt.2 ⟨⟨b, rfl⟩, ?_⟩)
  unfold FileTree.content? at hcontent
  split at hcontent
  · exact ⟨_, ‹_›⟩
  · cases hcontent

theorem Stands.namesIn_eq (h : Stands files p place) :
    namesIn files p = .ok (namesAt files place) := by
  rw [namesIn, h.located]
  rfl

theorem firstReading_of_stands (h : Stands files p place) :
    firstReading files p = match readAll files p (namesAt files place) with
      | (ds, .error e) => (ds, .error e)
      | ([], .ok ()) => ([], .error (.template (.noTemplates p.text)))
      | (ds, .ok ()) => (ds, .ok ()) := by
  have hdirectory := FileTree.isDirectory_eq_true.2 ⟨place, h.located, h.is_directory⟩
  unfold firstReading
  rw [hdirectory]
  dsimp only
  split
  · rename_i e herror
    rw [h.namesIn_eq] at herror
    cases herror
  · rename_i names hnames
    obtain rfl : namesAt files place = names := Except.ok.inj (h.namesIn_eq.symm.trans hnames)
    rfl

/-- A first reading that succeeds is that of a directory with templates in it. -/
theorem firstReading_eq_ok (h : (firstReading files p).2 = .ok ()) : ∃ place,
    Stands files p place ∧ (readAll files p (namesAt files place)).2 = .ok () ∧
      (firstReading files p).1 ≠ [] := by
  have hstands : ∃ place, Stands files p place := by
    cases hdirectory : files.isDirectory p with
    | error e =>
      rw [firstReading, hdirectory] at h
      cases h
    | ok found =>
      cases found with
      | false =>
        rw [firstReading, hdirectory] at h
        cases h
      | true =>
        obtain ⟨place, hlocate, hentry⟩ := FileTree.isDirectory_eq_true.1 hdirectory
        exact ⟨place, hlocate, hentry⟩
  obtain ⟨place, hplace⟩ := hstands
  rw [firstReading_of_stands hplace] at h ⊢
  refine ⟨place, hplace, ?_⟩
  rcases hread : readAll files p (namesAt files place) with ⟨_ | ⟨d, ds⟩, e | _⟩
  · rw [hread] at h
    cases h
  · rw [hread] at h
    cases h
  · rw [hread] at h
    cases h
  · exact ⟨rfl, List.cons_ne_nil _ _⟩

theorem firstReading_of_refused (h : Stands files p place) {name : Text}
    (hname : name ∈ namesAt files place) (hrefused : ∀ d, builtIn? files p name ≠ .ok d) :
    ∃ e, (firstReading files p).2 = .error e := by
  cases hread : (firstReading files p).2 with
  | error e => exact ⟨e, rfl⟩
  | ok u =>
    obtain ⟨place', hplace, hnames, _⟩ := firstReading_eq_ok hread
    obtain rfl : place = place' := Except.ok.inj (h.located.symm.trans hplace.located)
    obtain ⟨d, hd⟩ := builtIn?_of_readAll hnames name hname
    exact absurd hd (hrefused d)

/-- A first reading in a tree that has grown by directories: it is the same if there are no new
names, and fails otherwise. -/
theorem firstReading_of_grows (hgrows : files.Grows files') (hkeeps : files.KeepsContents files')
    (hnames : files'.HasNames) (hread : (firstReading files p).2 = .ok ()) :
    (namesIn files' p = namesIn files p → firstReading files' p = firstReading files p) ∧
      (namesIn files' p ≠ namesIn files p → ∃ e, (firstReading files' p).2 = .error e) := by
  obtain ⟨place, hplace, hall, _⟩ := firstReading_eq_ok hread
  have hlater := hplace.grows hgrows
  rw [hplace.namesIn_eq, hlater.namesIn_eq]
  refine ⟨fun heq => ?_, fun hne => ?_⟩
  · rw [firstReading_of_stands hplace, firstReading_of_stands hlater, Except.ok.inj heq,
      readAll_of_grows hgrows hall]
  · have hsubset : namesAt files place ⊆ namesAt files' place := by
      intro name hname
      obtain ⟨hb, e, he⟩ := mem_namesAt.1 hname
      exact mem_namesAt.2 ⟨hb, e, hgrows.entries _ e he⟩
    have hnew : ∃ name ∈ namesAt files' place, name ∉ namesAt files place := by
      by_contra! hsubset'
      exact hne (congrArg _ ((Text.pairwise_sortNew _).eq_of_mem_iff (Text.pairwise_sortNew _)
        fun name => ⟨hsubset' name, fun h => hsubset h⟩))
    obtain ⟨name, hname, hold⟩ := hnew
    exact firstReading_of_refused hlater hname
      (new_name_fails hgrows hkeeps hnames hplace hname hold)

end

/-! ## Where built-in templates come from -/

/-- A template is in a file of the directory of the built-in ones, or has been shipped. -/
inductive ComesFrom (l : Library) (files : FileTree) (d : TemplateDefinition) : Prop
  | shipped (f : Text × Text) : f ∈ Shipped.files → Shipped.define f = .ok d → ComesFrom l files d
  | directory (p : Path) (place : FileTree.Names) (name : Text) :
    name ∈ namesAt files place → builtIn? files p name = .ok d → ComesFrom l files d

section

variable {files : FileTree} {p : Path}

theorem exists_of_mem_readAll {names : List Text} (h : d ∈ (readAll files p names).1) :
    ∃ name ∈ names, builtIn? files p name = .ok d := by
  induction names with
  | nil => cases h
  | cons name rest ih =>
    unfold readAll at h
    split at h
    · cases h
    · rename_i hname
      rcases List.mem_cons.1 h with rfl | h
      · exact ⟨name, .head _, hname⟩
      · obtain ⟨name', hmem, hname'⟩ := ih h
        exact ⟨name', .tail _ hmem, hname'⟩

theorem exists_of_mem_firstReading (h : d ∈ (firstReading files p).1) : ∃ place,
    ∃ name ∈ namesAt files place, builtIn? files p name = .ok d := by
  cases hdirectory : files.isDirectory p with
  | error e =>
    rw [firstReading, hdirectory] at h
    cases h
  | ok found =>
    cases found with
    | false =>
      rw [firstReading, hdirectory] at h
      cases h
    | true =>
      obtain ⟨place, hlocate, hentry⟩ := FileTree.isDirectory_eq_true.1 hdirectory
      refine ⟨place, exists_of_mem_readAll ?_⟩
      rw [firstReading_of_stands ⟨hlocate, hentry⟩] at h
      rcases hread : readAll files p (namesAt files place) with ⟨_ | ⟨d, ds⟩, e | _⟩ <;>
        rw [hread] at h <;> exact h

theorem exists_of_mem_definitions (h : d ∈ Shipped.definitions) :
    ∃ f ∈ Shipped.files, Shipped.define f = .ok d := by
  rw [Shipped.definitions, List.mem_filterMap] at h
  obtain ⟨f, hf, hd⟩ := h
  refine ⟨f, hf, ?_⟩
  cases hdefine : Shipped.define f with
  | error e =>
    rw [hdefine] at hd
    cases hd
  | ok d' =>
    rw [hdefine] at hd
    exact congrArg _ (Option.some.inj hd)

theorem comesFrom_of_mem_kept (h : d ∈ l.kept files []) : l.ComesFrom files d := by
  have hread : d ∈ (l.reading files).1 := (mem_insertAll h).resolve_right List.not_mem_nil
  cases hsource : l.builtInSource with
  | shipped =>
    have hall := @exists_of_mem_definitions d
    rw [reading_of_shipped hsource] at hread
    generalize Shipped.definitions = ds at hread hall
    obtain ⟨f, hf, hd⟩ := hall hread
    exact .shipped f hf hd
  | directory p =>
    rw [reading_of_directory hsource] at hread
    obtain ⟨place, name, hname, hd⟩ := exists_of_mem_firstReading hread
    exact .directory p place name hname hd

end

/-- The ids name files, no two of them the same one. -/
structure AreNamed (ds : List TemplateDefinition) : Prop where
  distinct : ds.Pairwise (·.id ≠ ·.id)
  no_slash : ∀ d ∈ ds, '/' ∉ d.id

/-- The built-in templates on a shelf, if there are any, were left there by a first reading. -/
def HasRead (l : Library) (s : Shelf) : Prop :=
  s.builtIns = [] ∨ ∃ files : FileTree, files.HasNames ∧ s.builtIns = l.kept files []

theorem no_slash_of_comesFrom {files : FileTree} (hnames : files.HasNames)
    (h : l.ComesFrom files d) : '/' ∉ d.id := by
  cases h with
  | shipped f hf hd =>
    have hstems : ∀ f ∈ Shipped.files, '/' ∉ Path.stemOf f.1 := by decide
    rw [(ofText_eq_ok hd).1]
    exact hstems f hf
  | directory p place name hname hd =>
    obtain ⟨b, rfl, hb, hisName⟩ := isName_of_mem_namesAt hnames hname
    rw [(ofFile_eq_ok hd).1, Path.stem_child hisName, stemOf_fileName]
    split
    · decide
    · exact hb

theorem areNamed_kept {files : FileTree} (hnames : files.HasNames) : AreNamed (l.kept files []) :=
  ⟨distinct_insertAll .nil, fun _ hd => no_slash_of_comesFrom hnames (comesFrom_of_mem_kept hd)⟩

/-- Built-in templates that a use is given come from one reading, of these files or of earlier
ones. -/
theorem HasRead.exists_kept (h : l.HasRead s) (hnames : s.files.HasNames)
    (hgiven : l.given s.files s.builtIns = .ok ds) :
    ∃ files : FileTree, files.HasNames ∧ ds = l.kept files [] := by
  have hkept := kept_of_given hgiven
  by_cases hempty : s.builtIns = []
  · rw [hempty] at hkept
    exact ⟨s.files, hnames, hkept.symm⟩
  · obtain ⟨files, hfiles, heq⟩ := h.resolve_left hempty
    rw [kept_of_ne_nil hempty] at hkept
    exact ⟨files, hfiles, hkept.symm.trans heq⟩

theorem ne_nil_of_given (h : l.given s.files s.builtIns = .ok ds) : ds ≠ [] := by
  by_cases hempty : s.builtIns = []
  · rw [hempty, given_nil] at h
    have hsome : (l.reading s.files).1 ≠ [] ∧ ds = insertAll (l.reading s.files).1 [] := by
      cases hsource : l.builtInSource with
      | shipped =>
        have hall : Shipped.definitions ≠ [] := by decide +kernel
        rw [reading_of_shipped hsource] at h ⊢
        generalize Shipped.definitions = shipped at h hall ⊢
        exact ⟨hall, (Except.ok.inj h).symm⟩
      | directory p =>
        rw [reading_of_directory hsource] at h ⊢
        cases hread : (firstReading s.files p).2 with
        | error e =>
          rw [hread] at h
          cases h
        | ok u =>
          rw [hread] at h
          obtain ⟨_, _, _, hne⟩ := firstReading_eq_ok hread
          exact ⟨hne, (Except.ok.inj h).symm⟩
    rw [hsome.2]
    exact fun hnil => hsome.1 (insertAll_eq_nil.1 hnil).1
  · rw [given_of_ne_nil hempty] at h
    exact Except.ok.inj h ▸ hempty

/-- From one tree to another, no name is added to those of the templates that are yet to be
read. -/
def KeepsNames (l : Library) (known : List TemplateDefinition) (files files' : FileTree) : Prop :=
  known = [] → ∀ p, l.builtInSource = .directory p → namesIn files' p = namesIn files p

/-- In a tree that has grown by directories, a use is given the same built-in templates, or none
at all if there is a new name among them. -/
theorem given_of_grows {files files' : FileTree} {known : List TemplateDefinition}
    (hgrows : files.Grows files') (hkeeps : files.KeepsContents files') (hnames : files'.HasNames)
    (hgiven : l.given files known = .ok ds) :
    (l.KeepsNames known files files' → l.given files' known = .ok ds) ∧
      (¬ l.KeepsNames known files files' → ∃ e, l.given files' known = .error e) := by
  by_cases hempty : known = []
  · subst hempty
    cases hsource : l.builtInSource with
    | shipped =>
      have hsame : l.given files' [] = l.given files [] := by
        rw [given_nil, given_nil, reading_of_shipped hsource, reading_of_shipped hsource]
      have hkept : l.KeepsNames [] files files' := fun _ p hp => by
        rw [hsource] at hp
        cases hp
      exact ⟨fun _ => hsame.trans hgiven, fun h => absurd hkept h⟩
    | directory p =>
      have hkept : l.KeepsNames [] files files' ↔ namesIn files' p = namesIn files p :=
        ⟨fun h => h rfl p hsource, fun h _ p' hp' => by
          rw [hsource] at hp'
          cases hp'
          exact h⟩
      rw [given_nil, reading_of_directory hsource] at hgiven ⊢
      have hread : (firstReading files p).2 = .ok () := by
        cases hread : (firstReading files p).2 with
        | error e =>
          rw [hread] at hgiven
          cases hgiven
        | ok u => rfl
      obtain ⟨hsame, hfails⟩ := firstReading_of_grows hgrows hkeeps hnames hread
      refine ⟨fun h => ?_, fun h => ?_⟩
      · rw [hsame (hkept.1 h), hgiven]
      · obtain ⟨e, he⟩ := hfails fun heq => h (hkept.2 heq)
        exact ⟨e, by rw [he]; rfl⟩
  · rw [given_of_ne_nil hempty] at hgiven ⊢
    exact ⟨fun _ => hgiven, fun h => absurd (fun hnil => absurd hnil hempty) h⟩

end Library
end Marginalia
