import Marginalia.Proofs.Library.Calls
import Marginalia.Proofs.Library.Catalog

/-
Looking up an id and listing.  The one joins the id to a path, the other takes the ids from
the names of the files that it finds; they agree on an id exactly if the path leads to the
file that is listed under it.
-/
namespace Marginalia

open Use TemplateDefinition

namespace Library

variable {l : Library} {files : FileTree} {g : Except Fault (List TemplateDefinition)}
  {known ds : List TemplateDefinition} {id : Text} {s : Shelf}

/-! ## What is listed -/

/-- The files of the user's templates in the order in which they are read. -/
def userPaths (l : Library) (files : FileTree) : Except Fault (List Path) :=
  match l.userDirectory with
  | none => .ok []
  | some directory =>
    match files.isDirectory directory with
    | .error e => .error (.file e)
    | .ok false => .ok []
    | .ok true => (namesIn files directory).map fun names => names.map directory.child

/-- The user's templates in some files, when all of them can be read. -/
def readUsers (files : FileTree) : List Path → Except Fault (List TemplateDefinition)
  | [] => .ok []
  | p :: rest => do
    let d ← (ofFile files p false).1
    let ds ← readUsers files rest
    .ok (d :: ds)

/-- The templates of a library. -/
def listed (l : Library) (files : FileTree) (g : Except Fault (List TemplateDefinition)) :
    Except Fault (List TemplateDefinition) := do
  let known ← g
  let paths ← l.userPaths files
  let users ← readUsers files paths
  .ok (sort (insertAll users known))

/-- The file that is listed under an id: the last one with that stem. -/
def listedFile (l : Library) (files : FileTree) (id : Text) : Option Path :=
  match l.userPaths files with
  | .ok paths => paths.reverse.find? (·.stem = id)
  | .error _ => none

theorem finds_addUserTemplates (directory : Path) (ds : List TemplateDefinition)
    (names : List Text) : l.Finds files g (addUserTemplates directory ds names)
      ((readUsers files (names.map directory.child)).map fun users => insertAll users ds) := by
  induction names generalizing ds with
  | nil => exact .pure ds
  | cons name rest ih =>
    have hread : l.Finds files g _ _ := finds_readDefinition (directory.child name) false
    rw [List.map_cons, readUsers]
    cases h : (ofFile files (directory.child name) false).1 with
    | error e =>
      rw [h] at hread
      exact hread.fails
    | ok d =>
      rw [h] at hread
      refine hread.next ?_
      have hrest := ih (d.insert ds)
      cases husers : readUsers files (rest.map directory.child) with
      | error e =>
        rw [husers] at hrest
        exact hrest
      | ok users =>
        rw [husers] at hrest
        exact hrest

theorem finds_templateNames (directory : Path) :
    l.Finds files g (templateNames directory) (namesIn files directory) :=
  .of_noting fun s hfiles => ⟨[], by rw [outcome_templateNames, hfiles, Shelf.noting_nil]⟩

theorem finds_list : l.Finds files g l.list (l.listed files g) := by
  refine finds_builtIns.bind fun ds => ?_
  unfold userPaths
  cases l.userDirectory with
  | none => exact .pure (sort ds)
  | some directory =>
    have hquery : l.Finds files g (Use.query (·.isDirectory directory)) _ := .query _
    dsimp only
    cases hdirectory : files.isDirectory directory with
    | error e =>
      rw [hdirectory] at hquery
      exact hquery.fails
    | ok found =>
      rw [hdirectory] at hquery
      refine hquery.next ?_
      cases found with
      | false => exact .pure (sort ds)
      | true =>
        have hnames : l.Finds files g _ _ := finds_templateNames directory
        cases h : namesIn files directory with
        | error e =>
          rw [h] at hnames
          exact hnames.fails
        | ok names =>
          rw [h] at hnames
          refine hnames.next ?_
          have husers : l.Finds files g _ _ := finds_addUserTemplates directory ds names
          show l.Finds files g _ (readUsers files (names.map directory.child) >>= fun users =>
            .ok (sort (insertAll users ds)))
          cases hread : readUsers files (names.map directory.child) with
          | error e =>
            rw [hread] at husers
            exact husers.fails
          | ok users =>
            rw [hread] at husers
            exact husers.next (.pure _)

/-! ## What is listed under an id -/

theorem forall₂_readUsers {paths : List Path} {users : List TemplateDefinition}
    (h : readUsers files paths = .ok users) :
    List.Forall₂ (fun p d => (ofFile files p false).1 = .ok d) paths users := by
  induction paths generalizing users with
  | nil =>
    cases h
    exact .nil
  | cons p rest ih =>
    obtain ⟨d, hd, h⟩ := exists_of_bind_eq_ok h
    obtain ⟨ds, hds, h⟩ := exists_of_bind_eq_ok h
    cases h
    exact .cons hd (ih hds)

theorem exists_readUsers {paths : List Path} :
    (∃ users, readUsers files paths = .ok users) ↔
      ∀ p ∈ paths, ∃ d, (ofFile files p false).1 = .ok d := by
  refine ⟨?_, exists_each (readUsers files) rfl fun _ _ => rfl⟩
  rintro ⟨users, h⟩
  have hread := forall₂_readUsers h
  clear h
  induction hread with
  | nil => nofun
  | cons hd _ ih => exact List.forall_mem_cons.2 ⟨⟨_, hd⟩, ih⟩

/-- The template in a file, when the file can be read. -/
def templateIn (files : FileTree) (p : Path) : Option TemplateDefinition :=
  (ofFile files p false).1.toOption

theorem builtIn_of_templateIn {p : Path} {d : TemplateDefinition}
    (h : templateIn files p = some d) : d.builtIn = false := by
  unfold templateIn at h
  cases hd : (ofFile files p false).1 with
  | error e =>
    rw [hd] at h
    cases h
  | ok d' =>
    rw [hd] at h
    cases h
    exact (ofFile_eq_ok hd).2.1

theorem find?_of_forall₂ {paths : List Path} {users : List TemplateDefinition}
    (h : List.Forall₂ (fun p d => (ofFile files p false).1 = .ok d) paths users) (id : Text) :
    find? id users = (paths.find? (·.stem = id)).bind (templateIn files) := by
  induction h with
  | nil => rfl
  | @cons p d paths users hd _ ih =>
    have hstem : d.id = p.stem := (ofFile_eq_ok hd).1
    rw [find?_cons, hstem]
    by_cases hp : p.stem = id
    · rw [if_pos hp, List.find?_cons_of_pos (by simpa using hp)]
      exact (congrArg Except.toOption hd).symm
    · rw [if_neg hp, List.find?_cons_of_neg (by simpa using hp), ih]

/-- What is listed under an id. -/
def listedAs (l : Library) (files : FileTree) (known : List TemplateDefinition) (id : Text) :
    Option TemplateDefinition :=
  ((l.listedFile files id).bind (templateIn files)).or (find? id known)

/-- A list holds what is listed under each id, and no more. -/
theorem listed_eq_ok (hknown : AreBuiltIn known) (h : l.listed files (.ok known) = .ok ds) :
    (∀ id d, (d ∈ ds ∧ d.id = id) ↔ l.listedAs files known id = some d) ∧
      ∃ paths, l.userPaths files = .ok paths ∧
        ∀ p ∈ paths, ∃ d, (ofFile files p false).1 = .ok d := by
  obtain ⟨_, ⟨⟩, h⟩ := exists_of_bind_eq_ok h
  obtain ⟨paths, hpaths, h⟩ := exists_of_bind_eq_ok h
  obtain ⟨users, husers, h⟩ := exists_of_bind_eq_ok h
  cases h
  refine ⟨fun id d => ?_, paths, hpaths, exists_readUsers.1 ⟨users, husers⟩⟩
  have hfind : find? id (insertAll users known) = l.listedAs files known id := by
    have hread := List.rel_reverse (forall₂_readUsers husers)
    rw [find?_insertAll, find?_of_forall₂ hread, listedAs, listedFile, hpaths]
  rw [mem_sort, ← hfind]
  exact (find?_eq_some_iff (distinct_insertAll hknown.distinct)).symm

/-! ## The user's directory -/

/-- The user's directory is there, in its place. -/
structure HasDirectory (l : Library) (files : FileTree) (directory : Path)
    (place : FileTree.Names) : Prop where
  chosen : l.userDirectory = some directory
  located : files.locate directory = .ok place
  is_directory : files.entry? place = some .directory

/-- The names of the templates in a place, in the order in which they are read. -/
def namesAt (files : FileTree) (place : FileTree.Names) : List Text :=
  Text.sortNew ((files.namesIn place).filter isFileName)

variable {directory p : Path} {place : FileTree.Names} {name : Text}

theorem mem_namesAt : name ∈ namesAt files place ↔
    (∃ b, name = fileName b) ∧ ∃ e, files.entry? (place ++ [name]) = some e := by
  rw [namesAt, Text.mem_sortNew, List.mem_filter, FileTree.mem_namesIn, isFileName_iff, and_comm]

theorem HasDirectory.userPaths_eq (h : l.HasDirectory files directory place) :
    l.userPaths files = .ok ((namesAt files place).map directory.child) := by
  have hdirectory : files.isDirectory directory = .ok true :=
    FileTree.isDirectory_eq_true.2 ⟨place, h.located, h.is_directory⟩
  have hnames : namesIn files directory = .ok (namesAt files place) := by
    rw [namesIn, h.located]
    rfl
  rw [userPaths, h.chosen]
  dsimp only
  rw [hdirectory, hnames]
  rfl

/-- Without a directory of the user, nothing of the user's is listed. -/
theorem userPaths_cases {paths : List Path} (h : l.userPaths files = .ok paths) :
    (paths = [] ∧ ∀ directory ∈ l.userDirectory, files.isDirectory directory = .ok false) ∨
      ∃ directory place, l.HasDirectory files directory place := by
  unfold userPaths at h
  cases hchosen : l.userDirectory with
  | none =>
    rw [hchosen] at h
    cases h
    exact .inl ⟨rfl, nofun⟩
  | some directory =>
    rw [hchosen] at h
    dsimp only at h
    split at h
    · cases h
    · rename_i hdirectory
      cases h
      exact .inl ⟨rfl, by rintro _ ⟨rfl⟩; exact hdirectory⟩
    · rename_i hdirectory
      obtain ⟨place, hlocate, hentry⟩ := FileTree.isDirectory_eq_true.1 hdirectory
      exact .inr ⟨directory, place, hchosen, hlocate, hentry⟩

section

variable (hnames : files.HasNames)

include hnames

theorem isName_of_mem_namesAt (h : name ∈ namesAt files place) :
    ∃ b, name = fileName b ∧ '/' ∉ b ∧ Path.IsName name := by
  obtain ⟨⟨b, rfl⟩, hentry⟩ := mem_namesAt.1 h
  have hslash := hnames.no_slash (FileTree.mem_namesIn.2 hentry)
  have hb : '/' ∉ b := fun hmem => hslash (mem_of_mem_fileName hmem)
  exact ⟨b, rfl, hb, isName_fileName hb⟩

/-- A file that is listed under an id stands in the user's directory, and its name is made
from the id or is the id. -/
theorem exists_of_listedFile (h : l.listedFile files id = some p) : ∃ directory place b,
    l.HasDirectory files directory place ∧ fileName b ∈ namesAt files place ∧ '/' ∉ b ∧
      p = directory.child (fileName b) ∧ Path.stemOf (fileName b) = id := by
  unfold listedFile at h
  split at h
  · rename_i paths hpaths
    have hmem := List.mem_reverse.1 (List.mem_of_find?_eq_some h)
    have hstem : p.stem = id := by simpa using List.find?_some h
    rcases userPaths_cases hpaths with ⟨rfl, _⟩ | ⟨directory, place, hdirectory⟩
    · cases hmem
    · rw [hdirectory.userPaths_eq] at hpaths
      cases hpaths
      obtain ⟨name, hname, rfl⟩ := List.mem_map.1 hmem
      obtain ⟨b, rfl, hb, hisName⟩ := isName_of_mem_namesAt hnames hname
      rw [Path.stem_child hisName] at hstem
      exact ⟨directory, place, b, hdirectory, hname, hb, rfl, hstem⟩
  · cases h

end

theorem rel_of_find?_reverse {α : Type} {R : α → α → Prop} {P : α → Bool} {xs : List α} {x y : α}
    (hxs : xs.Pairwise R) (hx : xs.reverse.find? P = some x) (hy : y ∈ xs) (hP : P y = true) :
    y = x ∨ R y x := by
  obtain ⟨_, as, bs, heq, has⟩ := List.find?_eq_some_iff_append.1 hx
  have hmem : y ∈ as ++ x :: bs := heq ▸ List.mem_reverse.2 hy
  rcases List.mem_append.1 hmem with hmem | hmem
  · exact absurd hP (by simpa using has y hmem)
  · rcases List.mem_cons.1 hmem with rfl | hmem
    · exact .inl rfl
    · have hreverse : (as ++ x :: bs).Pairwise fun a b => R b a := heq ▸ List.pairwise_reverse.2 hxs
      exact .inr ((List.pairwise_cons.1 (List.pairwise_append.1 hreverse).2.1).1 y hmem)

/-- The files of the user's templates ascend by their names. -/
theorem pairwise_name (hnames : files.HasNames) (directory : Path) (place : FileTree.Names) :
    ((namesAt files place).map directory.child).Pairwise fun p q => p.name < q.name := by
  rw [List.pairwise_map]
  refine (Text.pairwise_sortNew _).imp_of_mem fun hm hn hlt => ?_
  obtain ⟨_, _, _, hm⟩ := isName_of_mem_namesAt hnames hm
  obtain ⟨_, _, _, hn⟩ := isName_of_mem_namesAt hnames hn
  rwa [Path.name_child hm, Path.name_child hn]

/-- The file that an id leads to in the user's directory is listed under the id; where
another file has the stem as well, it is the last one. -/
theorem listedFile_of_isFile (hnames : files.HasNames)
    (hdirectory : l.HasDirectory files directory place) (hne : id ≠ []) (hid : '/' ∉ id)
    (hfile : files.isFile (directory.child (fileName id)) = .ok true) :
    l.listedFile files id = some (directory.child (fileName id)) := by
  have hname := isName_fileName hid
  have hstem : (directory.child (fileName id)).stem = id := by
    rw [Path.stem_child hname, stemOf_fileName, if_neg hne]
  have hmem : fileName id ∈ namesAt files place := by
    obtain ⟨names, bytes, hlocate, hentry⟩ := FileTree.isFile_eq_true.1 hfile
    obtain rfl := FileTree.locate_child_eq hname hdirectory.located hdirectory.is_directory hlocate
    exact mem_namesAt.2 ⟨⟨id, rfl⟩, _, hentry⟩
  have hpath : directory.child (fileName id) ∈ (namesAt files place).map directory.child :=
    List.mem_map.2 ⟨_, hmem, rfl⟩
  cases hlisted : l.listedFile files id with
  | none =>
    rw [listedFile, hdirectory.userPaths_eq] at hlisted
    have hnone := List.find?_eq_none.1 hlisted _ (List.mem_reverse.2 hpath)
    exact absurd hstem (by simpa using hnone)
  | some p =>
    obtain ⟨directory', _, b, hdirectory', _, hb, rfl, hb'⟩ := exists_of_listedFile hnames hlisted
    obtain rfl := Option.some.inj (hdirectory'.chosen.symm.trans hdirectory.chosen)
    rw [stemOf_fileName] at hb'
    split at hb'
    · -- the file whose name is the id comes before the one that the id leads to
      rename_i hempty
      subst hempty hb'
      rw [listedFile, hdirectory.userPaths_eq] at hlisted
      have hlast := rel_of_find?_reverse (pairwise_name hnames _ place) hlisted hpath
        (by simpa using hstem)
      rw [Path.name_child hname, Path.name_child (isName_fileName hb)] at hlast
      rcases hlast with heq | hlt
      · rw [heq]
      · exact absurd (Text.lt_iff.2 hlt) (by decide)
    · rw [hb']

/-! ## Looking up -/

/-- Looking up an id agrees with a list of templates: what is listed under the id is found,
and where nothing is, the default template. -/
def AgreesOn (l : Library) (s : Shelf) (default : TemplateDefinition)
    (ds : List TemplateDefinition) (id : Text) : Prop :=
  (∀ d ∈ ds, d.id = id → ((l.find id).outcome s).1 = .ok d) ∧
    ((∀ d ∈ ds, d.id ≠ id) → ((l.find id).outcome s).1 = .ok default)

variable {default : TemplateDefinition}

theorem found_eq (hdefault : l.defaultIn known = .ok default) :
    l.found files (.ok known) id =
      (l.userTemplate files id).map fun d => (d.or (find? id known)).getD default := by
  unfold found
  cases l.userTemplate files id with
  | error e => rfl
  | ok d =>
    rw [bind_of_eq_ok rfl]
    cases d with
    | some d => rfl
    | none =>
      dsimp only
      rw [bind_of_eq_ok rfl]
      cases find? id known with
      | some d => rfl
      | none => exact hdefault

theorem agreesOn_iff (hknown : AreBuiltIn known) (hdefault : l.defaultIn known = .ok default)
    (hgiven : l.given s.files s.builtIns = .ok known)
    (hlisted : l.listed s.files (.ok known) = .ok ds) :
    l.AgreesOn s default ds id ↔ (l.userTemplate s.files id).map
        (fun d => (d.or (find? id known)).getD default) =
      .ok ((l.listedAs s.files known id).getD default) := by
  have hfind : ((l.find id).outcome s).1 = l.found s.files (.ok known) id := by
    obtain ⟨log, ds, hrun, _⟩ := finds_find id s rfl hgiven
    rw [hrun]
  have hheld := (listed_eq_ok hknown hlisted).1 id
  rw [AgreesOn, hfind, ← found_eq hdefault]
  cases hentry : l.listedAs s.files known id with
  | some d =>
    obtain ⟨hmem, hid⟩ := (hheld d).2 hentry
    constructor
    · exact fun h => h.1 d hmem hid
    · refine fun h => ⟨fun d' hmem' hid' => ?_, fun hnone => absurd hid (hnone d hmem)⟩
      obtain rfl := Option.some.inj (hentry.symm.trans ((hheld d').1 ⟨hmem', hid'⟩))
      exact h
  | none =>
    have hnone : ∀ d ∈ ds, d.id ≠ id := fun d hmem hid => by
      cases hentry.symm.trans ((hheld d).1 ⟨hmem, hid⟩)
    exact ⟨fun h => h.2 hnone, fun h => ⟨fun d hmem hid => absurd hid (hnone d hmem), fun _ => h⟩⟩

theorem userFile_eq_some : l.userFile files id = .ok (some p) ↔ ∃ directory,
    l.userDirectory = some directory ∧ p = directory.child (fileName id) ∧
      files.isFile p = .ok true := by
  unfold userFile
  cases l.userDirectory with
  | none => exact ⟨nofun, by rintro ⟨_, ⟨⟩, _⟩⟩
  | some directory =>
    dsimp only
    constructor
    · intro h
      split at h
      · cases h
      · rename_i found hfile
        cases found with
        | false => cases h
        | true =>
          cases h
          exact ⟨directory, rfl, rfl, hfile⟩
    · rintro ⟨_, ⟨rfl⟩, rfl, hfile⟩
      rw [hfile]
      rfl

theorem userTemplate_of_none (h : l.userFile files id = .ok none) :
    l.userTemplate files id = .ok none :=
  bind_of_eq_ok h _

theorem userTemplate_of_some (h : l.userFile files id = .ok (some p)) :
    l.userTemplate files id = (ofFile files p false).1.map some := by
  refine (bind_of_eq_ok h _).trans ?_
  dsimp only
  cases (ofFile files p false).1 <;> rfl

theorem builtIn_of_userTemplate {d : TemplateDefinition}
    (h : l.userTemplate files id = .ok (some d)) : d.builtIn = false := by
  obtain ⟨x, _, h⟩ := exists_of_bind_eq_ok h
  cases x with
  | none => cases h
  | some p =>
    obtain ⟨d', hd', h⟩ := exists_of_bind_eq_ok h
    cases h
    exact (ofFile_eq_ok hd').2.1

/-- A file that is listed under an id lies where the id leads, if the id leads to a file. -/
theorem listedFile_of_userFile (hnames : files.HasNames) {q : Path}
    (hfile : l.userFile files id = .ok (some p)) (hlisted : l.listedFile files id = some q) :
    l.listedFile files id = some p := by
  obtain ⟨directory, hchosen, rfl, hfile⟩ := userFile_eq_some.1 hfile
  obtain ⟨directory', place, b, hdirectory, _, hb, _, hstem⟩ := exists_of_listedFile hnames hlisted
  obtain rfl := Option.some.inj (hdirectory.chosen.symm.trans hchosen)
  rw [stemOf_fileName] at hstem
  have hid : id ≠ [] ∧ '/' ∉ id := by
    split at hstem
    · rw [← hstem]
      decide
    · exact hstem ▸ ⟨‹_›, hb⟩
  exact listedFile_of_isFile hnames hdirectory hid.1 hid.2 hfile

/-- What comes in place of built-in templates can be told from them. -/
theorem getD_or_inj {u v k : Option TemplateDefinition} (hu : ∀ d ∈ u, d.builtIn = false)
    (hv : ∀ d ∈ v, d.builtIn = false) (hk : (k.getD default).builtIn = true) :
    (u.or k).getD default = (v.or k).getD default ↔ u = v := by
  refine ⟨fun h => ?_, fun h => by rw [h]⟩
  cases u with
  | none =>
    cases v with
    | none => rfl
    | some d =>
      have hd : k.getD default = d := h
      rw [hd, hv d rfl] at hk
      cases hk
  | some d =>
    cases v with
    | none =>
      have hd : d = k.getD default := h
      rw [← hd, hu d rfl] at hk
      cases hk
    | some d' => exact congrArg some h

/-- The user's template of an id is the one that is listed exactly if it is in the same
file. -/
theorem userTemplate_eq_listed_iff (hnames : files.HasNames)
    (hreadable : ∀ q ∈ l.listedFile files id, ∃ d, (ofFile files q false).1 = .ok d) :
    l.userTemplate files id = .ok ((l.listedFile files id).bind (templateIn files)) ↔
      l.userFile files id = .ok (l.listedFile files id) := by
  cases hfile : l.userFile files id with
  | error e =>
    rw [userTemplate, hfile]
    exact ⟨nofun, nofun⟩
  | ok x =>
    cases x with
    | none =>
      rw [userTemplate_of_none hfile]
      cases hq : l.listedFile files id with
      | none => exact ⟨fun _ => rfl, fun _ => rfl⟩
      | some q =>
        obtain ⟨d, hd⟩ := hreadable q hq
        rw [Option.bind_some, templateIn, hd]
        exact ⟨nofun, nofun⟩
    | some p =>
      rw [userTemplate_of_some hfile]
      cases hq : l.listedFile files id with
      | none =>
        refine ⟨fun h => ?_, nofun⟩
        cases hd : (ofFile files p false).1 with
        | error e =>
          rw [hd] at h
          cases h
        | ok d =>
          rw [hd] at h
          cases h
      | some q =>
        obtain rfl : p = q :=
          Option.some.inj ((listedFile_of_userFile hnames hfile hq).symm.trans hq)
        obtain ⟨d, hd⟩ := hreadable p hq
        rw [Option.bind_some, templateIn, hd]
        exact ⟨fun _ => rfl, fun _ => rfl⟩

/-- What is found is what is listed exactly if it comes from the same file. -/
theorem found_is_listed_iff (hnames : files.HasNames) (hknown : AreBuiltIn known)
    (hdefault : default ∈ known)
    (hreadable : ∀ q ∈ l.listedFile files id, ∃ d, (ofFile files q false).1 = .ok d) :
    (l.userTemplate files id).map (fun d => (d.or (find? id known)).getD default) =
        .ok ((l.listedAs files known id).getD default) ↔
      l.userFile files id = .ok (l.listedFile files id) := by
  rw [← userTemplate_eq_listed_iff hnames hreadable]
  have hbuiltIn : ((find? id known).getD default).builtIn = true := by
    cases hfind : find? id known with
    | none => exact hknown.builtIn default hdefault
    | some d => exact hknown.builtIn d (List.mem_of_find?_eq_some hfind)
  have hlisted : ∀ d ∈ (l.listedFile files id).bind (templateIn files), d.builtIn = false := by
    intro d hd
    obtain ⟨q, hq, hd⟩ := Option.bind_eq_some_iff.1 hd
    exact builtIn_of_templateIn hd
  cases hu : l.userTemplate files id with
  | error e => exact ⟨nofun, nofun⟩
  | ok u =>
    have huser : ∀ d ∈ u, d.builtIn = false := fun d hd => builtIn_of_userTemplate (hd ▸ hu)
    show Except.ok _ = _ ↔ _
    rw [Except.ok.injEq, Except.ok.injEq]
    exact getD_or_inj huser hlisted hbuiltIn

/-! ## Ids that name a file in the user's directory -/

/-- The path that is made from an id does not exceed the limits on names and paths. -/
def IsShort (l : Library) (id : Text) : Prop :=
  ∀ directory ∈ l.userDirectory, FileTree.isTooLong (fileName id) = false ∧
    FileTree.Fits (directory.child (fileName id))

theorem userFile_eq_listedFile (hnames : files.HasNames) {paths : List Path}
    (hpaths : l.userPaths files = .ok paths)
    (hreadable : ∀ q ∈ l.listedFile files id, ∃ d, (ofFile files q false).1 = .ok d)
    (hne : id ≠ []) (hid : '/' ∉ id) (hpoint : id ≠ ".md".toList) (hshort : l.IsShort id) :
    l.userFile files id = .ok (l.listedFile files id) := by
  have hname := isName_fileName hid
  rcases userPaths_cases hpaths with ⟨rfl, hnone⟩ | ⟨directory, place, hdirectory⟩
  · have hlisted : l.listedFile files id = none := by
      rw [listedFile, hpaths]
      rfl
    rw [hlisted, userFile]
    cases hchosen : l.userDirectory with
    | none => rfl
    | some directory =>
      obtain ⟨_, hfits⟩ := hshort directory hchosen
      dsimp only
      rw [FileTree.isFile_child_of_not_directory hname (hnone directory hchosen) hfits]
      rfl
  · obtain ⟨hlength, hfits⟩ := hshort directory hdirectory.chosen
    obtain ⟨found, hfound, _⟩ := FileTree.isFile_child_of_directory hname hdirectory.located
      hdirectory.is_directory hfits hlength
    have hfile : l.userFile files id =
        .ok (if found then some (directory.child (fileName id)) else none) := by
      rw [userFile, hdirectory.chosen]
      dsimp only
      rw [hfound]
    rw [hfile]
    cases found with
    | true => exact congrArg _ (listedFile_of_isFile hnames hdirectory hne hid hfound).symm
    | false =>
      cases hq : l.listedFile files id with
      | none => rfl
      | some q =>
        obtain ⟨directory', _, b, hdirectory', _, _, rfl, hstem⟩ := exists_of_listedFile hnames hq
        obtain rfl := Option.some.inj (hdirectory'.chosen.symm.trans hdirectory.chosen)
        obtain ⟨d, hd⟩ := hreadable _ hq
        rw [stemOf_fileName] at hstem
        split at hstem
        · exact absurd hstem.symm hpoint
        · obtain rfl := hstem
          cases hfound.symm.trans (ofFile_eq_ok hd).2.2

theorem listedFile_eq_none (hnames : files.HasNames) (h : id = [] ∨ '/' ∈ id) :
    l.listedFile files id = none := by
  cases hq : l.listedFile files id with
  | none => rfl
  | some q =>
    obtain ⟨_, _, b, _, _, hb, _, hstem⟩ := exists_of_listedFile hnames hq
    rw [stemOf_fileName] at hstem
    split at hstem
    · rw [← hstem] at h
      exact absurd h (by decide)
    · rw [← hstem] at h
      exact absurd h (by simp_all)

/-! ## The whole library -/

theorem builtIn_of_mem_shipped {d : TemplateDefinition} (h : d ∈ Shipped.definitions) :
    d.builtIn = true := by
  rw [Shipped.definitions, List.mem_filterMap] at h
  obtain ⟨f, _, hf⟩ := h
  cases hd : Shipped.define f with
  | error e =>
    rw [hd] at hf
    cases hf
  | ok d' =>
    rw [hd] at hf
    obtain rfl := Option.some.inj hf
    exact (ofText_eq_ok hd).2

theorem builtIn_of_mem_reading {d : TemplateDefinition} (h : d ∈ (l.reading files).1) :
    d.builtIn = true := by
  cases hsource : l.builtInSource with
  | shipped =>
    have hall := @builtIn_of_mem_shipped
    rw [reading_of_shipped hsource] at h
    generalize Shipped.definitions = ds at h hall
    exact hall h
  | directory p =>
    rw [reading_of_directory hsource] at h
    exact builtIn_of_mem_firstReading h

theorem areBuiltIn_kept (h : AreBuiltIn known) : AreBuiltIn (l.kept files known) := by
  by_cases hknown : known = []
  · rw [hknown, kept_nil]
    refine ⟨distinct_insertAll .nil, fun d hd => ?_⟩
    exact builtIn_of_mem_reading ((mem_insertAll hd).resolve_right List.not_mem_nil)
  · rwa [kept_of_ne_nil hknown]

/-- Whatever calls leave behind, the built-in templates remain what they are. -/
theorem Keeps.areBuiltIn {t : Shelf} (h : l.Keeps s t) (hs : AreBuiltIn s.builtIns) :
    AreBuiltIn t.builtIns := by
  rcases h.builtIns_eq with heq | heq
  · rwa [heq]
  · rw [heq]
    exact areBuiltIn_kept hs

/-- Looking up an id agrees with the list of the templates exactly if the id leads to the
file that is listed under it.  So it does when the id, as it stands, names a file in the
user's directory; when it is empty or has a slash in it, it does only if it leads to no
file at all.  The list is given where every file of the user's can be read. -/
theorem find_agrees_with_list (hbuiltIns : AreBuiltIn s.builtIns) (hnames : s.files.HasNames)
    (hgiven : (l.builtIns.outcome s).1 = .ok known)
    (hdefault : find? l.settings.defaultTemplate known = some default) :
    ((∃ ds, (l.list.outcome s).1 = .ok ds) ↔ ∃ paths, l.userPaths s.files = .ok paths ∧
        ∀ p ∈ paths, ∃ d, (ofFile s.files p false).1 = .ok d) ∧
      ∀ ds, (l.list.outcome s).1 = .ok ds → ∀ id,
        (l.AgreesOn s default ds id ↔ l.userFile s.files id = .ok (l.listedFile s.files id)) ∧
        ((id = [] ∨ '/' ∈ id) →
          (l.AgreesOn s default ds id ↔ l.userFile s.files id = .ok none)) ∧
        (id ≠ [] → '/' ∉ id → id ≠ ".md".toList → l.IsShort id →
          l.AgreesOn s default ds id) := by
  have hgiven : l.given s.files s.builtIns = .ok known := by
    obtain ⟨log, h⟩ := outcome_builtIns_given l s
    rwa [h] at hgiven
  have hknown : AreBuiltIn known := kept_of_given hgiven ▸ areBuiltIn_kept hbuiltIns
  have hlist : (l.list.outcome s).1 = l.listed s.files (.ok known) := by
    obtain ⟨log, ds, h, _⟩ := finds_list s rfl hgiven
    rw [h]
  have hin : l.defaultIn known = .ok default := by rw [defaultIn, hdefault]
  rw [hlist]
  constructor
  · constructor
    · rintro ⟨ds, h⟩
      exact (listed_eq_ok hknown h).2
    · rintro ⟨paths, hpaths, hreadable⟩
      obtain ⟨users, husers⟩ := exists_readUsers.2 hreadable
      refine ⟨sort (insertAll users known), ?_⟩
      rw [listed, bind_of_eq_ok rfl, bind_of_eq_ok hpaths, bind_of_eq_ok husers]
  · intro ds hds id
    obtain ⟨_, paths, hpaths, hreadable⟩ := listed_eq_ok hknown hds
    have hreadable : ∀ q ∈ l.listedFile s.files id, ∃ d, (ofFile s.files q false).1 = .ok d := by
      intro q hq
      rw [listedFile, hpaths] at hq
      exact hreadable q (List.mem_reverse.1 (List.mem_of_find?_eq_some hq))
    have hiff : l.AgreesOn s default ds id ↔
        l.userFile s.files id = .ok (l.listedFile s.files id) :=
      (agreesOn_iff hknown hin hgiven hds).trans
        (found_is_listed_iff hnames hknown (List.mem_of_find?_eq_some hdefault) hreadable)
    refine ⟨hiff, fun hid => ?_, fun hne hid hpoint hshort => ?_⟩
    · rw [hiff, listedFile_eq_none hnames hid]
    · exact hiff.2 (userFile_eq_listedFile hnames hpaths hreadable hne hid hpoint hshort)

/-- A user's directory with templates in it and in a directory below it; one of the files has
nothing but the suffix for a name. -/
def nested : Shelf :=
  ofUser.opened
    { entries := [(["lib".toList], .directory), (["user".toList], .directory),
        (["user".toList, "sub".toList], .directory),
        (["lib".toList, "default.md".toList], .file [0x44]),
        (["user".toList, "a.md".toList], .file [0x41]),
        (["user".toList, ".md".toList], .file [0x45]),
        (["user".toList, "sub".toList, "x.md".toList], .file [0x58])] } 1

def nestedDefault : TemplateDefinition :=
  { id := "default".toList, name := "Default".toList,
    description := "The Default template.".toList, content := ['D'], builtIn := true }

/-- The templates that are listed there. -/
def nestedList : List TemplateDefinition :=
  [{ id := ".md".toList, name := ".Md".toList, description := "The .Md template.".toList,
     content := ['E'], builtIn := false },
   { id := ['a'], name := ['A'], description := "The A template.".toList, content := ['A'],
     builtIn := false },
   nestedDefault]

/-- The list and a look agree on the template in the user's directory, and on an id that has
no file. -/
theorem find_agrees_with_list_nested :
    AreBuiltIn nested.builtIns ∧ nested.files.HasNames ∧
      (ofUser.builtIns.outcome nested).1 = .ok [nestedDefault] ∧
      (ofUser.list.outcome nested).1 = .ok nestedList ∧
      ofUser.AgreesOn nested nestedDefault nestedList ['a'] ∧
      ofUser.AgreesOn nested nestedDefault nestedList "sub/y".toList := by
  have hbuiltIns : AreBuiltIn nested.builtIns := ⟨.nil, nofun⟩
  have hnames : nested.files.HasNames := by decide +kernel
  have hgiven : (ofUser.builtIns.outcome nested).1 = .ok [nestedDefault] := by decide +kernel
  have hlist : (ofUser.list.outcome nested).1 = .ok nestedList := by decide +kernel
  have hdefault : find? ofUser.settings.defaultTemplate [nestedDefault] = some nestedDefault := by
    decide +kernel
  have hagrees := (find_agrees_with_list hbuiltIns hnames hgiven hdefault).2 nestedList hlist
  refine ⟨hbuiltIns, hnames, hgiven, hlist, ?_, ?_⟩
  · refine (hagrees ['a']).2.2 (by decide) (by decide) (by decide) ?_
    rintro _ ⟨rfl⟩
    decide +kernel
  · exact ((hagrees "sub/y".toList).2.1 (by decide)).2 (by decide +kernel)

/-- They do not agree on the template below it, which is found and not listed, nor on the one
without a name, which is listed and not found. -/
theorem find_disagrees_with_list_nested :
    (ofUser.list.outcome nested).1 = .ok nestedList ∧
      (ofUser.fallback.outcome nested).1 = .ok nestedDefault ∧
      (∀ d ∈ nestedList, d.id ≠ "sub/x".toList) ∧
      ((ofUser.find "sub/x".toList).outcome nested).1 = .ok
        { id := ['x'], name := ['X'], description := "The X template.".toList, content := ['X'],
          builtIn := false } ∧
      (∃ d ∈ nestedList, d.id = ".md".toList) ∧
      ((ofUser.find ".md".toList).outcome nested).1 = .ok nestedDefault := by
  decide +kernel

end Library
end Marginalia
