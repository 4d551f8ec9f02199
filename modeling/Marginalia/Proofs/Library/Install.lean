import Marginalia.Library.Install
import Marginalia.Proofs.Library.Reading

/-
Copies of the built-in templates.  A copy is written only where there is nothing, so copying
loses no file, and a second time there is nothing left to write.  The user's directory is made
before the built-in templates are read, and a path may be too long for a copy: these are the
two ways in which copying fails.
-/
namespace Marginalia

open Use TemplateDefinition

/-! ## Things in a directory -/

namespace FileTree

variable {t : FileTree} {p : Path} {place : Names} {name : Text}

theorem exists?_child (h : Path.IsName name) (hp : t.locate p = .ok place)
    (hplace : t.entry? place = some .directory) (hfits : Fits (p.child name))
    (hshort : isTooLong name = false) :
    t.exists? (p.child name) = .ok (Option.isSome <| t.entry? (place ++ [name])) := by
  rw [exists?, leadsTo, find_of_locate (locate_child h hp hplace hfits hshort)]
  cases t.entry? (place ++ [name]) <;> rfl

theorem exists?_child_of_long (h : Path.IsName name) (hp : t.locate p = .ok place)
    (hplace : t.entry? place = some .directory)
    (hlong : ¬ (isTooLong name = false ∧ Fits (p.child name))) :
    t.exists? (p.child name) = .error .nameTooLong := by
  have hlocate : t.locate (p.child name) = .error .nameTooLong := by
    by_cases hfits : Fits (p.child name)
    · have htoo : isTooLong name = true := by
        rw [← Bool.not_eq_false]
        exact fun hshort => hlong ⟨hshort, hfits⟩
      rw [locate_of_fits hfits, follow_child h, follow_of_locate hp]
      exact (walk_single h hplace).trans (if_pos htoo)
    · exact if_pos (Nat.lt_of_not_le hfits)
  rw [exists?, leadsTo, find_of_locate_error hlocate]

/-- What is written where a path leads to nothing is all that is new. -/
theorem eq_put_of_write {bytes : List UInt8} {u : FileTree} (hnone : t.exists? p = .ok false)
    (hwrite : t.write p bytes = .ok u) :
    ∃ names, t.locate p = .ok names ∧ t.entry? names = none ∧ u = t.put names (.file bytes) := by
  obtain ⟨names, hlocate, h⟩ := exists_of_bind_eq_ok hwrite
  have hentry : t.entry? names = none := by
    rw [exists?, leadsTo, find_of_locate hlocate] at hnone
    cases hentry : t.entry? names with
    | none => rfl
    | some e =>
      rw [hentry] at hnone
      cases hnone
  rw [hentry] at h
  cases h
  exact ⟨names, hlocate, hentry, rfl⟩

end FileTree

namespace Library

variable {l : Library} {s t : Shelf} {directory : Path} {place : FileTree.Names}
  {ds : List TemplateDefinition} {d : TemplateDefinition}

/-! ## Writing copies -/

/-- The file of a copy. -/
def target (directory : Path) (d : TemplateDefinition) : Path := directory.child (fileName d.id)

/-- Where a copy stands, in the directory at a place. -/
def slot (place : FileTree.Names) (d : TemplateDefinition) : FileTree.Names :=
  place ++ [fileName d.id]

/-- The path of a copy does not exceed the limits on names and paths. -/
def HasRoom (directory : Path) (d : TemplateDefinition) : Prop :=
  FileTree.isTooLong (fileName d.id) = false ∧ FileTree.Fits (target directory d)

/-- The templates that have no file yet. -/
def missing (files : FileTree) (place : FileTree.Names) (ds : List TemplateDefinition) :
    List TemplateDefinition :=
  ds.filter fun d => Option.isNone <| files.entry? (slot place d)

/-- The files with a copy of a template. -/
def withCopy (place : FileTree.Names) (files : FileTree) (d : TemplateDefinition) : FileTree :=
  files.put (slot place d) (.file (Text.encode (fileText d)))

/-- The files with copies of all templates that have had none. -/
def withCopies (files : FileTree) (place : FileTree.Names) (ds : List TemplateDefinition) :
    FileTree :=
  (missing files place ds).foldl (withCopy place) files

theorem slot_inj {e : TemplateDefinition} : slot place d = slot place e ↔ d.id = e.id := by
  unfold slot fileName
  rw [List.append_cancel_left_eq, List.singleton_inj]
  exact ⟨List.append_cancel_right, fun h => by rw [h]⟩

theorem target_inj {e : TemplateDefinition} (hd : '/' ∉ d.id) (he : '/' ∉ e.id) :
    target directory d = target directory e ↔ d.id = e.id := by
  rw [target, target, Path.child_of_isName (isName_fileName hd),
    Path.child_of_isName (isName_fileName he), Path.mk.injEq, and_iff_right rfl]
  exact slot_inj

section

variable (rest : List TemplateDefinition)

theorem outcome_installAll_of_error {e : FileProblem}
    (h : s.files.exists? (target directory d) = .error e) :
    (installAll directory (d :: rest)).outcome s = (.error (.file e), s) := by
  have hquery := outcome_query (·.exists? (target directory d)) s
  rw [h] at hquery
  exact outcome_bind_of_error hquery

theorem outcome_installAll_of_present (h : s.files.exists? (target directory d) = .ok true) :
    (installAll directory (d :: rest)).outcome s = (installAll directory rest).outcome s := by
  have hquery := outcome_query (·.exists? (target directory d)) s
  rw [h] at hquery
  exact outcome_bind_of_ok hquery

variable (h : s.files.exists? (target directory d) = .ok false)

include h

theorem outcome_installAll_of_refused {e : FileProblem}
    (hwrite : s.files.write (target directory d) (Text.encode (fileText d)) = .error e) :
    (installAll directory (d :: rest)).outcome s = (.error (.file e), s) := by
  have hquery := outcome_query (·.exists? (target directory d)) s
  have hchange := outcome_query (·.write (target directory d) (Text.encode (fileText d))) s
  rw [h] at hquery
  rw [hwrite] at hchange
  exact (outcome_bind_of_ok hquery).trans (outcome_bind_of_error (outcome_bind_of_error hchange))

theorem outcome_installAll_of_written {files : FileTree}
    (hwrite : s.files.write (target directory d) (Text.encode (fileText d)) = .ok files) :
    (installAll directory (d :: rest)).outcome s =
      (((installAll directory rest).outcome { s with files }).1.map (target directory d :: ·),
        ((installAll directory rest).outcome { s with files }).2) := by
  have hquery := outcome_query (·.exists? (target directory d)) s
  have hwritten := outcome_query (·.write (target directory d) (Text.encode (fileText d))) s
  rw [h] at hquery
  rw [hwrite] at hwritten
  have hset : (setFiles files).outcome s = (.ok (), { s with files }) := rfl
  have hchange : (Use.change (·.write (target directory d) (Text.encode (fileText d)))).outcome s =
      (.ok (), { s with files }) := (outcome_bind_of_ok hwritten).trans hset
  refine (outcome_bind_of_ok hquery).trans ((outcome_bind_of_ok hchange).trans ?_)
  rcases hrest : (installAll directory rest).outcome { s with files } with ⟨_ | paths, t⟩
  · exact outcome_bind_of_error hrest
  · exact outcome_bind_of_ok hrest

end

/-- Whatever it comes to, copying loses nothing. -/
theorem grows_installAll (directory : Path) (ds : List TemplateDefinition) (s : Shelf) :
    s.files.Grows ((installAll directory ds).outcome s).2.files := by
  induction ds generalizing s with
  | nil => exact .refl _
  | cons d rest ih =>
    cases hexists : s.files.exists? (target directory d) with
    | error e =>
      rw [outcome_installAll_of_error rest hexists]
      exact .refl _
    | ok found =>
      cases found with
      | true =>
        rw [outcome_installAll_of_present rest hexists]
        exact ih s
      | false =>
        cases hwrite : s.files.write (target directory d) (Text.encode (fileText d)) with
        | error e =>
          rw [outcome_installAll_of_refused rest hexists hwrite]
          exact .refl _
        | ok files =>
          rw [outcome_installAll_of_written rest hexists hwrite]
          obtain ⟨names, _, hnone, rfl⟩ := FileTree.eq_put_of_write hexists hwrite
          have hrest := ih { s with files := s.files.put names (.file (Text.encode (fileText d))) }
          exact (FileTree.grows_put hnone _).trans hrest

/-! ## Copies in a directory -/

section

variable {files : FileTree} (hplace : Stands files directory place)

include hplace

theorem exists?_target (hslash : '/' ∉ d.id) (hroom : HasRoom directory d) :
    files.exists? (target directory d) = .ok (Option.isSome <| files.entry? (slot place d)) :=
  FileTree.exists?_child (isName_fileName hslash) hplace.located hplace.is_directory hroom.2 hroom.1

theorem locate_target (hslash : '/' ∉ d.id) (hroom : HasRoom directory d) :
    files.locate (target directory d) = .ok (slot place d) :=
  FileTree.locate_child (isName_fileName hslash) hplace.located hplace.is_directory hroom.2 hroom.1

theorem write_target (hslash : '/' ∉ d.id) (hroom : HasRoom directory d)
    (hnone : files.entry? (slot place d) = none) :
    files.write (target directory d) (Text.encode (fileText d)) = .ok (withCopy place files d) := by
  rw [FileTree.write, bind_of_eq_ok (locate_target hplace hslash hroom), hnone]
  rfl

end

theorem AreNamed.tail (h : AreNamed (d :: ds)) : AreNamed ds :=
  ⟨(List.pairwise_cons.1 h.distinct).2, fun e he => h.no_slash e (.tail _ he)⟩

theorem AreNamed.slot_ne (h : AreNamed (d :: ds)) {e : TemplateDefinition} (he : e ∈ ds) :
    slot place e ≠ slot place d :=
  fun heq => (List.pairwise_cons.1 h.distinct).1 e he (slot_inj.1 heq).symm

/-- A copy of one template does not count for the others. -/
theorem missing_withCopy (h : AreNamed (d :: ds)) (files : FileTree) :
    missing (withCopy place files d) place ds = missing files place ds := by
  refine List.filter_congr fun e he => ?_
  rw [withCopy, FileTree.entry?_put_of_ne (h.slot_ne he)]

theorem stands_withCopy (hplace : Stands s.files directory place)
    (hnone : s.files.entry? (slot place d) = none) :
    Stands (withCopy place s.files d) directory place :=
  hplace.grows (FileTree.grows_put hnone _)

/-- Where every path has room, copying writes what is missing. -/
theorem outcome_installAll (hplace : Stands s.files directory place) (hds : AreNamed ds)
    (hroom : ∀ d ∈ ds, HasRoom directory d) :
    (installAll directory ds).outcome s = (.ok ((missing s.files place ds).map (target directory)),
      { s with files := withCopies s.files place ds }) := by
  induction ds generalizing s with
  | nil => rfl
  | cons d rest ih =>
    obtain ⟨hd, hrest⟩ := List.forall_mem_cons.1 hroom
    have hslash := hds.no_slash d (.head _)
    have hexists := exists?_target hplace hslash hd
    cases hentry : s.files.entry? (slot place d) with
    | some e =>
      rw [hentry] at hexists
      have hmissing : missing s.files place (d :: rest) = missing s.files place rest :=
        List.filter_cons_of_neg (by simp [hentry])
      rw [outcome_installAll_of_present rest hexists, ih hplace hds.tail hrest, withCopies,
        withCopies, hmissing]
    | none =>
      rw [hentry] at hexists
      have hmissing : missing s.files place (d :: rest) = d :: missing s.files place rest :=
        List.filter_cons_of_pos (by simp [hentry])
      have hcopied : Stands (withCopy place s.files d) directory place :=
        stands_withCopy hplace hentry
      have hih := ih (s := { s with files := withCopy place s.files d }) hcopied hds.tail hrest
      rw [outcome_installAll_of_written rest hexists (write_target hplace hslash hd hentry), hih,
        withCopies, withCopies, missing_withCopy hds, hmissing]
      rfl

/-- Where one path has no room, copying fails. -/
theorem installAll_fails (hplace : Stands s.files directory place) (hds : AreNamed ds)
    (hroom : ∃ d ∈ ds, ¬ HasRoom directory d) :
    ∃ e, ((installAll directory ds).outcome s).1 = .error e := by
  induction ds generalizing s with
  | nil =>
    obtain ⟨d, hd, _⟩ := hroom
    cases hd
  | cons d rest ih =>
    have hslash := hds.no_slash d (.head _)
    by_cases hd : HasRoom directory d
    · have hrest : ∃ d ∈ rest, ¬ HasRoom directory d := by
        obtain ⟨e, he, hlong⟩ := hroom
        rcases List.mem_cons.1 he with rfl | he
        · exact absurd hd hlong
        · exact ⟨e, he, hlong⟩
      have hexists := exists?_target hplace hslash hd
      cases hentry : s.files.entry? (slot place d) with
      | some e =>
        rw [hentry] at hexists
        rw [outcome_installAll_of_present rest hexists]
        exact ih hplace hds.tail hrest
      | none =>
        rw [hentry] at hexists
        obtain ⟨e, he⟩ := ih (s := { s with files := withCopy place s.files d })
          (stands_withCopy hplace hentry) hds.tail hrest
        rw [outcome_installAll_of_written rest hexists (write_target hplace hslash hd hentry), he]
        exact ⟨e, rfl⟩
    · have hexists := FileTree.exists?_child_of_long (isName_fileName hslash) hplace.located
        hplace.is_directory hd
      rw [outcome_installAll_of_error rest hexists]
      exact ⟨_, rfl⟩

/-! ## The tree with its copies -/

section

variable {files : FileTree} {names : FileTree.Names} {ms : List TemplateDefinition}

theorem entry?_copies_of_ne (h : ∀ d ∈ ms, names ≠ slot place d) :
    FileTree.entry? (ms.foldl (withCopy place) files) names = files.entry? names := by
  induction ms generalizing files with
  | nil => rfl
  | cons d rest ih =>
    obtain ⟨hd, hrest⟩ := List.forall_mem_cons.1 h
    rw [List.foldl_cons, ih hrest, withCopy, FileTree.entry?_put_of_ne hd]

theorem entry?_copies_of_mem (hms : ms.Pairwise (·.id ≠ ·.id)) (h : d ∈ ms) :
    FileTree.entry? (ms.foldl (withCopy place) files) (slot place d) =
      some (.file (Text.encode (fileText d))) := by
  induction hms generalizing files with
  | nil => cases h
  | @cons e rest he _ ih =>
    rcases List.mem_cons.1 h with rfl | h
    · have hrest : ∀ e ∈ rest, slot place d ≠ slot place e := fun e hmem heq =>
        he e hmem (slot_inj.1 heq)
      have hne : slot place d ≠ [] := List.append_ne_nil_of_right_ne_nil _ (List.cons_ne_nil _ _)
      rw [List.foldl_cons, entry?_copies_of_ne hrest, withCopy, FileTree.entry?_put_self hne]
    · exact ih h

theorem mem_missing : d ∈ missing files place ds ↔ d ∈ ds ∧ files.entry? (slot place d) = none := by
  rw [missing, List.mem_filter, Option.isNone_iff_eq_none]

theorem entry?_withCopies (hds : AreNamed ds) (h : d ∈ missing files place ds) :
    FileTree.entry? (withCopies files place ds) (slot place d) =
      some (.file (Text.encode (fileText d))) :=
  entry?_copies_of_mem (hds.distinct.filter _) h

theorem entry?_withCopies_of_ne (h : ∀ d ∈ missing files place ds, names ≠ slot place d) :
    FileTree.entry? (withCopies files place ds) names = files.entry? names :=
  entry?_copies_of_ne h

theorem grows_withCopies (files : FileTree) (place : FileTree.Names)
    (ds : List TemplateDefinition) : files.Grows (withCopies files place ds) := by
  refine ⟨?_, fun names e he => ?_⟩
  · unfold withCopies
    generalize missing files place ds = ms
    induction ms generalizing files with
    | nil => rfl
    | cons d rest ih => exact ih (withCopy place files d)
  · rw [entry?_withCopies_of_ne, he]
    rintro d hd rfl
    cases he.symm.trans (mem_missing.1 hd).2

/-- Every template has its file then. -/
theorem missing_withCopies (hds : AreNamed ds) :
    missing (withCopies files place ds) place ds = [] := by
  refine List.filter_eq_nil_iff.2 fun d hd => ?_
  cases hentry : files.entry? (slot place d) with
  | some e => simp [(grows_withCopies files place ds).entries _ e hentry]
  | none => simp [entry?_withCopies hds (mem_missing.2 ⟨hd, hentry⟩)]

theorem content?_withCopies (hds : AreNamed ds) :
    (files.content? names = none ∧ (withCopies files place ds).content? names ≠ none) ↔
      ∃ d ∈ missing files place ds, names = slot place d := by
  by_cases h : ∃ d ∈ missing files place ds, names = slot place d
  · obtain ⟨d, hd, rfl⟩ := h
    refine iff_of_true ⟨?_, ?_⟩ ⟨d, hd, rfl⟩
    · rw [FileTree.content?, (mem_missing.1 hd).2]
    · rw [FileTree.content?, entry?_withCopies hds hd]
      exact Option.some_ne_none _
  · refine iff_of_false ?_ h
    rintro ⟨hnone, hsome⟩
    rw [FileTree.content?, entry?_withCopies_of_ne fun d hd heq => h ⟨d, hd, heq⟩] at hsome
    exact hsome hnone

end

/-! ## Installing -/

/-- The shelf when the user's directory has been made, or as much of the way to it as can be. -/
def furnished (s : Shelf) (directory : Path) : Shelf :=
  { s with files := (s.files.makeDirectories directory).1 }

section

variable (hchosen : l.userDirectory = some directory)

include hchosen

theorem outcome_install_start : l.install.outcome s = Use.outcome (do
    if let .error e := (s.files.makeDirectories directory).2 then throw (.file e)
    let written ← installAll directory (← l.builtIns)
    Use.report (.detail ("Installed ".toList ++ Text.ofNat written.length ++
      " default templates into ".toList ++ directory.text))
    return written) (furnished s directory) := by
  rw [install, hchosen]
  exact outcome_bind_of_ok (outcome_get s)

theorem outcome_install_of_refused {e : FileProblem}
    (hmade : (s.files.makeDirectories directory).2 = .error e) :
    l.install.outcome s = (.error (.file e), furnished s directory) := by
  rw [outcome_install_start hchosen, hmade]
  exact outcome_bind_of_error (outcome_throw _ _)

section

variable (hmade : (s.files.makeDirectories directory).2 = .ok ())

include hmade

theorem outcome_install_of_ungiven {e : Fault}
    (hgiven : l.given (furnished s directory).files s.builtIns = .error e) : ∃ log,
    l.install.outcome s = (.error e, ((furnished s directory).noting log).holding
      (l.kept (furnished s directory).files s.builtIns)) := by
  obtain ⟨log, hbuiltIns⟩ := outcome_builtIns_given l (furnished s directory)
  rw [show l.given (furnished s directory).files (furnished s directory).builtIns = .error e from
    hgiven] at hbuiltIns
  refine ⟨log, ?_⟩
  rw [outcome_install_start hchosen, hmade]
  exact outcome_bind_of_error hbuiltIns

theorem outcome_install_of_given
    (hgiven : l.given (furnished s directory).files s.builtIns = .ok ds) : ∃ log log',
    l.install.outcome s = (((installAll directory ds).outcome
        (((furnished s directory).noting log).holding ds)).1,
      ((installAll directory ds).outcome
        (((furnished s directory).noting log).holding ds)).2.noting log') := by
  obtain ⟨log, hbuiltIns⟩ := outcome_builtIns_given l (furnished s directory)
  rw [show l.given (furnished s directory).files (furnished s directory).builtIns = .ok ds from
    hgiven, show l.kept (furnished s directory).files (furnished s directory).builtIns = ds from
    kept_of_given hgiven] at hbuiltIns
  refine ⟨log, ?_⟩
  rw [outcome_install_start hchosen, hmade]
  rcases hall : (installAll directory ds).outcome
      (((furnished s directory).noting log).holding ds) with ⟨e | written, t⟩
  · refine ⟨[], (outcome_bind_of_ok hbuiltIns).trans ?_⟩
    rw [Shelf.noting_nil]
    exact outcome_bind_of_error hall
  · exact ⟨_, (outcome_bind_of_ok hbuiltIns).trans (outcome_bind_of_ok hall)⟩

end

/-- Whatever it comes to, installing loses nothing. -/
theorem grows_install (s : Shelf) : s.files.Grows (l.install.outcome s).2.files := by
  have hmakes : s.files.Grows (furnished s directory).files :=
    FileTree.grows_makeDirectories _ _
  cases hmade : (s.files.makeDirectories directory).2 with
  | error e =>
    rw [outcome_install_of_refused hchosen hmade]
    exact hmakes
  | ok u =>
    cases hgiven : l.given (furnished s directory).files s.builtIns with
    | error e =>
      obtain ⟨log, h⟩ := outcome_install_of_ungiven hchosen hmade hgiven
      rw [h]
      exact hmakes
    | ok ds =>
      obtain ⟨log, log', h⟩ := outcome_install_of_given hchosen hmade hgiven
      rw [h]
      exact hmakes.trans
        (grows_installAll directory ds (((furnished s directory).noting log).holding ds))

end

/-- Installing where there is room for every copy. -/
theorem outcome_install (hchosen : l.userDirectory = some directory)
    (hmade : (s.files.makeDirectories directory).2 = .ok ())
    (hplace : Stands (furnished s directory).files directory place) (hds : AreNamed ds)
    (hgiven : l.given (furnished s directory).files s.builtIns = .ok ds)
    (hroom : ∀ d ∈ ds, HasRoom directory d) : ∃ log, l.install.outcome s =
      (.ok ((missing (furnished s directory).files place ds).map (target directory)),
        (({ s with files := withCopies (furnished s directory).files place ds } : Shelf).noting
          log).holding ds) := by
  obtain ⟨log, log', h⟩ := outcome_install_of_given hchosen hmade hgiven
  have hcopies := outcome_installAll (s := ((furnished s directory).noting log).holding ds)
    hplace hds hroom
  rw [hcopies] at h
  refine ⟨log ++ log', h.trans ?_⟩
  rw [← Shelf.noting_noting]
  rfl

/-- Installing again, with every copy in its place, does nothing. -/
theorem outcome_install_again (hchosen : l.userDirectory = some directory)
    (hplace : Stands s.files directory place) (hds : AreNamed ds) (hne : ds ≠ [])
    (hknown : s.builtIns = ds) (hroom : ∀ d ∈ ds, HasRoom directory d)
    (hmissing : missing s.files place ds = []) :
    ∃ log, l.install.outcome s = (.ok [], s.noting log) := by
  have hdirectory := FileTree.makeDirectories_of_isDirectory
    (FileTree.isDirectory_eq_true.2 ⟨place, hplace.located, hplace.is_directory⟩)
  have hfurnished : furnished s directory = s := by rw [furnished, hdirectory]
  have hgiven : l.given s.files s.builtIns = .ok ds := by
    rw [hknown, given_of_ne_nil hne]
  obtain ⟨log, h⟩ := outcome_install hchosen (by rw [hdirectory]) (hfurnished.symm ▸ hplace) hds
    (hfurnished.symm ▸ hgiven) hroom
  rw [hfurnished, hmissing, withCopies, hmissing] at h
  refine ⟨log, h.trans ?_⟩
  rw [List.map_nil, List.foldl_nil, ← hknown]
  rfl

/-- Installing fails where a built-in template cannot be read any more, or a copy has no room. -/
theorem install_fails (hchosen : l.userDirectory = some directory)
    (hmade : (s.files.makeDirectories directory).2 = .ok ())
    (hplace : Stands (furnished s directory).files directory place) (hds : AreNamed ds)
    (hgiven : (∃ e, l.given (furnished s directory).files s.builtIns = .error e) ∨
      l.given (furnished s directory).files s.builtIns = .ok ds ∧
        ¬ ∀ d ∈ ds, HasRoom directory d) :
    ∃ e, (l.install.outcome s).1 = .error e := by
  rcases hgiven with ⟨e, hgiven⟩ | ⟨hgiven, hroom⟩
  · obtain ⟨log, h⟩ := outcome_install_of_ungiven hchosen hmade hgiven
    exact ⟨e, congrArg Prod.fst h⟩
  · obtain ⟨log, log', h⟩ := outcome_install_of_given hchosen hmade hgiven
    have hlong : ∃ d ∈ ds, ¬ HasRoom directory d := by
      by_contra! hall
      exact hroom hall
    obtain ⟨e, he⟩ := installAll_fails (s := ((furnished s directory).noting log).holding ds)
      hplace hds hlong
    exact ⟨e, (congrArg Prod.fst h).trans he⟩

/-- The files with their copies: what is new, by its paths. -/
theorem content?_copies_iff {files files' : FileTree} (hkeeps : files.KeepsContents files')
    (hplace : Stands files' directory place) (hds : AreNamed ds)
    (hroom : ∀ d ∈ ds, HasRoom directory d) (names : FileTree.Names) :
    (files.content? names = none ∧ (withCopies files' place ds).content? names ≠ none) ↔
      ∃ p ∈ (missing files' place ds).map (target directory),
        (withCopies files' place ds).locate p = .ok names := by
  have hlocate : ∀ d ∈ missing files' place ds,
      (withCopies files' place ds).locate (target directory d) = .ok (slot place d) := by
    intro d hd
    have hmem := (mem_missing.1 hd).1
    exact locate_target (hplace.grows (grows_withCopies files' place ds)) (hds.no_slash d hmem)
      (hroom d hmem)
  rw [← hkeeps, content?_withCopies hds]
  constructor
  · rintro ⟨d, hd, rfl⟩
    exact ⟨_, List.mem_map_of_mem hd, hlocate d hd⟩
  · rintro ⟨_, hp, hnames⟩
    obtain ⟨d, hd, rfl⟩ := List.mem_map.1 hp
    exact ⟨d, hd, Except.ok.inj (hnames.symm.trans (hlocate d hd))⟩

theorem exists?_copies {files : FileTree} (hplace : Stands files directory place)
    (hds : AreNamed ds) (hroom : ∀ d ∈ ds, HasRoom directory d) :
    ∀ d ∈ ds, (withCopies files place ds).exists? (target directory d) = .ok true := by
  intro d hd
  have hnone : d ∉ missing (withCopies files place ds) place ds := by
    rw [missing_withCopies hds]
    exact List.not_mem_nil
  rw [exists?_target (hplace.grows (grows_withCopies files place ds)) (hds.no_slash d hd)
    (hroom d hd)]
  cases hentry : FileTree.entry? (withCopies files place ds) (slot place d) with
  | none => exact absurd (mem_missing.2 ⟨hd, hentry⟩) hnone
  | some e => rfl

theorem nodup_targets {files : FileTree} (hds : AreNamed ds) :
    ((missing files place ds).map (target directory)).Nodup := by
  rw [List.Nodup, List.pairwise_map]
  refine (hds.distinct.filter _).imp_of_mem fun hd he hne heq => ?_
  have hslash : ∀ {d}, d ∈ missing files place ds → '/' ∉ d.id := fun hd =>
    hds.no_slash _ (mem_missing.1 hd).1
  exact hne ((target_inj (hslash hd) (hslash he)).1 heq)

section

variable (hchosen : l.userDirectory = some directory) (hnames : s.files.IsNamed)
  (hway : ∀ x ∈ directory.parts, '/' ∉ x) (hread : l.HasRead s)
  (hgiven : l.given s.files s.builtIns = .ok ds)

include hchosen hnames hway hread hgiven

/-- Installing where the directory can be made: it writes what is missing, or fails. -/
theorem install_ends (hmade : (s.files.makeDirectories directory).2 = .ok ()) :
    ((l.KeepsNames s.builtIns s.files (s.files.makeDirectories directory).1 ∧
        ∀ d ∈ ds, HasRoom directory d) ∧
      AreNamed ds ∧ ∃ place log, Stands (furnished s directory).files directory place ∧
        l.install.outcome s =
          (.ok ((missing (furnished s directory).files place ds).map (target directory)),
            (({ s with files := withCopies (furnished s directory).files place ds } : Shelf).noting
              log).holding ds)) ∨
    ¬ (l.KeepsNames s.builtIns s.files (s.files.makeDirectories directory).1 ∧
        ∀ d ∈ ds, HasRoom directory d) ∧
      ∃ e, (l.install.outcome s).1 = .error e := by
  have hgrows : s.files.Grows (furnished s directory).files := FileTree.grows_makeDirectories _ _
  obtain ⟨hsame, hlost⟩ := given_of_grows hgrows (FileTree.keepsContents_makeDirectories _ _)
    (hnames.makeDirectories hway).has_names hgiven
  obtain ⟨place, hplace⟩ : ∃ place, Stands (furnished s directory).files directory place := by
    obtain ⟨place, hlocate, hentry⟩ := FileTree.isDirectory_eq_true.1
      (FileTree.isDirectory_of_makeWay (Prod.ext rfl hmade))
    exact ⟨place, hlocate, hentry⟩
  obtain ⟨files, hfiles, hkept⟩ := hread.exists_kept hnames.has_names hgiven
  have hds : AreNamed ds := hkept ▸ areNamed_kept hfiles
  by_cases hall : l.KeepsNames s.builtIns s.files (furnished s directory).files ∧
      ∀ d ∈ ds, HasRoom directory d
  · obtain ⟨log, h⟩ := outcome_install hchosen hmade hplace hds (hsame hall.1) hall.2
    exact .inl ⟨hall, hds, place, log, hplace, h⟩
  · refine .inr ⟨hall, install_fails hchosen hmade hplace hds ?_⟩
    by_cases hold : l.KeepsNames s.builtIns s.files (furnished s directory).files
    · exact .inr ⟨hsame hold, fun hroom => hall ⟨hold, hroom⟩⟩
    · exact .inl (hlost hold)

/-- Installing overwrites nothing, and doing it again does nothing.  It fails if the user's
directory is a new name among those of the built-in templates that are yet to be read, or if the
path of a copy is too long; otherwise every template has its file then, and the files that were
not there before are those of the paths that are returned. -/
theorem install_idempotent (hmade : (s.files.makeDirectories directory).2 = .ok ()) :
    s.files.Grows (l.install.outcome s).2.files ∧
      ((∃ written, (l.install.outcome s).1 = .ok written) ↔
        l.KeepsNames s.builtIns s.files (s.files.makeDirectories directory).1 ∧
          ∀ d ∈ ds, HasRoom directory d) ∧
      ∀ written t, l.install.outcome s = (.ok written, t) →
        (∀ d ∈ ds, t.files.exists? (target directory d) = .ok true) ∧
        written.Sublist (ds.map (target directory)) ∧ written.Nodup ∧
        (∀ names, (s.files.content? names = none ∧ t.files.content? names ≠ none) ↔
          ∃ p ∈ written, t.files.locate p = .ok names) ∧
        ∃ log, l.install.outcome t = (.ok [], t.noting log) := by
  refine ⟨grows_install hchosen s, ?_⟩
  rcases install_ends hchosen hnames hway hread hgiven hmade with
    ⟨hall, hds, place, log, hplace, h⟩ | ⟨hall, e, he⟩
  · refine ⟨iff_of_true ⟨_, congrArg Prod.fst h⟩ hall, fun written t hrun => ?_⟩
    rw [h] at hrun
    cases hrun
    refine ⟨exists?_copies hplace hds hall.2, List.filter_sublist.map _, nodup_targets hds,
      content?_copies_iff (FileTree.keepsContents_makeDirectories _ _) hplace hds hall.2, ?_⟩
    exact outcome_install_again hchosen (hplace.grows (grows_withCopies _ place ds)) hds
      (ne_nil_of_given hgiven) rfl hall.2 (missing_withCopies hds)
  · refine ⟨iff_of_false ?_ hall, ?_⟩
    · rintro ⟨written, hw⟩
      cases he.symm.trans hw
    · intro written t hrun
      rw [hrun] at he
      cases he

end

/-- Two built-in templates; the user has a file under the id of the first. -/
def halfCopied : Shelf :=
  ofUser.opened
    { entries := [(["lib".toList], .directory), (["user".toList], .directory),
        (["lib".toList, "a.md".toList], .file [0x41]),
        (["lib".toList, "b.md".toList], .file [0x42]),
        (["user".toList, "a.md".toList], .file [0x5A])] } 1

def halfCopiedTemplates : List TemplateDefinition :=
  [{ id := ['a'], name := ['A'], description := "The A template.".toList, content := ['A'],
     builtIn := true },
   { id := ['b'], name := ['B'], description := "The B template.".toList, content := ['B'],
     builtIn := true }]

/-- Only the second one is copied, and nothing the second time. -/
theorem install_idempotent_halfCopied :
    halfCopied.files.IsNamed ∧ ofUser.HasRead halfCopied ∧
      ofUser.given halfCopied.files halfCopied.builtIns = .ok halfCopiedTemplates ∧
      (halfCopied.files.makeDirectories (Path.ofText "user".toList)).2 = .ok () ∧
      ∃ t, ofUser.install.outcome halfCopied = (.ok [Path.ofText "user/b.md".toList], t) ∧
        halfCopied.files.Grows t.files ∧
        ∃ log, ofUser.install.outcome t = (.ok [], t.noting log) := by
  have hnames : halfCopied.files.IsNamed := ⟨by decide +kernel, nofun⟩
  have hread : ofUser.HasRead halfCopied := .inl rfl
  have hgiven : ofUser.given halfCopied.files halfCopied.builtIns = .ok halfCopiedTemplates := by
    decide +kernel
  have hmade : (halfCopied.files.makeDirectories (Path.ofText "user".toList)).2 = .ok () := by
    decide +kernel
  have hwritten : (ofUser.install.outcome halfCopied).1 =
      .ok [Path.ofText "user/b.md".toList] := by
    decide +kernel
  obtain ⟨hgrows, _, hafter⟩ :=
    install_idempotent rfl hnames (by decide +kernel) hread hgiven hmade
  obtain ⟨_, _, _, _, hagain⟩ := hafter _ _ (Prod.ext hwritten rfl)
  exact ⟨hnames, hread, hgiven, hmade, _, Prod.ext hwritten rfl, hgrows, hagain⟩

/-- The library of two files, with a directory among them, named like a template, for the
user. -/
def ofInner : Library :=
  { ofTwo with userDirectory := some (Path.ofText "lib/x.md".toList) }

/-- The directory can be made and the templates can be read, but not any more when it has been
made; what has been read is copied the second time. -/
theorem install_fails_inner :
    (ofInner.given (twoFiles [0x41] [0x42]).files []).isOk ∧
      ((twoFiles [0x41] [0x42]).files.makeDirectories (Path.ofText "lib/x.md".toList)).2 = .ok () ∧
      (ofInner.install.outcome (twoFiles [0x41] [0x42])).1 = .error (.file .isDirectory) ∧
      (ofInner.install.outcome (ofInner.install.outcome (twoFiles [0x41] [0x42])).2).1 =
        .ok [Path.ofText "lib/x.md/a.md".toList, Path.ofText "lib/x.md/b.md".toList] := by
  decide +kernel

end Library
end Marginalia
