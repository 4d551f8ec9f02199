import Marginalia.File.Tree
import Marginalia.Proofs.Ensures
import Marginalia.Proofs.Text.Cut

/-
What stands in a directory, by its listing and by a path.  A name in a directory is listed
there exactly if the path of the directory, with the name behind it, leads to something.
-/
namespace Marginalia

/-- A text that names something in a directory. -/
structure Path.IsName (name : Text) : Prop where
  ne_nil : name ≠ []
  ne_same : name ≠ ['.']
  ne_parent : name ≠ ['.', '.']
  no_slash : '/' ∉ name

namespace Path

variable {p : Path} {name : Text}

theorem child_of_isName (h : IsName name) : p.child name = ⟨p.root, p.parts ++ [name]⟩ := by
  have hparts : (ofText name).parts = [name] := by
    rw [ofText, Text.fields_of_not_mem h.no_slash]
    refine List.filter_eq_self.2 fun part hpart => ?_
    rw [List.mem_singleton.1 hpart]
    simp [h.ne_nil, h.ne_same]
  have hroot : (ofText name).isAbsolute = false := by
    have hstart : name.takeWhile (· = '/') = [] := by
      cases hname : name with
      | nil => rfl
      | cons c rest =>
        have hc : c ≠ '/' := fun hc => h.no_slash (by simp [hname, hc])
        exact List.takeWhile_cons_of_neg (by simpa using hc)
    simp only [isAbsolute, ofText, hstart, List.length_nil, List.isEmpty_nil, Bool.not_true]
  rw [child, join, hroot, hparts]
  rfl

theorem name_child (h : IsName name) : (p.child name).name = name := by
  rw [child_of_isName h, Path.name, List.getLast?_concat, Option.getD_some]

theorem stem_child (h : IsName name) : (p.child name).stem = stemOf name := by
  rw [stem, name_child h]

end Path

namespace FileTree

variable {t : FileTree} {p : Path} {place : Names} {name : Text}

/-- A path that is short enough to be followed at all. -/
def Fits (p : Path) : Prop := (Text.encode p.text).length ≤ maxPath

instance (p : Path) : Decidable (Fits p) := inferInstanceAs (Decidable (_ ≤ _))

theorem walk_append (place : Names) (xs ys : List Text) :
    t.walk place (xs ++ ys) = t.walk place xs >>= fun place => t.walk place ys := by
  induction xs generalizing place with
  | nil => rfl
  | cons x xs ih =>
    rw [List.cons_append, walk, walk]
    split
    · rfl
    · rfl
    · split
      · exact ih _
      · split
        · rfl
        · exact ih _

/-- The names under which a path finds something, but for the limit on its length. -/
def follow (t : FileTree) (p : Path) : Except FileProblem Names :=
  t.walk (if p.isAbsolute then [] else t.workplace) p.parts

theorem locate_of_fits (h : Fits p) : t.locate p = t.follow p := if_neg (Nat.not_lt.2 h)

theorem fits_of_locate {names : Names} (h : t.locate p = .ok names) : Fits p := by
  unfold locate at h
  split at h
  · cases h
  · rename_i hlength
    exact Nat.not_lt.1 hlength

theorem follow_of_locate {names : Names} (h : t.locate p = .ok names) : t.follow p = .ok names :=
  (locate_of_fits (fits_of_locate h)).symm.trans h

theorem follow_child (h : Path.IsName name) :
    t.follow (p.child name) = t.follow p >>= fun place => t.walk place [name] := by
  rw [Path.child_of_isName h, follow, walk_append]
  rfl

theorem walk_single (h : Path.IsName name) (hplace : t.entry? place = some .directory) :
    t.walk place [name] = if isTooLong name then .error .nameTooLong else .ok (place ++ [name]) := by
  rw [walk, hplace]
  dsimp only
  rw [if_neg h.ne_parent]
  rfl

/-- The path of something in a directory. -/
theorem locate_child (h : Path.IsName name) (hp : t.locate p = .ok place)
    (hplace : t.entry? place = some .directory) (hfits : Fits (p.child name))
    (hshort : isTooLong name = false) : t.locate (p.child name) = .ok (place ++ [name]) := by
  rw [locate_of_fits hfits, follow_child h, follow_of_locate hp]
  refine (walk_single h hplace).trans (if_neg ?_)
  rw [hshort]
  exact Bool.false_ne_true

/-- What a path finds in a directory has its place there. -/
theorem locate_child_eq {names : Names} (h : Path.IsName name) (hp : t.locate p = .ok place)
    (hplace : t.entry? place = some .directory) (hchild : t.locate (p.child name) = .ok names) :
    names = place ++ [name] := by
  have hfollow := follow_of_locate hchild
  rw [follow_child h, follow_of_locate hp] at hfollow
  have hwalk := (walk_single h hplace).symm.trans hfollow
  split at hwalk
  · cases hwalk
  · exact (Except.ok.inj hwalk).symm

/-! ## Kinds of things -/

theorem leadsTo_eq_true {kind : FileEntry → Bool} :
    t.leadsTo p kind = .ok true ↔ ∃ e, t.find p = .ok e ∧ kind e = true := by
  unfold leadsTo
  split
  · rename_i e he
    simp [he]
  all_goals simp_all

theorem find_of_locate {names : Names} (h : t.locate p = .ok names) :
    t.find p = match t.entry? names with
      | some e => .ok e
      | none => .error .notFound :=
  bind_of_eq_ok h _

theorem find_of_locate_error {e : FileProblem} (h : t.locate p = .error e) :
    t.find p = .error e := by
  rw [find, h]
  rfl

theorem find_eq_ok {e : FileEntry} : t.find p = .ok e ↔
    ∃ names, t.locate p = .ok names ∧ t.entry? names = some e := by
  cases hlocate : t.locate p with
  | error e =>
    rw [find_of_locate_error hlocate]
    exact ⟨nofun, by rintro ⟨_, h, _⟩; cases h⟩
  | ok names =>
    rw [find_of_locate hlocate]
    constructor
    · intro h
      cases hentry : t.entry? names with
      | none => simp [hentry] at h
      | some e' => exact ⟨names, rfl, by simpa [hentry] using h⟩
    · rintro ⟨_, ⟨rfl⟩, hentry⟩
      rw [hentry]

theorem isDirectory_eq_true : t.isDirectory p = .ok true ↔
    ∃ place, t.locate p = .ok place ∧ t.entry? place = some .directory := by
  refine leadsTo_eq_true.trans ⟨?_, ?_⟩
  · rintro ⟨e, he, hkind⟩
    cases e with
    | file bytes => cases hkind
    | directory => exact find_eq_ok.1 he
  · exact fun h => ⟨.directory, find_eq_ok.2 h, rfl⟩

theorem isFile_eq_true : t.isFile p = .ok true ↔
    ∃ names bytes, t.locate p = .ok names ∧ t.entry? names = some (.file bytes) := by
  refine leadsTo_eq_true.trans ⟨?_, ?_⟩
  · rintro ⟨e, he, hkind⟩
    cases e with
    | file bytes =>
      obtain ⟨names, hnames, hentry⟩ := find_eq_ok.1 he
      exact ⟨names, bytes, hnames, hentry⟩
    | directory => cases hkind
  · rintro ⟨names, bytes, hnames, hentry⟩
    exact ⟨.file bytes, find_eq_ok.2 ⟨names, hnames, hentry⟩, rfl⟩

/-- A file that can be read is a file. -/
theorem isFile_of_read {bytes : List UInt8} (h : t.read p = .ok bytes) : t.isFile p = .ok true := by
  obtain ⟨e, he, h⟩ := exists_of_bind_eq_ok h
  cases e with
  | file bytes => exact leadsTo_eq_true.2 ⟨_, he, rfl⟩
  | directory => cases h

/-- In a directory, what is found under a name depends on what stands there. -/
theorem isFile_child_of_directory (h : Path.IsName name) (hp : t.locate p = .ok place)
    (hplace : t.entry? place = some .directory) (hfits : Fits (p.child name))
    (hshort : isTooLong name = false) :
    ∃ found, t.isFile (p.child name) = .ok found ∧
      (found = true ↔ ∃ bytes, t.entry? (place ++ [name]) = some (.file bytes)) := by
  rw [isFile, leadsTo, find_of_locate (locate_child h hp hplace hfits hshort)]
  rcases t.entry? (place ++ [name]) with _ | bytes | _
  · exact ⟨false, rfl, nofun, nofun⟩
  · exact ⟨true, rfl, fun _ => ⟨bytes, rfl⟩, fun _ => rfl⟩
  · exact ⟨false, rfl, nofun, nofun⟩

/-- There is nothing in what is no directory. -/
theorem walk_single_of_not_directory (hplace : t.entry? place ≠ some .directory) :
    t.walk place [name] = .error .notFound ∨ t.walk place [name] = .error .notDirectory := by
  rw [walk]
  split
  · exact .inl rfl
  · exact .inr rfl
  · contradiction

theorem isFile_child_of_not_directory (h : Path.IsName name) (hp : t.isDirectory p = .ok false)
    (hfits : Fits (p.child name)) : t.isFile (p.child name) = .ok false := by
  have hlost : t.follow (p.child name) = .error .notFound ∨
      t.follow (p.child name) = .error .notDirectory := by
    rw [follow_child h]
    cases hlocate : t.locate p with
    | ok place =>
      rw [bind_of_eq_ok (follow_of_locate hlocate)]
      refine walk_single_of_not_directory fun hplace => ?_
      rw [isDirectory_eq_true.2 ⟨place, hlocate, hplace⟩] at hp
      cases hp
    | error e =>
      rw [isDirectory, leadsTo, find_of_locate_error hlocate] at hp
      have hshort : Fits p := by
        by_contra hlong
        rw [show t.locate p = .error .nameTooLong from if_pos (Nat.lt_of_not_le hlong)] at hlocate
        cases hlocate
        cases hp
      rw [locate_of_fits hshort] at hlocate
      rw [hlocate]
      cases e with
      | notFound => exact .inl rfl
      | notDirectory => exact .inr rfl
      | _ => cases hp
  rw [isFile, leadsTo]
  rcases hlost with hlost | hlost <;>
    rw [find_of_locate_error ((locate_of_fits hfits).trans hlost)]

/-! ## Listing -/

theorem isSome_lookup {k : Names} {entries : List (Names × FileEntry)} :
    (entries.lookup k).isSome ↔ ∃ e, (k, e) ∈ entries := by
  induction entries with
  | nil => simp
  | cons x rest ih =>
    obtain ⟨n, f⟩ := x
    by_cases h : k = n
    · simp [h]
    · simp [h, ih, List.lookup_cons, beq_false_of_ne h]

/-- A name is listed in a directory exactly if something stands there under it. -/
theorem mem_namesIn : name ∈ t.namesIn place ↔ ∃ e, t.entry? (place ++ [name]) = some e := by
  have hentry : t.entry? (place ++ [name]) = t.entries.lookup (place ++ [name]) := by
    unfold entry?
    simp
  rw [hentry, ← Option.isSome_iff_exists, isSome_lookup, namesIn, List.mem_filterMap]
  constructor
  · rintro ⟨⟨names, e⟩, hmem, hname⟩
    dsimp only at hname
    split at hname
    · rename_i last hlast
      split at hname
      · rename_i hplace
        cases hname
        refine ⟨e, ?_⟩
        rw [← hplace, List.dropLast_append_getLast?  _ hlast]
        exact hmem
      · cases hname
    · cases hname
  · rintro ⟨e, hmem⟩
    refine ⟨_, hmem, ?_⟩
    simp

/-- No slash stands in a name. -/
def HasNames (t : FileTree) : Prop := ∀ e ∈ t.entries, ∀ name ∈ e.1, '/' ∉ name

instance (t : FileTree) : Decidable t.HasNames :=
  inferInstanceAs (Decidable (∀ e ∈ t.entries, ∀ name ∈ e.1, '/' ∉ name))

theorem HasNames.no_slash (h : t.HasNames) (hname : name ∈ t.namesIn place) : '/' ∉ name := by
  rw [namesIn, List.mem_filterMap] at hname
  obtain ⟨⟨names, e⟩, hmem, hname⟩ := hname
  dsimp only at hname
  split at hname
  · rename_i last hlast
    split at hname
    · cases hname
      exact h _ hmem _ (List.mem_of_getLast? hlast)
    · cases hname
  · cases hname

end FileTree
end Marginalia
