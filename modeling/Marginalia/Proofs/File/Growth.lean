import Marginalia.Proofs.File.Contents

/-
Trees that only grow.  What a path finds, it finds in every later tree; making directories and
putting files where there is nothing makes a tree grow.
-/
namespace Marginalia
namespace FileTree

variable {t u v : FileTree} {p : Path} {names place : Names} {xs : List Text} {e : FileEntry}
  {n : Nat}

/-- A later tree has everything that an earlier one has, in its place. -/
structure Grows (t u : FileTree) : Prop where
  workplace : u.workplace = t.workplace
  entries : ∀ names e, t.entry? names = some e → u.entry? names = some e

namespace Grows

theorem refl (t : FileTree) : t.Grows t := ⟨rfl, fun _ _ => id⟩

theorem trans (h : t.Grows u) (h' : u.Grows v) : t.Grows v :=
  ⟨h'.workplace.trans h.workplace, fun names e he => h'.entries names e (h.entries names e he)⟩

theorem walk (h : t.Grows u) (hwalk : t.walk place xs = .ok names) :
    u.walk place xs = .ok names := by
  induction xs generalizing place with
  | nil => exact hwalk
  | cons x xs ih =>
    rw [FileTree.walk] at hwalk ⊢
    split at hwalk
    · cases hwalk
    · cases hwalk
    · rename_i hplace
      rw [h.entries place _ hplace]
      dsimp only
      split at hwalk
      · rw [if_pos ‹_›]
        exact ih hwalk
      · rw [if_neg ‹_›]
        split at hwalk
        · cases hwalk
        · rw [if_neg ‹_›]
          exact ih hwalk

theorem locate (h : t.Grows u) (hlocate : t.locate p = .ok names) : u.locate p = .ok names := by
  rw [locate_of_fits (fits_of_locate hlocate), follow, h.workplace]
  exact h.walk (follow_of_locate hlocate)

theorem find (h : t.Grows u) (hfind : t.find p = .ok e) : u.find p = .ok e := by
  obtain ⟨names, hlocate, hentry⟩ := find_eq_ok.1 hfind
  exact find_eq_ok.2 ⟨names, h.locate hlocate, h.entries names e hentry⟩

theorem leadsTo {kind : FileEntry → Bool} (h : t.Grows u) (hleads : t.leadsTo p kind = .ok true) :
    u.leadsTo p kind = .ok true := by
  obtain ⟨e, he, hkind⟩ := leadsTo_eq_true.1 hleads
  exact leadsTo_eq_true.2 ⟨e, h.find he, hkind⟩

theorem read {bytes : List UInt8} (h : t.Grows u) (hread : t.read p = .ok bytes) :
    u.read p = .ok bytes := by
  obtain ⟨e, he, hbytes⟩ := exists_of_bind_eq_ok hread
  rw [FileTree.read, bind_of_eq_ok (h.find he)]
  exact hbytes

theorem content (h : t.Grows u) {bytes : List UInt8} (hnames : t.content? names = some bytes) :
    u.content? names = some bytes := by
  unfold content? at hnames ⊢
  split at hnames
  · rename_i hentry
    rw [h.entries names _ hentry]
    exact hnames
  · cases hnames

end Grows

theorem grows_put (h : t.entry? names = none) (e : FileEntry) : t.Grows (t.put names e) := by
  refine ⟨rfl, fun other e' hother => ?_⟩
  have hne : other ≠ names := by
    rintro rfl
    cases h.symm.trans hother
  rwa [entry?_put_of_ne hne]

/-! ## Directories -/

theorem makeDirectory_eq_ok (h : t.makeDirectory p = .ok u) : ∃ names,
    t.locate p = .ok names ∧ t.entry? names = none ∧ u = t.put names .directory := by
  obtain ⟨names, hlocate, h⟩ := exists_of_bind_eq_ok h
  split at h
  · cases h
  · rename_i hnone
    cases h
    exact ⟨names, hlocate, hnone, rfl⟩

theorem grows_makeDirectory (h : t.makeDirectory p = .ok u) : t.Grows u := by
  obtain ⟨names, _, hnone, rfl⟩ := makeDirectory_eq_ok h
  exact grows_put hnone _

theorem grows_makeDirectories (t : FileTree) (p : Path) : t.Grows (t.makeDirectories p).1 :=
  makeWay_induction (P := fun _ => True) (fun _ => trivial) Grows.refl (fun h h' => h.trans h')
    (fun _ h => grows_makeDirectory h) t trivial _

theorem isDirectory_of_makeDirectory (h : t.makeDirectory p = .ok u) :
    u.isDirectory p = .ok true := by
  obtain ⟨names, hlocate, hnone, rfl⟩ := makeDirectory_eq_ok h
  have hne : names ≠ [] := by
    rintro rfl
    cases hnone
  exact isDirectory_eq_true.2 ⟨names, (grows_put hnone _).locate hlocate, entry?_put_self hne⟩

/-- Where a directory was to be made, there is one afterwards. -/
theorem isDirectory_of_makeWay (h : t.makeWay p n = (u, .ok ())) : u.isDirectory p = .ok true := by
  -- a directory that cannot be made may be there already
  have hsettled : ∀ {t u : FileTree} {problem : FileProblem}, t.orPresent p problem = .ok u →
      u.isDirectory p = .ok true := by
    intro t u problem hpresent
    obtain ⟨rfl, hdirectory⟩ := of_orPresent hpresent
    exact hdirectory
  cases n with
  | zero => cases h
  | succ n =>
    unfold makeWay at h
    dsimp only at h
    split at h
    · cases h
      exact isDirectory_of_makeDirectory ‹_›
    · split at h
      · cases h
      · split at h
        · cases h
        · split at h
          · cases h
            exact isDirectory_of_makeDirectory ‹_›
          · split at h
            · cases h
              exact hsettled ‹_›
            · cases h
    · split at h
      · cases h
        exact hsettled ‹_›
      · cases h

/-- A directory that is there is not made again. -/
theorem makeDirectories_of_isDirectory (h : t.isDirectory p = .ok true) :
    t.makeDirectories p = (t, .ok ()) := by
  obtain ⟨names, hlocate, hentry⟩ := isDirectory_eq_true.1 h
  have hmade : t.makeDirectory p = .error .exists := by
    rw [makeDirectory, bind_of_eq_ok hlocate, hentry]
  have hpresent : t.orPresent p .exists = .ok t := by
    rw [orPresent, bind_of_eq_ok h]
    rfl
  rw [makeDirectories, makeWay, hmade]
  dsimp only
  rw [hpresent]

/-! ## Names -/

theorem no_slash_of_walk (hplace : ∀ x ∈ place, '/' ∉ x) (hxs : ∀ x ∈ xs, '/' ∉ x)
    (h : t.walk place xs = .ok names) : ∀ x ∈ names, '/' ∉ x := by
  induction xs generalizing place with
  | nil =>
    cases h
    exact hplace
  | cons x xs ih =>
    obtain ⟨hx, hrest⟩ := List.forall_mem_cons.1 hxs
    rw [FileTree.walk] at h
    split at h
    · cases h
    · cases h
    · split at h
      · exact ih (fun x hx => hplace x (List.dropLast_subset _ hx)) hrest h
      · split at h
        · cases h
        · exact ih (List.forall_mem_append.2 ⟨hplace, List.forall_mem_singleton.2 hx⟩) hrest h

theorem no_slash_of_locate (hplace : ∀ x ∈ t.workplace, '/' ∉ x) (hp : ∀ x ∈ p.parts, '/' ∉ x)
    (h : t.locate p = .ok names) : ∀ x ∈ names, '/' ∉ x := by
  refine no_slash_of_walk ?_ hp (follow_of_locate h)
  split
  · nofun
  · exact hplace

theorem HasNames.put (h : t.HasNames) (hnames : ∀ x ∈ names, '/' ∉ x) (e : FileEntry) :
    (t.put names e).HasNames := by
  suffices hgo : ∀ entries : List (Names × FileEntry), (∀ f ∈ entries, ∀ x ∈ f.1, '/' ∉ x) →
      ∀ f ∈ FileTree.put.go names e entries, ∀ x ∈ f.1, '/' ∉ x from hgo t.entries h
  intro entries hentries
  induction entries with
  | nil => exact List.forall_mem_singleton.2 hnames
  | cons f rest ih =>
    obtain ⟨hf, hrest⟩ := List.forall_mem_cons.1 hentries
    unfold FileTree.put.go
    split
    · exact List.forall_mem_cons.2 ⟨hnames, hrest⟩
    · exact List.forall_mem_cons.2 ⟨hf, ih hrest⟩

/-- No slash stands in a name, be it in the tree or on the way to the workplace. -/
structure IsNamed (t : FileTree) : Prop where
  has_names : t.HasNames
  workplace : ∀ x ∈ t.workplace, '/' ∉ x

theorem IsNamed.makeDirectory (h : t.IsNamed) (hp : ∀ x ∈ p.parts, '/' ∉ x)
    (hmake : t.makeDirectory p = .ok u) : u.IsNamed := by
  obtain ⟨names, hlocate, _, rfl⟩ := makeDirectory_eq_ok hmake
  exact ⟨h.has_names.put (no_slash_of_locate h.workplace hp hlocate) _, h.workplace⟩

theorem IsNamed.makeDirectories (h : t.IsNamed) (hp : ∀ x ∈ p.parts, '/' ∉ x) :
    (t.makeDirectories p).1.IsNamed :=
  makeWay_induction (P := fun p => ∀ x ∈ p.parts, '/' ∉ x) (R := fun t u => t.IsNamed → u.IsNamed)
    (fun hp x hx => hp x (List.dropLast_subset _ hx)) (fun _ => id) (fun h h' => h' ∘ h)
    (fun hp hmake h => h.makeDirectory hp hmake) t hp _ h

end FileTree
end Marginalia
