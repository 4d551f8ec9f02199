import Marginalia.Proofs.File.Directory

/-
What becomes of the contents of files.  Making directories changes none; writing a file
changes that of the one file that its path leads to.
-/
namespace Marginalia
namespace FileTree

variable {t u : FileTree} {p : Path} {names other : Names} {e : FileEntry} {bytes : List UInt8}

/-- What the file under some names holds, if there is one. -/
def content? (t : FileTree) (names : Names) : Option (List UInt8) :=
  match t.entry? names with
  | some (.file bytes) => some bytes
  | _ => none

/-- A later tree has the same files, and they hold the same. -/
def KeepsContents (t u : FileTree) : Prop := ∀ names, u.content? names = t.content? names

theorem KeepsContents.refl (t : FileTree) : t.KeepsContents t := fun _ => rfl

theorem KeepsContents.trans {v : FileTree} (h : t.KeepsContents u) (h' : u.KeepsContents v) :
    t.KeepsContents v :=
  fun names => (h' names).trans (h names)

theorem content?_of_entry? (h : u.entry? names = t.entry? names) :
    u.content? names = t.content? names := by
  rw [content?, content?, h]

/-! ## Single entries -/

theorem lookup_put_go (names other : Names) (e : FileEntry) (entries : List (Names × FileEntry)) :
    (put.go names e entries).lookup other =
      if other = names then some e else entries.lookup other := by
  induction entries with
  | nil =>
    by_cases h : other = names
    · simp [put.go, h]
    · simp [put.go, List.lookup_cons, h, beq_false_of_ne h]
  | cons x rest ih =>
    obtain ⟨n, f⟩ := x
    unfold put.go
    by_cases hn : n = names
    · subst hn
      by_cases h : other = n
      · simp [h]
      · simp [List.lookup_cons, h, beq_false_of_ne h]
    · rw [if_neg hn, List.lookup_cons, List.lookup_cons, ih]
      by_cases h : other = n
      · subst h
        simp [hn]
      · simp [beq_false_of_ne h]

theorem entry?_put_of_ne (h : other ≠ names) : entry? (t.put names e) other = t.entry? other := by
  unfold entry? put
  rw [lookup_put_go, if_neg h]

theorem entry?_put_self (h : names ≠ []) : entry? (t.put names e) names = some e := by
  unfold entry? put
  rw [lookup_put_go, if_pos rfl, if_neg (by simpa using h)]

/-! ## Making directories -/

theorem keepsContents_makeDirectory (h : t.makeDirectory p = .ok u) : t.KeepsContents u := by
  obtain ⟨names, _, h⟩ := exists_of_bind_eq_ok h
  intro other
  split at h
  · cases h
  · rename_i hnone
    cases h
    by_cases hother : other = names
    · subst hother
      have hne : other ≠ [] := by
        rintro rfl
        cases hnone
      rw [content?, content?, entry?_put_self hne, hnone]
    · exact content?_of_entry? (entry?_put_of_ne hother)

theorem of_orPresent {problem : FileProblem} (h : t.orPresent p problem = .ok u) :
    u = t ∧ t.isDirectory p = .ok true := by
  obtain ⟨found, hfound, h⟩ := exists_of_bind_eq_ok h
  cases found with
  | true =>
    cases h
    exact ⟨rfl, hfound⟩
  | false => cases h

/-- What making one directory does to a tree, over and over, is done by making the directories
on the way to a path, as far as they can be made. -/
theorem makeWay_induction {P : Path → Prop} {R : FileTree → FileTree → Prop}
    (parent : ∀ {p}, P p → P p.parent) (refl : ∀ t, R t t)
    (trans : ∀ {t u v}, R t u → R u v → R t v)
    (step : ∀ {t p u}, P p → t.makeDirectory p = .ok u → R t u) (t : FileTree) (hp : P p)
    (n : Nat) : R t (t.makeWay p n).1 := by
  have hpresent : ∀ {t p problem u}, t.orPresent p problem = .ok u → R t u := by
    intro t p problem u h
    rw [(of_orPresent h).1]
    exact refl t
  induction n generalizing t p with
  | zero => exact refl t
  | succ n ih =>
    unfold makeWay
    dsimp only
    split
    · exact step hp ‹_›
    · split
      · exact refl t
      · have hway := ih t (parent hp)
        split
        · rename_i hparent
          rwa [hparent] at hway
        · rename_i hparent
          rw [hparent] at hway
          split
          · exact trans hway (step hp ‹_›)
          · split
            · exact trans hway (hpresent ‹_›)
            · exact hway
    · split
      · exact hpresent ‹_›
      · exact refl t

theorem keepsContents_makeDirectories (t : FileTree) (p : Path) :
    t.KeepsContents (t.makeDirectories p).1 :=
  makeWay_induction (P := fun _ => True) (fun _ => trivial) KeepsContents.refl (fun h h' => h.trans h')
    (fun _ h => keepsContents_makeDirectory h) t trivial _

/-! ## Writing -/

/-- A later tree has the file at a path with other contents, and the other files as they
were. -/
def Writes (t : FileTree) (p : Path) (bytes : List UInt8) (u : FileTree) : Prop :=
  ∃ names, t.locate p = .ok names ∧ u.content? names = some bytes ∧
    ∀ other, other ≠ names → u.content? other = t.content? other

theorem writes_of_write (h : t.write p bytes = .ok u) : t.Writes p bytes u := by
  obtain ⟨names, hlocate, h⟩ := exists_of_bind_eq_ok h
  have hput : u = t.put names (.file bytes) ∧ names ≠ [] := by
    split at h
    · cases h
    · rename_i hentry
      cases h
      refine ⟨rfl, ?_⟩
      rintro rfl
      exact hentry rfl
  obtain ⟨rfl, hne⟩ := hput
  refine ⟨names, hlocate, ?_, fun other hother => content?_of_entry? (entry?_put_of_ne hother)⟩
  rw [content?, entry?_put_self hne]

end FileTree
end Marginalia
