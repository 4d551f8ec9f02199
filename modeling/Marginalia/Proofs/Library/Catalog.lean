import Marginalia.Proofs.File.Directory
import Marginalia.Proofs.Library.Finding
import Marginalia.Proofs.Text.Order

/-
The list of a library's templates.  It holds one template for each id: the one in the last
of the user's files that are named after the id, else the built-in one.
-/
namespace Marginalia

open Use

/-! ## Names of files -/

namespace TemplateDefinition

variable {id name : Text}

theorem isFileName_iff : isFileName name = true ↔ ∃ id, name = fileName id := by
  rw [isFileName, List.isSuffixOf_iff_suffix]
  exact ⟨fun ⟨id, h⟩ => ⟨id, h.symm⟩, fun ⟨id, h⟩ => ⟨id, h.symm⟩⟩

theorem mem_of_mem_fileName {c : Char} (h : c ∈ id) : c ∈ fileName id :=
  List.mem_append_left _ h

/-- The file of an id has that id for its stem, unless its name starts with the last
point. -/
theorem stemOf_fileName (id : Text) :
    Path.stemOf (fileName id) = if id = [] then ".md".toList else id := by
  have htail : (((fileName id).reverse.takeWhile (· ≠ '.')).reverse) = ['m', 'd'] := by
    simp [fileName]
  have hlength : (fileName id).length = id.length + 3 := by simp [fileName]
  rw [Path.stemOf, htail, hlength]
  have hstem : (fileName id).take (id.length + 3 - ['m', 'd'].length - 1) = id := by
    simp [fileName]
  rw [hstem]
  cases id with
  | nil => rfl
  | cons c rest => simp

theorem isName_fileName (h : '/' ∉ id) : Path.IsName (fileName id) := by
  refine ⟨?_, ?_, ?_, ?_⟩
  · simp [fileName]
  · intro heq
    have := congrArg List.length heq
    simp [fileName] at this
  · intro heq
    have := congrArg List.length heq
    simp [fileName] at this
  · simpa [fileName] using h

/-! ## Definitions by their ids -/

variable {d e : TemplateDefinition} {ds es : List TemplateDefinition}

/-- Built-in templates, no two of which have one id. -/
structure AreBuiltIn (ds : List TemplateDefinition) : Prop where
  distinct : ds.Pairwise (·.id ≠ ·.id)
  builtIn : ∀ d ∈ ds, d.builtIn = true

theorem mem_insert : e ∈ d.insert ds → e = d ∨ e ∈ ds := by
  induction ds with
  | nil => exact fun h => .inl (List.mem_singleton.1 h)
  | cons f rest ih =>
    unfold insert
    split
    · rintro (_ | ⟨_, h⟩)
      · exact .inl rfl
      · exact .inr (.tail _ h)
    · rintro (_ | ⟨_, h⟩)
      · exact .inr (.head _)
      · exact (ih h).imp_right (.tail _)

theorem distinct_insert (h : ds.Pairwise (·.id ≠ ·.id)) :
    (d.insert ds).Pairwise (·.id ≠ ·.id) := by
  induction ds with
  | nil => exact List.pairwise_singleton _ _
  | cons f rest ih =>
    obtain ⟨hf, hrest⟩ := List.pairwise_cons.1 h
    unfold insert
    split
    · rename_i heq
      exact List.pairwise_cons.2 ⟨fun e he => heq ▸ hf e he, hrest⟩
    · rename_i hne
      refine List.pairwise_cons.2 ⟨fun e he => ?_, ih hrest⟩
      rcases mem_insert he with rfl | he
      · exact hne
      · exact hf e he

theorem find?_cons (id : Text) (d : TemplateDefinition) (ds : List TemplateDefinition) :
    find? id (d :: ds) = if d.id = id then some d else find? id ds := by
  by_cases h : d.id = id <;> simp [find?, h]

theorem find?_insert (id : Text) (d : TemplateDefinition) (ds : List TemplateDefinition) :
    find? id (d.insert ds) = if d.id = id then some d else find? id ds := by
  induction ds with
  | nil => exact find?_cons id d []
  | cons e rest ih =>
    unfold insert
    by_cases heq : e.id = d.id
    · rw [if_pos heq, find?_cons, find?_cons, heq]
      split <;> rfl
    · rw [if_neg heq, find?_cons, find?_cons, ih]
      by_cases he : e.id = id
      · have hd : d.id ≠ id := fun hd => heq (he.trans hd.symm)
        rw [if_pos he, if_neg hd, if_pos he]
      · rw [if_neg he, if_neg he]

/-- Of the definitions with an id, the last one that was put down stays. -/
theorem find?_insertAll (id : Text) (ds known : List TemplateDefinition) :
    find? id (insertAll ds known) = (find? id ds.reverse).or (find? id known) := by
  induction ds generalizing known with
  | nil => rfl
  | cons d rest ih =>
    have hreverse : find? id (rest.reverse ++ [d]) = (find? id rest.reverse).or (find? id [d]) :=
      List.find?_append
    rw [List.reverse_cons, hreverse, Option.or_assoc, find?_cons,
      show insertAll (d :: rest) known = insertAll rest (d.insert known) from rfl, ih, find?_insert]
    split <;> rfl

theorem distinct_insertAll (h : es.Pairwise (·.id ≠ ·.id)) :
    (insertAll ds es).Pairwise (·.id ≠ ·.id) := by
  induction ds generalizing es with
  | nil => exact h
  | cons d rest ih => exact ih (distinct_insert h)

theorem mem_insertAll : e ∈ insertAll ds es → e ∈ ds ∨ e ∈ es := by
  induction ds generalizing es with
  | nil => exact .inr
  | cons d rest ih =>
    intro h
    rcases ih h with h | h
    · exact .inl (.tail _ h)
    · rcases mem_insert h with rfl | h
      · exact .inl (.head _)
      · exact .inr h

theorem mem_place : e ∈ place d ds ↔ e = d ∨ e ∈ ds := by
  induction ds with
  | nil => simp [place]
  | cons f rest ih =>
    unfold place
    split
    · exact List.mem_cons
    · rw [List.mem_cons, ih, List.mem_cons]
      exact or_left_comm

/-- Sorting keeps the definitions. -/
theorem mem_sort : e ∈ sort ds ↔ e ∈ ds := by
  suffices h : ∀ sorted, e ∈ ds.foldl (fun sorted d => place d sorted) sorted ↔
      e ∈ ds ∨ e ∈ sorted from (h []).trans (or_iff_left List.not_mem_nil)
  induction ds with
  | nil => exact fun sorted => (or_iff_right List.not_mem_nil).symm
  | cons d rest ih =>
    intro sorted
    rw [List.foldl_cons, ih, mem_place, List.mem_cons, or_left_comm, or_assoc]

/-- Among definitions with different ids, an id has one definition or none. -/
theorem find?_eq_some_iff (h : ds.Pairwise (·.id ≠ ·.id)) {id : Text} :
    find? id ds = some d ↔ d ∈ ds ∧ d.id = id := by
  constructor
  · intro hfind
    exact ⟨List.mem_of_find?_eq_some hfind, by simpa using List.find?_some hfind⟩
  · rintro ⟨hmem, rfl⟩
    induction h with
    | nil => cases hmem
    | @cons f rest hf _ ih =>
      rcases List.mem_cons.1 hmem with rfl | hmem
      · rw [find?_cons, if_pos rfl]
      · rw [find?_cons, if_neg (hf d hmem), ih hmem]

/-! ## Definitions from files -/

theorem ofText_eq_ok {id : Text} {builtIn : Bool} {t : Text}
    (h : (ofText id builtIn t).1 = .ok d) : d.id = id ∧ d.builtIn = builtIn := by
  unfold ofText at h
  split at h
  · cases h
  · rename_i f _
    dsimp only at h
    cases hdescription : describe (displayName id) f.entries with
    | error e =>
      rw [hdescription] at h
      cases h
    | ok description =>
      rw [hdescription] at h
      cases h
      exact ⟨rfl, rfl⟩

theorem ofFile_eq_ok {files : FileTree} {p : Path} {builtIn : Bool}
    (h : (ofFile files p builtIn).1 = .ok d) :
    d.id = p.stem ∧ d.builtIn = builtIn ∧ files.isFile p = .ok true := by
  unfold ofFile at h
  cases htext : textOf files p with
  | error e =>
    rw [htext] at h
    cases h
  | ok t =>
    rw [htext] at h
    obtain ⟨hid, hbuiltIn⟩ := ofText_eq_ok h
    unfold textOf at htext
    split at htext
    · cases htext
    · rename_i hread
      exact ⟨hid, hbuiltIn, FileTree.isFile_of_read hread⟩

theorem builtIn_of_mem_readAll {files : FileTree} {p : Path} {names : List Text}
    (h : d ∈ (readAll files p names).1) : d.builtIn = true := by
  induction names with
  | nil => cases h
  | cons name rest ih =>
    unfold readAll at h
    split at h
    · cases h
    · rename_i hname
      rcases List.mem_cons.1 h with rfl | h
      · exact (ofFile_eq_ok hname).2.1
      · exact ih h

theorem builtIn_of_mem_firstReading {files : FileTree} {p : Path}
    (h : d ∈ (firstReading files p).1) : d.builtIn = true := by
  unfold firstReading at h
  split at h
  · cases h
  · cases h
  · split at h
    · cases h
    · rename_i names _
      have hread : d ∈ (readAll files p names).1 := by
        split at h
        · rename_i hnames
          rwa [hnames]
        · cases h
        · rename_i hnames
          rwa [hnames]
      exact builtIn_of_mem_readAll hread

end TemplateDefinition

end Marginalia
