import Marginalia.Proofs.Command.Act
import Marginalia.Proofs.Library.Calls

/-
What a run does to files.  It makes directories, and the last thing in it that may fail is
that it writes its document: a run that ends before that has changed the contents of no
file, and one that does not has changed the contents of one.
-/
namespace Marginalia
namespace Job

variable {w : Surroundings} {j : Job} {before : FileTree} {s : Session}

open Act

/-! ## Finding the files -/

/-- The directory of templates is looked for only. -/
theorem ends_checkTemplateDirectory (h : before.KeepsContents s.files) :
    Ends before (fun _ t => t = s) j.checkTemplateDirectory s := by
  unfold checkTemplateDirectory
  split
  · exact .pure rfl
  · refine .query h fun found _ => ?_
    cases found with
    | true => exact .pure rfl
    | false => exact .giveUp _ h

/-- A run that is to print the template looks for nothing else. -/
theorem ends_prepare_printing (hprints : j.printsTemplate = true) :
    Ends s.files (fun j' t => j' = { j with isReady := true } ∧ t.files = s.files)
      (prepare w j) s := by
  refine .quiet (isQuiet_report _) fun t hfiles _ => ?_
  rw [← hfiles]
  refine (ends_checkTemplateDirectory (.refl _)).bind ?_
  rintro _ _ rfl
  rw [if_pos hprints]
  exact .pure ⟨rfl, rfl⟩

/-- The path of the annotations. -/
def sourcePath (j : Job) : Path := j.inputDirectory.child j.inputFile

/-- The path of the document. -/
def targetPath (j : Job) : Path := j.outputDirectory.child (j.outputName j.sourcePath)

/-- A run whose files have been found. -/
def prepared (j : Job) : Job :=
  { j with source := j.sourcePath, target := j.targetPath, isReady := true }

theorem ends_prepare (hprints : j.printsTemplate = false) :
    Ends s.files (fun j' t => j' = j.prepared ∧
      t.files = (s.files.makeDirectories j.outputDirectory).1 ∧ t.drawn = s.drawn)
      (prepare w j) s := by
  refine .quiet (isQuiet_report _) fun t hfiles hdrawn => ?_
  rw [← hfiles, ← hdrawn]
  refine (ends_checkTemplateDirectory (.refl _)).bind ?_
  rintro _ _ rfl
  rw [if_neg (by simp [hprints])]
  by_cases hempty : j.inputFile.isEmpty
  · rw [if_pos hempty]
    exact .giveUp _ (.refl _)
  · rw [if_neg hempty]
    refine .query (.refl _) fun found _ => ?_
    cases found with
    | false => exact .giveUp _ (.refl _)
    | true =>
      refine .quiet (isQuiet_report _) fun u hfiles hdrawn => ?_
      rw [← hfiles, ← hdrawn]
      refine (ends_makeDirectories _ _).bind ?_
      rintro _ v ⟨hfiles, hdrawn⟩
      refine .quiet (isQuiet_report _) fun x hfiles' hdrawn' => ?_
      exact .pure ⟨rfl, hfiles'.trans hfiles, hdrawn'.trans hdrawn⟩

/-! ## Reading the annotations -/

/-- The annotations in a file. -/
def annotationsIn? (files : FileTree) (p : Path) : Option (List Annotation) :=
  match readValue files p with
  | .error _ => none
  | .ok v => (listIn? v).bind fun vs => Except.toOption <| Annotation.ofList vs

theorem ends_load (hprints : j.printsTemplate = false) (hbefore : before.KeepsContents s.files) :
    Ends before (fun j' t => ∃ as, annotationsIn? s.files j.source = some as ∧
      j' = { j with annotations := some as } ∧ t.files = s.files ∧ t.drawn = s.drawn)
      (load w j) s := by
  unfold load
  rw [if_neg (by simp [hprints])]
  refine .quiet (isQuiet_report _) fun t hfiles hdrawn => .get ?_
  rw [← hfiles, ← hdrawn]
  have hbefore : before.KeepsContents t.files := hfiles ▸ hbefore
  unfold annotationsIn?
  cases readValue t.files j.source with
  | error reason => exact .giveUp _ hbefore
  | ok v =>
    dsimp only
    cases listIn? v with
    | none => exact .giveUp _ hbefore
    | some vs =>
      dsimp only [Option.bind_some]
      cases Annotation.ofList vs with
      | error f => exact .giveUp _ hbefore
      | ok as =>
        refine .quiet (isQuiet_report _) fun u hfiles hdrawn => ?_
        exact .pure ⟨as, rfl, rfl, hfiles, hdrawn⟩

/-! ## Rendering -/

/-- The shelf of the library that a run uses, with what has been logged and drawn so far. -/
def shelf (j : Job) (w : Surroundings) (s : Session) : Shelf :=
  let shelf := (j.library w).opened s.files w.settings.pipelineCacheSize
  { shelf with render := { shelf.render with log := s.log, drawn := s.drawn } }

/-- What a run makes of the end of its use of a library. -/
def leaveLibrary {α : Type} (s : Session) (x : Except Fault α × Shelf) : Act α := do
  set { s with files := x.2.files, log := x.2.render.log, drawn := x.2.render.drawn }
  match x.1 with
  | .ok a => return a
  | .error (.template problem) => Act.giveUp ("Template error: ".toList ++ problem.message)
  | .error f => throw (.fault f)

theorem ends_useLibrary {α : Type} (use : Library → Use α)
    (hbefore : before.KeepsContents s.files)
    (hfiles : (Use.outcome (use (j.library w)) (j.shelf w s)).2.files = s.files) :
    Ends before (fun a t => (Use.outcome (use (j.library w)) (j.shelf w s)).1 = .ok a ∧
      t.files = s.files) (j.useLibrary w use) s := by
  refine .get ?_
  show Ends before _ (leaveLibrary s (Use.outcome (use (j.library w)) (j.shelf w s))) s
  generalize Use.outcome (use (j.library w)) (j.shelf w s) = x at hfiles ⊢
  obtain ⟨e | a, shelf⟩ := x
  · have hstopped : before.KeepsContents shelf.files := by
      rw [show shelf.files = s.files from hfiles]
      exact hbefore
    cases e <;> exact hstopped
  · exact ⟨rfl, hfiles⟩

/-- A use of the library that returns prints nothing. -/
theorem outcome_useLibrary {α : Type} {use : Library → Use α} {a : α}
    (h : (Use.outcome (use (j.library w)) (j.shelf w s)).1 = .ok a) :
    ∃ t, (j.useLibrary w use).outcome s = (.ok a, t) ∧ t.stdout = s.stdout := by
  unfold useLibrary
  rw [outcome_bind_of_ok (outcome_get s)]
  show ∃ t, (leaveLibrary s (Use.outcome (use (j.library w)) (j.shelf w s))).outcome s = _ ∧ _
  generalize Use.outcome (use (j.library w)) (j.shelf w s) = x at h ⊢
  obtain ⟨_, shelf⟩ := x
  cases h
  exact ⟨_, rfl, rfl⟩

/-- A template that is found is printed. -/
theorem outcome_printTemplate {source : Text}
    (h : (Use.outcome ((j.library w).load j.template) (j.shelf w s)).1 = .ok source) :
    ∃ t, (j.printTemplate w).outcome s = (.ok (), t) ∧
      t.stdout = s.stdout ++ Fragment.paint source := by
  obtain ⟨t, hrun, hstdout⟩ : ∃ t, (j.useLibrary w fun l => l.load j.template).outcome s =
      (.ok source, t) ∧ t.stdout = s.stdout := outcome_useLibrary h
  refine ⟨{ t with stdout := t.stdout ++ Fragment.paint source }, ?_, ?_⟩
  · unfold printTemplate
    rw [outcome_bind_of_ok hrun]
    rfl
  · rw [hstdout]

/-- Printing the template changes no file. -/
theorem ends_printTemplate (hbefore : before.KeepsContents s.files) :
    Ends before (fun _ t => before.KeepsContents t.files) (j.printTemplate w) s := by
  have hkeeps := (Library.keeps_load (j.library w) j.template (j.shelf w s)).files_eq
  refine (ends_useLibrary (fun l => l.load j.template) hbefore hkeeps).bind ?_
  rintro source t ⟨_, hfiles⟩
  show before.KeepsContents t.files
  rwa [hfiles]

theorem ends_writeDocument (document : Text) (hbefore : before.KeepsContents s.files) :
    Ends before (fun _ t => s.files.Writes j.target (Text.encode (document ++ ['\n'])) t.files)
      (j.writeDocument document) s := by
  refine .get ?_
  cases hwrite : s.files.write j.target (Text.encode (document ++ ['\n'])) with
  | error e => exact .giveUp _ hbefore
  | ok files => exact FileTree.writes_of_write hwrite

/-- The document that a run makes of annotations. -/
def documentOf (j : Job) (w : Surroundings) (s : Session) (as : List Annotation) :
    Except Fault Text :=
  (Use.outcome ((j.library w).render as j.template j.commentStyle j.maxGap) (j.shelf w s)).1

theorem ends_render (hprints : j.printsTemplate = false) (hbefore : before.KeepsContents s.files) :
    Ends before (fun j' t =>
      (∃ count, j' = { j with result := some (.written j.target.text count j.template) }) ∧
      ∃ u document, u.files = s.files ∧ u.drawn = s.drawn ∧
        j.documentOf w u (j.annotations.getD []) = .ok document ∧
        s.files.Writes j.target (Text.encode (document ++ ['\n'])) t.files)
      (render w j) s := by
  unfold render
  rw [if_neg (by simp [hprints])]
  refine .quiet (isQuiet_report _) fun t hfiles hdrawn => ?_
  rw [← hfiles, ← hdrawn]
  have hbefore : before.KeepsContents t.files := hfiles ▸ hbefore
  have hkeeps := (Library.keeps_render (j.library w) (j.annotations.getD []) j.template
    j.commentStyle j.maxGap (j.shelf w t)).files_eq
  refine (ends_useLibrary (fun l => l.render _ j.template j.commentStyle j.maxGap) hbefore
    hkeeps).bind ?_
  rintro document u ⟨hdocument, hfiles⟩
  rw [← hfiles]
  refine (ends_writeDocument document (hfiles ▸ hbefore)).bind ?_
  rintro _ v hwrites
  refine .quiet (isQuiet_report _) fun x hfiles' _ => ?_
  refine .pure ⟨⟨_, rfl⟩, t, document, hfiles.symm, rfl, hdocument, ?_⟩
  rwa [hfiles']

/-- A run that is to print the template prints it. -/
theorem ends_render_printing (hprints : j.printsTemplate = true)
    (hbefore : before.KeepsContents s.files) :
    Ends before (fun j' t => j'.result = some .printed ∧ before.KeepsContents t.files)
      (render w j) s := by
  unfold render
  rw [if_pos hprints]
  exact (ends_printTemplate hbefore).bind fun _ t hkeeps => .pure ⟨rfl, hkeeps⟩

/-! ## Runs -/

/-- The last stage does not stop a run that has a result. -/
theorem ends_report {result : JobResult} (hresult : j.result = some result) :
    Ends before (fun j' t => j' = j ∧ t.files = s.files) (report w j) s := by
  unfold report
  rw [hresult]
  cases result with
  | printed => exact .pure ⟨rfl, rfl⟩
  | written outputFile count template =>
    refine .quiet (isQuiet_report _) fun t₁ h₁ _ => .quiet (isQuiet_report _) fun t₂ h₂ _ => ?_
    refine .quiet (isQuiet_report _) fun t₃ h₃ _ => .quiet (isQuiet_report _) fun t₄ h₄ _ => ?_
    exact .pure ⟨rfl, h₄.trans (h₃.trans (h₂.trans h₁))⟩

/-- A run has read the annotations from their file, and has written the document that a new
library makes of them, and a line end, to one file; the other files are as they were. -/
def Delivers (w : Surroundings) (j : Job) (s : Session) (j' : Job) (s' : Session) : Prop :=
  ∃ t as document names,
    t.files = (s.files.makeDirectories j.outputDirectory).1 ∧ t.drawn = s.drawn ∧
    annotationsIn? t.files j.sourcePath = some as ∧ j'.annotations = some as ∧
    j.documentOf w t as = .ok document ∧
    t.files.locate j.targetPath = .ok names ∧
    s'.files.content? names = some (Text.encode (document ++ ['\n'])) ∧
    ∀ other, other ≠ names → s'.files.content? other = s.files.content? other

theorem ends_stages (hprints : j.printsTemplate = false) :
    Ends s.files (fun j' s' => j.Delivers w s j' s') (j.through w stages) s := by
  have hmade := FileTree.keepsContents_makeDirectories s.files j.outputDirectory
  refine (ends_prepare hprints).bind ?_
  rintro _ t ⟨rfl, hfiles, hdrawn⟩
  rw [← hfiles] at hmade
  refine (ends_load (j := j.prepared) hprints hmade).bind ?_
  rintro _ u ⟨as, has, rfl, hfiles', hdrawn'⟩
  rw [← hfiles'] at hmade
  refine (ends_render (j := { j.prepared with annotations := some as }) hprints hmade).bind ?_
  rintro _ v ⟨⟨count, rfl⟩, x, document, hfilesx, hdrawnx, hdocument, hwrites⟩
  refine (ends_report rfl).bind ?_
  rintro _ y ⟨rfl, hfilesy⟩
  obtain ⟨names, hlocate, hcontent, hothers⟩ := hwrites
  have hx : x.files = t.files := hfilesx.trans hfiles'
  refine ⟨x, as, document, names, hx.trans hfiles, (hdrawnx.trans hdrawn').trans hdrawn, ?_, rfl,
    hdocument, ?_, ?_, ?_⟩
  · rw [hx]
    exact has
  · rw [hfilesx]
    exact hlocate
  · rw [hfilesy]
    exact hcontent
  · intro other hother
    rw [hfilesy, hothers other hother]
    exact hmade other

theorem ends_stages_printing (hprints : j.printsTemplate = true) :
    Ends s.files (fun _ s' => s.files.KeepsContents s'.files) (j.through w stages) s := by
  refine (ends_prepare_printing hprints).bind ?_
  rintro _ t ⟨rfl, hfiles⟩
  have hkeeps : s.files.KeepsContents t.files := hfiles ▸ .refl _
  have hload : Ends s.files (fun j' u => j' = { j with isReady := true } ∧ u = t)
      (load w { j with isReady := true }) t := by
    unfold load
    rw [if_pos hprints]
    exact .pure ⟨rfl, rfl⟩
  refine hload.bind ?_
  rintro _ _ ⟨rfl, rfl⟩
  refine (ends_render_printing (j := { j with isReady := true }) hprints hkeeps).bind ?_
  rintro j' u ⟨hresult, hkeeps⟩
  refine (ends_report hresult).bind ?_
  rintro _ v ⟨rfl, hfiles⟩
  show s.files.KeepsContents v.files
  rwa [hfiles]

/-- A run with a template of the user's own, and its surroundings. -/
def small : Job where
  inputDirectory := Path.ofText "in".toList
  outputDirectory := Path.ofText "out".toList
  inputFile := "a.json".toList
  template := some ['t']
  templateDirectory := some "in".toList
  commentStyle := some "none".toList

def smallSession : Session where
  files :=
    { entries := [(["in".toList], .directory),
        (["in".toList, "a.json".toList],
          .file (Text.encode "[\x7b\"text\": \"x\", \"pageno\": 7\x7d]".toList)),
        (["in".toList, "t.md".toList],
          .file (Text.encode "\x7b\x7bhighlight\x7d\x7d (\x7b\x7bpageno\x7d\x7d)".toList))] }

end Job
end Marginalia
