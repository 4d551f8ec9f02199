import Marginalia.Proofs.Library.Calls

/-
No template is served that fails validation.  What is loaded has been checked or is the
default template, and what is remembered has been loaded; files may change meanwhile, the
template that was compiled stays what it was.
-/
namespace Marginalia

open Use

/-- Something happens to a library or to the files it reads. -/
inductive LibraryStep where
  | write (p : Path) (bytes : List UInt8)
  | remove (p : Path)
  | call (c : LibraryCall)

/-- The text of the template that an answer serves. -/
def LibraryAnswer.source? : LibraryAnswer → Option Text
  | .content t => some t
  | .template _ source _ => some source
  | .document _ => none
  | .done => none

namespace Library

variable {l : Library} {s : Shelf}

/-- A template passes validation. -/
def Accepts (l : Library) (source : Text) : Prop :=
  (Validation.ofTemplate l.settings.maxTemplateNesting source).map (·.isValid) = .ok true

instance (l : Library) (source : Text) : Decidable (l.Accepts source) :=
  inferInstanceAs (Decidable (_ = _))

/-- The default template passes validation, if it is among some built-in ones. -/
def AcceptsDefault (l : Library) (ds : List TemplateDefinition) : Prop :=
  ∀ d ∈ TemplateDefinition.find? l.settings.defaultTemplate ds, l.Accepts d.content

instance (l : Library) (ds : List TemplateDefinition) : Decidable (l.AcceptsDefault ds) :=
  inferInstanceAs (Decidable (∀ _ ∈ _, _))

def step (l : Library) : LibraryStep → Use LibraryAnswer
  | .write p bytes => do
    Use.change (·.write p bytes)
    return .done
  | .remove p => do
    Use.change (·.remove p)
    return .done
  | .call c => l.perform c

/-- The texts of the templates that a library serves, step after step. -/
def served (l : Library) : List LibraryStep → Shelf → List Text
  | [], _ => []
  | c :: rest, s =>
    (((l.step c).outcome s).1.toOption.bind (·.source?)).toList ++
      served l rest ((l.step c).outcome s).2

/-- The files before every step and after the last one. -/
def trees (l : Library) : List LibraryStep → Shelf → List FileTree
  | [], s => [s.files]
  | c :: rest, s => s.files :: trees l rest ((l.step c).outcome s).2

/-! ## Loading -/

theorem accepts_defaultIn {ds : List TemplateDefinition} {d : TemplateDefinition}
    (hds : l.AcceptsDefault ds) (h : l.defaultIn ds = .ok d) : l.Accepts d.content := by
  unfold defaultIn at h
  split at h
  · rename_i d' hfind
    cases h
    exact hds d hfind
  · cases h

/-- What is loaded passes: it has been checked, or is the default template. -/
theorem accepts_loaded {files : FileTree} {g : Except Fault (List TemplateDefinition)}
    {key source : Text} (hg : ∀ ds, g = .ok ds → l.AcceptsDefault ds)
    (h : l.loaded files g key = .ok source) : l.Accepts source := by
  obtain ⟨d, _, h⟩ := exists_of_bind_eq_ok h
  obtain ⟨v, hv, h⟩ := exists_of_bind_eq_ok h
  split at h
  · rename_i hvalid
    cases h
    unfold Accepts
    rw [hv]
    exact congrArg Except.ok hvalid
  · obtain ⟨d', hd', h⟩ := exists_of_bind_eq_ok h
    obtain ⟨ds, hds, hdefault⟩ := exists_of_bind_eq_ok hd'
    cases h
    exact accepts_defaultIn (hg ds hds) hdefault

/-! ## Steps -/

/-- Everything that a shelf may yet serve passes. -/
structure IsSound (l : Library) (s : Shelf) : Prop where
  stored : ∀ e ∈ s.stored.entries, l.Accepts e.value.source
  builtIns : l.AcceptsDefault s.builtIns

theorem acceptsDefault_kept {files : FileTree} {known : List TemplateDefinition}
    (hknown : l.AcceptsDefault known) (hfiles : l.AcceptsDefault (l.kept files [])) :
    l.AcceptsDefault (l.kept files known) := by
  by_cases h : known = []
  · rwa [h]
  · rwa [kept_of_ne_nil h]

theorem IsSound.given (hs : l.IsSound s) (hfiles : l.AcceptsDefault (l.kept s.files []))
    {ds : List TemplateDefinition} (h : l.given s.files s.builtIns = .ok ds) :
    l.AcceptsDefault ds :=
  kept_of_given h ▸ acceptsDefault_kept hs.builtIns hfiles

theorem Keeps.isSound {t : Shelf} (h : l.Keeps s t) (hs : l.IsSound s)
    (hfiles : l.AcceptsDefault (l.kept s.files []))
    (hstored : ∀ e ∈ t.stored.entries, l.Accepts e.value.source) : l.IsSound t := by
  refine ⟨hstored, ?_⟩
  rcases h.builtIns_eq with heq | heq
  · rw [heq]
    exact hs.builtIns
  · rw [heq]
    exact acceptsDefault_kept hs.builtIns hfiles

/-- A compiled template that is provided passes, and so do all that are remembered then. -/
theorem Provides.accepts {key : Text} {x : Except Fault StoredTemplate} {t : Shelf}
    (h : l.Provides s key x t) (hs : l.IsSound s)
    (hfiles : l.AcceptsDefault (l.kept s.files [])) :
    (∀ v, x = .ok v → l.Accepts v.source) ∧ ∀ e ∈ t.stored.entries, l.Accepts e.value.source := by
  cases h with
  | @remembered now v c _ hlookup hstored _ =>
    have hheld := Cache.forall_entries_lookup now key hs.stored
    obtain ⟨e, he, _, hv⟩ := Cache.exists_of_lookup (congrArg Prod.fst hlookup)
    rw [hlookup] at hheld
    refine ⟨?_, hstored ▸ hheld⟩
    rintro _ ⟨rfl⟩
    exact hv ▸ hs.stored e he
  | @refused now c _ _ hlookup _ hstored =>
    have hheld := Cache.forall_entries_lookup now key hs.stored
    rw [hlookup] at hheld
    exact ⟨nofun, hstored ▸ hheld⟩
  | @made now later c source v _ hlookup hloaded hv hstored _ =>
    have hheld := Cache.forall_entries_lookup now key hs.stored
    have haccepts : l.Accepts v.source :=
      hv.source_eq ▸ accepts_loaded (fun _ hg => hs.given hfiles hg) hloaded
    rw [hlookup] at hheld
    refine ⟨fun v' hv' => ?_, hstored ▸ Cache.forall_entries_store hheld haccepts⟩
    split at hv'
    · cases hv'
      exact haccepts
    · cases hv'

/-- A call serves only templates that pass, and what it leaves serves no others. -/
theorem accepts_perform (c : LibraryCall) (hs : l.IsSound s)
    (hfiles : l.AcceptsDefault (l.kept s.files [])) :
    (∀ a ∈ ((l.perform c).outcome s).1.toOption, ∀ source ∈ a.source?, l.Accepts source) ∧
      l.IsSound ((l.perform c).outcome s).2 := by
  have hkeeps := keeps_perform l c s
  cases c with
  | load id =>
    obtain ⟨log, ds, hload, _⟩ := finds_load id s rfl rfl
    unfold perform at hkeeps ⊢
    rw [outcome_return, hload] at hkeeps ⊢
    refine ⟨?_, hkeeps.isSound hs hfiles hs.stored⟩
    cases hloaded : l.loaded s.files (l.given s.files s.builtIns) (l.chosenId id) with
    | error e => nofun
    | ok t =>
      rintro _ ⟨rfl⟩ _ ⟨rfl⟩
      exact accepts_loaded (fun _ hg => hs.given hfiles hg) hloaded
  | compiled id =>
    obtain ⟨hserved, hstored⟩ := (provides_compiled l id s).1.accepts hs hfiles
    unfold perform at hkeeps ⊢
    rw [outcome_return] at hkeeps ⊢
    refine ⟨?_, hkeeps.isSound hs hfiles hstored⟩
    cases hprovided : ((l.compiled id).outcome s).1 with
    | error e => nofun
    | ok v =>
      rintro _ ⟨rfl⟩ _ ⟨rfl⟩
      exact hserved v hprovided
  | render as id style gap =>
    obtain ⟨_, hstored⟩ := (provides_compiled l id s).1.accepts hs hfiles
    unfold perform at hkeeps ⊢
    rw [outcome_return] at hkeeps ⊢
    refine ⟨?_, hkeeps.isSound hs hfiles (by rwa [stored_render])⟩
    cases ((l.render as id style gap).outcome s).1 with
    | error e => nofun
    | ok t => rintro _ ⟨rfl⟩ _ ⟨⟩
  | forget =>
    refine ⟨?_, hkeeps.isSound hs hfiles nofun⟩
    rintro _ ⟨rfl⟩ _ ⟨⟩

/-- Changing a file serves nothing and forgets nothing. -/
theorem accepts_change {f : FileTree → Except FileProblem FileTree} (hs : l.IsSound s) :
    (∀ a ∈ ((Use.change f >>= fun _ => pure .done).outcome s).1.toOption,
      ∀ source ∈ LibraryAnswer.source? a, l.Accepts source) ∧
      l.IsSound ((Use.change f >>= fun _ => pure LibraryAnswer.done).outcome s).2 := by
  have hquery := outcome_query f s
  rw [outcome_return (Use.change f) fun _ => LibraryAnswer.done]
  cases hf : f s.files with
  | error e =>
    rw [hf] at hquery
    rw [show (Use.change f).outcome s = (.error (.file e), s) from outcome_bind_of_error hquery]
    exact ⟨nofun, hs⟩
  | ok files =>
    rw [hf] at hquery
    rw [show (Use.change f).outcome s = (.ok (), { s with files := files }) from
      (outcome_bind_of_ok hquery).trans rfl]
    refine ⟨?_, hs.stored, hs.builtIns⟩
    rintro _ ⟨rfl⟩ _ ⟨⟩

theorem accepts_step (c : LibraryStep) (hs : l.IsSound s)
    (hfiles : l.AcceptsDefault (l.kept s.files [])) :
    (∀ a ∈ ((l.step c).outcome s).1.toOption, ∀ source ∈ a.source?, l.Accepts source) ∧
      l.IsSound ((l.step c).outcome s).2 := by
  cases c with
  | write p bytes => exact accepts_change hs
  | remove p => exact accepts_change hs
  | call c => exact accepts_perform c hs hfiles

/-! ## Runs -/

theorem files_mem_trees (l : Library) (steps : List LibraryStep) (s : Shelf) :
    s.files ∈ l.trees steps s := by
  cases steps with
  | nil => exact List.mem_cons_self
  | cons c rest => exact List.mem_cons_self

theorem accepts_of_isSound (hs : l.IsSound s) (steps : List LibraryStep)
    (hdefault : ∀ files ∈ l.trees steps s, l.AcceptsDefault (l.kept files [])) :
    ∀ source ∈ l.served steps s, l.Accepts source := by
  induction steps generalizing s with
  | nil => nofun
  | cons c rest ih =>
    obtain ⟨hanswer, hleft⟩ := accepts_step c hs (hdefault s.files (files_mem_trees l _ s))
    intro source hsource
    rcases List.mem_append.1 hsource with hsource | hsource
    · obtain ⟨a, ha, hserved⟩ := Option.bind_eq_some_iff.1 (Option.mem_toList.1 hsource)
      exact hanswer a ha source hserved
    · exact ih hleft (fun files hmem => hdefault files (.tail _ hmem)) source hsource

/-- A library serves no template that fails validation, whatever is called and whatever
becomes of the files in between.  All that it needs is a default template that passes: in
no state of the files is there another one among the built-in templates. -/
theorem served_accepted (hbuiltIns : s.builtIns = []) (hstored : s.stored.entries = [])
    (steps : List LibraryStep)
    (hdefault : ∀ files ∈ l.trees steps s, l.AcceptsDefault (l.kept files [])) :
    ∀ source ∈ l.served steps s, l.Accepts source := by
  refine accepts_of_isSound ⟨?_, ?_⟩ steps hdefault
  · rw [hstored]
    nofun
  · rw [hbuiltIns]
    nofun

/-- A default template and a directory for the user. -/
def oneFile : Shelf :=
  ofUser.opened
    { entries := [(["lib".toList], .directory), (["user".toList], .directory),
        (["lib".toList, "default.md".toList],
          .file (Text.encode "\x7b\x7bhighlight\x7d\x7d\x7b\x7bpageno\x7d\x7d".toList))] } 1

/-- A template of the user that becomes useless after it has been compiled. -/
def spoiling : List LibraryStep :=
  let a := Path.ofText "user/a.md".toList
  [.write a (Text.encode "\x7b\x7bpageno\x7d\x7d: \x7b\x7bhighlight\x7d\x7d".toList),
    .call (.compiled (some ['a'])), .write a (Text.encode "spoilt".toList),
    .call (.compiled (some ['a'])), .call (.load (some ['a'])), .call .forget,
    .call (.compiled (some ['a'])), .remove a, .call (.compiled none)]

/-- What was compiled is served until it is forgotten, and then the default template. -/
theorem served_accepted_spoiling :
    (∀ files ∈ ofUser.trees spoiling oneFile, ofUser.AcceptsDefault (ofUser.kept files [])) ∧
      ofUser.served spoiling oneFile = [
        "\x7b\x7bpageno\x7d\x7d: \x7b\x7bhighlight\x7d\x7d".toList,
        "\x7b\x7bpageno\x7d\x7d: \x7b\x7bhighlight\x7d\x7d".toList,
        "\x7b\x7bhighlight\x7d\x7d\x7b\x7bpageno\x7d\x7d".toList,
        "\x7b\x7bhighlight\x7d\x7d\x7b\x7bpageno\x7d\x7d".toList,
        "\x7b\x7bhighlight\x7d\x7d\x7b\x7bpageno\x7d\x7d".toList] ∧
      ∀ source ∈ ofUser.served spoiling oneFile, ofUser.Accepts source := by
  have hdefault : ∀ files ∈ ofUser.trees spoiling oneFile,
      ofUser.AcceptsDefault (ofUser.kept files []) := by
    decide +kernel
  exact ⟨hdefault, by decide +kernel, served_accepted rfl rfl spoiling hdefault⟩

end Library
end Marginalia
