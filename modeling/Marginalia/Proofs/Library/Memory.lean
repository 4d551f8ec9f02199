import Marginalia.Proofs.Book.Memory
import Marginalia.Proofs.Library.Calls

/-
The memory of a library does not show.  A template that is remembered is the one that would
be loaded, so that calls come to what they come to on a library that has not been used; the
built-in templates are the one thing in which it may show that they have been asked for, and
only where a first reading of them breaks off.
-/
namespace Marginalia

open Use

theorem RenderState.IsTruthful.of_pipelines {s t : RenderState} (hs : s.IsTruthful)
    (h : t.pipelines = s.pipelines) : t.IsTruthful := by
  unfold IsTruthful
  rwa [h]

namespace Library

variable {l : Library} {files : FileTree} {g g' : Except Fault (List TemplateDefinition)}
  {s t : Shelf} {key : Text}

/-- What a library remembers is what it would make anew, when it is given these built-in
templates. -/
structure IsTruthful (l : Library) (files : FileTree)
    (g : Except Fault (List TemplateDefinition)) (s : Shelf) : Prop where
  files_eq : s.files = files
  given_eq : l.given files s.builtIns = g
  hasBound : s.stored.hasBound
  stored : ∀ e ∈ s.stored.entries, ∃ source,
    l.loaded files g e.key = .ok source ∧ e.value.IsOf l source
  pipelines : s.render.IsTruthful

/-! ## Built-in templates -/

theorem Keeps.given {ds : List TemplateDefinition} (h : l.Keeps s t)
    (hg : l.given s.files s.builtIns = .ok ds) : l.given s.files t.builtIns = .ok ds := by
  rcases h.builtIns_eq with heq | heq
  · rwa [heq]
  · rw [heq]
    exact given_kept hg

/-- What is loaded although the built-in templates cannot be read does not depend on
them. -/
theorem loaded_of_given {source : Text} (hg : ∀ ds, g = .ok ds → g' = .ok ds)
    (h : l.loaded files g key = .ok source) : l.loaded files g' key = .ok source := by
  cases g with
  | ok ds => rwa [hg ds rfl]
  | error e =>
    obtain ⟨d, hd, h⟩ := exists_of_bind_eq_ok h
    obtain ⟨v, hv, h⟩ := exists_of_bind_eq_ok h
    obtain ⟨user, huser, hd⟩ := exists_of_bind_eq_ok hd
    cases user with
    | none => cases hd
    | some d' =>
      cases hd
      have hfound : l.found files g' key = .ok d := bind_of_eq_ok huser _
      refine (bind_of_eq_ok hfound _).trans ((bind_of_eq_ok hv _).trans ?_)
      cases hvalid : v.isValid with
      | true =>
        rw [hvalid] at h
        exact h
      | false =>
        rw [hvalid] at h
        cases h

theorem IsTruthful.keep (hs : l.IsTruthful files g s) (h : l.Keeps s t)
    (hbound : t.stored.hasBound) (hstored : ∀ e ∈ t.stored.entries, ∃ source,
      l.loaded files g e.key = .ok source ∧ e.value.IsOf l source)
    (hpipelines : t.render.IsTruthful) : l.IsTruthful files (l.given files t.builtIns) t := by
  obtain ⟨rfl, rfl, _, _, _⟩ := hs
  refine ⟨h.files_eq, rfl, hbound, fun e he => ?_, hpipelines⟩
  obtain ⟨source, hloaded, hvalue⟩ := hstored e he
  exact ⟨source, loaded_of_given (fun _ => h.given) hloaded, hvalue⟩

/-! ## Calls -/

/-- A compiled template is that of the text that is loaded, and remains so. -/
theorem Provides.truthful {x : Except Fault StoredTemplate} (h : l.Provides s key x t)
    (hs : l.IsTruthful files g s) :
    ((∃ e, l.loaded files g key = .error e ∧ x = .error e) ∨
      ∃ source v, l.loaded files g key = .ok source ∧ x = .ok v ∧ v.IsOf l source) ∧
    t.stored.hasBound ∧ ∀ e ∈ t.stored.entries, ∃ source,
      l.loaded files g e.key = .ok source ∧ e.value.IsOf l source := by
  obtain ⟨rfl, rfl, hbound, hentries, _⟩ := hs
  have hroom : ∀ now, (s.stored.lookup now key).2.hasBound := by
    intro now
    unfold Cache.hasBound at *
    rwa [Cache.maxSize_lookup]
  cases h with
  | @remembered now v c _ hlookup hstored _ =>
    have hheld := Cache.forall_entries_lookup now key hentries
    have hbound := hroom now
    obtain ⟨e, he, hkey, hvalue⟩ := Cache.exists_of_lookup (congrArg Prod.fst hlookup)
    obtain ⟨source, hloaded, hof⟩ := hentries e he
    rw [hlookup] at hheld hbound
    exact ⟨.inr ⟨source, v, hkey ▸ hloaded, rfl, hvalue ▸ hof⟩, hstored ▸ hbound, hstored ▸ hheld⟩
  | @refused now c e _ hlookup hloaded hstored =>
    have hheld := Cache.forall_entries_lookup now key hentries
    have hbound := hroom now
    rw [hlookup] at hheld hbound
    exact ⟨.inl ⟨e, hloaded, rfl⟩, hstored ▸ hbound, hstored ▸ hheld⟩
  | @made now later c source v _ hlookup hloaded hof hstored _ =>
    have hheld := Cache.forall_entries_lookup now key hentries
    have hbound := hroom now
    rw [hlookup] at hheld hbound
    refine ⟨.inr ⟨source, v, hloaded, if_pos hbound, hof⟩, hstored ▸ hbound, ?_⟩
    exact hstored ▸ Cache.forall_entries_store hheld ⟨source, hloaded, hof⟩

/-- The compiled template of a text, before any other. -/
def compileFirst (l : Library) (source : Text) : StoredTemplate :=
  ⟨Compiled.ofTemplate l.settings.maxTemplateNesting source, source, wantsDivider source, 0⟩

theorem book_of_isOf {v : StoredTemplate} {source : Text} (h : v.IsOf l source)
    (as : List Annotation) (style : Option Text) (gap : Option Gap) :
    l.book v as style gap = l.book (l.compileFirst source) as style gap := by
  unfold book
  rw [h.compiled_eq, h.divider_eq]
  rfl

section

variable {hex : Text} (hhexes : ∀ n, l.hexes n = hex)

include hhexes

theorem isSettled_book (source : Text) (as : List Annotation) (style : Option Text)
    (gap : Option Gap) :
    Render.IsSettled RenderState.IsTruthful (l.book (l.compileFirst source) as style gap) :=
  Book.isSettled_render hhexes
    (fun b => ⟨_, Compiled.comesTo_renderShared l.settings.maxTemplateNesting source b⟩) _ _ _ _ _

theorem settled_render (as : List Annotation) (id style : Option Text) (gap : Option Gap) :
    ∃ x, ∀ s, l.IsTruthful files g s → ((l.render as id style gap).outcome s).1 = x ∧
      ((l.render as id style gap).outcome s).2.render.IsTruthful := by
  have hbooks (source : Text) := isSettled_book hhexes source as style gap
  choose book hbook using hbooks
  refine ⟨l.loaded files g (l.chosenId id) >>= fun source => (book source).map tidy, ?_⟩
  intro s hs
  obtain ⟨hprovides, _, hpipelines⟩ := provides_compiled l id s
  obtain ⟨hresult, _, _⟩ := hprovides.truthful hs
  rcases hrun : (l.compiled id).outcome s with ⟨x, t⟩
  rw [hrun] at hresult hpipelines
  have htruthful : t.render.IsTruthful := hs.pipelines.of_pipelines hpipelines
  rcases hresult with ⟨e, hloaded, hx⟩ | ⟨source, v, hloaded, hx, hv⟩
  · obtain rfl : x = .error e := hx
    rw [outcome_render_of_error hrun, hloaded]
    exact ⟨rfl, htruthful⟩
  · obtain rfl : x = .ok v := hx
    obtain ⟨r, hrendered, hr⟩ := hbook source t.render htruthful
    rw [outcome_render_of_ok hrun, book_of_isOf hv, hrendered, hloaded]
    exact ⟨rfl, hr⟩

/-- A call comes to one result on all shelves that remember what is true, and leaves them
so. -/
theorem settled_perform (c : LibraryCall) : ∃ x, ∀ s, l.IsTruthful files g s →
    ((l.perform c).outcome s).1 = x ∧
      l.IsTruthful files (l.given files ((l.perform c).outcome s).2.builtIns)
        ((l.perform c).outcome s).2 := by
  cases c with
  | load id =>
    refine ⟨(l.loaded files g (l.chosenId id)).map .content, fun s hs => ?_⟩
    have hkeeps := keeps_perform l (.load id) s
    obtain ⟨log, ds, hload, _⟩ := finds_load id s hs.files_eq hs.given_eq
    unfold perform at hkeeps ⊢
    rw [outcome_return, hload] at hkeeps ⊢
    exact ⟨rfl, hs.keep hkeeps hs.hasBound hs.stored hs.pipelines⟩
  | compiled id =>
    refine ⟨(l.loaded files g (l.chosenId id)).map fun source =>
      .template (Compiled.ofTemplate l.settings.maxTemplateNesting source) source
        (wantsDivider source), fun s hs => ?_⟩
    have hkeeps := keeps_perform l (.compiled id) s
    obtain ⟨hprovides, _, hpipelines⟩ := provides_compiled l id s
    obtain ⟨hresult, hbound, hstored⟩ := hprovides.truthful hs
    unfold perform at hkeeps ⊢
    rw [outcome_return] at hkeeps ⊢
    refine ⟨?_, hs.keep hkeeps hbound hstored (hs.pipelines.of_pipelines hpipelines)⟩
    rcases hresult with ⟨e, hloaded, hx⟩ | ⟨source, v, hloaded, hx, hv⟩
    · rw [hloaded, hx]
      rfl
    · rw [hloaded, hx]
      show Except.ok (LibraryAnswer.template v.compiled v.source v.divider) = _
      rw [hv.compiled_eq, hv.source_eq, hv.divider_eq]
      rfl
  | render as id style gap =>
    obtain ⟨x, hx⟩ := settled_render hhexes as id style gap
    refine ⟨x.map .document, fun s hs => ?_⟩
    have hkeeps := keeps_perform l (.render as id style gap) s
    obtain ⟨_, hbound, hstored⟩ := (provides_compiled l id s).1.truthful hs
    obtain ⟨hresult, hpipelines⟩ := hx s hs
    unfold perform at hkeeps ⊢
    rw [outcome_return] at hkeeps ⊢
    rw [← stored_render l as id style gap s] at hbound hstored
    exact ⟨congrArg (Except.map LibraryAnswer.document) hresult,
      hs.keep hkeeps hbound hstored hpipelines⟩
  | forget =>
    refine ⟨.ok .done, fun s hs => ⟨rfl, ?_⟩⟩
    exact hs.keep (keeps_perform l .forget s) hs.hasBound nofun hs.pipelines

end

/-! ## Runs -/

/-- What a call comes to. -/
def answer (l : Library) (s : Shelf) (c : LibraryCall) : Except Fault LibraryAnswer :=
  ((l.perform c).outcome s).1

/-- What calls come to one after another, each on the shelf that the one before it has left
behind. -/
def answers (l : Library) : List LibraryCall → Shelf → List (Except Fault LibraryAnswer)
  | [], _ => []
  | c :: rest, s => l.answer s c :: answers l rest ((l.perform c).outcome s).2

/-- A shelf that has not been used yet. -/
structure IsNew (files : FileTree) (s : Shelf) : Prop where
  files_eq : s.files = files
  builtIns_eq : s.builtIns = []
  stored : 0 ≤ s.stored.maxSize ∧ s.stored.entries = []
  pipelines : ∀ c ∈ s.render.pipelines, 0 ≤ c.maxSize ∧ c.entries = []

theorem IsNew.holding_nil (hs : IsNew files s) : s.holding [] = s := by
  rw [Shelf.holding, ← hs.builtIns_eq]

theorem IsNew.isTruthful (hs : IsNew files s) (known : List TemplateDefinition) :
    l.IsTruthful files (l.given files known) (s.holding known) := by
  refine ⟨hs.files_eq, rfl, decide_eq_true hs.stored.1, ?_, fun c hc => ?_⟩
  · rw [show (s.holding known).stored.entries = [] from hs.stored.2]
    nofun
  · obtain ⟨hsize, hempty⟩ := hs.pipelines c hc
    refine ⟨decide_eq_true hsize, ?_⟩
    rw [hempty]
    nofun

section

variable {hex : Text} (hhexes : ∀ n, l.hexes n = hex)

include hhexes

theorem answer_of_isTruthful (hs : l.IsTruthful files g s) (ht : l.IsTruthful files g t)
    (c : LibraryCall) : l.answer s c = l.answer t c := by
  obtain ⟨x, hx⟩ := settled_perform hhexes c
  exact (hx s hs).1.trans (hx t ht).1.symm

theorem isTruthful_perform (hs : l.IsTruthful files g s) (c : LibraryCall) :
    l.IsTruthful files (l.given files ((l.perform c).outcome s).2.builtIns)
      ((l.perform c).outcome s).2 := by
  obtain ⟨x, hx⟩ := settled_perform hhexes c
  exact (hx s hs).2

/-- Once the built-in templates have been read, calls come to what they come to first. -/
theorem answers_of_kept {known : List TemplateDefinition}
    (hs : l.IsTruthful files (l.given files (l.kept files known)) s)
    (ht : l.IsTruthful files (l.given files (l.kept files known)) t)
    (hread : s.builtIns = l.kept files known) (calls : List LibraryCall) :
    l.answers calls s = calls.map (l.answer t) := by
  induction calls generalizing s with
  | nil => rfl
  | cons c rest ih =>
    have hkeeps := (keeps_perform l c s).builtIns_eq
    have hleft : ((l.perform c).outcome s).2.builtIns = l.kept files known := by
      rw [hs.files_eq, hread, kept_kept] at hkeeps
      exact hkeeps.elim id id
    have hnext := isTruthful_perform hhexes hs c
    rw [hleft] at hnext
    rw [answers, List.map_cons, answer_of_isTruthful hhexes hs ht, ih hnext hleft]

/-- Calls come to what they come to on unused shelves: on one without the built-in templates
up to a place, and on one that has read them from there on. -/
theorem exists_answers (hs : l.IsTruthful files (l.given files []) s) (hempty : s.builtIns = [])
    {s₀ : Shelf} (hs₀ : IsNew files s₀) (calls : List LibraryCall) : ∃ n,
      l.answers calls s = (calls.take n).map (l.answer s₀) ++
        (calls.drop n).map (l.answer (s₀.holding (l.kept files []))) := by
  induction calls generalizing s with
  | nil => exact ⟨0, rfl⟩
  | cons c rest ih =>
    have hfirst : l.answer s c = l.answer s₀ c := by
      have hnew : l.IsTruthful files (l.given files []) s₀ :=
        hs₀.holding_nil ▸ hs₀.isTruthful []
      exact answer_of_isTruthful hhexes hs hnew c
    have hnext := isTruthful_perform hhexes hs c
    have hkeeps := (keeps_perform l c s).builtIns_eq
    rw [hs.files_eq, hempty] at hkeeps
    rcases hkeeps with hleft | hleft
    · obtain ⟨n, hn⟩ := ih (hleft ▸ hnext) hleft
      refine ⟨n + 1, ?_⟩
      rw [answers, hfirst, hn]
      rfl
    · rw [hleft] at hnext
      refine ⟨1, ?_⟩
      rw [answers, hfirst, answers_of_kept hhexes hnext (hs₀.isTruthful _) hleft]
      rfl

end

/-- Where a first reading does not break off, it does not matter whether the built-in
templates have been read. -/
theorem given_kept_nil
    (hwhole : ∀ p ds e, l.builtInSource = .directory p → ds ≠ [] →
      ¬ TemplateDefinition.BreaksOff files p ds e) :
    l.given files (l.kept files []) = l.given files [] := by
  cases hread : (l.reading files).2 with
  | ok u =>
    have hgiven : l.given files [] = .ok (l.kept files []) := by
      rw [given_nil, hread]
      rfl
    rw [given_kept hgiven, hgiven]
  | error e =>
    have hnone : (l.reading files).1 = [] := by
      by_contra hne
      cases hsource : l.builtInSource with
      | shipped =>
        rw [reading_of_shipped hsource] at hread
        cases hread
      | directory p =>
        rw [reading_of_directory hsource] at hread hne
        exact hwhole p _ e hsource hne
          ((TemplateDefinition.breaksOff_iff hne).1 (Prod.ext rfl hread))
    rw [kept_nil, hnone]
    rfl

/-- What a library remembers does not show.  When nothing breaks off the first reading of
its built-in templates, every call comes to what it comes to on a library that has not been
used, whatever the clock shows and however little is remembered.  Otherwise this holds up
to the first call that reads them, and from there on every call comes to what it comes to on
an unused library that has the templates which were left behind. -/
theorem answers_as_new {hex : Text} (hhexes : ∀ n, l.hexes n = hex) {s s₀ : Shelf}
    (hs : IsNew files s) (hs₀ : IsNew files s₀) (calls : List LibraryCall) :
    ((∀ p ds e, l.builtInSource = .directory p → ds ≠ [] →
        ¬ TemplateDefinition.BreaksOff files p ds e) →
      l.answers calls s = calls.map (l.answer s₀)) ∧
    ∃ n, l.answers calls s = (calls.take n).map (l.answer s₀) ++
      (calls.drop n).map (l.answer (s₀.holding (l.kept files []))) := by
  have htruthful : l.IsTruthful files (l.given files []) s := hs.holding_nil ▸ hs.isTruthful []
  obtain ⟨n, hn⟩ := exists_answers hhexes htruthful hs.builtIns_eq hs₀ calls
  refine ⟨fun hwhole => ?_, n, hn⟩
  have hnew : l.IsTruthful files (l.given files []) s₀ := hs₀.holding_nil ▸ hs₀.isTruthful []
  have hread : l.IsTruthful files (l.given files []) (s₀.holding (l.kept files [])) :=
    given_kept_nil hwhole ▸ hs₀.isTruthful _
  have hsame : ∀ c, l.answer (s₀.holding (l.kept files [])) c = l.answer s₀ c :=
    answer_of_isTruthful hhexes hread hnew
  rw [hn, List.map_congr_left fun c _ => hsame c, ← List.map_append, List.take_append_drop]

theorem isNew_twoFiles (a b : List UInt8) : IsNew (twoFiles a b).files (twoFiles a b) := by
  refine ⟨rfl, rfl, ⟨(by decide : (0 : Int) ≤ 10), rfl⟩, ?_⟩
  rintro _ ⟨rfl⟩
  exact ⟨by decide, rfl⟩

/-- A useful template. -/
def pageTemplate : List UInt8 :=
  Text.encode "\x7b\x7bhighlight|truncate:1\x7d\x7d \x7b\x7bpageno\x7d\x7d".toList

/-- Built-in templates that can be read, though not both are useful. -/
def readable : Shelf := twoFiles pageTemplate [0x42]

/-- One annotation rendered with the first template. -/
def renderPage : LibraryCall :=
  .render [{ text := .text "xyz".toList, pageno := 7 }] (some ['a']) (some "none".toList) none

def pageCalls : List LibraryCall :=
  [.load (some ['b']), renderPage, renderPage, .forget, renderPage, .compiled none]

/-- All calls are answered as the first one is, whatever has been remembered or forgotten. -/
theorem answers_as_new_readable :
    (∀ n, ofTwo.hexes n = []) ∧ IsNew readable.files readable ∧
      (∀ p ds e, ofTwo.builtInSource = .directory p → ds ≠ [] →
        ¬ TemplateDefinition.BreaksOff readable.files p ds e) ∧
      ofTwo.answers pageCalls readable = pageCalls.map (ofTwo.answer readable) := by
  have hnew : IsNew readable.files readable := isNew_twoFiles _ _
  have hread : (TemplateDefinition.firstReading readable.files (Path.ofText "lib".toList)).2 =
      .ok () := by
    decide +kernel
  have hwhole : ∀ p ds e, ofTwo.builtInSource = .directory p → ds ≠ [] →
      ¬ TemplateDefinition.BreaksOff readable.files p ds e := by
    rintro _ ds e ⟨rfl⟩ hne hbreak
    rw [(TemplateDefinition.breaksOff_iff hne).2 hbreak] at hread
    cases hread
  exact ⟨fun _ => rfl, hnew, hwhole, (answers_as_new (fun _ => rfl) hnew hnew pageCalls).1 hwhole⟩

/-- The second of two texts has frontmatter with a date that does not exist. -/
def misdated : Shelf :=
  twoFiles pageTemplate (Text.encode "---\nday: 2024-13-01\n---\nB".toList)

/-- Where the first reading breaks off at such a date, the second call is answered otherwise
than on a library that has not been used. -/
theorem answers_not_as_new_misdated :
    IsNew misdated.files misdated ∧
      (∀ f ∈ misdated.files.files, (Text.decode? f.2).isSome) ∧
      ofTwo.answers [renderPage, renderPage] misdated ≠
        [renderPage, renderPage].map (ofTwo.answer misdated) := by
  refine ⟨isNew_twoFiles _ _, by decide +kernel, fun h => ?_⟩
  have hends := congrArg (List.map (·.isOk)) h
  revert hends
  decide +kernel

end Library
end Marginalia
