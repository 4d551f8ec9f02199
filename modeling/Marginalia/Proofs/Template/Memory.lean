import Marginalia.Proofs.Cache.Run
import Marginalia.Proofs.Render
import Marginalia.Proofs.Template.Origin

/-
The memory of pipelines does not show.  Filters are remembered under their texts
with bars in between, and no filter of a template has a bar in it, so a key stands
for one list of filters only; what is remembered under a key is always the pipeline
of that list.
-/
namespace Marginalia

/-! ## Keys -/

namespace Pipeline

/-- Filters as they stand in a tag: none is empty, and none has a bar in it. -/
def AreSpecs (specs : List Text) : Prop := ∀ f ∈ specs, f ≠ [] ∧ '|' ∉ f

theorem fields_key {specs : List Text} (hne : specs ≠ []) (h : AreSpecs specs) :
    Text.fields '|' (key specs) = specs :=
  Text.fields_join hne fun f hf => (h f hf).2

/-- No two lists of filters have the same key. -/
theorem key_inj {specs specs' : List Text} (h : AreSpecs specs) (h' : AreSpecs specs')
    (heq : key specs = key specs') : specs = specs' := by
  have hnil : ∀ {fs : List Text}, AreSpecs fs → key fs = [] → fs = [] := by
    intro fs hfs hkey
    by_contra hne
    exact Text.join_ne_nil hne (fun f hf => (hfs f hf).1) hkey
  by_cases hne : specs = []
  · subst hne
    exact (hnil h' heq.symm).symm
  · have hne' : specs' ≠ [] := by
      rintro rfl
      exact hne (hnil h heq)
    rw [← fields_key hne h, heq, fields_key hne' h']

end Pipeline

namespace Token

open Pipeline (AreSpecs)

/-- The filters of a template's variables are filters as they stand in a tag. -/
theorem areSpecs_of_mem {limit : Int} {template key : Text} {filters : List Text}
    (h : .lookup key filters ∈ withins (Parsed.ofTemplate limit template).tokens) :
    AreSpecs filters := by
  obtain ⟨inner, hparts⟩ := (Parsed.readFrom_ofTemplate limit template).exists_parts h
  intro f hf
  obtain ⟨hne, _, hbar, _⟩ := of_mem_parts (hparts ▸ List.mem_cons_of_mem key hf)
  exact ⟨hne, hbar⟩

end Token

namespace Emission

open Token (withins)

mutual

/-- Only variables of the template are looked up. -/
theorem mem_within_of_ofToken {b : Bindings} {t : Token} {key : Text} {filters : List Text}
    (h : .lookup key filters ∈ ofToken b t) : .lookup key filters ∈ t.within := by
  cases t with
  | text v =>
    rw [ofToken, List.mem_singleton] at h
    cases h
  | lookup k fs =>
    rw [ofToken, List.mem_singleton] at h
    cases h
    rw [Token.within]
    · exact .head _
    · nofun
  | block k body =>
    rw [ofToken] at h
    split at h
    · rw [Token.within]
      exact .tail _ (mem_withins_of_ofTokens h)
    · cases h

theorem mem_withins_of_ofTokens {b : Bindings} {ts : List Token} {key : Text}
    {filters : List Text} (h : .lookup key filters ∈ ofTokens b ts) :
    .lookup key filters ∈ withins ts := by
  cases ts with
  | nil =>
    rw [ofTokens] at h
    cases h
  | cons t rest =>
    rw [ofTokens, List.mem_append] at h
    rw [withins, List.mem_append]
    exact h.imp mem_within_of_ofToken mem_withins_of_ofTokens

end

end Emission

/-! ## What is remembered -/

namespace RenderState

/-- The memory has room, and holds under each key the pipeline of the filters that
the key names. -/
def IsTruthful (s : RenderState) : Prop :=
  ∀ c ∈ s.pipelines,
    c.hasBound ∧ ∀ e ∈ c.entries, e.value = Pipeline.ofSpecs (Text.fields '|' e.key)

end RenderState

namespace Render

open Pipeline (AreSpecs)

variable {specs : List Text} {c c' : Cache Text Pipeline} {s s₁ s₂ : RenderState}
  {now later : Binary64} {p : Pipeline}

theorem returns_pipeline_without (h : s.pipelines = none) :
    Returns (pipeline specs) s (Pipeline.ofSpecs specs) s := by
  unfold pipeline
  refine returns_bind.2 ⟨s, s, rfl, ?_⟩
  rw [h]
  exact returns_pure.2 ⟨rfl, rfl⟩

theorem returns_pipeline_hit (h : s.pipelines = some c) (hclock : Returns clock s now s₁)
    (hlookup : c.lookup now (Pipeline.key specs) = (some p, c')) :
    Returns (pipeline specs) s p { s₁ with pipelines := some c' } := by
  unfold pipeline
  refine returns_bind.2 ⟨s, s, rfl, ?_⟩
  rw [h]
  refine returns_bind.2 ⟨now, s₁, hclock, ?_⟩
  simp only [hlookup]
  rfl

theorem returns_pipeline_miss (h : s.pipelines = some c) (hclock : Returns clock s now s₁)
    (hlookup : c.lookup now (Pipeline.key specs) = (none, c'))
    (hclock' : Returns clock s₁ later s₂) (hbound : c'.hasBound) :
    ∃ e, Returns (pipeline specs) s (Pipeline.ofSpecs specs)
      { s₂ with
        pipelines := some (c'.store later (Pipeline.key specs) (Pipeline.ofSpecs specs))
        log := s₂.log ++ [e] } := by
  refine ⟨.trace ("Compiled filter pipeline '".toList ++ Pipeline.key specs ++ ['\'']), ?_⟩
  unfold pipeline
  refine returns_bind.2 ⟨s, s, rfl, ?_⟩
  rw [h]
  refine returns_bind.2 ⟨now, s₁, hclock, ?_⟩
  simp only [hlookup]
  refine returns_bind.2 ⟨later, s₂, hclock', ?_⟩
  rw [hbound]
  rfl

/-- Asking for a pipeline gives the pipeline, remembered or not. -/
theorem comesTo_pipeline (hne : specs ≠ []) (h : AreSpecs specs) :
    ComesTo RenderState.IsTruthful (pipeline specs) (.ok (Pipeline.ofSpecs specs)) := by
  intro s hs
  suffices ∃ s', Returns (pipeline specs) s (Pipeline.ofSpecs specs) s' ∧ s'.IsTruthful from this
  cases hmemory : s.pipelines with
  | none => exact ⟨s, returns_pipeline_without hmemory, hs⟩
  | some c =>
    obtain ⟨hbound, hentries⟩ := hs c hmemory
    have hkey := Pipeline.fields_key hne h
    obtain ⟨s₁, hclock⟩ := exists_returns_clock s
    have hheld := Cache.forall_entries_lookup s.now (Pipeline.key specs) hentries
    have hroom : (c.lookup s.now (Pipeline.key specs)).2.hasBound := by
      unfold Cache.hasBound at *
      rwa [Cache.maxSize_lookup]
    rcases hlookup : c.lookup s.now (Pipeline.key specs) with ⟨_ | p, c'⟩
    · rw [hlookup] at hheld hroom
      obtain ⟨s₂, hclock'⟩ := exists_returns_clock s₁
      obtain ⟨e, hreturns⟩ := returns_pipeline_miss hmemory hclock hlookup hclock' hroom
      refine ⟨_, hreturns, ?_⟩
      rintro _ ⟨rfl⟩
      exact ⟨hroom, Cache.forall_entries_store hheld (by rw [hkey])⟩
    · have hfound : (c.lookup s.now (Pipeline.key specs)).1 = some p := by rw [hlookup]
      rw [hlookup] at hheld hroom
      obtain ⟨e, he, hekey, hevalue⟩ := Cache.exists_of_lookup hfound
      have hp : p = Pipeline.ofSpecs specs := by
        rw [← hevalue, hentries e he, hekey, hkey]
      refine ⟨_, hp ▸ returns_pipeline_hit hmemory hclock hlookup, ?_⟩
      rintro _ ⟨rfl⟩
      exact ⟨hroom, hheld⟩

end Render

/-! ## Rendering -/

namespace Compiled

open Pipeline (AreSpecs)
open Render (ComesTo)
open RenderState (IsTruthful)

theorem comesTo_emitShared (c : Compiled) (b : Bindings) {e : Emission}
    (h : ∀ key filters, e = .lookup key filters → AreSpecs filters) :
    ComesTo IsTruthful (c.emitShared b e) (c.emit b e) := by
  cases e with
  | literal t => exact .pure t
  | lookup key filters =>
    refine .bind (.ofExcept _) fun t => ?_
    cases filters with
    | nil => exact .pure t
    | cons f fs =>
      have hpipeline := Render.comesTo_pipeline (List.cons_ne_nil f fs) (h key (f :: fs) rfl)
      exact hpipeline.bind fun p => .ofExcept (p.run t)

theorem comesTo_emitAllShared (c : Compiled) (b : Bindings) {es : List Emission}
    (h : ∀ key filters, .lookup key filters ∈ es → AreSpecs filters) :
    ComesTo IsTruthful (c.emitAllShared b es) (c.emitAll b es) := by
  induction es with
  | nil => exact .pure []
  | cons e rest ih =>
    have hhead := c.comesTo_emitShared b fun key filters he => h key filters (he ▸ .head _)
    have hrest := ih fun key filters he => h key filters (.tail _ he)
    exact hhead.bind fun t => hrest.bind fun ts => .pure (t ++ ts)

/-- A template renders to what it renders to by itself. -/
theorem comesTo_renderShared (limit : Int) (template : Text) (b : Bindings) :
    ComesTo IsTruthful ((ofTemplate limit template).renderShared b)
      ((ofTemplate limit template).render b) := by
  refine comesTo_emitAllShared _ b fun key filters h => ?_
  exact Token.areSpecs_of_mem (Emission.mem_withins_of_ofTokens h)

end Compiled

/-- A template, and the values it is rendered for. -/
structure Rendering where
  limit : Int
  template : Text
  bindings : Bindings

namespace Rendering

def compiled (j : Rendering) : Compiled := Compiled.ofTemplate j.limit j.template

/-- What a rendering comes to by itself. -/
def alone (j : Rendering) : Except Fault Text := j.compiled.render j.bindings

/-- What renderings come to one after another, each in the state that the one before
it has left behind. -/
def outcomes : List Rendering → RenderState → List (Except Fault Text)
  | [], _ => []
  | j :: rest, s =>
    let (x, s') := (j.compiled.renderShared j.bindings).run.run s
    x :: outcomes rest s'

theorem outcomes_of_isTruthful {s : RenderState} (h : s.IsTruthful) (js : List Rendering) :
    outcomes js s = js.map alone := by
  induction js generalizing s with
  | nil => rfl
  | cons j rest ih =>
    obtain ⟨s', hrun, hs'⟩ :=
      Compiled.comesTo_renderShared j.limit j.template j.bindings s h
    have hcompiled : (j.compiled.renderShared j.bindings).run.run s = (j.alone, s') := hrun
    rw [outcomes, hcompiled, List.map_cons]
    exact congrArg _ (ih hs')

open Token (withins) in
/-- Renderings that share a memory of pipelines, empty at first, come to what they
come to by themselves, whatever the clock shows; and no two lists of filters that
templates ask for are remembered under one key. -/
theorem outcomes_eq_alone {s : RenderState}
    (h : ∀ c ∈ s.pipelines, 0 ≤ c.maxSize ∧ c.entries = []) (js : List Rendering) :
    outcomes js s = js.map alone ∧
      ∀ (limit limit' : Int) (t t' key key' : Text) (fs fs' : List Text),
        .lookup key fs ∈ withins (tokenize limit t) →
        .lookup key' fs' ∈ withins (tokenize limit' t') →
        Pipeline.key fs = Pipeline.key fs' → fs = fs' := by
  constructor
  · refine outcomes_of_isTruthful (fun c hc => ?_) js
    obtain ⟨hsize, hempty⟩ := h c hc
    refine ⟨by simpa [Cache.hasBound] using hsize, fun e he => ?_⟩
    rw [hempty] at he
    cases he
  · intro limit limit' t t' key key' fs fs' hfs hfs' heq
    exact Pipeline.key_inj (Token.areSpecs_of_mem hfs) (Token.areSpecs_of_mem hfs') heq

/-- A memory for one pipeline, which forgets it at once when the clock moves on. -/
def crowded : RenderState where
  pipelines := some { maxSize := 1, maxAge := some .zero }
  ahead := [.zero, .zero, .finite false 1, .finite false 2]

/-- The values in which every variable is one text. -/
def always (t : Text) : Bindings := fun _ => .text t

def smallJobs : List Rendering :=
  [⟨1, "\x7b\x7ba|truncate:1\x7d\x7d\x7b\x7ba|truncate:1|escape\x7d\x7d".toList, always "-x".toList⟩,
    ⟨1, "\x7b\x7bb|truncate:1|escape\x7d\x7d".toList, always "#y".toList⟩]

/-- Two templates that share a pipeline, in a memory that has no room for two. -/
theorem outcomes_crowded :
    (∀ c ∈ crowded.pipelines, 0 ≤ c.maxSize ∧ c.entries = []) ∧
      outcomes smallJobs crowded = [.ok "-…\\-…".toList, .ok "\\#…".toList] := by
  have h : ∀ c ∈ crowded.pipelines, 0 ≤ c.maxSize ∧ c.entries = [] := by
    rintro _ ⟨rfl⟩
    exact ⟨by decide, rfl⟩
  exact ⟨h, (outcomes_eq_alone h smallJobs).1.trans (by decide +kernel)⟩

end Rendering
end Marginalia
