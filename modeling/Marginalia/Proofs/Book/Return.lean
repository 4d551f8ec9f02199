import Marginalia.Proofs.Annotation.Reach
import Marginalia.Proofs.Book.Markers
import Marginalia.Proofs.Book.Render
import Marginalia.Proofs.Template.Refusal

/-
Which books can be rendered.  Loading looks at nothing but pages, and so it lets through
annotations that cannot be compared, measured or shown; all others are rendered, whatever
else is in their fields.
-/
namespace Marginalia

/-! ## Templates without filters -/

namespace Token

theorem filters_of_filterSpecs {ts : List Token} (h : filterSpecs ts = []) {key : Text}
    {filters : List Text} (hmem : .lookup key filters ∈ withins ts) : filters = [] :=
  List.flatMap_eq_nil_iff.1 h _ hmem

end Token

namespace Compiled

variable (c : Compiled) {b : Bindings}

theorem exists_emitAllShared (hb : ∀ key, ∃ t, (b key).templateText = .ok t)
    {es : List Emission} (hes : ∀ key filters, .lookup key filters ∈ es → filters = [])
    (s : RenderState) : ∃ t, (c.emitAllShared b es).Returns s t s := by
  induction es with
  | nil => exact ⟨[], rfl⟩
  | cons e rest ih =>
    obtain ⟨ts, hts⟩ := ih fun key filters h => hes key filters (.tail e h)
    have hfirst : ∃ t, (c.emitShared b e).Returns s t s := by
      cases e with
      | literal t => exact ⟨t, rfl⟩
      | lookup key filters =>
        obtain rfl := hes key filters (.head rest)
        obtain ⟨t, ht⟩ := c.exists_variableText (hb key)
        exact ⟨t, Render.returns_bind.2 ⟨t, s, Render.returns_ofExcept.2 ⟨ht, rfl⟩, rfl⟩⟩
    obtain ⟨t, ht⟩ := hfirst
    exact ⟨t ++ ts, Render.returns_bind.2 ⟨t, s, ht, Render.returns_bind.2 ⟨ts, s, hts, rfl⟩⟩⟩

/-- A template without filters renders any values that have texts. -/
theorem exists_renderShared {limit : Int} {template : Text}
    (h : Token.filterSpecs (tokenize limit template) = [])
    (hb : ∀ key, ∃ t, (b key).templateText = .ok t) (s : RenderState) :
    ∃ t, ((ofTemplate limit template).renderShared b).Returns s t s :=
  exists_emitAllShared _ hb (fun _ _ hmem =>
    Token.filters_of_filterSpecs h (Emission.mem_withins_of_ofTokens hmem)) s

end Compiled

/-! ## Records of data -/

theorem textual_of_palette {v : Value} (hv : v.IsData) (h : ∃ p, Palette.ofValue? v = .ok p) :
    v.IsTextual := by
  intro hpresent
  obtain ⟨p, hp⟩ := h
  unfold Palette.ofValue? at hp
  rw [hpresent] at hp
  cases hv with
  | text t => exact ⟨t, rfl⟩
  | _ => cases hp

namespace Record

/-- The values that a record takes over from an annotation are data. -/
structure IsData (r : Record) : Prop where
  pageno : r.pageno.IsData
  pageref : r.pageref.IsData
  datetime : r.datetime.IsData
  drawer : r.drawer.IsData

variable {hex : Text} {g : Group} {first : Bool} {r : Record}

theorem isData_of_ofGroup (hg : ∀ a ∈ g.annotations, a.IsData)
    (h : ofGroup hex g first = .ok r) : r.IsData := by
  unfold ofGroup at h
  split at h
  · cases h
  · rename_i head rest hcons
    have hhead := hg head (hcons ▸ List.mem_cons_self)
    iterate 8 obtain ⟨_, _, h⟩ := exists_of_bind_eq_ok h
    cases h
    refine ⟨?_, hhead.pageref, hhead.datetime.orEmpty, hhead.drawer⟩
    dsimp only
    split
    · exact .int hhead.pageno
    · exact hhead.pageref

theorem exists_optional (t : Option Text) : ∃ u, (optional t).templateText = .ok u := by
  cases t <;> exact ⟨_, rfl⟩

theorem IsData.exists_templateText (h : r.IsData) (key : Text) :
    ∃ t, (r.bindings key).templateText = .ok t := by
  have hentries : ∀ e ∈ r.entries, ∃ t, e.2.templateText = .ok t := by
    have htext : ∀ t : Text, ∃ u, (Value.text t).templateText = .ok u := fun t => ⟨t, rfl⟩
    have hnotes := (Value.IsPlain.tuple r.notes).exists_templateText
    have hfirst := (Value.IsPlain.bool r.isFirstInChapter).exists_templateText
    unfold entries
    simp only [List.forall_mem_cons]
    exact ⟨h.pageno.exists_templateText, h.pageref.exists_templateText, htext _, htext _, htext _,
      htext _, h.datetime.exists_templateText, htext _, htext _, hfirst, htext _, htext _,
      htext _, hnotes, exists_optional _, h.drawer.exists_templateText, exists_optional _,
      exists_optional _, htext _, nofun⟩
  unfold bindings
  cases hlookup : r.entries.lookup key with
  | none => exact ⟨[], rfl⟩
  | some v =>
    obtain ⟨before, after, hsplit, _⟩ := List.lookup_eq_some_iff.1 hlookup
    exact hentries (key, v) (hsplit ▸ List.mem_append_right before List.mem_cons_self)

end Record

/-! ## Carrying out steps -/

namespace Book

open Annotation (label relabelled underLabel IsSound IsInReach isInReach_iff)

variable {hexes : Nat → Text} {compiled : Bindings → Render Text} {style : Option MarkerStyle}
  {unknown : Text} {as : List Annotation} {gap : Gap} {contiguousGap : Int} {g : Group}
  {first : Bool}

/-- A render function that returns a text for every record of data. -/
def ShowsData (compiled : Bindings → Render Text) : Prop :=
  ∀ r : Record, r.IsData → ∀ s, ∃ t, (compiled r.bindings).Returns s t s

/-- A group of data that has a record. -/
structure IsShowable (g : Group) (first : Bool) : Prop where
  data : ∀ a ∈ g.annotations, a.IsData
  made : ∀ hex, ∃ r, Record.ofGroup hex g first = .ok r

theorem exists_renderGroup (hcompiled : ShowsData compiled) (hg : IsShowable g first)
    (s : RenderState) : ∃ t s', (renderGroup hexes compiled g first).Returns s t s' := by
  obtain ⟨r, hr⟩ := hg.made (hexes s.drawn)
  obtain ⟨t, ht⟩ := hcompiled r (Record.isData_of_ofGroup hg.data hr) { s with drawn := s.drawn + 1 }
  exact ⟨t, _, Render.returns_bind.2 ⟨s, s, rfl, Render.returns_bind.2 ⟨r, s,
    Render.returns_ofExcept.2 ⟨hr, rfl⟩, Render.returns_bind.2 ⟨(), _, rfl, ht⟩⟩⟩⟩

theorem exists_withMarkers_of_isData (hg : ∀ a ∈ g.annotations, a.IsData) (t : Text) :
    ∃ u, withMarkers style g t = .ok u := by
  cases style with
  | none => exact ⟨t, rfl⟩
  | some style =>
    obtain ⟨ps, hps⟩ := Marker.exists_payloads hg
    exact exists_bind_eq_ok ⟨_, hps.createAll style⟩ fun _ _ => ⟨_, rfl⟩

/-- Steps without a stop, and with none but groups that can be shown, are carried out. -/
theorem exists_run (hcompiled : ShowsData compiled) {steps : List BookStep}
    (hstop : ∀ f, .stop f ∉ steps) (hblock : ∀ g first, .block g first ∈ steps → IsShowable g first)
    (s : RenderState) : ∃ ts s', (run hexes compiled style steps).Returns s ts s' := by
  induction steps generalizing s with
  | nil => exact ⟨[], s, rfl⟩
  | cons step rest ih =>
    have hrest := ih (fun f h => hstop f (.tail step h)) fun g first h => hblock g first (.tail step h)
    cases step with
    | stop f => exact absurd (.head rest) (hstop f)
    | report e =>
      obtain ⟨ts, s', hts⟩ := hrest { s with log := s.log ++ [e] }
      exact ⟨ts, s', Render.returns_bind.2 ⟨(), _, Render.returns_report.2 rfl, hts⟩⟩
    | block g first =>
      have hg := hblock g first (.head rest)
      obtain ⟨t, s₁, ht⟩ := exists_renderGroup hcompiled hg s
      obtain ⟨u, hu⟩ := exists_withMarkers_of_isData hg.data t
      obtain ⟨ts, s', hts⟩ := hrest s₁
      exact ⟨u :: ts, s', Render.returns_bind.2 ⟨t, s₁, ht, Render.returns_bind.2 ⟨u, s₁,
        Render.returns_ofExcept.2 ⟨hu, rfl⟩, Render.returns_bind.2 ⟨ts, s', hts, rfl⟩⟩⟩⟩

/-- Of steps that were carried out none is a stop, and each group has had a record. -/
theorem made_of_run {steps : List BookStep} {s s' : RenderState} {ts : List Text}
    (h : (run hexes compiled style steps).Returns s ts s') :
    (∀ f, .stop f ∉ steps) ∧
      ∀ g first, .block g first ∈ steps → ∃ hex r, Record.ofGroup hex g first = .ok r := by
  induction steps generalizing s s' ts with
  | nil => exact ⟨nofun, nofun⟩
  | cons step rest ih =>
    cases step with
    | stop f => exact absurd h Render.not_returns_throw
    | report e =>
      obtain ⟨_, s₁, _, h⟩ := Render.returns_bind.1 h
      obtain ⟨hstop, hblock⟩ := ih h
      exact ⟨by simpa using hstop, by simpa using hblock⟩
    | block g first =>
      obtain ⟨t, s₁, ht, h⟩ := Render.returns_bind.1 h
      obtain ⟨u, s₂, _, h⟩ := Render.returns_bind.1 h
      obtain ⟨ts, s₃, hts, _⟩ := Render.returns_bind.1 h
      obtain ⟨hstop, hblock⟩ := ih hts
      obtain ⟨_, s₄, _, ht⟩ := Render.returns_bind.1 ht
      obtain ⟨r, s₅, hr, _⟩ := Render.returns_bind.1 ht
      refine ⟨by simpa using hstop, fun k b hk => ?_⟩
      rcases List.mem_cons.1 hk with heq | hk
      · cases heq
        exact ⟨_, r, (Render.returns_ofExcept.1 hr).1⟩
      · exact hblock k b hk

/-! ## Books that are rendered -/

/-- An annotation under its label keeps what it is compared and measured by. -/
theorem exists_of_mem_underLabel {a : Annotation} {l : Text} (h : a ∈ underLabel unknown as l) :
    ∃ b ∈ as, b.label unknown = l ∧ a = b.relabelled unknown := by
  obtain ⟨b, hb, rfl⟩ := List.mem_map.1 h
  obtain ⟨hmem, hlabel⟩ := List.mem_filter.1 hb
  exact ⟨b, hmem, of_decide_eq_true hlabel, rfl⟩

/-- Annotations that are rendered in every selection: each is sound, and those of one label
are in reach of each other. -/
structure CanBeRendered (unknown : Text) (as : List Annotation) : Prop where
  sound : ∀ a ∈ as, a.IsSound
  reach : ∀ a ∈ as, ∀ b ∈ as, a.label unknown = b.label unknown → IsInReach a b

theorem compare_of_underLabel (hdata : ∀ a ∈ as, a.IsData) (h : CanBeRendered unknown as) {l : Text}
    {a b : Annotation} (ha : a ∈ underLabel unknown as l) (hb : b ∈ underLabel unknown as l) :
    ∃ o, Annotation.compare a b = .ok o ∧ (o ≠ .gt → ∃ d, a.distance b = .ok d) := by
  obtain ⟨x, hx, hlx, rfl⟩ := exists_of_mem_underLabel ha
  obtain ⟨y, hy, hly, rfl⟩ := exists_of_mem_underLabel hb
  exact (isInReach_iff (hdata x hx) (hdata y hy) (h.sound x hx).pos0
    (h.sound y hy).pos0).1 (h.reach x hx y hy (hlx.trans hly.symm))

theorem exists_chapters (hdata : ∀ a ∈ as, a.IsData) (h : CanBeRendered unknown as) :
    ∃ cs, Chapter.ofAnnotations unknown Annotation.compare as = .ok cs ∧
      ∀ c ∈ cs, ∃ gs, Group.successive gap contiguousGap c.annotations = .ok gs := by
  have hnaming : Chapter.NamingFails (fun _ => False) unknown as := by
    intro a ha e he
    obtain ⟨t, ht⟩ := exists_chapterTitle_iff.2 (h.sound a ha).chapter
    unfold Chapter.nameOf at he
    rw [ht] at he
    cases he
  have hcomparing : Chapter.ComparingFails (fun _ => False) Annotation.compare unknown as := by
    intro l
    refine List.pairwise_of_forall_mem_list fun a ha b hb e he => ?_
    obtain ⟨_, hab, _⟩ := compare_of_underLabel hdata h ha hb
    obtain ⟨_, hba, _⟩ := compare_of_underLabel hdata h hb ha
    rcases he with he | he
    · rw [Chapter.precedes_eq_error, hab] at he
      cases he
    · rw [Chapter.precedes_eq_error, hba] at he
      cases he
  obtain ⟨cs, hcs, harranges⟩ := (Chapter.ofAnnotations_ensures hnaming hcomparing).exists_ok
  refine ⟨cs, hcs, fun c hc => Group.exists_successive ?_⟩
  have hordered := harranges.filed.annotations c hc
  refine hordered.chain.imp_of_mem_imp fun a b ha hb hab => ?_
  obtain ⟨o, ho, hgt⟩ := Chapter.compare_of_follows hab
  obtain ⟨o', ho', hdistance⟩ := compare_of_underLabel hdata h (hordered.perm.mem_iff.1 ha)
    (hordered.perm.mem_iff.1 hb)
  cases ho.symm.trans ho'
  exact hdistance hgt

theorem not_stop_of_mem_blocks {gs : List Group} {f : Fault} : .stop f ∉ blocks gs := by
  cases gs with
  | nil => exact nofun
  | cons g rest =>
    intro h
    rcases List.mem_cons.1 h with h | h
    · cases h
    · obtain ⟨_, _, h⟩ := List.mem_map.1 h
      cases h

theorem exists_block_of_mem {gs : List Group} (h : g ∈ gs) :
    ∃ first, .block g first ∈ blocks gs := by
  cases gs with
  | nil => cases h
  | cons k rest =>
    rcases List.mem_cons.1 h with rfl | h
    · exact ⟨true, .head _⟩
    · exact ⟨false, .tail _ (List.mem_map.2 ⟨g, h, rfl⟩)⟩

theorem not_stop_of_mem_steps (hdata : ∀ a ∈ as, a.IsData) (h : CanBeRendered unknown as)
    (f : Fault) :
    .stop f ∉ steps unknown Annotation.compare (Group.successive gap contiguousGap) as := by
  obtain ⟨cs, hcs, hgroups⟩ := exists_chapters hdata h
  unfold steps
  rw [hcs]
  intro hmem
  obtain ⟨c, hc, hmem⟩ := List.mem_flatMap.1 hmem
  obtain ⟨gs, hgs⟩ := hgroups c hc
  unfold chapterSteps at hmem
  rw [hgs] at hmem
  rcases List.mem_append.1 hmem with hmem | hmem
  · exact not_stop_of_mem_blocks hmem
  · cases List.mem_singleton.1 hmem

theorem isShowable_of_mem_steps (hdata : ∀ a ∈ as, a.IsData) (h : ∀ a ∈ as, a.IsSound)
    (hmem : .block g first ∈
      steps unknown Annotation.compare (Group.successive gap contiguousGap) as) :
    IsShowable g first := by
  obtain ⟨hne, hfrom⟩ := block_of_steps hmem
  have hgroup : ∀ a ∈ g.annotations, a.IsData ∧ a.text.IsTextual ∧ a.color.IsTextual ∧
      a.chapter.IsTextual := by
    intro a ha
    obtain ⟨b, hb, rfl⟩ := hfrom a ha
    have hb' := hdata b hb
    exact ⟨⟨hb'.text, hb'.datetime, hb'.pageno, hb'.note, hb'.color, hb'.drawer, hb'.pageref,
      hb'.pos0, hb'.pos1, hb'.id⟩, (h b hb).text, (h b hb).color, fun _ => ⟨_, rfl⟩⟩
  refine ⟨fun a ha => (hgroup a ha).1, fun hex => ?_⟩
  exact Record.exists_ofGroup_of_textual hne (fun a ha => (hgroup a ha).2.1)
    (fun a ha => (hgroup a ha).2.2.1) (fun a ha => (hgroup a ha).1.datetime.exists_moment)
    fun a ha => (hgroup a ha).2.2.2

theorem exists_render (hcompiled : ShowsData compiled) (hdata : ∀ a ∈ as, a.IsData)
    (h : CanBeRendered unknown as) (form : Form) (s : RenderState) :
    ∃ out s', (render hexes compiled form unknown Annotation.compare
      (Group.successive gap contiguousGap) as).Returns s out s' := by
  have hcarried : ∃ ts s', (run hexes compiled form.style (steps unknown Annotation.compare
      (Group.successive gap contiguousGap) as)).Returns s ts s' :=
    exists_run hcompiled (not_stop_of_mem_steps hdata h)
      (fun _ _ => isShowable_of_mem_steps hdata h.sound) s
  obtain ⟨ts, s', hts⟩ := hcarried
  exact ⟨_, s', Render.returns_bind.2 ⟨ts, s', hts, rfl⟩⟩

/-! ## Books that are not -/

theorem run_of_render {form : Form} {cmp : Chapter.Comparison} {grouper : Grouper}
    {s s' : RenderState} {out : Text}
    (h : (render hexes compiled form unknown cmp grouper as).Returns s out s') :
    ∃ ts s₁, (run hexes compiled form.style (steps unknown cmp grouper as)).Returns s ts s₁ := by
  obtain ⟨ts, s₁, hts, _⟩ := Render.returns_bind.1 h
  exact ⟨ts, s₁, hts⟩

theorem named_of_render {form : Form} {cmp : Chapter.Comparison} {grouper : Grouper}
    {s s' : RenderState} {out : Text}
    (h : (render hexes compiled form unknown cmp grouper as).Returns s out s') :
    ∀ a ∈ as, Chapter.nameOf unknown a = .ok (a.label unknown) := by
  obtain ⟨ts, s₁, hts⟩ := run_of_render h
  obtain ⟨cs, hcs, _⟩ := exists_chapters_of_steps (made_of_run hts).1
  exact (Chapter.arranges_of_ofAnnotations hcs).filed.named

/-- Annotations of one label that are rendered have been sorted and grouped, and their groups
have had records. -/
theorem made_of_label {form : Form} {cmp : Chapter.Comparison} {grouper : Grouper}
    {s s' : RenderState} {out l : Text} {b : Annotation} {rest : List Annotation}
    (hlabel : ∀ c ∈ b :: rest, c.label unknown = l)
    (h : (render hexes compiled form unknown cmp grouper (b :: rest)).Returns s out s') :
    ∃ zs gs, Sorting.sort (Chapter.precedes cmp) ((b :: rest).map (relabelled unknown)) = .ok zs ∧
      grouper zs = .ok gs ∧ ∀ g ∈ gs, ∃ hex first r, Record.ofGroup hex g first = .ok r := by
  have hnamed : ∀ c ∈ b :: rest, Chapter.nameOf unknown c = .ok l := fun c hc =>
    hlabel c hc ▸ named_of_render h c hc
  have hrelabelled : ((b :: rest).map fun c => { c with chapter := .text l }) =
      (b :: rest).map (relabelled unknown) :=
    List.map_congr_left fun c hc => by rw [relabelled, hlabel c hc]
  obtain ⟨ts, s₁, hts⟩ := run_of_render h
  obtain ⟨hstop, hblock⟩ := made_of_run hts
  obtain ⟨cs, hcs, hsteps, hgroups⟩ := exists_chapters_of_steps hstop
  rw [Chapter.ofAnnotations_of_label hnamed, hrelabelled] at hcs
  obtain ⟨zs, hzs, hcs⟩ := exists_of_bind_eq_ok hcs
  cases hcs
  obtain ⟨gs, hgs⟩ := hgroups _ List.mem_cons_self
  refine ⟨zs, gs, hzs, hgs, fun g hg => ?_⟩
  obtain ⟨first, hfirst⟩ := exists_block_of_mem hg
  have hmem : .block g first ∈ steps unknown cmp grouper (b :: rest) := by
    rw [hsteps, List.flatMap_singleton]
    unfold chapterSteps
    rw [hgs]
    exact List.mem_append_left _ hfirst
  obtain ⟨hex, r, hr⟩ := hblock g first hmem
  exact ⟨hex, first, r, hr⟩

variable {form : Form} {s s' : RenderState} {out : Text} {a b : Annotation}

/-- An annotation that is rendered by itself is made of texts. -/
theorem textual_of_single (hdata : a.IsData)
    (h : (render hexes compiled form unknown Annotation.compare
      (Group.successive gap contiguousGap) [a]).Returns s out s') :
    a.text.IsTextual ∧ a.color.IsTextual ∧ a.chapter.IsTextual := by
  obtain ⟨title, htitle, _⟩ := exists_of_bind_eq_ok (named_of_render h a List.mem_cons_self)
  obtain ⟨zs, gs, hzs, hgs, hmade⟩ :=
    made_of_label (l := a.label unknown) (List.forall_mem_singleton.2 rfl) h
  obtain rfl : zs = [a.relabelled unknown] :=
    List.perm_singleton.1 (Sorting.ordered_of_sort hzs).perm
  cases hgs
  obtain ⟨hex, first, r, hr⟩ := hmade _ List.mem_cons_self
  obtain ⟨_, _, _, hplain, _⟩ := Record.texts_of_ofGroup hr
  obtain ⟨plain, hplain, _⟩ := exists_of_bind_eq_ok hplain
  obtain ⟨palette, hpalette, _⟩ := exists_of_bind_eq_ok hr
  exact ⟨Group.exists_plainText_iff.1 ⟨plain, hplain⟩,
    textual_of_palette hdata.color ⟨palette, hpalette⟩, exists_chapterTitle_iff.1 ⟨title, htitle⟩⟩

/-- Two annotations of one label are compared, and measured in their order. -/
theorem compared_of_pair (hlabel : a.label unknown = b.label unknown)
    (h : (render hexes compiled form unknown Annotation.compare
      (Group.successive gap contiguousGap) [a, b]).Returns s out s') :
    ∃ o, Annotation.compare a b = .ok o ∧ (o ≠ .gt → ∃ d, a.distance b = .ok d) := by
  obtain ⟨zs, gs, hzs, hgs, _⟩ := made_of_label (l := a.label unknown)
    (List.forall_mem_cons.2 ⟨rfl, List.forall_mem_singleton.2 hlabel.symm⟩) h
  rw [List.map_cons, List.map_singleton, Sorting.sort_pair] at hzs
  obtain ⟨less, hless, hzs⟩ := exists_of_bind_eq_ok hzs
  obtain ⟨o, ho, rfl⟩ := Chapter.precedes_eq_ok.1 hless
  refine ⟨o.swap, Annotation.compare_swap ho, fun hgt => ?_⟩
  have hnot : ¬ o = .lt := fun hlt => hgt (by rw [hlt]; rfl)
  rw [decide_eq_false hnot] at hzs
  cases hzs
  obtain ⟨d, hd, _⟩ := exists_of_bind_eq_ok hgs
  exact ⟨d, hd⟩

/-- Where an annotation is compared with itself, its place is not broken. -/
theorem not_isBroken_of_compare {o : Ordering} (h : Annotation.compare a a = .ok o) :
    ¬ Position.IsBroken a.pos0 := by
  rw [← Position.exists_ofValue?_iff]
  obtain ⟨o, ho⟩ := Annotation.exists_comparePlaces rfl h
  obtain ⟨p, _, hp, _⟩ := Annotation.comparePlaces_eq_ok.1 ho
  exact ⟨p, hp⟩

/-- What is tried out on the annotations in a text holds of those that are loaded from it. -/
theorem exists_loaded (t : Text) (p : List Annotation → Bool)
    (h : (match Json.read? t with
      | some (.list raw) =>
        match Annotation.ofList raw with
        | .ok as => p as
        | .error _ => false
      | _ => false) = true) :
    ∃ raw as, Json.read? t = some (.list raw) ∧ Annotation.ofList raw = .ok as ∧ p as := by
  split at h
  · rename_i raw hread
    split at h
    · rename_i as hload
      exact ⟨raw, as, hread, hload, h⟩
    · cases h
  · cases h

/-- Numbers, lists and objects in most of the fields, and two places on one page. -/
def looseText : Text :=
  "[\x7b\"pageno\":\" 2.0 \",\"text\":\"A\",\"datetime\":17,\"pageref\":1.50,".toList ++
    "\"drawer\":[\"x\",\x7b\"y\":null\x7d],\"pos0\":\x7b\"x\":true,\"y\":\"2.5\"\x7d,".toList ++
    "\"note\":[1],\"id\":\x7b\x7d\x7d,\x7b\"pageno\":2,\"pos0\":\"n/3.4\",".toList ++
    "\"pos1\":\"n/3.9\",\"chapter\":false,\"color\":0\x7d]".toList

/-- A template that shows a list and a number. -/
def looseTemplate : Text := "\x7b\x7bdrawer\x7d\x7d, \x7b\x7bpageref\x7d\x7d".toList

/-- Render annotations with a template that shows nothing of them. -/
def renderUnseen (as : List Annotation) : Render Text :=
  render (fun _ => []) (Compiled.ofTemplate 20 ['x']).renderShared ⟨none, false⟩ "?".toList
    Annotation.compare (Group.successive (.whole 250) 2) as

/-- The annotations in a text are loaded, but they are not rendered. -/
def IsOnlyLoaded (t : Text) : Prop :=
  ∃ raw as, Json.read? t = some (.list raw) ∧ Annotation.ofList raw = .ok as ∧
    ∀ out s', ¬ (renderUnseen as).Returns {} out s'

theorem isOnlyLoaded_of_run (t : Text)
    (h : (match Json.read? t with
      | some (.list raw) =>
        match Annotation.ofList raw with
        | .ok as => !((renderUnseen as).run.run {}).1.isOk
        | .error _ => false
      | _ => false) = true) : IsOnlyLoaded t := by
  obtain ⟨raw, as, hread, hload, h⟩ := exists_loaded t _ h
  refine ⟨raw, as, hread, hload, fun out s' hreturns => ?_⟩
  have hreturns : (renderUnseen as).run.run {} = (.ok out, s') := hreturns
  rw [hreturns] at h
  cases h

end Book
end Marginalia
