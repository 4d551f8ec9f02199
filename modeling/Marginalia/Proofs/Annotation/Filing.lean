import Mathlib.Data.List.Perm.Basic
import Marginalia.Annotation.Chapter
import Marginalia.Proofs.Ensures

/-
Filing annotations by the labels of their chapters.  Every annotation ends up in
the chapter of its label and nowhere else, behind those that were filed before
it, and chapters come in the order in which their labels occur first.
-/
namespace Marginalia

namespace Annotation

/-- The label of the chapter an annotation belongs to. -/
def label (unknown : Text) (a : Annotation) : Text :=
  let title := match a.chapter with
    | .text t => Text.strip t
    | _ => []
  if title.isEmpty then unknown else title

/-- An annotation that carries its label for its chapter. -/
def relabelled (unknown : Text) (a : Annotation) : Annotation :=
  { a with chapter := .text (a.label unknown) }

/-- The annotations of one label, relabelled. -/
def underLabel (unknown : Text) (as : List Annotation) (l : Text) : List Annotation :=
  (as.filter fun a => a.label unknown = l).map (relabelled unknown)

/-- Where a label occurs first. -/
def firstPlace (unknown : Text) (as : List Annotation) (l : Text) : Nat :=
  (as.map (label unknown)).idxOf l

end Annotation

namespace Chapter

open Annotation (label relabelled underLabel firstPlace)

variable {unknown : Text} {as : List Annotation} {cs : List Chapter} {E : Fault → Prop}
  {held : List Annotation → List Annotation → Prop}

theorem eq_label_of_nameOf {a : Annotation} {name : Text} (h : nameOf unknown a = .ok name) :
    name = a.label unknown := by
  obtain ⟨title, htitle, h⟩ := exists_of_bind_eq_ok h
  cases h
  unfold Annotation.chapterTitle at htitle
  unfold label
  cases hc : a.chapter <;> simp only [hc] at htitle <;> split at htitle <;> cases htitle <;>
    try rfl
  rename_i t ht
  have ht : t = [] := by simpa [Value.isTruthy] using ht
  rw [ht]
  rfl

/-! ## Filing -/

/-- Chapters in which each annotation is filed once, under its label.  What a
chapter holds of its annotations is left to `held`. -/
structure Filed (held : List Annotation → List Annotation → Prop) (unknown : Text)
    (as : List Annotation) (cs : List Chapter) : Prop where
  named : ∀ a ∈ as, nameOf unknown a = .ok (a.label unknown)
  distinct : (cs.map (·.name)).Nodup
  names : ∀ l, l ∈ cs.map (·.name) ↔ l ∈ as.map (label unknown)
  annotations : ∀ c ∈ cs, held (underLabel unknown as c.name) c.annotations

/-- Chapters in the order in which their names occur first. -/
def ByPlace (unknown : Text) (as : List Annotation) (c d : Chapter) : Prop :=
  firstPlace unknown as c.name < firstPlace unknown as d.name

/-- One chapter after an annotation is put into the chapter of its name. -/
def adding (name : Text) (a : Annotation) (c : Chapter) : Chapter :=
  if c.name = name then { c with annotations := c.annotations ++ [a] } else c

@[simp]
theorem name_adding (name : Text) (a : Annotation) (c : Chapter) :
    (adding name a c).name = c.name := by
  unfold adding
  split <;> rfl

theorem file_of_mem {name : Text} {a : Annotation} (h : name ∈ cs.map (·.name))
    (hd : (cs.map (·.name)).Nodup) : file name a cs = cs.map (adding name a) := by
  induction cs with
  | nil => cases h
  | cons c rest ih =>
    rw [List.map_cons, List.nodup_cons] at hd
    unfold file
    by_cases hc : c.name = name
    · have hrest : rest.map (adding name a) = rest := by
        rw [List.map_congr_left, List.map_id]
        intro d hmem
        have hne : d.name ≠ name := fun hdn => hd.1 (hc ▸ hdn ▸ List.mem_map_of_mem hmem)
        simp [adding, hne]
      simp [hc, adding, hrest]
    · have hmem : name ∈ rest.map (·.name) := by
        simpa [Ne.symm hc] using h
      simp [hc, adding, ih hmem hd.2]

theorem file_of_not_mem {name : Text} {a : Annotation} (h : name ∉ cs.map (·.name)) :
    file name a cs = cs ++ [⟨name, [a]⟩] := by
  induction cs with
  | nil => rfl
  | cons c rest ih =>
    rw [List.map_cons, List.mem_cons, not_or] at h
    unfold file
    rw [if_neg (Ne.symm h.1), ih h.2]
    rfl

theorem underLabel_append_single (a : Annotation) (l : Text) :
    underLabel unknown (as ++ [a]) l =
      underLabel unknown as l ++
        if a.label unknown = l then [a.relabelled unknown] else [] := by
  unfold underLabel
  by_cases h : a.label unknown = l <;> simp [h]

theorem firstPlace_append {bs : List Annotation} {l : Text}
    (h : l ∈ as.map (label unknown)) :
    firstPlace unknown (as ++ bs) l = firstPlace unknown as l := by
  unfold firstPlace
  rw [List.map_append, List.idxOf_append_of_mem h]

theorem firstPlace_append_of_not_mem {bs : List Annotation} {l : Text}
    (h : l ∉ as.map (label unknown)) :
    as.length ≤ firstPlace unknown (as ++ bs) l := by
  unfold firstPlace
  rw [List.map_append, List.idxOf_append_of_notMem h, List.length_map]
  omega

theorem firstPlace_lt {l : Text} (h : l ∈ as.map (label unknown)) :
    firstPlace unknown as l < as.length := by
  have := List.idxOf_lt_length_of_mem h
  rwa [List.length_map] at this

theorem Filed.mem_names {c : Chapter} (h : Filed held unknown as cs) (hc : c ∈ cs) :
    c.name ∈ as.map (label unknown) :=
  (h.names c.name).1 (List.mem_map_of_mem hc)

theorem underLabel_of_not_mem {l : Text} (h : l ∉ as.map (label unknown)) :
    underLabel unknown as l = [] := by
  unfold underLabel
  rw [List.filter_eq_nil_iff.2, List.map_nil]
  intro a ha
  have hne : a.label unknown ≠ l := fun hl => h (hl ▸ List.mem_map_of_mem ha)
  simpa using hne

theorem Filed.append_of_mem {a : Annotation} (h : Filed Eq unknown as cs)
    (hnamed : ∀ b ∈ as ++ [a], nameOf unknown b = .ok (b.label unknown))
    (hmem : a.label unknown ∈ cs.map (·.name)) :
    Filed Eq unknown (as ++ [a]) (cs.map (adding (a.label unknown) (a.relabelled unknown))) := by
  have hnames : (cs.map (adding (a.label unknown) (a.relabelled unknown))).map (·.name) =
      cs.map (·.name) := by
    simp [Function.comp_def]
  refine ⟨hnamed, hnames ▸ h.distinct, fun l => ?_, fun c hc => ?_⟩
  · rw [hnames, h.names l, List.map_append, List.mem_append, List.map_singleton,
      List.mem_singleton]
    refine ⟨.inl, fun hl => hl.elim id fun hl => ?_⟩
    exact hl ▸ (h.names _).1 hmem
  · obtain ⟨d, hd, rfl⟩ := List.mem_map.1 hc
    rw [name_adding, underLabel_append_single, h.annotations d hd]
    by_cases hdl : d.name = a.label unknown
    · simp [adding, hdl]
    · simp [adding, hdl, Ne.symm hdl]

theorem Filed.append_of_not_mem {a : Annotation} (h : Filed Eq unknown as cs)
    (hnamed : ∀ b ∈ as ++ [a], nameOf unknown b = .ok (b.label unknown))
    (hmem : a.label unknown ∉ cs.map (·.name)) :
    Filed Eq unknown (as ++ [a]) (cs ++ [⟨a.label unknown, [a.relabelled unknown]⟩]) := by
  refine ⟨hnamed, ?_, fun l => ?_, fun c hc => ?_⟩
  · rw [List.map_append, List.nodup_append]
    refine ⟨h.distinct, List.pairwise_singleton _ _, fun m hm n hn hmn => hmem ?_⟩
    obtain rfl : n = a.label unknown := List.mem_singleton.1 hn
    exact hmn ▸ hm
  · simp only [List.map_append, List.mem_append, h.names l, List.map_singleton]
  · rw [underLabel_append_single]
    rcases List.mem_append.1 hc with hc | hc
    · have hne : a.label unknown ≠ c.name := fun hl => hmem (hl ▸ List.mem_map_of_mem hc)
      rw [if_neg hne, List.append_nil]
      exact h.annotations c hc
    · have hnot : a.label unknown ∉ as.map (label unknown) :=
        fun hl => hmem ((h.names _).2 hl)
      rw [List.mem_singleton.1 hc, if_pos rfl, underLabel_of_not_mem hnot]
      rfl

theorem Filed.append {a : Annotation} (h : Filed Eq unknown as cs)
    (ha : nameOf unknown a = .ok (a.label unknown)) :
    Filed Eq unknown (as ++ [a]) (file (a.label unknown) (a.relabelled unknown) cs) := by
  have hnamed : ∀ b ∈ as ++ [a], nameOf unknown b = .ok (b.label unknown) := by
    intro b hb
    rcases List.mem_append.1 hb with hb | hb
    · exact h.named b hb
    · rw [List.mem_singleton.1 hb]
      exact ha
  by_cases hmem : a.label unknown ∈ cs.map (·.name)
  · rw [file_of_mem hmem h.distinct]
    exact h.append_of_mem hnamed hmem
  · rw [file_of_not_mem hmem]
    exact h.append_of_not_mem hnamed hmem

theorem Filed.byPlace_file {a : Annotation} (h : Filed Eq unknown as cs)
    (hp : cs.Pairwise (ByPlace unknown as)) :
    (file (a.label unknown) (a.relabelled unknown) cs).Pairwise (ByPlace unknown (as ++ [a])) := by
  have hkeep : cs.Pairwise (ByPlace unknown (as ++ [a])) := by
    refine hp.imp_of_mem fun {c d} hc hd hcd => ?_
    unfold ByPlace
    rw [firstPlace_append (h.mem_names hc), firstPlace_append (h.mem_names hd)]
    exact hcd
  by_cases hmem : a.label unknown ∈ cs.map (·.name)
  · rw [file_of_mem hmem h.distinct, List.pairwise_map]
    exact hkeep.imp fun hcd => by simpa [ByPlace] using hcd
  · rw [file_of_not_mem hmem, List.pairwise_append]
    refine ⟨hkeep, List.pairwise_singleton _ _, fun c hc d hd => ?_⟩
    have hnot : a.label unknown ∉ as.map (label unknown) :=
      fun hl => hmem ((h.names _).2 hl)
    rw [List.mem_singleton.1 hd]
    unfold ByPlace
    rw [firstPlace_append (h.mem_names hc)]
    exact Nat.lt_of_lt_of_le (firstPlace_lt (h.mem_names hc)) (firstPlace_append_of_not_mem hnot)

/-- The errors that giving annotations their labels can end in. -/
def NamingFails (E : Fault → Prop) (unknown : Text) (as : List Annotation) : Prop :=
  ∀ a ∈ as, ∀ e, nameOf unknown a = .error e → E e

theorem fileAll_ensures {done : List Annotation} (h : Filed Eq unknown done cs)
    (hp : cs.Pairwise (ByPlace unknown done)) (hE : NamingFails E unknown as) :
    Ensures E (fun cs' => Filed Eq unknown (done ++ as) cs' ∧
      cs'.Pairwise (ByPlace unknown (done ++ as))) (fileAll unknown cs as) := by
  induction as generalizing done cs with
  | nil =>
    rw [List.append_nil]
    exact ⟨h, hp⟩
  | cons a rest ih =>
    refine Ensures.bind (Ensures.self (hE a List.mem_cons_self)) fun name hname => ?_
    obtain rfl := eq_label_of_nameOf hname
    rw [List.append_cons]
    exact ih (h.append hname) (h.byPlace_file hp) fun b hb => hE b (List.mem_cons_of_mem a hb)

/-! ## Once and only once -/

/-- What is left of some annotations when those of one label are taken away. -/
theorem underLabel_filter_ne {l m : Text} (h : m ≠ l) :
    underLabel unknown (as.filter fun a => a.label unknown ≠ l) m =
      underLabel unknown as m := by
  unfold underLabel
  rw [List.filter_filter]
  congr 2
  funext a
  by_cases hm : a.label unknown = m
  · simp [hm, h]
  · simp [hm]

/-- Taking annotations label by label takes each of them once. -/
theorem flatMap_underLabel_perm {ls : List Text} (hd : ls.Nodup)
    (h : ∀ a ∈ as, a.label unknown ∈ ls) :
    (ls.flatMap (underLabel unknown as)).Perm
      (as.map (relabelled unknown)) := by
  induction ls generalizing as with
  | nil =>
    obtain rfl : as = [] := List.eq_nil_iff_forall_not_mem.2 fun a ha => by cases h a ha
    exact .nil
  | cons l rest ih =>
    obtain ⟨hl, hrest⟩ := List.nodup_cons.1 hd
    have hmem : ∀ a ∈ as.filter fun a => a.label unknown ≠ l, a.label unknown ∈ rest := by
      intro a ha
      obtain ⟨ha, hne⟩ := List.mem_filter.1 ha
      exact (List.mem_cons.1 (h a ha)).resolve_left (by simpa using hne)
    -- the annotations of `l` are in no other part, so the rest may be taken without them
    have hothers : rest.flatMap (underLabel unknown as) = rest.flatMap
        (underLabel unknown (as.filter fun a => a.label unknown ≠ l)) := by
      refine List.flatMap_congr fun m hm => (underLabel_filter_ne fun heq => hl ?_).symm
      exact heq ▸ hm
    rw [List.flatMap_cons, hothers]
    refine ((ih hrest hmem).append_left _).trans ?_
    unfold underLabel
    rw [← List.map_append]
    refine List.Perm.map _ ?_
    simpa using List.filter_append_perm (fun a => decide (a.label unknown = l)) as

/-- Filing annotations keeps each of them once. -/
theorem Filed.flatMap_perm (h : Filed held unknown as cs)
    (hheld : ∀ bs zs, held bs zs → zs.Perm bs) :
    (cs.flatMap (·.annotations)).Perm (as.map (relabelled unknown)) := by
  have hlabels : ∀ a ∈ as, a.label unknown ∈ cs.map (·.name) :=
    fun a ha => (h.names _).2 (List.mem_map_of_mem ha)
  refine List.Perm.trans ?_ (flatMap_underLabel_perm h.distinct hlabels)
  rw [List.flatMap_map]
  exact List.Perm.flatMap_left _ fun c hc => hheld _ _ (h.annotations c hc)

end Chapter
end Marginalia
