import Marginalia.Book
import Marginalia.Proofs.Annotation.Chapter
import Marginalia.Proofs.Annotation.Group

/-
The groups that a book hands out for rendering, as a list.  Together they hold
every annotation once, under the label it belongs to; the groups of a label stand
together, by page, and labels come by their smallest pages.
-/
namespace Marginalia

namespace Group

/-- All annotations of a group, of which there are some, are filed under `l`. -/
def Carries (g : Group) (l : Text) : Prop :=
  g.annotations ≠ [] ∧ ∀ a ∈ g.annotations, a.chapter = .text l

theorem Carries.unique {g : Group} {l m : Text} (h : g.Carries l) (h' : g.Carries m) : l = m := by
  obtain ⟨a, ha⟩ := List.exists_mem_of_ne_nil _ h.1
  have heq := (h.2 a ha).symm.trans (h'.2 a ha)
  exact Value.text.inj heq

end Group

namespace Book

open Annotation (relabelled firstPlace smallestPage)

/-- One label comes before another: its smallest page is smaller, or is the same
and the label occurs first. -/
def LabelBefore (unknown : Text) (as : List Annotation) (l m : Text) : Prop :=
  smallestPage unknown as l < smallestPage unknown as m ∨
    smallestPage unknown as l = smallestPage unknown as m ∧
      firstPlace unknown as l < firstPlace unknown as m

theorem LabelBefore.asymm {unknown : Text} {as : List Annotation} {l m : Text}
    (h : LabelBefore unknown as l m) : ¬ LabelBefore unknown as m l := by
  unfold LabelBefore at *
  omega

/-- What a step hands out for rendering. -/
def handed? : BookStep → Option (Group × Bool)
  | .block g first => some (g, first)
  | _ => none

/-- The groups that are handed out for rendering, with the mark of the first of a
chapter. -/
def handed (steps : List BookStep) : List (Group × Bool) := steps.filterMap handed?

/-- Groups handed out for rendering that present some annotations in order. -/
structure Arranged (unknown : Text) (as : List Annotation) (hs : List (Group × Bool)) :
    Prop where
  perm : (hs.flatMap (·.1.annotations)).Perm (as.map (relabelled unknown))
  labelled : ∀ h ∈ hs, ∃ l, h.1.Carries l
  consecutive : ∀ g m h l, [g, m, h].Sublist (hs.map (·.1)) → g.Carries l → h.Carries l →
    m.Carries l
  first : ∀ before g first after l, hs = before ++ (g, first) :: after → g.Carries l →
    (first = true ↔ ∀ h ∈ before, ¬ h.1.Carries l)
  pages : (hs.flatMap (·.1.annotations)).Pairwise fun a b =>
    a.chapter = b.chapter → a.pageno ≤ b.pageno
  labels : (hs.map (·.1)).Pairwise fun g h => ∀ l m, g.Carries l → h.Carries m → l ≠ m →
    LabelBefore unknown as l m

/-! ## The groups of one chapter -/

/-- Groups with a mark on the first. -/
def flagged : List Group → List (Group × Bool)
  | [] => []
  | g :: rest => (g, true) :: rest.map fun h => (h, false)

theorem handed_append (ss ts : List BookStep) : handed (ss ++ ts) = handed ss ++ handed ts :=
  List.filterMap_append

theorem handed_blocks (gs : List Group) : handed (blocks gs) = flagged gs := by
  cases gs with
  | nil => rfl
  | cons g rest =>
    show (g, true) :: (rest.map fun h => BookStep.block h false).filterMap handed? =
      (g, true) :: rest.map fun h => (h, false)
    rw [List.filterMap_map]
    exact congrArg _ (congrFun List.filterMap_eq_map rest)

theorem flagged_map_fst (gs : List Group) : (flagged gs).map (·.1) = gs := by
  cases gs with
  | nil => rfl
  | cons g rest => simp [flagged, Function.comp_def]

/-- Only the first of some groups is marked. -/
theorem flagged_pairwise (gs : List Group) : (flagged gs).Pairwise fun _ h => h.2 = false := by
  cases gs with
  | nil => exact .nil
  | cons g rest =>
    refine List.pairwise_cons.2 ⟨fun h hh => ?_, ?_⟩
    · obtain ⟨k, _, rfl⟩ := List.mem_map.1 hh
      rfl
    · rw [List.pairwise_map]
      exact List.pairwise_of_forall fun _ _ => rfl

/-- The groups of a chapter that is handed out. -/
def HandsOut (c : Chapter) (hs : List (Group × Bool)) : Prop :=
  ∃ gs, Group.Splits c.annotations gs ∧ hs = flagged gs

namespace HandsOut

variable {c : Chapter} {hs : List (Group × Bool)}

theorem flatMap_annotations (h : HandsOut c hs) :
    hs.flatMap (·.1.annotations) = c.annotations := by
  obtain ⟨gs, hgs, rfl⟩ := h
  rw [← hgs.annotations, ← flagged_map_fst gs, List.flatMap_map, flagged_map_fst]

theorem ne_nil (h : HandsOut c hs) {k : Group × Bool} (hk : k ∈ hs) : k.1.annotations ≠ [] := by
  obtain ⟨gs, hgs, rfl⟩ := h
  refine hgs.ne_nil ?_
  rw [← flagged_map_fst gs]
  exact List.mem_map_of_mem hk

theorem carries (h : HandsOut c hs) (hc : ∀ a ∈ c.annotations, a.chapter = .text c.name)
    {k : Group × Bool} (hk : k ∈ hs) : k.1.Carries c.name := by
  refine ⟨h.ne_nil hk, fun a ha => hc a ?_⟩
  rw [← h.flatMap_annotations]
  exact List.mem_flatMap.2 ⟨k, hk, ha⟩

theorem exists_before (h : HandsOut c hs) {before after : List (Group × Bool)} {g : Group}
    (heq : hs = before ++ (g, false) :: after) : before ≠ [] := by
  rintro rfl
  obtain ⟨gs, _, rfl⟩ := h
  cases gs with
  | nil => cases heq
  | cons g rest => cases heq

end HandsOut

/-! ## The groups of all chapters -/

section

variable {unknown : Text} {as : List Annotation} {cs : List Chapter}
  {H : Chapter → List (Group × Bool)}

theorem flatMap_annotations_handed (hH : ∀ c ∈ cs, HandsOut c (H c)) :
    (cs.flatMap H).flatMap (·.1.annotations) = cs.flatMap (·.annotations) := by
  rw [List.flatMap_assoc]
  exact List.flatMap_congr fun c hc => (hH c hc).flatMap_annotations

/-- A group without the mark comes after another one of its chapter. -/
theorem exists_before_of_unmarked (hH : ∀ c ∈ cs, HandsOut c (H c))
    {before after : List (Group × Bool)} {g : Group}
    (h : cs.flatMap H = before ++ (g, false) :: after) :
    ∃ c ∈ cs, (g, false) ∈ H c ∧ ∃ k ∈ before, k ∈ H c := by
  induction cs generalizing before with
  | nil => simp at h
  | cons c rest ih =>
    obtain ⟨hc, hrest⟩ := List.forall_mem_cons.1 hH
    have step : ∀ before', rest.flatMap H = before' ++ (g, false) :: after →
        (∀ k ∈ before', k ∈ before) →
        ∃ d ∈ c :: rest, (g, false) ∈ H d ∧ ∃ k ∈ before, k ∈ H d := by
      intro before' heq hsub
      obtain ⟨d, hd, hmem, k, hk, hkd⟩ := ih hrest heq
      exact ⟨d, List.mem_cons_of_mem c hd, hmem, k, hsub k hk, hkd⟩
    rw [List.flatMap_cons] at h
    -- the group lies in a later chapter, or in this one behind its first group
    rcases List.append_eq_append_iff.1 h with ⟨t, rfl, ht⟩ | ⟨t, ht, hafter⟩
    · exact step t ht fun k hk => List.mem_append_right _ hk
    · cases t with
      | nil => exact step [] hafter.symm fun k hk => by cases hk
      | cons k t =>
        obtain ⟨rfl, -⟩ := List.cons.inj hafter
        obtain ⟨k, hk⟩ := List.exists_mem_of_ne_nil _ (hc.exists_before ht)
        exact ⟨c, List.mem_cons_self, by simp [ht], k, hk, by simp [ht, hk]⟩

theorem chapter_of_mem (h : Chapter.Arranges Annotation.compare unknown as cs) {c : Chapter}
    (hc : c ∈ cs) : ∀ a ∈ c.annotations, a.chapter = .text c.name := by
  intro a ha
  have hmem := (h.filed.annotations c hc).perm.mem_iff.1 ha
  obtain ⟨b, hb, rfl⟩ := List.mem_map.1 hmem
  have hl : b.label unknown = c.name := by simpa using (List.mem_filter.1 hb).2
  show Value.text (b.label unknown) = _
  rw [hl]

variable (h : Chapter.Arranges Annotation.compare unknown as cs)
  (hH : ∀ c ∈ cs, HandsOut c (H c))

include h

theorem names_pairwise : cs.Pairwise fun c d => c.name ≠ d.name :=
  List.pairwise_map.1 h.filed.distinct

theorem pages_pairwise : (cs.flatMap (·.annotations)).Pairwise fun a b =>
    a.chapter = b.chapter → a.pageno ≤ b.pageno := by
  rw [List.pairwise_flatMap]
  refine ⟨fun c hc => ?_, (names_pairwise h).imp_of_mem fun {c d} hc hd hcd => ?_⟩
  · have hpages := Chapter.pageno_pairwise (h.filed.annotations c hc)
    refine List.Pairwise.imp ?_ hpages
    intro a b hab _
    exact hab
  · intro a ha b hb hab
    rw [chapter_of_mem h hc a ha, chapter_of_mem h hd b hb] at hab
    exact absurd (Value.text.inj hab) hcd

include hH

theorem carries_name {c : Chapter} (hc : c ∈ cs) {k : Group × Bool} (hk : k ∈ H c) :
    k.1.Carries c.name :=
  (hH c hc).carries (chapter_of_mem h hc) hk

theorem labels_pairwise : ((cs.flatMap H).map (·.1)).Pairwise fun g k => ∀ l m, g.Carries l →
    k.Carries m → l ≠ m → LabelBefore unknown as l m := by
  rw [List.pairwise_map, List.pairwise_flatMap]
  refine ⟨fun c hc => ?_, h.byPage.imp_of_mem fun {c d} hc hd hcd => ?_⟩
  · refine List.pairwise_of_forall_mem_list fun g hg k hk l m hl hm hne => absurd ?_ hne
    rw [hl.unique (carries_name h hH hc hg), hm.unique (carries_name h hH hc hk)]
  · intro g hg k hk l m hl hm _
    rw [hl.unique (carries_name h hH hc hg), hm.unique (carries_name h hH hd hk)]
    unfold LabelBefore
    rw [← h.startPage_eq hc, ← h.startPage_eq hd]
    exact hcd

/-- Before a group with the mark there is none of its label. -/
theorem marks_pairwise : (cs.flatMap H).Pairwise fun k p => p.2 = true → ∀ l, p.1.Carries l →
    ¬ k.1.Carries l := by
  rw [List.pairwise_flatMap]
  refine ⟨fun c hc => ?_, (names_pairwise h).imp_of_mem fun {c d} hc hd hcd => ?_⟩
  · obtain ⟨gs, _, hgs⟩ := hH c hc
    rw [hgs]
    refine (flagged_pairwise gs).imp fun {_ p} hp htrue => ?_
    rw [hp] at htrue
    cases htrue
  · intro k hk p hp _ l hpl hkl
    refine hcd ?_
    rw [← hkl.unique (carries_name h hH hc hk), ← hpl.unique (carries_name h hH hd hp)]

/-- Between two groups of one label there is no group of another: the labels would
have to come before each other. -/
theorem carries_between {g m k : Group} {l : Text}
    (hsub : [g, m, k].Sublist ((cs.flatMap H).map (·.1))) (hg : g.Carries l)
    (hk : k.Carries l) : m.Carries l := by
  obtain ⟨p, hp, hpm⟩ := List.mem_map.1 (hsub.subset (by simp : m ∈ [g, m, k]))
  obtain ⟨c, hc, hpc⟩ := List.mem_flatMap.1 hp
  have hm : m.Carries c.name := hpm ▸ carries_name h hH hc hpc
  by_cases hne : l = c.name
  · exact hne ▸ hm
  · have horder := (labels_pairwise h hH).sublist hsub
    simp only [List.pairwise_cons, List.mem_cons] at horder
    have hbefore := horder.1 m (.inl rfl) l c.name hg hm hne
    have hafter := horder.2.1 k (.inl rfl) c.name l hm hk (Ne.symm hne)
    exact absurd hafter hbefore.asymm

/-- The mark stands on a group exactly when none of its label comes before. -/
theorem first_iff {before after : List (Group × Bool)} {g : Group} {first : Bool} {l : Text}
    (heq : cs.flatMap H = before ++ (g, first) :: after) (hl : g.Carries l) :
    first = true ↔ ∀ k ∈ before, ¬ k.1.Carries l := by
  constructor
  · rintro rfl k hk
    have hmarks := marks_pairwise h hH
    rw [heq, List.pairwise_append] at hmarks
    exact hmarks.2.2 k hk (g, true) List.mem_cons_self rfl l hl
  · intro hbefore
    cases first with
    | true => rfl
    | false =>
      obtain ⟨c, hc, hgc, k, hk, hkc⟩ := exists_before_of_unmarked hH heq
      refine absurd ?_ (hbefore k hk)
      rw [hl.unique (carries_name h hH hc hgc)]
      exact carries_name h hH hc hkc

/-- What the groups of each chapter and the order of chapters make of the whole. -/
theorem arranged : Arranged unknown as (cs.flatMap H) where
  perm := by
    rw [flatMap_annotations_handed hH]
    exact h.filed.flatMap_perm fun _ _ hord => hord.perm
  labelled := by
    intro k hk
    obtain ⟨c, hc, hkc⟩ := List.mem_flatMap.1 hk
    exact ⟨c.name, carries_name h hH hc hkc⟩
  consecutive := fun _ _ _ _ hsub hg hk => carries_between h hH hsub hg hk
  first := fun _ _ _ _ _ heq hl => first_iff h hH heq hl
  pages := by
    rw [flatMap_annotations_handed hH]
    exact pages_pairwise h
  labels := labels_pairwise h hH

end

end Book
end Marginalia
