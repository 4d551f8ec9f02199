import Mathlib.Data.List.Forall2
import Marginalia.Proofs.Annotation.Filing
import Marginalia.Proofs.Annotation.Order
import Marginalia.Proofs.Sorting.Runs

/-
The chapters of some annotations.  Each chapter holds its annotations in an order
that the comparison has found, and chapters come by the smallest page of their
label and then by the place where the label occurs first.
-/
namespace Marginalia

open Sorting

/-- The smallest page among the annotations of a label. -/
def Annotation.smallestPage (unknown : Text) (as : List Annotation) (l : Text) : Int :=
  (((underLabel unknown as l).map (·.pageno)).min?).getD 0

namespace Chapter

open Annotation (underLabel firstPlace smallestPage compare_swap pageno_le_of_compare)

variable {unknown : Text} {as : List Annotation} {cs ds : List Chapter} {E : Fault → Prop}
  {held : List Annotation → List Annotation → Prop} {cmp : Comparison}

/-! ## The annotations of one chapter -/

theorem precedes_eq_ok {a b : Annotation} {r : Bool} :
    precedes cmp a b = .ok r ↔ ∃ o, cmp a b = .ok o ∧ r = decide (o = .lt) := by
  unfold precedes
  cases cmp a b with
  | error e => exact ⟨nofun, nofun⟩
  | ok o =>
    show Except.ok _ = _ ↔ _
    simp [eq_comm]

theorem precedes_eq_error {a b : Annotation} {e : Fault} :
    precedes cmp a b = .error e ↔ cmp a b = .error e := by
  unfold precedes
  cases cmp a b with
  | error e' =>
    show Except.error e' = _ ↔ _
    rw [Except.error.injEq, Except.error.injEq]
  | ok o => exact ⟨nofun, nofun⟩

/-- The second of two annotations that follow each other does not come before the
first. -/
theorem compare_of_follows {a b : Annotation} (h : Follows (precedes Annotation.compare) a b) :
    ∃ o, Annotation.compare a b = .ok o ∧ o ≠ .gt := by
  rcases h with h | h
  · obtain ⟨o, ho, hlt⟩ := precedes_eq_ok.1 h
    refine ⟨o.swap, compare_swap ho, fun hgt => ?_⟩
    rw [Ordering.swap_eq_gt.1 hgt] at hlt
    cases hlt
  · obtain ⟨o, ho, hlt⟩ := precedes_eq_ok.1 h
    refine ⟨o, ho, fun hgt => ?_⟩
    rw [hgt] at hlt
    cases hlt

theorem pageno_pairwise {bs zs : List Annotation}
    (h : Ordered (precedes Annotation.compare) bs zs) :
    zs.Pairwise fun a b => a.pageno ≤ b.pageno := by
  -- the comparison need not be transitive, but the order of pages is
  have hchain : zs.IsChain fun a b => a.pageno ≤ b.pageno := by
    refine h.chain.imp fun a b hab => ?_
    obtain ⟨o, ho, hgt⟩ := compare_of_follows hab
    exact pageno_le_of_compare ho hgt
  have hle : (zs.map (·.pageno)).IsChain (· ≤ ·) := (List.isChain_map _).2 hchain
  simpa only [List.pairwise_map] using hle.pairwise

/-! ## Each chapter on its own -/

/-- A chapter whose annotations have been brought into order. -/
def Sorts (cmp : Comparison) (c d : Chapter) : Prop :=
  d.name = c.name ∧ Ordered (precedes cmp) c.annotations d.annotations

theorem sortEach_ensures
    (hE : ∀ c ∈ cs, c.annotations.Pairwise (Comparable E (precedes cmp))) :
    Ensures E (List.Forall₂ (Sorts cmp) cs) (sortEach cmp cs) := by
  induction cs with
  | nil => exact .nil
  | cons c rest ih =>
    refine Ensures.bind (sort_ensures (hE c List.mem_cons_self)) fun bs hbs => ?_
    refine Ensures.bind (ih fun d hd => hE d (List.mem_cons_of_mem c hd)) fun ds hds => ?_
    exact .cons ⟨rfl, hbs⟩ hds

theorem names_of_sorts (h : List.Forall₂ (Sorts cmp) cs ds) :
    ds.map (·.name) = cs.map (·.name) := by
  induction h with
  | nil => rfl
  | cons hcd _ ih => rw [List.map_cons, List.map_cons, hcd.1, ih]

theorem exists_of_mem_sorts (h : List.Forall₂ (Sorts cmp) cs ds) {d : Chapter} (hd : d ∈ ds) :
    ∃ c ∈ cs, Sorts cmp c d := by
  induction h with
  | nil => cases hd
  | cons hcd _ ih =>
    rcases List.mem_cons.1 hd with rfl | hd
    · exact ⟨_, List.mem_cons_self, hcd⟩
    · obtain ⟨c, hc, hcd⟩ := ih hd
      exact ⟨c, List.mem_cons_of_mem _ hc, hcd⟩

theorem Filed.sorts (h : Filed Eq unknown as cs) (hs : List.Forall₂ (Sorts cmp) cs ds) :
    Filed (Ordered (precedes cmp)) unknown as ds := by
  have hnames := names_of_sorts hs
  refine ⟨h.named, hnames ▸ h.distinct, hnames ▸ h.names, fun d hd => ?_⟩
  obtain ⟨c, hc, hname, hcd⟩ := exists_of_mem_sorts hs hd
  rw [hname, h.annotations c hc]
  exact hcd

theorem byPlace_of_sorts (h : List.Forall₂ (Sorts cmp) cs ds)
    (hp : cs.Pairwise (ByPlace unknown as)) : ds.Pairwise (ByPlace unknown as) := by
  have hnames : (cs.map (·.name)).Pairwise fun l m =>
      firstPlace unknown as l < firstPlace unknown as m :=
    List.pairwise_map.2 hp
  rw [← names_of_sorts h] at hnames
  show ds.Pairwise fun c d =>
    firstPlace unknown as c.name < firstPlace unknown as d.name
  simpa only [List.pairwise_map] using hnames

/-! ## The order of chapters -/

/-- One chapter starts on an earlier page than another, or on the same page while
its name occurs before the other's. -/
def ByPage (unknown : Text) (as : List Annotation) (c d : Chapter) : Prop :=
  c.startPage < d.startPage ∨ c.startPage = d.startPage ∧ ByPlace unknown as c d

theorem insertByPage_perm (c : Chapter) (cs : List Chapter) :
    (insertByPage c cs).Perm (c :: cs) := by
  induction cs with
  | nil => exact .refl _
  | cons d rest ih =>
    unfold insertByPage
    split
    · exact .refl _
    · exact (ih.cons d).trans (.swap c d rest)

theorem insertByPage_pairwise {c : Chapter} (h : cs.Pairwise (ByPage unknown as))
    (hc : ∀ d ∈ cs, ByPlace unknown as d c) :
    (insertByPage c cs).Pairwise (ByPage unknown as) := by
  induction cs with
  | nil => exact List.pairwise_singleton _ _
  | cons d rest ih =>
    obtain ⟨hd, hrest⟩ := List.pairwise_cons.1 h
    unfold insertByPage
    split
    · rename_i hlt
      refine List.pairwise_cons.2 ⟨fun e he => .inl ?_, h⟩
      rcases List.mem_cons.1 he with rfl | he
      · exact hlt
      · rcases hd e he with hde | ⟨hde, _⟩ <;> omega
    · rename_i hle
      refine List.pairwise_cons.2 ⟨fun e he => ?_, ih hrest fun e he => hc e (.tail d he)⟩
      rcases List.mem_cons.1 ((insertByPage_perm c rest).mem_iff.1 he) with rfl | he
      · rcases Int.lt_or_eq_of_le (Int.not_lt.1 hle) with hlt | heq
        · exact .inl hlt
        · exact .inr ⟨heq, hc d List.mem_cons_self⟩
      · exact hd e he

theorem sortByPage_perm_and_pairwise {sorted : List Chapter}
    (hs : sorted.Pairwise (ByPage unknown as)) (hp : cs.Pairwise (ByPlace unknown as))
    (h : ∀ d ∈ sorted, ∀ c ∈ cs, ByPlace unknown as d c) :
    (cs.foldl (fun sorted c => insertByPage c sorted) sorted).Perm (sorted ++ cs) ∧
      (cs.foldl (fun sorted c => insertByPage c sorted) sorted).Pairwise (ByPage unknown as) := by
  induction cs generalizing sorted with
  | nil =>
    rw [List.append_nil]
    exact ⟨.refl _, hs⟩
  | cons c rest ih =>
    obtain ⟨hc, hrest⟩ := List.pairwise_cons.1 hp
    have hperm := insertByPage_perm c sorted
    have hmem : ∀ d ∈ insertByPage c sorted, ∀ e ∈ rest, ByPlace unknown as d e := by
      intro d hd e he
      rcases List.mem_cons.1 (hperm.mem_iff.1 hd) with rfl | hd
      · exact hc e he
      · exact h d hd e (List.mem_cons_of_mem c he)
    obtain ⟨hp', hs'⟩ := ih
      (insertByPage_pairwise hs fun d hd => h d hd c List.mem_cons_self) hrest hmem
    refine ⟨hp'.trans ?_, hs'⟩
    exact (hperm.append_right rest).trans List.perm_middle.symm

theorem Filed.perm (h : Filed held unknown as cs) (hp : ds.Perm cs) : Filed held unknown as ds := by
  have hnames := hp.map (·.name)
  refine ⟨h.named, hnames.nodup_iff.2 h.distinct, fun l => ?_, fun c hc => ?_⟩
  · rw [hnames.mem_iff]
    exact h.names l
  · exact h.annotations c (hp.mem_iff.1 hc)

/-! ## The chapters of some annotations -/

/-- The chapters that the annotations of a book are arranged in. -/
structure Arranges (cmp : Comparison) (unknown : Text) (as : List Annotation)
    (cs : List Chapter) : Prop where
  filed : Filed (Ordered (precedes cmp)) unknown as cs
  byPage : cs.Pairwise (ByPage unknown as)

/-- The errors that comparing two annotations of one label can end in. -/
def ComparingFails (E : Fault → Prop) (cmp : Comparison) (unknown : Text)
    (as : List Annotation) : Prop :=
  ∀ l, (underLabel unknown as l).Pairwise (Comparable E (precedes cmp))

theorem ofAnnotations_ensures (hn : NamingFails E unknown as)
    (hc : ComparingFails E cmp unknown as) :
    Ensures E (Arranges cmp unknown as) (ofAnnotations unknown cmp as) := by
  have hfirst : Filed Eq unknown [] [] := ⟨nofun, .nil, fun l => Iff.rfl, nofun⟩
  refine Ensures.bind (fileAll_ensures hfirst .nil hn) fun cs ⟨hfiled, hplaces⟩ => ?_
  rw [List.nil_append] at hfiled hplaces
  have hE : ∀ c ∈ cs, c.annotations.Pairwise (Comparable E (precedes cmp)) := by
    intro c hmem
    rw [← hfiled.annotations c hmem]
    exact hc c.name
  refine Ensures.bind (sortEach_ensures hE) fun ds hds => ?_
  have hplaces' := byPlace_of_sorts hds hplaces
  obtain ⟨hperm, hsorted⟩ := sortByPage_perm_and_pairwise .nil hplaces' nofun
  exact ⟨(hfiled.sorts hds).perm hperm, hsorted⟩

/-- Annotations of one label are one chapter. -/
theorem fileAll_of_label {bs done : List Annotation} {l : Text}
    (h : ∀ b ∈ bs, nameOf unknown b = .ok l) :
    fileAll unknown [⟨l, done⟩] bs =
      .ok [⟨l, done ++ bs.map fun b => { b with chapter := .text l }⟩] := by
  induction bs generalizing done with
  | nil =>
    rw [List.map_nil, List.append_nil]
    rfl
  | cons b rest ih =>
    obtain ⟨hb, hrest⟩ := List.forall_mem_cons.1 h
    unfold fileAll
    rw [hb]
    show fileAll unknown (file l { b with chapter := .text l } [⟨l, done⟩]) rest = _
    rw [file, if_pos rfl, ih hrest, List.append_assoc]
    rfl

theorem ofAnnotations_of_label {b : Annotation} {rest : List Annotation} {l : Text}
    (h : ∀ c ∈ b :: rest, nameOf unknown c = .ok l) :
    ofAnnotations unknown cmp (b :: rest) =
      sort (precedes cmp) ((b :: rest).map fun c => { c with chapter := .text l }) >>= fun zs =>
        .ok [⟨l, zs⟩] := by
  obtain ⟨hb, hrest⟩ := List.forall_mem_cons.1 h
  have hfile : fileAll unknown [] (b :: rest) =
      .ok [⟨l, (b :: rest).map fun c => { c with chapter := .text l }⟩] := by
    unfold fileAll
    rw [hb]
    show fileAll unknown [⟨l, [{ b with chapter := .text l }]⟩] rest = _
    rw [fileAll_of_label hrest]
    rfl
  unfold ofAnnotations
  rw [hfile]
  show (sortEach cmp [_] >>= fun cs => .ok (sortByPage cs)) = _
  unfold sortEach
  cases sort (precedes cmp) ((b :: rest).map fun c => { c with chapter := .text l }) <;> rfl

theorem arranges_of_ofAnnotations (h : ofAnnotations unknown cmp as = .ok cs) :
    Arranges cmp unknown as cs := by
  have hE : ComparingFails (fun _ => True) cmp unknown as :=
    fun l => List.pairwise_of_forall fun _ _ _ _ => trivial
  exact (ofAnnotations_ensures (fun _ _ _ _ => trivial) hE).of_eq_ok h

theorem Arranges.startPage_eq {c : Chapter} (h : Arranges Annotation.compare unknown as cs)
    (hc : c ∈ cs) : c.startPage = smallestPage unknown as c.name := by
  have hord := h.filed.annotations c hc
  have hpages := pageno_pairwise hord
  have hmem := fun a => hord.perm.mem_iff (a := a)
  unfold startPage smallestPage
  generalize underLabel unknown as c.name = bs at hmem
  cases hzs : c.annotations with
  | nil =>
    obtain rfl : bs = [] := List.eq_nil_iff_forall_not_mem.2 fun b hb => by
      simpa [hzs] using (hmem b).2 hb
    rfl
  | cons z rest =>
    rw [hzs] at hpages hmem
    have hmin : (bs.map (·.pageno)).min? = some z.pageno := by
      refine List.min?_eq_some_iff.2 ⟨?_, fun n hn => ?_⟩
      · exact List.mem_map_of_mem ((hmem z).1 List.mem_cons_self)
      · obtain ⟨b, hb, rfl⟩ := List.mem_map.1 hn
        rcases List.mem_cons.1 ((hmem b).2 hb) with rfl | hb
        · exact Int.le_refl _
        · exact (List.pairwise_cons.1 hpages).1 b hb
    rw [hmin]
    rfl

end Chapter
end Marginalia
