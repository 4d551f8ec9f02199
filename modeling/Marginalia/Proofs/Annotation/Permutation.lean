import Mathlib.Data.List.Nodup
import Marginalia.Proofs.Annotation.Chapter

/-
Annotations in any order.  Where no two annotations of a label compare alike and
no two labels start on one page, the chapters are the same whatever order the
annotations come in.
-/
namespace Marginalia

open Sorting

namespace Annotation

variable {unknown : Text} {as bs : List Annotation}

/-- No two annotations of one label are found alike. -/
def Untied (unknown : Text) (as : List Annotation) : Prop :=
  as.Pairwise fun a b => a.label unknown = b.label unknown → compare a b ≠ .ok .eq

/-- No two labels have the same smallest page. -/
def PagesApart (unknown : Text) (as : List Annotation) : Prop :=
  ∀ a ∈ as, ∀ b ∈ as, a.label unknown ≠ b.label unknown →
    smallestPage unknown as (a.label unknown) ≠ smallestPage unknown as (b.label unknown)

theorem compare_eq_symm {a b : Annotation} (h : compare a b = .ok .eq) :
    compare b a = .ok .eq :=
  compare_swap h

theorem Untied.perm (h : Untied unknown as) (hp : as.Perm bs) : Untied unknown bs := by
  refine hp.pairwise h fun {a b} hab hlabel heq => ?_
  exact hab hlabel.symm (compare_eq_symm heq)

theorem underLabel_perm (hp : as.Perm bs) (l : Text) :
    (underLabel unknown as l).Perm (underLabel unknown bs l) :=
  (hp.filter _).map _

theorem Untied.underLabel (h : Untied unknown as) (l : Text) :
    (underLabel unknown as l).Pairwise fun a b => compare a b ≠ .ok .eq := by
  unfold Annotation.underLabel
  rw [List.pairwise_map]
  refine (h.sublist List.filter_sublist).imp_of_mem fun {a b} ha hb hab => hab ?_
  have ha : a.label unknown = l := by simpa using (List.mem_filter.1 ha).2
  have hb : b.label unknown = l := by simpa using (List.mem_filter.1 hb).2
  exact ha.trans hb.symm

end Annotation

namespace Chapter

open Annotation (label Untied PagesApart underLabel_perm compare_swap compare_eq_symm
  compare_lt_trans)

variable {unknown : Text} {as bs xs ys : List Annotation} {cs ds : List Chapter}

/-- Each annotation strictly before all that come after it. -/
abbrev Strict (as : List Annotation) : Prop :=
  as.Pairwise fun a b => Annotation.compare a b = .ok .lt

/-- An order found for annotations of which no two are alike is strict. -/
theorem strict_of_ordered (h : Ordered (precedes Annotation.compare) xs ys)
    (hties : xs.Pairwise fun a b => Annotation.compare a b ≠ .ok .eq) : Strict ys := by
  have hties' : ys.Pairwise fun a b => Annotation.compare a b ≠ .ok .eq :=
    h.perm.symm.pairwise hties fun {a b} hab heq => hab (compare_eq_symm heq)
  have hchain : ys.IsChain fun a b => Annotation.compare a b = .ok .lt := by
    have hneighbours := h.chain
    have hties'' := hties'.isChain
    rw [List.isChain_iff_forall_rel_of_append_cons_cons] at *
    intro a b before after heq
    obtain ⟨o, ho, hgt⟩ := compare_of_follows (hneighbours heq)
    cases o with
    | lt => exact ho
    | eq => exact absurd ho (hties'' heq)
    | gt => exact absurd rfl hgt
  -- only neighbours were compared; what holds of them carries over to all pairs
  have : IsTrans Annotation fun a b => Annotation.compare a b = .ok .lt :=
    ⟨fun _ _ _ => compare_lt_trans⟩
  exact hchain.pairwise

theorem Strict.eq_of_perm (hx : Strict xs) (hy : Strict ys) (h : xs.Perm ys) : xs = ys := by
  refine List.Perm.eq_of_pairwise (fun a b _ _ hab hba => ?_) hx hy h
  rw [compare_swap hab] at hba
  cases hba

/-- Annotations that stand in strict order can be compared, in any order. -/
theorem Strict.comparable (h : Strict xs) (hp : xs.Perm ys) :
    ys.Pairwise (Comparable (fun _ => False) (precedes Annotation.compare)) := by
  refine hp.pairwise (h.imp fun {a b} hab e he => ?_) Comparable.symm
  rcases he with he | he
  · rw [precedes_eq_error, hab] at he
    cases he
  · rw [precedes_eq_error, compare_swap hab] at he
    cases he

/-! ## The same chapters -/

theorem Filed.exists_of_label {held : List Annotation → List Annotation → Prop} {l : Text}
    (h : Filed held unknown as cs) (hl : l ∈ as.map (label unknown)) :
    ∃ c ∈ cs, c.name = l :=
  List.mem_map.1 ((h.names l).2 hl)

/-- Of two arrangements of the same annotations, one has no chapter that the other
has not. -/
theorem Arranges.mem_of_perm (hp : as.Perm bs) (hties : Untied unknown as)
    (has : Arranges Annotation.compare unknown as cs)
    (hbs : Arranges Annotation.compare unknown bs ds) {c : Chapter} (hc : c ∈ cs) : c ∈ ds := by
  have hlabel : c.name ∈ bs.map (label unknown) :=
    (hp.map _).mem_iff.1 (has.filed.mem_names hc)
  obtain ⟨d, hd, hname⟩ := hbs.filed.exists_of_label hlabel
  have hordc := has.filed.annotations c hc
  have hordd := hbs.filed.annotations d hd
  have heq : c.annotations = d.annotations := by
    refine Strict.eq_of_perm (strict_of_ordered hordc (hties.underLabel _))
      (strict_of_ordered hordd ((hties.perm hp).underLabel _)) ?_
    refine hordc.perm.trans (List.Perm.trans ?_ hordd.perm.symm)
    rw [hname]
    exact underLabel_perm hp c.name
  obtain rfl : c = d := by
    cases c
    cases d
    simp_all
  exact hd

theorem Arranges.nodup {cmp : Comparison} (h : Arranges cmp unknown as cs) : cs.Nodup :=
  List.Nodup.of_map _ h.filed.distinct

/-- Chapters that start on one page are the same where labels do not. -/
theorem Arranges.eq_of_startPage (h : Arranges Annotation.compare unknown as cs)
    (hpages : PagesApart unknown as) {c d : Chapter} (hc : c ∈ cs) (hd : d ∈ cs)
    (heq : c.startPage = d.startPage) : c = d := by
  refine List.inj_on_of_nodup_map h.filed.distinct hc hd ?_
  rw [h.startPage_eq hc, h.startPage_eq hd] at heq
  obtain ⟨a, ha, hca⟩ := List.mem_map.1 (h.filed.mem_names hc)
  obtain ⟨b, hb, hdb⟩ := List.mem_map.1 (h.filed.mem_names hd)
  rw [← hca, ← hdb] at heq ⊢
  by_cases hab : a.label unknown = b.label unknown
  · exact hab
  · exact absurd heq (hpages a ha b hb hab)

theorem Arranges.pages_le {cmp : Comparison} (h : Arranges cmp unknown as cs) :
    cs.Pairwise fun c d => c.startPage ≤ d.startPage := by
  refine h.byPage.imp fun {c d} hcd => ?_
  rcases hcd with hlt | ⟨heq, _⟩
  · exact Int.le_of_lt hlt
  · exact Int.le_of_eq heq

theorem ofAnnotations_perm (hp : as.Perm bs) (hties : Untied unknown as)
    (hpages : PagesApart unknown as)
    (h : ofAnnotations unknown Annotation.compare as = .ok cs) :
    ofAnnotations unknown Annotation.compare bs = .ok cs := by
  have has := arranges_of_ofAnnotations h
  have hnaming : NamingFails (fun _ => False) unknown bs := by
    intro b hb e he
    rw [has.filed.named b (hp.mem_iff.2 hb)] at he
    cases he
  -- every pair that sorting `bs` may ask about was decided, at least in effect, on `as`
  have hcomparing : ComparingFails (fun _ => False) Annotation.compare unknown bs := by
    intro l
    by_cases hl : l ∈ as.map (label unknown)
    · obtain ⟨c, hc, rfl⟩ := has.filed.exists_of_label hl
      have hord := has.filed.annotations c hc
      exact (strict_of_ordered hord (hties.underLabel _)).comparable
        (hord.perm.trans (underLabel_perm hp c.name))
    · rw [underLabel_of_not_mem fun hmem => hl ((hp.map _).mem_iff.2 hmem)]
      exact .nil
  obtain ⟨ds, hds, hbs⟩ := (ofAnnotations_ensures hnaming hcomparing).exists_ok
  have hmem : ∀ c, c ∈ cs ↔ c ∈ ds := fun c =>
    ⟨has.mem_of_perm hp hties hbs, hbs.mem_of_perm hp.symm (hties.perm hp) has⟩
  have hperm : cs.Perm ds := (List.perm_ext_iff_of_nodup has.nodup hbs.nodup).2 hmem
  rw [hds, List.Perm.eq_of_pairwise ?_ has.pages_le hbs.pages_le hperm]
  intro c d hc hd hcd hdc
  exact has.eq_of_startPage hpages hc ((hmem d).2 hd) (Int.le_antisymm hcd hdc)

end Chapter
end Marginalia
