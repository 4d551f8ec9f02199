import Marginalia.Proofs.Text.Strip

/-
Cutting a text at a mark, and splitting it into fields.  What stands before a cut
is free of the mark; a mark of two equal code points is found again where it was
put; and fields that were joined come apart as they were.
-/
namespace Marginalia
namespace Text

/-! ## Cuts -/

theorem holds_eq_false {mark t : Text} : holds mark t = false ↔ cut mark t = none := by
  unfold holds
  rw [Option.isSome_eq_false_iff, Option.isNone_iff_eq_none]

theorem cut_cons_of_not_start {mark t : Text} {c : Char}
    (h : mark.isPrefixOf (c :: t) = false) :
    cut mark (c :: t) = (cut mark t).map fun (before, after) => (c :: before, after) := by
  rw [cut, h]
  rfl

theorem not_start_of_holds {mark t : Text} {c : Char} (h : holds mark (c :: t) = false) :
    mark.isPrefixOf (c :: t) = false ∧ holds mark t = false := by
  rw [holds_eq_false, cut] at h
  cases hp : mark.isPrefixOf (c :: t) with
  | true =>
    rw [hp] at h
    cases h
  | false =>
    rw [hp] at h
    exact ⟨rfl, holds_eq_false.2 (Option.map_eq_none_iff.1 h)⟩

theorem holds_cons {mark t : Text} {c : Char} (hp : mark.isPrefixOf (c :: t) = false)
    (h : holds mark t = false) : holds mark (c :: t) = false := by
  rw [holds_eq_false] at *
  rw [cut_cons_of_not_start hp, h]
  rfl

theorem holds_nil {mark : Text} (h : mark ≠ []) : holds mark [] = false := by
  rw [holds_eq_false, cut, if_neg (by simpa using h)]

/-- The mark does not occur before the place of the first cut. -/
theorem holds_before_cut {mark t before after : Text} (hmark : mark ≠ [])
    (h : cut mark t = some (before, after)) : holds mark before = false := by
  induction t generalizing before with
  | nil =>
    rw [cut, if_neg (by simpa using hmark)] at h
    cases h
  | cons c rest ih =>
    cases hp : mark.isPrefixOf (c :: rest) with
    | true =>
      rw [cut, hp] at h
      cases h
      exact holds_nil hmark
    | false =>
      rw [cut_cons_of_not_start hp] at h
      obtain ⟨⟨before', after'⟩, hcut, heq⟩ := Option.map_eq_some_iff.1 h
      cases heq
      refine holds_cons ?_ (ih hcut)
      rw [← Bool.not_eq_true, List.isPrefixOf_iff_prefix] at hp ⊢
      refine fun hstart => hp (hstart.trans ⟨mark ++ after, ?_⟩)
      rw [eq_of_cut hcut]
      simp

theorem holds_iff_infix {mark t : Text} : holds mark t = true ↔ mark <:+: t := by
  induction t with
  | nil => simp [holds, cut, List.infix_nil, apply_ite]
  | cons c rest ih =>
    rw [List.infix_cons_iff, ← List.isPrefixOf_iff_prefix, ← ih]
    cases hp : mark.isPrefixOf (c :: rest) with
    | true => simp [holds, cut, hp]
    | false => simp [holds, cut_cons_of_not_start hp]

/-- A part of a text holds no mark that the whole does not hold. -/
theorem holds_of_infix {mark s t : Text} (hst : s <:+: t) (h : holds mark t = false) :
    holds mark s = false := by
  rw [← Bool.not_eq_true, holds_iff_infix] at *
  exact fun hs => h (hs.trans hst)

variable {x : Char}

/-- What stands before the first pair does not end in half of it. -/
theorem getLast?_before_cut {t before after : Text}
    (h : cut [x, x] t = some (before, after)) : before.getLast? ≠ some x := by
  induction t generalizing before with
  | nil => cases h
  | cons c rest ih =>
    cases hp : List.isPrefixOf [x, x] (c :: rest) with
    | true =>
      rw [cut, hp] at h
      cases h
      nofun
    | false =>
      rw [cut_cons_of_not_start hp] at h
      obtain ⟨⟨before', after'⟩, hcut, heq⟩ := Option.map_eq_some_iff.1 h
      cases heq
      cases before' with
      | cons d before' =>
        rw [List.getLast?_cons_cons]
        exact ih hcut
      | nil =>
        -- otherwise the pair would have been found one code point earlier
        rintro ⟨rfl⟩
        rw [eq_of_cut hcut] at hp
        simp [List.isPrefixOf] at hp

/-- A pair of equal code points is found behind a text that neither holds it nor
ends in one half of it. -/
theorem cut_pair {before : Text} (h : holds [x, x] before = false)
    (hlast : before.getLast? ≠ some x) (after : Text) :
    cut [x, x] (before ++ [x, x] ++ after) = some (before, after) := by
  induction before with
  | nil => simp [cut, List.isPrefixOf]
  | cons c rest ih =>
    obtain ⟨hp, hrest⟩ := not_start_of_holds h
    have hp' : List.isPrefixOf [x, x] (c :: (rest ++ [x, x] ++ after)) = false := by
      cases rest with
      | nil =>
        have hne : x ≠ c := fun hxc => hlast (by rw [hxc]; rfl)
        simp [List.isPrefixOf, hne]
      | cons d rest => simpa [List.isPrefixOf] using hp
    have hlast' : rest.getLast? ≠ some x := by
      cases rest with
      | nil => nofun
      | cons d rest => rwa [List.getLast?_cons_cons] at hlast
    rw [List.cons_append, List.cons_append, cut_cons_of_not_start hp', ih hrest hlast']
    rfl

theorem holds_of_not_mem {t : Text} (h : x ∉ t) : holds [x, x] t = false := by
  induction t with
  | nil => exact holds_nil nofun
  | cons c rest ih =>
    rw [List.mem_cons, not_or] at h
    exact holds_cons (by simp [List.isPrefixOf, h.1]) (ih h.2)

/-- A mark does not reach into a text that starts with nothing of its inside. -/
theorem isPrefixOf_of_append {mark s t : Text} (h : mark.isPrefixOf (s ++ t))
    (ht : ∀ c ∈ t.head?, c ∉ mark.tail) (hs : s ≠ []) : mark.isPrefixOf s := by
  rw [List.isPrefixOf_iff_prefix] at *
  obtain ⟨u, hu⟩ := h
  rcases List.append_eq_append_iff.1 hu with ⟨a, rfl, _⟩ | ⟨a, rfl, rfl⟩
  · exact List.prefix_append mark a
  · cases a with
    | nil => exact (List.append_nil s).symm ▸ List.prefix_refl s
    | cons c a =>
      obtain ⟨d, s, rfl⟩ := List.exists_cons_of_ne_nil hs
      exact absurd (List.mem_append_right s List.mem_cons_self) (ht c rfl)

/-- Across a code point that is not in a mark the mark does not come about. -/
theorem holds_across {mark s t : Text} {c : Char} (hc : c ∉ mark) (hs : holds mark s = false)
    (ht : holds mark t = false) : holds mark (s ++ c :: t) = false := by
  induction s with
  | nil =>
    refine holds_cons ?_ ht
    cases mark with
    | nil => cases hs
    | cons d mark =>
      rw [List.mem_cons, not_or] at hc
      simp [List.isPrefixOf, Ne.symm hc.1]
  | cons d s ih =>
    obtain ⟨hp, hs⟩ := not_start_of_holds hs
    refine holds_cons ?_ (ih hs)
    rw [← Bool.not_eq_true] at hp ⊢
    refine fun h => hp (isPrefixOf_of_append h ?_ (List.cons_ne_nil d s))
    rintro e ⟨⟩ he
    exact hc (List.mem_of_mem_tail he)

/-- Across another code point no pair comes about. -/
theorem holds_append_cons {y : Char} {s t : Text} (hs : holds [x, x] s = false)
    (hy : y ≠ x) (ht : holds [x, x] t = false) : holds [x, x] (s ++ y :: t) = false :=
  holds_across (by simp [hy]) hs ht

theorem cut_single {before : Text} (h : x ∉ before) (after : Text) :
    cut [x] (before ++ x :: after) = some (before, after) := by
  induction before with
  | nil => simp [cut, List.isPrefixOf]
  | cons c rest ih =>
    rw [List.mem_cons, not_or] at h
    have hstart : List.isPrefixOf [x] (c :: (rest ++ x :: after)) = false := by
      simp [List.isPrefixOf, h.1]
    rw [List.cons_append, cut_cons_of_not_start hstart, ih h.2]
    rfl

theorem not_mem_before_cut {t before after : Text} (h : cut [x] t = some (before, after)) :
    x ∉ before := by
  have hholds := holds_before_cut (List.cons_ne_nil x []) h
  intro hmem
  obtain ⟨s, u, rfl⟩ := List.append_of_mem hmem
  have hinfix : [x] <:+: s ++ x :: u := ⟨s, u, by simp⟩
  rw [← holds_iff_infix, hholds] at hinfix
  cases hinfix

theorem not_mem_of_cut_eq_none {t : Text} (h : cut [x] t = none) : x ∉ t := by
  intro hmem
  obtain ⟨s, u, rfl, hs⟩ := List.eq_append_cons_of_mem hmem
  rw [cut_single hs] at h
  cases h

/-! ## Fields -/

variable {sep : Char}

theorem fields_cons {c : Char} (h : c ≠ sep) (t : Text) :
    ∃ f fs, fields sep t = f :: fs ∧ fields sep (c :: t) = (c :: f) :: fs := by
  obtain ⟨f, fs, hf⟩ := List.exists_cons_of_ne_nil (fields_ne_nil sep t)
  refine ⟨f, fs, hf, ?_⟩
  rw [fields, if_neg h, hf]

theorem fields_sep_cons (t : Text) : fields sep (sep :: t) = [] :: fields sep t := by
  rw [fields, if_pos rfl]

theorem fields_of_not_mem {t : Text} (h : sep ∉ t) : fields sep t = [t] := by
  induction t with
  | nil => rfl
  | cons c rest ih =>
    rw [List.mem_cons, not_or] at h
    rw [fields, if_neg (Ne.symm h.1), ih h.2]

/-- Across a separator the fields of both texts follow each other. -/
theorem fields_append (s t : Text) : fields sep (s ++ sep :: t) = fields sep s ++ fields sep t := by
  induction s with
  | nil => exact fields_sep_cons t
  | cons c rest ih =>
    by_cases hc : c = sep
    · subst hc
      rw [List.cons_append, fields_sep_cons, fields_sep_cons, ih, List.cons_append]
    · obtain ⟨f, fs, hf, hcons⟩ := fields_cons hc rest
      rw [hcons, List.cons_append, fields, if_neg hc, ih, hf]
      rfl

theorem fields_append_sep {f : Text} (h : sep ∉ f) (t : Text) :
    fields sep (f ++ sep :: t) = f :: fields sep t := by
  rw [fields_append, fields_of_not_mem h]
  rfl

theorem not_mem_of_mem_fields {f t : Text} (h : f ∈ fields sep t) : sep ∉ f := by
  induction t generalizing f with
  | nil =>
    obtain rfl := List.mem_singleton.1 h
    nofun
  | cons c rest ih =>
    by_cases hc : c = sep
    · subst hc
      rw [fields_sep_cons, List.mem_cons] at h
      rcases h with rfl | h
      · nofun
      · exact ih h
    · obtain ⟨g, gs, hrest, hcons⟩ := fields_cons hc rest
      rw [hcons, List.mem_cons] at h
      rw [hrest] at ih
      rcases h with rfl | h
      · exact List.not_mem_cons_of_ne_of_not_mem (Ne.symm hc) (ih (.head _))
      · exact ih (.tail _ h)

/-- A first text, and each other one behind the separator. -/
theorem join_cons (sep f : Text) (fs : List Text) :
    join sep (f :: fs) = f ++ fs.flatMap (sep ++ ·) := by
  induction fs generalizing f with
  | nil => exact (List.append_nil f).symm
  | cons g fs ih =>
    rw [List.flatMap_cons, List.append_assoc, ← ih g, ← List.append_assoc]
    rfl

theorem join_cons_of_ne_nil {f : Text} {fs : List Text} (h : fs ≠ []) :
    join [sep] (f :: fs) = f ++ sep :: join [sep] fs := by
  rw [join, List.append_assoc, List.singleton_append]
  exact h

theorem length_join_cons_le (sep : Char) (f : Text) (fs : List Text) :
    (join [sep] (f :: fs)).length ≤ f.length + 1 + (join [sep] fs).length := by
  cases fs with
  | nil =>
    show f.length ≤ _
    omega
  | cons g rest =>
    rw [join_cons_of_ne_nil (List.cons_ne_nil g rest), List.length_append, List.length_cons]
    omega

theorem infix_join_of_mem {f : Text} {fs : List Text} (h : f ∈ fs) : f <:+: join [sep] fs := by
  induction fs with
  | nil => cases h
  | cons g rest ih =>
    cases rest with
    | nil =>
      obtain rfl := List.mem_singleton.1 h
      exact List.infix_rfl
    | cons k rest =>
      rw [join_cons_of_ne_nil (List.cons_ne_nil k rest)]
      rcases List.mem_cons.1 h with rfl | h
      · exact (List.prefix_append _ _).isInfix
      · exact (ih h).trans ((List.suffix_cons _ _).trans (List.suffix_append _ _)).isInfix

theorem infix_of_mem_fields {f t : Text} (h : f ∈ fields sep t) : f <:+: t := by
  have : f <:+: join [sep] (fields sep t) := infix_join_of_mem h
  rwa [join_fields] at this

/-- There is one field more than there are separators. -/
theorem length_fields (t : Text) : (fields sep t).length = t.count sep + 1 := by
  induction t with
  | nil => rfl
  | cons c rest ih =>
    by_cases hc : c = sep
    · subst hc
      rw [fields_sep_cons, List.length_cons, ih, List.count_cons_self]
    · obtain ⟨f, fs, hf, hcons⟩ := fields_cons hc rest
      rw [hcons, List.count_cons_of_ne hc, ← ih, hf]
      rfl

theorem fields_injective (sep : Char) : Function.Injective (fields sep) :=
  Function.LeftInverse.injective (join_fields sep)

theorem fields_join {fs : List Text} (hne : fs ≠ []) (h : ∀ f ∈ fs, sep ∉ f) :
    fields sep (join [sep] fs) = fs := by
  induction fs with
  | nil => exact absurd rfl hne
  | cons f rest ih =>
    obtain ⟨hf, hrest⟩ := List.forall_mem_cons.1 h
    cases rest with
    | nil => exact fields_of_not_mem hf
    | cons g rest =>
      rw [join_cons_of_ne_nil (List.cons_ne_nil g rest), fields_append_sep hf,
        ih (List.cons_ne_nil g rest) hrest]

theorem join_ne_nil {fs : List Text} (hne : fs ≠ []) (h : ∀ f ∈ fs, f ≠ []) :
    join [sep] fs ≠ [] := by
  cases fs with
  | nil => exact absurd rfl hne
  | cons f rest =>
    cases rest with
    | nil => exact h f List.mem_cons_self
    | cons g rest =>
      rw [join_cons_of_ne_nil (List.cons_ne_nil g rest)]
      simp

theorem getLast?_join {fs : List Text} (h : ∀ f ∈ fs, f ≠ []) :
    (join [sep] fs).getLast? = fs.getLast?.bind List.getLast? := by
  induction fs with
  | nil => rfl
  | cons f rest ih =>
    cases rest with
    | nil => rfl
    | cons g rest =>
      have hrest := (List.forall_mem_cons.1 h).2
      have hjoin : join [sep] (g :: rest) ≠ [] := join_ne_nil (List.cons_ne_nil g rest) hrest
      rw [join_cons_of_ne_nil (List.cons_ne_nil g rest), List.getLast?_append_cons,
        List.getLast?_cons_of_ne_nil hjoin, ih hrest, List.getLast?_cons_cons]

/-- Joined fields hold no pair that none of them holds. -/
theorem holds_join {fs : List Text} (hsep : sep ≠ x) (h : ∀ f ∈ fs, holds [x, x] f = false) :
    holds [x, x] (join [sep] fs) = false := by
  induction fs with
  | nil => exact holds_nil nofun
  | cons f rest ih =>
    obtain ⟨hf, hrest⟩ := List.forall_mem_cons.1 h
    cases rest with
    | nil => exact hf
    | cons g rest =>
      rw [join_cons_of_ne_nil (List.cons_ne_nil g rest)]
      exact holds_append_cons hf hsep (ih hrest)

/-! ## Fields of trimmed texts -/

/-- Blanks in front of a text go to its first field. -/
theorem map_strip_fields_append_left {ws : Text} (h : isBlank ws) (hsep : isSpace sep = false)
    (t : Text) : (fields sep (ws ++ t)).map strip = (fields sep t).map strip := by
  induction ws with
  | nil => rfl
  | cons c rest ih =>
    have hc : isSpace c = true := by simp_all [isBlank]
    have hrest : isBlank rest := by simp_all [isBlank]
    have hne : c ≠ sep := by
      rintro rfl
      rw [hc] at hsep
      cases hsep
    obtain ⟨f, fs, hf, hcf⟩ := fields_cons hne (rest ++ t)
    have hblank : isBlank [c] := by simp [isBlank, hc]
    have hstrip : strip (c :: f) = strip f := strip_append_left hblank f
    rw [List.cons_append, hcf, List.map_cons, hstrip, ← ih hrest, hf, List.map_cons]

/-- Blanks behind a text go to its last field. -/
theorem fields_append_right {ws : Text} (h : sep ∉ ws) (t : Text) :
    ∃ fs f, fields sep t = fs ++ [f] ∧ fields sep (t ++ ws) = fs ++ [f ++ ws] := by
  induction t with
  | nil => exact ⟨[], [], rfl, fields_of_not_mem h⟩
  | cons c rest ih =>
    obtain ⟨fs, f, hrest, happend⟩ := ih
    by_cases hc : c = sep
    · subst hc
      refine ⟨[] :: fs, f, ?_, ?_⟩
      · rw [fields_sep_cons, hrest]
        rfl
      · rw [List.cons_append, fields_sep_cons, happend]
        rfl
    · cases fs with
      | nil =>
        refine ⟨[], c :: f, ?_, ?_⟩
        · rw [fields, if_neg hc, hrest]
          rfl
        · rw [List.cons_append, fields, if_neg hc, happend]
          rfl
      | cons g fs =>
        refine ⟨(c :: g) :: fs, f, ?_, ?_⟩
        · rw [fields, if_neg hc, hrest]
          rfl
        · rw [List.cons_append, fields, if_neg hc, happend]
          rfl

/-- Trimming a text first makes no difference to its trimmed fields. -/
theorem map_strip_fields_strip (hsep : isSpace sep = false) (t : Text) :
    (fields sep (strip t)).map strip = (fields sep t).map strip := by
  obtain ⟨before, after, hbefore, hafter, h⟩ := exists_strip t
  have hnot : sep ∉ after := by
    intro hmem
    have := List.all_eq_true.1 hafter sep hmem
    rw [hsep] at this
    cases this
  obtain ⟨fs, f, hstrip, hboth⟩ := fields_append_right hnot (strip t)
  have hright : (fields sep (strip t ++ after)).map strip = (fields sep (strip t)).map strip := by
    rw [hstrip, hboth, List.map_append, List.map_append, List.map_singleton, List.map_singleton,
      strip_append_right hafter]
  rw [← hright, ← map_strip_fields_append_left hbefore hsep, ← List.append_assoc, ← h]

end Text
end Marginalia
