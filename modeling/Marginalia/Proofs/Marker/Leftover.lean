import Marginalia.Proofs.Marker.Spacing

/-
What removing leaves.  The texts between markers hold no marker, and so neither does what they
come to, unless a marker stood inside the head of another one: the two parts of that head come
together when the marker between them goes, and where a payload ends behind them a marker is
left.  Then, and only then, does removing a second time remove more.
-/
namespace Marginalia
namespace Marker

variable {t u w p r x y : Text} {xs : List Text} {c : Char}

/-! ## Between markers -/

/-- The texts that markers leave: one in front of each marker, and one behind the last. -/
def between (t : Text) : List Text :=
  match t with
  | [] => [[]]
  | c :: rest =>
    match _h : match? (c :: rest) with
    | some (_, r) => [] :: between r
    | none => (between rest).modifyHead (c :: ·)
termination_by t.length
decreasing_by
  · exact length_lt_of_match? _h
  · exact Nat.lt_succ_self rest.length

theorem between_nil : between [] = [[]] := by
  rw [between]

theorem between_cons (h : match? (c :: t) = none) :
    between (c :: t) = (between t).modifyHead (c :: ·) := by
  rw [between]
  split
  · rename_i hsome
    rw [h] at hsome
    cases hsome
  · rfl

theorem between_marker (hw : IsMarker w p) (r : Text) : between (w ++ r) = [] :: between r := by
  have hmatch := match?_of_isMarker hw r
  obtain ⟨c, w, rfl⟩ := List.exists_cons_of_ne_nil hw.ne_nil
  rw [List.cons_append] at hmatch ⊢
  rw [between]
  split
  · rename_i hsome
    rw [hmatch] at hsome
    cases hsome
    rfl
  · rename_i hnone
    rw [hmatch] at hnone
    cases hnone

/-- The text in front of the first marker goes up to it, or to the end. -/
theorem exists_between (t : Text) : ∃ x xs, between t = x :: xs ∧
    (xs = [] ∧ t = x ∨ ∃ w p r, IsMarker w p ∧ t = x ++ (w ++ r)) := by
  induction t using scan_induction with
  | hnil => exact ⟨[], [], between_nil, .inl ⟨rfl, rfl⟩⟩
  | hchar c t hc ih =>
    obtain ⟨x, xs, hbetween, hparts⟩ := ih
    refine ⟨c :: x, xs, by rw [between_cons hc, hbetween]; rfl, ?_⟩
    rcases hparts with ⟨rfl, rfl⟩ | ⟨w, p, r, hw, rfl⟩
    · exact .inl ⟨rfl, rfl⟩
    · exact .inr ⟨w, p, r, hw, rfl⟩
  | hmarker w p r hw => exact ⟨[], between r, between_marker hw r, .inr ⟨w, p, r, hw, rfl⟩⟩

theorem drop_marker (hw : IsMarker w p) (r : Text) :
    replace (fun _ _ => []) (w ++ r) = replace (fun _ _ => []) r :=
  replace_match hw.ne_nil (match?_of_isMarker hw r)

/-- With its markers dropped a text is what is between them. -/
theorem flatten_between (t : Text) : (between t).flatten = replace (fun _ _ => []) t := by
  induction t using scan_induction with
  | hnil => rw [between_nil]; rfl
  | hchar c t hc ih =>
    obtain ⟨x, xs, hbetween, _⟩ := exists_between t
    rw [replace_cons hc, ← ih, between_cons hc, hbetween]
    rfl
  | hmarker w p r hw ih =>
    rw [between_marker hw, drop_marker hw, ← ih]
    rfl

/-! ## Heads that come together -/

/-- A closing brace that the end of a comment follows comes in a text. -/
def Closes (t : Text) : Prop :=
  ∃ (b gap : Text) (style : MarkerStyle) (r : Text), Text.isBlank gap ∧
    t = b ++ '}' :: (gap ++ (style.closing ++ r))

theorem closes_iff : Closes t ↔ (payloadEnd? t).isSome := by
  constructor
  · rintro ⟨b, gap, style, r, hgap, rfl⟩
    have hend := payloadEnd?_closing (t := []) trivial hgap style r
    exact isSome_payloadEnd? (Option.isSome_iff_exists.2 ⟨_, hend⟩) b
  · intro h
    obtain ⟨⟨p, r⟩, hend⟩ := Option.isSome_iff_exists.1 h
    obtain ⟨b, gap, style, _, hgap, _, rfl⟩ := exists_of_payloadEnd? hend
    exact ⟨b, gap, style, r, hgap, rfl⟩

/-- A marker starts exactly where a head stands that a payload goes on from. -/
theorem isSome_match?_iff :
    (match? t).isSome ↔ ∃ head s, IsHead head ∧ Closes s ∧ t = head ++ s := by
  constructor
  · intro h
    obtain ⟨⟨p, r⟩, hmatch⟩ := Option.isSome_iff_exists.1 h
    obtain ⟨head, s, q, hhead, rfl, hend, _⟩ := exists_head hmatch
    exact ⟨head, s, hhead, closes_iff.2 (Option.isSome_iff_exists.2 ⟨_, hend⟩), rfl⟩
  · rintro ⟨head, s, hhead, hs, rfl⟩
    rw [match?_head hhead, Option.isSome_map]
    exact closes_iff.1 hs

/-- A head stands in part at the end of one text and in part at the start of the next, and a
payload goes on from it. -/
def Joins (x y : Text) : Prop :=
  ∃ u v s, u ≠ [] ∧ v ≠ [] ∧ u <:+ x ∧ y = v ++ s ∧ IsHead (u ++ v) ∧ Closes s

/-- Somewhere in a text markers stand inside the head of another. -/
def Rejoins (t : Text) : Prop :=
  ∃ front x back, between t = front ++ x :: back ∧ Joins x back.flatten

theorem not_joins_nil (y : Text) : ¬ Joins [] y := by
  rintro ⟨u, v, s, hu, _, hsuffix, _⟩
  exact hu (List.suffix_nil.1 hsuffix)

theorem exists_split_cons {α : Type} {P : α → List α → Prop} {a : α} {as : List α} :
    (∃ front x back, a :: as = front ++ x :: back ∧ P x back) ↔
      P a as ∨ ∃ front x back, as = front ++ x :: back ∧ P x back := by
  constructor
  · rintro ⟨front, x, back, heq, h⟩
    cases front with
    | nil =>
      cases heq
      exact .inl h
    | cons b front =>
      cases heq
      exact .inr ⟨front, x, back, rfl, h⟩
  · rintro (h | ⟨front, x, back, rfl, h⟩)
    · exact ⟨[], a, as, rfl, h⟩
    · exact ⟨a :: front, x, back, rfl, h⟩

theorem rejoins_nil : ¬ Rejoins [] := by
  unfold Rejoins
  rw [between_nil, exists_split_cons]
  rintro (h | ⟨front, x, back, h, _⟩)
  · exact not_joins_nil _ h
  · cases front <;> cases h

theorem rejoins_marker (hw : IsMarker w p) (r : Text) : Rejoins (w ++ r) ↔ Rejoins r := by
  unfold Rejoins
  rw [between_marker hw, exists_split_cons]
  exact or_iff_right (not_joins_nil _)

/-- A longer text in front can hold the whole first part of a head. -/
theorem joins_cons : Joins (c :: x) y ↔
    Joins x y ∨ ∃ v s, v ≠ [] ∧ y = v ++ s ∧ IsHead (c :: x ++ v) ∧ Closes s := by
  constructor
  · rintro ⟨u, v, s, hu, hv, hsuffix, rfl, hhead, hs⟩
    rcases List.suffix_cons_iff.1 hsuffix with rfl | hsuffix
    · exact .inr ⟨v, s, hv, rfl, hhead, hs⟩
    · exact .inl ⟨u, v, s, hu, hv, hsuffix, rfl, hhead, hs⟩
  · rintro (⟨u, v, s, hu, hv, hsuffix, rfl, hhead, hs⟩ | ⟨v, s, hv, rfl, hhead, hs⟩)
    · exact ⟨u, v, s, hu, hv, hsuffix.trans (List.suffix_cons c x), rfl, hhead, hs⟩
    · exact ⟨c :: x, v, s, List.cons_ne_nil c x, hv, List.suffix_rfl, rfl, hhead, hs⟩

/-- Where no marker started, one starts now only with a head that reaches over the markers that
were dropped. -/
theorem isSome_match?_flatten (h : match? (c :: t) = none) (hbetween : between t = x :: xs) :
    (match? (c :: (x ++ xs.flatten))).isSome ↔
      ∃ v s, v ≠ [] ∧ xs.flatten = v ++ s ∧ IsHead (c :: x ++ v) ∧ Closes s := by
  rw [isSome_match?_iff]
  constructor
  · rintro ⟨head, s, hhead, hs, heq⟩
    by_cases hinside : ∃ a, c :: x = head ++ a
    · obtain ⟨a, ha⟩ := hinside
      exfalso
      rw [Option.eq_none_iff_forall_ne_some] at h
      -- the head stands in front of the first marker, whose payload would end its own
      obtain ⟨x', xs', hbetween', hparts⟩ := exists_between t
      rw [hbetween] at hbetween'
      cases hbetween'
      rcases hparts with ⟨rfl, rfl⟩ | ⟨w, p, r, hw, rfl⟩
      · rw [List.flatten_nil, List.append_nil] at heq
        obtain ⟨z, hz⟩ := Option.isSome_iff_exists.1 (isSome_match?_iff.2 ⟨head, s, hhead, hs, heq⟩)
        exact h z hz
      · have hclose := closes_iff.2 (isSome_payloadEnd?_marker hw a r)
        have hsome : (match? (c :: (x ++ (w ++ r)))).isSome :=
          isSome_match?_iff.2 ⟨head, _, hhead, hclose, by
            rw [← List.cons_append, ha, List.append_assoc]⟩
        obtain ⟨z, hz⟩ := Option.isSome_iff_exists.1 hsome
        exact h z hz
    · rw [← List.cons_append] at heq
      rcases List.append_eq_append_iff.1 heq with ⟨v, rfl, hv⟩ | ⟨a, ha, _⟩
      · refine ⟨v, s, ?_, hv, hhead, hs⟩
        rintro rfl
        exact hinside ⟨[], by rw [List.append_nil, List.append_nil]⟩
      · exact absurd ⟨a, ha⟩ hinside
  · rintro ⟨v, s, _, heq, hhead, hs⟩
    exact ⟨_, s, hhead, hs, by rw [heq, ← List.cons_append, List.append_assoc]⟩

theorem isBare_flatten_iff (t : Text) : IsBare (between t).flatten ↔ ¬ Rejoins t := by
  induction t using scan_induction with
  | hnil =>
    rw [between_nil]
    exact iff_of_true isBare_nil rejoins_nil
  | hchar c t hc ih =>
    obtain ⟨x, xs, hbetween, _⟩ := exists_between t
    have hcons : between (c :: t) = (c :: x) :: xs := by rw [between_cons hc, hbetween]; rfl
    unfold Rejoins at ih ⊢
    rw [hbetween, exists_split_cons, not_or] at ih
    rw [hcons, exists_split_cons, joins_cons, ← isSome_match?_flatten hc hbetween]
    show IsBare (c :: (x :: xs).flatten) ↔ _
    rw [isBare_cons, ih, not_or, not_or, Option.not_isSome_iff_eq_none, and_comm (b := _ = none),
      and_assoc]
    rfl
  | hmarker w p r hw ih => rwa [rejoins_marker hw, between_marker hw]

/-! ## Removing twice -/

theorem sublist_replace (t : Text) : (replace (fun _ _ => []) t).Sublist t := by
  induction t using scan_induction with
  | hnil => exact List.Sublist.refl _
  | hchar c t hc ih =>
    rw [replace_cons hc]
    exact ih.cons_cons c
  | hmarker w p r hw ih =>
    rw [drop_marker hw]
    exact ih.trans (List.sublist_append_right w r)

theorem IsMarker.not_isBlank (h : IsMarker w p) : ¬ Text.isBlank w := by
  intro hblank
  obtain ⟨c, w, rfl⟩ := List.exists_cons_of_ne_nil h.ne_nil
  have hmatch := match?_of_isMarker h []
  rw [List.cons_append, match?_space (Text.isBlank_cons.1 hblank).1] at hmatch
  cases hmatch

/-- Where nothing but blanks goes with the markers, there is none. -/
theorem isBare_of_filter
    (h : (replace (fun _ _ => []) t).filter (!Text.isSpace ·) = t.filter (!Text.isSpace ·)) :
    IsBare t := by
  induction t using scan_induction with
  | hnil => exact isBare_nil
  | hchar c t hc ih =>
    rw [replace_cons hc, List.filter_cons, List.filter_cons] at h
    refine isBare_cons.2 ⟨hc, ih ?_⟩
    split at h
    · exact (List.cons.inj h).2
    · exact h
  | hmarker w p r hw _ =>
    rw [drop_marker hw, List.filter_append] at h
    have hle := ((sublist_replace r).filter (!Text.isSpace ·)).length_le
    have hlen := congrArg List.length h
    rw [List.length_append] at hlen
    have hnone : w.filter (!Text.isSpace ·) = [] := List.length_eq_zero_iff.1 (by omega)
    exact absurd (Text.isBlank_iff_filter.2 hnone) hw.not_isBlank

/-- Removing again changes nothing exactly where no marker is left. -/
theorem removeAll_eq_self_iff (h : collapseBlankLines t = t) : removeAll t = t ↔ IsBare t := by
  unfold removeAll
  constructor
  · intro hsame
    refine isBare_of_filter ?_
    rw [← filter_collapse, hsame]
  · intro hbare
    rw [replace_of_isBare hbare, h]

/-- No marker is left, and none is removed by removing again, exactly when no marker stands
inside the head of another. -/
theorem removeAll_bare_iff (t : Text) : (IsBare (removeAll t) ↔ ¬ Rejoins t) ∧
    (removeAll (removeAll t) = removeAll t ↔ ¬ Rejoins t) := by
  have hbare : IsBare (removeAll t) ↔ ¬ Rejoins t := by
    unfold removeAll
    rw [isBare_collapse, ← flatten_between, isBare_flatten_iff]
  exact ⟨hbare, (removeAll_eq_self_iff (collapse_collapse _)).trans hbare⟩

/-- The marker inside the word goes, and what is left is a marker. -/
theorem removeAll_leaves_marker :
    removeAll "<!-- KO%% KOHL \x7b\x7d %%HL \x7b\x7d -->".toList = "<!-- KOHL \x7b\x7d -->".toList ∧
      ¬ IsBare (removeAll "<!-- KO%% KOHL \x7b\x7d %%HL \x7b\x7d -->".toList) ∧
      removeAll (removeAll "<!-- KO%% KOHL \x7b\x7d %%HL \x7b\x7d -->".toList) ≠
        removeAll "<!-- KO%% KOHL \x7b\x7d %%HL \x7b\x7d -->".toList := by
  have hleft : removeAll "<!-- KO%% KOHL \x7b\x7d %%HL \x7b\x7d -->".toList =
      "<!-- KOHL \x7b\x7d -->".toList := by
    decide +kernel
  have hagain : removeAll "<!-- KOHL \x7b\x7d -->".toList = [] := by decide +kernel
  refine ⟨hleft, ?_, ?_⟩
  · intro hbare
    have hnone : match? "<!-- KOHL \x7b\x7d -->".toList = none := by
      rw [← hleft]
      exact hbare _ List.suffix_rfl
    revert hnone
    decide +kernel
  · rw [hleft, hagain]
    decide

end Marker
end Marginalia
