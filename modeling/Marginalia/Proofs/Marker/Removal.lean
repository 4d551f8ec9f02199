import Marginalia.Proofs.Marker.BlankLines
import Marginalia.Proofs.Marker.Scan

/-
Removing markers.  What stands between two comments is kept unless the first one has a
payload that is opened and not closed: then the payload runs on into the second.
-/
namespace Marginalia
namespace Marker

variable {signs : List Text} {c : Char} {t u rest : Text}

/-! ## Texts without signs -/

/-- No one of some signs comes in a text. -/
def Lacks (signs : List Text) (t : Text) : Prop := ∀ sign ∈ signs, Text.holds sign t = false

instance (signs : List Text) (t : Text) : Decidable (Lacks signs t) :=
  inferInstanceAs (Decidable (∀ sign ∈ signs, _ = false))

def openings : List Text := ["<!--".toList, "%%".toList]

def closings : List Text := ["-->".toList, "%%".toList]

theorem Lacks.of_suffix (h : Lacks signs t) (hu : u <:+ t) : Lacks signs u :=
  fun sign hsign => Text.holds_of_infix hu.isInfix (h sign hsign)

theorem Lacks.across (ht : Lacks signs t) (hc : ∀ sign ∈ signs, c ∉ sign) (hu : Lacks signs u) :
    Lacks signs (t ++ c :: u) :=
  fun sign hsign => Text.holds_across (hc sign hsign) (ht sign hsign) (hu sign hsign)

theorem opening?_eq_none (h : Lacks openings t) (ht : t ≠ []) (rest : Text) :
    opening? (t ++ '<' :: rest) = none := by
  unfold opening?
  rw [after?_eq_none (h _ (.head _)) ht (by rintro d ⟨⟩; decide),
    after?_eq_none (h _ (.tail _ (.head _))) ht (by rintro d ⟨⟩; decide)]
  rfl

theorem closing?_eq_none (h : Lacks closings t) (ht : t ≠ []) (rest : Text) :
    closing? (t ++ ' ' :: rest) = none := by
  unfold closing?
  rw [after?_eq_none (h _ (.head _)) ht (by rintro d ⟨⟩; decide),
    after?_eq_none (h _ (.tail _ (.head _))) ht (by rintro d ⟨⟩; decide)]
  rfl

/-- A text in which no comment starts is kept up to the next comment. -/
theorem replace_of_lacks {f : Text → Text → Text} (h : Lacks openings t) (rest : Text) :
    replace f (t ++ '<' :: rest) = t ++ replace f ('<' :: rest) :=
  replace_append fun _ hu hut => match?_of_opening? (opening?_eq_none (h.of_suffix hut) hu rest)

/-! ## Where a payload ends -/

/-- Blanks apart, a text ends in a closing brace. -/
def EndsInBrace (t : Text) : Prop := ∃ s ws, t = s ++ '}' :: ws ∧ Text.isBlank ws

theorem endsInBrace_iff : EndsInBrace t ↔ (Text.strip t).getLast? = some '}' := by
  constructor
  · rintro ⟨s, ws, rfl, hws⟩
    exact Text.getLast?_strip (by decide) hws s
  · intro h
    rcases Text.blank_or_exists_last t with ht | ⟨s, c, ws, rfl, hc, hws⟩
    · rw [Text.strip_of_isBlank ht] at h
      cases h
    · rw [Text.getLast?_strip hc hws, Option.some.injEq] at h
      exact ⟨s, ws, h ▸ rfl, hws⟩

theorem EndsInBrace.append (h : EndsInBrace t) (u : Text) : EndsInBrace (u ++ t) := by
  obtain ⟨s, ws, rfl, hws⟩ := h
  exact ⟨u ++ s, ws, (List.append_assoc u s _).symm, hws⟩

theorem endsInBrace_blank {ws : Text} (h : Text.isBlank ws) :
    EndsInBrace (ws ++ t) ↔ EndsInBrace t := by
  rw [endsInBrace_iff, endsInBrace_iff, Text.strip_append_left h]

/-- Behind another code point that is no blank, a text ends as it does alone. -/
theorem endsInBrace_append_cons (hc : Text.isSpace c = false) (hbrace : c ≠ '}') :
    EndsInBrace (u ++ c :: t) ↔ EndsInBrace t := by
  rw [endsInBrace_iff, endsInBrace_iff]
  rcases Text.blank_or_exists_last t with ht | ⟨s, d, ws, rfl, hd, hws⟩
  · rw [Text.getLast?_strip hc ht, Text.strip_of_isBlank ht]
    exact ⟨fun h => absurd (Option.some.inj h) hbrace, nofun⟩
  · have := Text.getLast?_strip hd hws (u ++ c :: s)
    rw [List.append_assoc, List.cons_append] at this
    rw [this, Text.getLast?_strip hd hws]

/-- Up to the end of its comment, only blanks let a payload end. -/
theorem isBlank_of_endsHere (h : Lacks closings t) (hend : EndsHere (t ++ ' ' :: rest)) :
    Text.isBlank t := by
  rcases Text.blank_or_exists_first t with ht | ⟨ws, c, s, rfl, hws, hc⟩
  · exact ht
  · have hnone := closing?_eq_none (h.of_suffix (List.suffix_append ws (c :: s)))
      (List.cons_ne_nil c s) rest
    unfold EndsHere at hend
    rw [List.append_assoc, dropWhile_blank hws, List.cons_append,
      List.dropWhile_cons_of_neg (by simp [hc]), ← List.cons_append, hnone] at hend
    cases hend

/-- A comment that does not end in a brace does not end a payload. -/
theorem runsOn_of_not_endsInBrace (h : Lacks closings t) (hbrace : ¬ EndsInBrace t) :
    RunsOn (' ' :: rest) t := by
  induction t with
  | nil => trivial
  | cons c t ih =>
    have ht := h.of_suffix (List.suffix_cons c t)
    refine ⟨?_, ih ht fun hend => hbrace (hend.append [c])⟩
    rintro rfl hend
    exact hbrace ⟨[], t, rfl, isBlank_of_endsHere ht hend⟩

/-- A comment that ends in a brace ends a payload there and not before. -/
theorem payloadEnd?_of_endsInBrace (h : Lacks closings t) (hbrace : EndsInBrace t)
    (style : MarkerStyle) (rest : Text) :
    ∃ p, payloadEnd? (t ++ ' ' :: (style.closing ++ rest)) = some (p, rest) := by
  obtain ⟨s, ws, rfl, hws⟩ := hbrace
  have hruns : RunsOn ('}' :: ws ++ ' ' :: (style.closing ++ rest)) s := by
    induction s with
    | nil => trivial
    | cons c s ih =>
      have hs := h.of_suffix (List.suffix_cons c (s ++ '}' :: ws))
      refine ⟨fun _ hend => ?_, ih hs⟩
      rw [← List.append_assoc] at hend
      have hblank := isBlank_of_endsHere hs hend
      rw [Text.isBlank_append, Text.isBlank_cons] at hblank
      exact absurd hblank.2.1 (by decide)
  refine ⟨s ++ ['}'], ?_⟩
  rw [List.append_assoc, payloadEnd?_append hruns, List.cons_append,
    payloadEnd?_brace (closing?_blank hws style rest)]
  rfl

/-! ## Two comments -/

variable {j₁ j₂ : Text}

/-- Every sign that a comment starts or ends with. -/
def commentSigns : List Text := ["<!--".toList, "-->".toList, "%%".toList]

theorem Lacks.mono {signs' : List Text} (h : Lacks signs t) (hsub : signs' ⊆ signs) :
    Lacks signs' t :=
  fun sign hsign => h sign (hsub hsign)

/-- Behind the start of a first comment none starts before the second. -/
theorem exists_before_second (hj : Lacks openings j₁) (hu : Lacks openings u) :
    ∃ t, wrap .html j₁ ++ u = '<' :: t ∧ Lacks openings t := by
  refine ⟨_, wrap_append .html j₁ u, ?_⟩
  have hlast : Lacks openings ("--".toList ++ '>' :: u) :=
    .across (by decide) (by decide) hu
  have hpayload : Lacks openings (j₁ ++ ' ' :: ("--".toList ++ '>' :: u)) :=
    hj.across (by decide) hlast
  have hword : Lacks openings (word ++ ' ' :: (j₁ ++ ' ' :: ("--".toList ++ '>' :: u))) :=
    .across (by decide) (by decide) hpayload
  exact .across (t := "!--".toList) (by decide) (by decide) hword

/-- From the end of a first comment on none ends before the second does. -/
theorem lacks_closings_second (hu : Lacks closings u) (hj : Lacks closings j₂) :
    Lacks closings (u ++ '<' :: ("!-- KOHL".toList ++ ' ' :: j₂)) :=
  hu.across (by decide) (.across (by decide) (by decide) hj)

theorem wrap_html (p rest : Text) : wrap .html p ++ rest =
    '<' :: ("!-- KOHL".toList ++ ' ' :: (p ++ ' ' :: (MarkerStyle.html.closing ++ rest))) :=
  wrap_append .html p rest

/-- A payload that is opened and not closed in its comment is taken further. -/
theorem payloadEnd?_open (ht : Lacks closings t) (hbrace : ¬ EndsInBrace t)
    (rest : Text) : payloadEnd? (t ++ ' ' :: (MarkerStyle.html.closing ++ rest)) =
      (payloadEnd? rest).map fun x => (t ++ " -->".toList ++ x.1, x.2) := by
  have hend : RunsOn rest " -->".toList := runsOn_of_not_mem (by decide)
  have hclosing : ' ' :: (MarkerStyle.html.closing ++ rest) = " -->".toList ++ rest := rfl
  rw [payloadEnd?_append (runsOn_of_not_endsInBrace ht hbrace), hclosing, payloadEnd?_append hend,
    Option.map_map]
  refine congrArg (fun f => (payloadEnd? rest).map f) (funext fun x => ?_)
  exact congrArg (·, x.2) (List.append_assoc t " -->".toList x.1).symm

theorem endsInBrace_second_iff :
    EndsInBrace (u ++ '<' :: ("!-- KOHL".toList ++ ' ' :: j₂)) ↔ EndsInBrace j₂ := by
  have hsplit : u ++ '<' :: ("!-- KOHL".toList ++ ' ' :: j₂) =
      (u ++ "<!-- KOH".toList) ++ 'L' :: ([' '] ++ j₂) :=
    (List.append_assoc u "<!-- KOH".toList ('L' :: ' ' :: j₂)).symm
  rw [hsplit, endsInBrace_append_cons (by decide) (by decide), endsInBrace_blank (by decide)]

theorem match?_wrap_eq_none {p : Text} (h : (Text.strip p).head? ≠ some '{')
    (style : MarkerStyle) (rest : Text) : match? (wrap style p ++ rest) = none := by
  rw [match?_wrap]
  rcases Text.blank_or_exists_first p with hp | ⟨ws, c, s, rfl, hws, hc⟩
  · rw [dropWhile_blank hp]
    cases style <;> rfl
  · rw [Text.head?_strip hws hc] at h
    rw [List.append_assoc, dropWhile_blank hws, List.cons_append,
      List.dropWhile_cons_of_neg (by simp [hc])]
    unfold payloadAt?
    split
    · rename_i heq
      exact absurd (congrArg some (List.cons.inj heq).1) h
    · rfl

theorem exists_brace (h : (Text.strip t).head? = some '{') :
    ∃ ws s, t = ws ++ '{' :: s ∧ Text.isBlank ws := by
  rcases Text.blank_or_exists_first t with ht | ⟨ws, c, s, rfl, hws, hc⟩
  · rw [Text.strip_of_isBlank ht] at h
    cases h
  · rw [Text.head?_strip hws hc, Option.some.injEq] at h
    exact ⟨ws, s, h ▸ rfl, hws⟩

/-- What is kept but for markers keeps its words. -/
theorem filter_sublist_removeAll (h : u.Sublist (replace (fun _ _ => []) t)) :
    (u.filter (!Text.isSpace ·)).Sublist (removeAll t) := by
  unfold removeAll
  refine (h.filter _).trans ?_
  rw [← filter_collapse]
  exact List.filter_sublist

/-- Where no marker starts at the first comment, the text behind it stays. -/
theorem sublist_of_match?_eq_none {f : Text → Text → Text} (hj : Lacks openings j₁)
    (hu : Lacks openings u) (h : match? (wrap .html j₁ ++ (u ++ wrap .html j₂)) = none) :
    u.Sublist (replace f (wrap .html j₁ ++ (u ++ wrap .html j₂))) := by
  obtain ⟨t, ht, hlacks⟩ := exists_before_second hj hu
  have hsub : u.Sublist ('<' :: t) := ht ▸ List.sublist_append_right _ u
  have hsecond : wrap .html j₂ = '<' :: _ := (List.append_nil _).symm.trans (wrap_html j₂ [])
  rw [← List.append_assoc, ht, List.cons_append] at h ⊢
  rw [replace_cons h, hsecond, replace_of_lacks hlacks, ← List.cons_append]
  exact hsub.trans (List.sublist_append_left _ _)

/-- Where a marker ends at the first comment, the text behind it stays. -/
theorem sublist_of_match? {f : Text → Text → Text} {p : Text} (hu : Lacks openings u)
    (h : match? (wrap .html j₁ ++ (u ++ wrap .html j₂)) = some (p, u ++ wrap .html j₂)) :
    u.Sublist (replace f (wrap .html j₁ ++ (u ++ wrap .html j₂))) := by
  have hsecond : wrap .html j₂ = '<' :: _ := (List.append_nil _).symm.trans (wrap_html j₂ [])
  rw [replace_match (wrap_ne_nil .html j₁) h, hsecond, replace_of_lacks hu]
  exact (List.sublist_append_left u _).trans (List.sublist_append_right _ _)

/-- An open payload goes on up to the end of the second comment, if that ends in a
brace. -/
theorem match?_of_open {ws : Text} (hws : Text.isBlank ws) (ht : Lacks closings t)
    (hopen : ¬ EndsInBrace t) (hu : Lacks closings u) (hj : Lacks closings j₂) :
    (EndsInBrace j₂ → ∃ p,
      match? (wrap .html (ws ++ '{' :: t) ++ (u ++ wrap .html j₂)) = some (p, [])) ∧
    (¬ EndsInBrace j₂ →
      match? (wrap .html (ws ++ '{' :: t) ++ (u ++ wrap .html j₂)) = none) := by
  have hsecond : u ++ wrap .html j₂ = (u ++ '<' :: ("!-- KOHL".toList ++ ' ' :: j₂)) ++
      ' ' :: (MarkerStyle.html.closing ++ []) := by
    rw [← List.append_nil (wrap .html j₂), wrap_html]
    simp
  have hlacks := lacks_closings_second hu hj
  rw [match?_wrap_brace hws, payloadEnd?_open ht hopen, hsecond]
  constructor
  · intro hbrace
    obtain ⟨p, hp⟩ := payloadEnd?_of_endsInBrace hlacks (endsInBrace_second_iff.2 hbrace) .html []
    rw [hp]
    exact ⟨_, rfl⟩
  · intro hbrace
    rw [payloadEnd?_open hlacks (mt endsInBrace_second_iff.1 hbrace)]
    rfl

/-- Where a marker takes up all, nothing is left. -/
theorem removeAll_of_match? {p : Text} (h : match? t = some (p, [])) : removeAll t = [] := by
  obtain ⟨w, hw, rfl⟩ := exists_of_match? h
  unfold removeAll
  rw [replace_match hw h]
  exact collapse_nil

/-- The words between two comments stay, unless the first comment has a payload that is
opened and not closed and the second one closes it. -/
theorem removeAll_keeps_iff (hj₁ : Lacks commentSigns j₁) (hu : Lacks commentSigns u)
    (hj₂ : Lacks commentSigns j₂) :
    (u.filter (!Text.isSpace ·)).Sublist (removeAll (wrap .html j₁ ++ (u ++ wrap .html j₂))) ↔
      ¬ ((Text.strip j₁).head? = some '{' ∧ (Text.strip j₁).getLast? ≠ some '}' ∧
        (Text.strip j₂).getLast? = some '}') ∨ Text.isBlank u := by
  have hopenings : openings ⊆ commentSigns := by decide
  have hclosings : closings ⊆ commentSigns := by decide
  have hopen_u := hu.mono hopenings
  rw [← endsInBrace_iff, ne_eq, ← endsInBrace_iff]
  -- whether a payload is opened, whether its own comment closes it, and whether the other does
  by_cases hhead : (Text.strip j₁).head? = some '{'
  · obtain ⟨ws, t, rfl, hws⟩ := exists_brace hhead
    have ht : Lacks closings t := (hj₁.mono hclosings).of_suffix
      ((List.suffix_cons _ t).trans (List.suffix_append ws _))
    rw [endsInBrace_append_cons (by decide) (by decide)]
    by_cases hfirst : EndsInBrace t
    · obtain ⟨p, hp⟩ := payloadEnd?_of_endsInBrace ht hfirst .html (u ++ wrap .html j₂)
      have hmatch := match?_wrap_brace hws .html t (u ++ wrap .html j₂)
      rw [hp] at hmatch
      exact iff_of_true (filter_sublist_removeAll (sublist_of_match? hopen_u hmatch))
        (.inl fun hbad => hbad.2.1 hfirst)
    · obtain ⟨hwhole, hnone⟩ := match?_of_open hws ht hfirst (hu.mono hclosings)
        (hj₂.mono hclosings)
      by_cases hsecond : EndsInBrace j₂
      · obtain ⟨p, hp⟩ := hwhole hsecond
        rw [removeAll_of_match? hp, List.sublist_nil, ← Text.isBlank_iff_filter]
        exact (or_iff_right fun hgood => hgood ⟨hhead, hfirst, hsecond⟩).symm
      · have hkeeps := filter_sublist_removeAll
          (sublist_of_match?_eq_none (hj₁.mono hopenings) hopen_u (hnone hsecond))
        exact iff_of_true hkeeps (.inl fun hbad => hsecond hbad.2.2)
  · have hnone := match?_wrap_eq_none hhead .html (u ++ wrap .html j₂)
    have hkeeps := filter_sublist_removeAll
      (sublist_of_match?_eq_none (hj₁.mono hopenings) hopen_u hnone)
    exact iff_of_true hkeeps (.inl fun hbad => hhead hbad.1)

/-- Neither payload is closed. -/
theorem removeAll_keeps_damaged :
    Lacks commentSigns "\x7b\"v\":1".toList ∧ Lacks commentSigns "\nkeep \x7d me".toList ∧
      Lacks commentSigns "\x7b\"v\":2".toList ∧
      ("\nkeep \x7d me".toList.filter (!Text.isSpace ·)).Sublist
        (removeAll (wrap .html "\x7b\"v\":1".toList ++
          ("\nkeep \x7d me".toList ++ wrap .html "\x7b\"v\":2".toList))) := by
  have hfirst : Lacks commentSigns "\x7b\"v\":1".toList := by decide
  have hwords : Lacks commentSigns "\nkeep \x7d me".toList := by decide
  have hsecond : Lacks commentSigns "\x7b\"v\":2".toList := by decide
  exact ⟨hfirst, hwords, hsecond, (removeAll_keeps_iff hfirst hwords hsecond).2 (.inl (by decide))⟩

/-- The first payload is not closed, and the second one is. -/
theorem removeAll_loses_words :
    Lacks commentSigns "\x7b\"v\":1".toList ∧ Lacks commentSigns "keep me".toList ∧
      Lacks commentSigns "\x7b\"v\":2\x7d".toList ∧
      ¬ ("keep me".toList.filter (!Text.isSpace ·)).Sublist
        (removeAll (wrap .html "\x7b\"v\":1".toList ++
          ("keep me".toList ++ wrap .html "\x7b\"v\":2\x7d".toList))) := by
  have hmatch : ∃ p, match? (wrap .html "\x7b\"v\":1".toList ++
      ("keep me".toList ++ wrap .html "\x7b\"v\":2\x7d".toList)) = some (p, []) := ⟨_, rfl⟩
  obtain ⟨p, hp⟩ := hmatch
  refine ⟨by decide, by decide, by decide, ?_⟩
  rw [removeAll_of_match? hp]
  decide

end Marker
end Marginalia
