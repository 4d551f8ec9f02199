import Marginalia.Proofs.Marker.Grammar

/-
Finding markers.  A marker is replaced with its payload and its text at hand, and what stands
between two markers is passed over as long as it does not hold their word.
-/
namespace Marginalia
namespace Marker

variable {style : MarkerStyle} {f : Text → Text → Text} {t u w p r rest : Text}

/-! ## Written markers -/

/-- The payload that a text starts with, and what follows the comment it is in. -/
def payloadAt? : Text → Option (Text × Text)
  | '{' :: t => (payloadEnd? t).map fun x => ('{' :: x.1, x.2)
  | _ => none

/-- Up to its payload a marker is passed over. -/
theorem match?_wrap (style : MarkerStyle) (p rest : Text) : match? (wrap style p ++ rest) =
    payloadAt? ((p ++ ' ' :: (style.closing ++ rest)).dropWhile Text.isSpace) := by
  have hword : ∀ s : Text, (word ++ s).dropWhile Text.isSpace = word ++ s :=
    fun s => List.dropWhile_cons_of_neg (by decide)
  have hspace : ∀ s : Text, (' ' :: s).dropWhile Text.isSpace = s.dropWhile Text.isSpace :=
    fun s => dropWhile_blank (show Text.isBlank [' '] by decide) s
  rw [wrap_append]
  unfold match?
  rw [opening?_opening, Option.bind_eq_bind, Option.bind_some, hspace, hword, after?_append,
    Option.bind_some, hspace]
  rfl

theorem match?_wrap_brace {ws : Text} (h : Text.isBlank ws) (style : MarkerStyle) (t rest : Text) :
    match? (wrap style (ws ++ '{' :: t) ++ rest) =
      (payloadEnd? (t ++ ' ' :: (style.closing ++ rest))).map fun x => ('{' :: x.1, x.2) := by
  rw [match?_wrap, List.append_assoc, dropWhile_blank h, List.cons_append,
    List.dropWhile_cons_of_neg (by decide)]
  rfl

theorem match?_of_payloadEnd? {b : Text}
    (h : payloadEnd? (t ++ ' ' :: (style.closing ++ rest)) = some (b, r)) :
    match? (wrap style ('{' :: t) ++ rest) = some ('{' :: b, r) := by
  have := match?_wrap_brace (show Text.isBlank [] from rfl) style t rest
  rw [List.nil_append, h] at this
  exact this

/-- A payload that is found as it was written. -/
def IsWhole (p : Text) : Prop :=
  ∀ (style : MarkerStyle) (rest : Text), match? (wrap style p ++ rest) = some (p, rest)

theorem isMarker_wrap (h : RunsOn ['}'] t) (style : MarkerStyle) :
    IsMarker (wrap style ('{' :: (t ++ ['}']))) ('{' :: (t ++ ['}'])) := by
  have hwrap := wrap_append style ('{' :: (t ++ ['}'])) []
  rw [List.append_nil] at hwrap
  refine ⟨style.opening ++ ([' '] ++ (word ++ ([' '] ++ ['{']))), t, [' '], style,
    ⟨style, [' '], [' '], by decide, by decide, rfl⟩, h, by decide, rfl, ?_⟩
  rw [hwrap]
  simp

theorem isWhole_of_runsOn (h : RunsOn ['}'] t) : IsWhole ('{' :: (t ++ ['}'])) :=
  fun style rest => match?_of_isMarker (isMarker_wrap h style) rest

theorem exists_of_match? (h : match? t = some (p, r)) : ∃ w, w ≠ [] ∧ t = w ++ r := by
  obtain ⟨w, hw, heq⟩ := match?_eq_some_iff.1 h
  exact ⟨w, hw.ne_nil, heq⟩

/-- Behind a marker less is left. -/
theorem length_lt_of_match? (h : match? t = some (p, r)) : r.length < t.length := by
  obtain ⟨w, hw, rfl⟩ := exists_of_match? h
  rw [List.length_append]
  exact Nat.lt_add_of_pos_left (List.length_pos_iff.2 hw)

/-! ## From marker to marker -/

/-- What holds of a text when it holds of what is left of it behind a marker, or behind a
character where no marker starts. -/
theorem scan_induction {P : Text → Prop} (hnil : P [])
    (hchar : ∀ (c : Char) (t : Text), match? (c :: t) = none → P t → P (c :: t))
    (hmarker : ∀ w p r : Text, IsMarker w p → P r → P (w ++ r)) (t : Text) : P t := by
  induction hn : t.length using Nat.strongRecOn generalizing t with
  | ind n ih =>
    subst hn
    cases t with
    | nil => exact hnil
    | cons c t =>
      cases h : match? (c :: t) with
      | none => exact hchar c t h (ih _ (Nat.lt_succ_self _) t rfl)
      | some x =>
        obtain ⟨p, r⟩ := x
        have hr := ih _ (length_lt_of_match? h) r rfl
        obtain ⟨w, hw, heq⟩ := match?_eq_some_iff.1 h
        rw [heq]
        exact hmarker w p r hw hr

/-! ## Replacing -/

/-- More steps than code points make no difference. -/
theorem replaceWith_eq {m n : Nat} (hm : t.length < m) (hn : t.length < n) :
    replaceWith f m t = replaceWith f n t := by
  induction m generalizing t n with
  | zero => omega
  | succ m ih =>
    obtain ⟨n, rfl⟩ := Nat.exists_eq_succ_of_ne_zero (by omega : n ≠ 0)
    cases t with
    | nil => rfl
    | cons c t =>
      rw [List.length_cons] at hm hn
      rw [replaceWith, replaceWith]
      split
      · rename_i p r hmatch
        have hlen := length_lt_of_match? hmatch
        rw [List.length_cons] at hlen
        rw [ih (by omega : r.length < m) (by omega : r.length < n)]
      · rw [ih (by omega : t.length < m) (by omega : t.length < n)]

theorem replace_nil (f : Text → Text → Text) : replace f [] = [] := rfl

theorem replace_cons {c : Char} (h : match? (c :: t) = none) :
    replace f (c :: t) = c :: replace f t := by
  unfold replace
  rw [List.length_cons, replaceWith, h]

theorem replace_match (hw : w ≠ []) (h : match? (w ++ r) = some (p, r)) :
    replace f (w ++ r) = f p w ++ replace f r := by
  obtain ⟨c, w, rfl⟩ := List.exists_cons_of_ne_nil hw
  have hlen : (w ++ r).length + 1 - r.length = (c :: w).length := by
    rw [List.length_append, List.length_cons]
    omega
  rw [List.cons_append] at h ⊢
  have hsteps : replaceWith f ((w ++ r).length + 1) r = replace f r :=
    replaceWith_eq (by rw [List.length_append]; omega) (Nat.lt_succ_self _)
  rw [replace, List.length_cons, replaceWith, h]
  show f p _ ++ _ = _
  rw [hlen, hsteps, ← List.cons_append, List.take_left]

/-- A text in which no marker starts stays as it is. -/
theorem replace_append (h : ∀ u, u ≠ [] → u <:+ t → match? (u ++ rest) = none) :
    replace f (t ++ rest) = t ++ replace f rest := by
  induction t with
  | nil => rfl
  | cons c t ih =>
    have hc : match? (c :: (t ++ rest)) = none := h (c :: t) (List.cons_ne_nil c t) List.suffix_rfl
    rw [List.cons_append, replace_cons hc,
      ih fun u hu hut => h u hu (hut.trans (List.suffix_cons c t))]
    rfl

theorem match?_of_opening? (h : opening? t = none) : match? t = none := by
  unfold match?
  rw [h]
  rfl

/-! ## Between markers -/

/-- No marker starts in a text that does not hold the word of markers. -/
theorem match?_of_holds (hu : u ≠ []) (h : Text.holds word u = false) (hrest : AtOpening rest) :
    match? (u ++ rest) = none := by
  rw [Option.eq_none_iff_forall_ne_some]
  rintro ⟨p, r⟩ hmatch
  obtain ⟨head, s, q, hhead, heq, -, -⟩ := exists_head hmatch
  obtain ⟨v, rfl⟩ := hhead.exists_of_append hu hrest heq
  have hword : word <:+: head ++ v := hhead.word_infix.trans (List.prefix_append head v).isInfix
  rw [← Text.holds_iff_infix, h] at hword
  cases hword

/-- What stands in front of a marker stays. -/
theorem replace_text (h : Text.holds word t = false) (hrest : AtOpening rest) :
    replace f (t ++ rest) = t ++ replace f rest :=
  replace_append fun _ hu hut => match?_of_holds hu (Text.holds_of_infix hut.isInfix h) hrest

theorem replace_eq_self (h : Text.holds word t = false) : replace f t = t := by
  have := replace_text (f := f) h (.inl rfl)
  rwa [List.append_nil, replace_nil, List.append_nil] at this

theorem wrap_ne_nil (style : MarkerStyle) (p : Text) : wrap style p ≠ [] := by
  have h := wrap_append style p []
  rw [List.append_nil] at h
  rw [h]
  cases style <;> exact List.cons_ne_nil _ _

/-- A marker whose payload is found as it was written is replaced as a whole. -/
theorem replace_wrap (h : IsWhole p) :
    replace f (wrap style p ++ rest) = f p (wrap style p) ++ replace f rest :=
  replace_match (wrap_ne_nil style p) (h style rest)

/-! ## Markers on lines of their own -/

/-- Markers, each after a line break. -/
def lines (style : MarkerStyle) (ps : List Text) : Text :=
  (ps.map (wrap style)).flatMap (['\n'] ++ ·)

theorem replace_break (p t : Text) :
    replace f ('\n' :: (wrap style p ++ t)) = '\n' :: replace f (wrap style p ++ t) :=
  replace_text (t := ['\n']) (by decide) (atOpening_wrap style p t)

/-- Of markers that are dropped the line breaks are left. -/
theorem replace_lines {ps : List Text} (h : ∀ p ∈ ps, IsWhole p) :
    replace (fun _ _ => []) (lines style ps ++ t) =
      List.replicate ps.length '\n' ++ replace (fun _ _ => []) t := by
  induction ps with
  | nil => rfl
  | cons p ps ih =>
    obtain ⟨hp, hps⟩ := List.forall_mem_cons.1 h
    show replace _ ('\n' :: (wrap style p ++ lines style ps ++ t)) = _
    rw [List.append_assoc, replace_break, replace_wrap hp, List.nil_append, ih hps]
    rfl

end Marker
end Marginalia
