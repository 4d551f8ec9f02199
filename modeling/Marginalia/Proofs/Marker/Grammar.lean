import Mathlib.Data.List.TakeWhile
import Marginalia.Marker
import Marginalia.Proofs.Text.Cut
import Marginalia.Proofs.Text.Strip

/-
What a marker is made of.  A marker is the start of a comment, the word, a payload that goes up
to the first closing brace that the end of a comment follows, whatever the comment it was
opened in, and that end; what follows it has no part in it.  In a text where no marker starts,
none starts when another marker, or any comment, is put behind it.
-/
namespace Marginalia

namespace MarkerStyle

def opening : MarkerStyle → Text
  | .html => "<!--".toList
  | .percent => "%%".toList

def closing : MarkerStyle → Text
  | .html => "-->".toList
  | .percent => "%%".toList

end MarkerStyle

namespace Marker

variable {style : MarkerStyle} {t u w p r m s rest after : Text}

theorem wrap_append (style : MarkerStyle) (p t : Text) :
    wrap style p ++ t =
      style.opening ++ (' ' :: (word ++ (' ' :: (p ++ (' ' :: (style.closing ++ t)))))) := by
  cases style with
  | html =>
    show "<!-- KOHL ".toList ++ p ++ " -->".toList ++ t =
      "<!--".toList ++ (' ' :: ("KOHL".toList ++ (' ' :: (p ++ (' ' :: ("-->".toList ++ t))))))
    simp
  | percent =>
    show "%% KOHL ".toList ++ p ++ " %%".toList ++ t =
      "%%".toList ++ (' ' :: ("KOHL".toList ++ (' ' :: (p ++ (' ' :: ("%%".toList ++ t))))))
    simp

theorem after?_append (literal t : Text) : after? literal (literal ++ t) = some t := by
  have : literal.isPrefixOf (literal ++ t) = true :=
    List.isPrefixOf_iff_prefix.2 (List.prefix_append literal t)
  unfold after?
  rw [if_pos this, List.drop_left]

theorem eq_of_after? {literal : Text} (h : after? literal t = some r) : t = literal ++ r := by
  unfold after? at h
  split at h
  · cases h
    exact Text.eq_of_isPrefixOf ‹_›
  · cases h

/-- A sign does not reach out of a text that does not hold it. -/
theorem after?_eq_none {sign : Text} (h : Text.holds sign t = false) (ht : t ≠ [])
    (hrest : ∀ c ∈ rest.head?, c ∉ sign.tail) : after? sign (t ++ rest) = none := by
  unfold after?
  refine if_neg fun hp => ?_
  have hinfix := (List.isPrefixOf_iff_prefix.1 (Text.isPrefixOf_of_append hp hrest ht)).isInfix
  rw [← Text.holds_iff_infix, h] at hinfix
  cases hinfix

theorem opening?_opening (style : MarkerStyle) (t : Text) :
    opening? (style.opening ++ t) = some t := by
  unfold opening?
  cases style with
  | html =>
    rw [MarkerStyle.opening, after?_append]
    rfl
  | percent =>
    have hnone : after? "<!--".toList ("%%".toList ++ t) = none := by simp [after?]
    rw [MarkerStyle.opening, hnone]
    exact after?_append _ t

/-- Where one of two signs is found, it stands at the start. -/
theorem eq_of_orElse {sign sign' : Text}
    (h : (after? sign t).orElse (fun _ => after? sign' t) = some r) :
    t = sign ++ r ∨ t = sign' ++ r := by
  cases hsign : after? sign t with
  | some s =>
    rw [hsign] at h
    cases h
    exact .inl (eq_of_after? hsign)
  | none =>
    rw [hsign] at h
    exact .inr (eq_of_after? h)

theorem exists_opening (h : opening? t = some r) :
    ∃ style : MarkerStyle, t = style.opening ++ r := by
  rcases eq_of_orElse h with h | h
  · exact ⟨.html, h⟩
  · exact ⟨.percent, h⟩

theorem exists_closing (h : closing? t = some r) :
    ∃ style : MarkerStyle, t = style.closing ++ r := by
  rcases eq_of_orElse h with h | h
  · exact ⟨.html, h⟩
  · exact ⟨.percent, h⟩

theorem isSome_closing? (t : Text) :
    (closing? t).isSome = ("-->".toList.isPrefixOf t || "%%".toList.isPrefixOf t) := by
  unfold closing? after?
  cases "-->".toList.isPrefixOf t <;> cases "%%".toList.isPrefixOf t <;> rfl

/-! ## Comments -/

/-- A text is over, or starts like a comment. -/
def AtOpening (t : Text) : Prop :=
  t = [] ∨ ∃ (style : MarkerStyle) (r : Text), t = style.opening ++ r

theorem atOpening_wrap (style : MarkerStyle) (p t : Text) : AtOpening (wrap style p ++ t) :=
  .inr ⟨style, _, wrap_append style p t⟩

theorem AtOpening.head (h : AtOpening t) : ∀ c ∈ t.head?, c = '<' ∨ c = '%' := by
  rcases h with rfl | ⟨style, r, rfl⟩
  · nofun
  · cases style with
    | html => rintro c ⟨⟩; exact .inl rfl
    | percent => rintro c ⟨⟩; exact .inr rfl

/-! ## Payloads -/

theorem dropWhile_blank {ws : Text} (h : Text.isBlank ws) (t : Text) :
    (ws ++ t).dropWhile Text.isSpace = t.dropWhile Text.isSpace :=
  Text.stripLeft_append h t

/-- Behind blanks the end of a comment is found. -/
theorem closing?_blank {ws : Text} (h : Text.isBlank ws) (style : MarkerStyle) (rest : Text) :
    closing? ((ws ++ ' ' :: (style.closing ++ rest)).dropWhile Text.isSpace) = some rest := by
  rw [dropWhile_blank h]
  cases style <;> rfl

/-- Blanks apart, a text starts with the end of a comment. -/
def EndsHere (t : Text) : Prop := (closing? (t.dropWhile Text.isSpace)).isSome

instance (t : Text) : Decidable (EndsHere t) := inferInstanceAs (Decidable (_ = true))

/-- With `after` behind it, a text has no closing brace that ends a payload. -/
def RunsOn (after : Text) : Text → Prop
  | [] => True
  | c :: rest => (c = '}' → ¬ EndsHere (rest ++ after)) ∧ RunsOn after rest

theorem runsOn_append : RunsOn after (t ++ u) ↔ RunsOn (u ++ after) t ∧ RunsOn after u := by
  induction t with
  | nil => exact (true_and _).symm.to_iff
  | cons c t ih =>
    rw [List.cons_append, RunsOn, RunsOn, ih, List.append_assoc, and_assoc]

theorem runsOn_of_not_mem (h : '}' ∉ t) : RunsOn after t := by
  induction t with
  | nil => trivial
  | cons c t ih =>
    rw [List.mem_cons, not_or] at h
    exact ⟨fun hc => absurd hc.symm h.1, ih h.2⟩

theorem runsOn_cons {c : Char} (h : c ≠ '}') : RunsOn after (c :: t) ↔ RunsOn after t :=
  ⟨And.right, fun ht => ⟨fun hc => absurd hc h, ht⟩⟩

theorem payloadEnd?_cons {c : Char} (h : c = '}' → ¬ EndsHere t) :
    payloadEnd? (c :: t) = (payloadEnd? t).map fun x => (c :: x.1, x.2) := by
  rw [payloadEnd?]
  by_cases hc : c = '}'
  · have hnone : closing? (t.dropWhile Text.isSpace) = none := by
      have := h hc
      unfold EndsHere at this
      rwa [Option.not_isSome_iff_eq_none] at this
    rw [if_pos hc, hnone]
  · rw [if_neg hc]

theorem payloadEnd?_cons_of_ne {c : Char} (h : c ≠ '}') :
    payloadEnd? (c :: t) = (payloadEnd? t).map fun x => (c :: x.1, x.2) :=
  payloadEnd?_cons fun hc => absurd hc h

theorem payloadEnd?_append (h : RunsOn after t) :
    payloadEnd? (t ++ after) = (payloadEnd? after).map fun x => (t ++ x.1, x.2) := by
  induction t with
  | nil => cases h' : payloadEnd? after <;> simp [h']
  | cons c t ih =>
    rw [List.cons_append, payloadEnd?_cons h.1, ih h.2, Option.map_map]
    rfl

theorem payloadEnd?_brace (h : closing? (t.dropWhile Text.isSpace) = some r) :
    payloadEnd? ('}' :: t) = some (['}'], r) := by
  rw [payloadEnd?, if_pos rfl, h]

theorem isPrefixOf_before {sign : Text} {c : Char} (h : c ∉ sign) (t s : Text) :
    sign.isPrefixOf (t ++ c :: s) = sign.isPrefixOf t := by
  induction t generalizing sign with
  | nil =>
    cases sign with
    | nil => rfl
    | cons d sign =>
      have hne : d ≠ c := by
        rintro rfl
        exact h List.mem_cons_self
      simp [List.isPrefixOf, hne]
  | cons e t ih =>
    cases sign with
    | nil => rfl
    | cons d sign =>
      rw [List.cons_append, List.isPrefixOf, List.isPrefixOf,
        ih fun hmem => h (List.mem_cons_of_mem d hmem)]

/-- Whether a payload ends in front of a brace does not depend on what follows the brace. -/
theorem endsHere_brace (t s s' : Text) : EndsHere (t ++ '}' :: s) ↔ EndsHere (t ++ '}' :: s') := by
  have hdrop : ∀ z : Text, (t ++ '}' :: z).dropWhile Text.isSpace =
      t.dropWhile Text.isSpace ++ '}' :: z := by
    intro z
    rw [List.dropWhile_append]
    split
    · rename_i hnil
      rw [List.isEmpty_iff.1 hnil]
      rfl
    · rfl
  have hhtml : '}' ∉ "-->".toList := by decide
  have hpercent : '}' ∉ "%%".toList := by decide
  unfold EndsHere
  rw [hdrop, hdrop, isSome_closing?, isSome_closing?, isPrefixOf_before hhtml,
    isPrefixOf_before hhtml, isPrefixOf_before hpercent, isPrefixOf_before hpercent]

theorem RunsOn.brace (h : RunsOn ('}' :: s) t) (s' : Text) : RunsOn ('}' :: s') t := by
  induction t with
  | nil => trivial
  | cons c t ih =>
    exact ⟨fun hc hend => h.1 hc ((endsHere_brace t s s').2 hend), ih h.2⟩

/-- A payload ends in a brace, which blanks and the end of a comment follow. -/
theorem exists_of_payloadEnd? (h : payloadEnd? t = some (p, r)) :
    ∃ (b gap : Text) (style : MarkerStyle), RunsOn ['}'] b ∧ Text.isBlank gap ∧
      p = b ++ ['}'] ∧ t = b ++ '}' :: (gap ++ (style.closing ++ r)) := by
  induction t generalizing p with
  | nil => cases h
  | cons c t ih =>
    by_cases hc : c = '}' ∧ EndsHere t
    · obtain ⟨rfl, hend⟩ := hc
      obtain ⟨z, hz⟩ := Option.isSome_iff_exists.1 hend
      rw [payloadEnd?_brace hz] at h
      cases h
      obtain ⟨style, hstyle⟩ := exists_closing hz
      refine ⟨[], t.takeWhile Text.isSpace, style, trivial, ?_, rfl, ?_⟩
      · exact List.all_eq_true.2 fun c hc => List.mem_takeWhile_imp hc
      · rw [← hstyle, List.takeWhile_append_dropWhile]
        rfl
    · rw [not_and] at hc
      rw [payloadEnd?_cons hc] at h
      obtain ⟨⟨p', r'⟩, hp, heq⟩ := Option.map_eq_some_iff.1 h
      cases heq
      obtain ⟨b, gap, style, hb, hgap, rfl, rfl⟩ := ih hp
      refine ⟨c :: b, gap, style, ⟨fun hbrace hend => ?_, hb⟩, hgap, rfl, rfl⟩
      exact hc hbrace ((endsHere_brace b _ _).1 hend)

/-- A payload is as long as it is only for what follows it. -/
theorem eq_of_payloadEnd? (h : payloadEnd? t = some (p, r)) : ∃ gap, t = p ++ (gap ++ r) := by
  obtain ⟨b, gap, style, _, _, rfl, rfl⟩ := exists_of_payloadEnd? h
  exact ⟨gap ++ style.closing, by simp⟩

theorem payloadEnd?_closing {gap : Text} (h : RunsOn ['}'] t) (hgap : Text.isBlank gap)
    (style : MarkerStyle) (r : Text) :
    payloadEnd? (t ++ '}' :: (gap ++ (style.closing ++ r))) = some (t ++ ['}'], r) := by
  have hclosing : closing? ((gap ++ (style.closing ++ r)).dropWhile Text.isSpace) = some r := by
    rw [dropWhile_blank hgap]
    cases style <;> rfl
  rw [payloadEnd?_append (h.brace _), payloadEnd?_brace hclosing]
  rfl

/-! ## Heads -/

/-- What stands in a marker up to and with the brace that opens its payload. -/
def IsHead (w : Text) : Prop :=
  ∃ (style : MarkerStyle) (gap gap' : Text), Text.isBlank gap ∧ Text.isBlank gap' ∧
    w = style.opening ++ (gap ++ (word ++ (gap' ++ ['{'])))

theorem match?_head (h : IsHead w) (s : Text) :
    match? (w ++ s) = (payloadEnd? s).map fun x => ('{' :: x.1, x.2) := by
  obtain ⟨style, gap, gap', hgap, hgap', rfl⟩ := h
  have hword : ∀ z : Text, (word ++ z).dropWhile Text.isSpace = word ++ z :=
    fun z => List.dropWhile_cons_of_neg (by decide)
  simp only [List.append_assoc]
  unfold match?
  rw [opening?_opening, Option.bind_eq_bind, Option.bind_some, dropWhile_blank hgap, hword,
    after?_append, Option.bind_some, dropWhile_blank hgap']
  rfl

/-- Every marker starts with a head. -/
theorem exists_head (h : match? t = some (p, r)) :
    ∃ w s q, IsHead w ∧ t = w ++ s ∧ payloadEnd? s = some (q, r) ∧ p = '{' :: q := by
  obtain ⟨a, ha, hmore⟩ := Option.bind_eq_some_iff.1 h
  obtain ⟨b, hb, hpayload⟩ := Option.bind_eq_some_iff.1 hmore
  obtain ⟨style, rfl⟩ := exists_opening ha
  have hgap := List.takeWhile_append_dropWhile (p := Text.isSpace) (l := a)
  have hgap' := List.takeWhile_append_dropWhile (p := Text.isSpace) (l := b)
  have hblank : ∀ z : Text, Text.isBlank (z.takeWhile Text.isSpace) :=
    fun z => List.all_eq_true.2 fun c hc => List.mem_takeWhile_imp hc
  rw [eq_of_after? hb] at hgap
  split at hpayload
  · rename_i s hs
    obtain ⟨⟨q, r'⟩, hend, heq⟩ := Option.map_eq_some_iff.1 hpayload
    cases heq
    rw [hs] at hgap'
    refine ⟨_, s, q, ⟨style, _, _, hblank a, hblank b, rfl⟩, ?_, hend, rfl⟩
    conv_lhs => rw [← hgap, ← hgap']
    simp
  · cases hpayload

/-- Of the signs of comments a head has only the one in front of it. -/
theorem mem_gap {gap gap' : Text} (hgap : Text.isBlank gap) (hgap' : Text.isBlank gap') {c : Char}
    (hc : c ∈ gap ++ (word ++ (gap' ++ ['{']))) : c ≠ '<' ∧ c ≠ '%' := by
  have hspace : ∀ c, Text.isSpace c → c ≠ '<' ∧ c ≠ '%' := by
    rintro c hc
    constructor <;>
    · rintro rfl
      exact absurd hc (by decide)
  have hless : '<' ∉ word := by decide
  have hpercent : '%' ∉ word := by decide
  rcases List.mem_append.1 hc with hc | hc
  · exact hspace c (List.all_eq_true.1 hgap c hc)
  rcases List.mem_append.1 hc with hc | hc
  · exact ⟨ne_of_mem_of_not_mem hc hless, ne_of_mem_of_not_mem hc hpercent⟩
  rcases List.mem_append.1 hc with hc | hc
  · exact hspace c (List.all_eq_true.1 hgap' c hc)
  · obtain rfl := List.mem_singleton.1 hc
    decide

/-- No comment starts inside a head. -/
theorem not_atOpening_of_head (h : IsHead (u ++ w)) (hu : u ≠ []) (hw : w ≠ []) (s : Text) :
    ¬ AtOpening (w ++ s) := by
  obtain ⟨style, gap, gap', hgap, hgap', heq⟩ := h
  have hbody := fun c => mem_gap (c := c) hgap hgap'
  generalize hb : gap ++ (word ++ (gap' ++ ['{'])) = body at heq hbody
  have hne : body ≠ [] := by
    rintro rfl
    simp [word] at hb
  obtain ⟨c, u, rfl⟩ := List.exists_cons_of_ne_nil hu
  have hinside : (∀ c ∈ w, c ≠ '<' ∧ c ≠ '%') → ¬ AtOpening (w ++ s) := by
    intro hall hopen
    obtain ⟨d, w, rfl⟩ := List.exists_cons_of_ne_nil hw
    have hd := hall d List.mem_cons_self
    exact (hopen.head d rfl).elim hd.1 hd.2
  cases style with
  | html =>
    have htail : u ++ w = "!--".toList ++ body := congrArg List.tail heq
    refine hinside fun c hc => ?_
    have hmem : c ∈ "!--".toList ++ body := htail ▸ List.mem_append_right u hc
    have hless : '<' ∉ "!--".toList := by decide
    have hpercent : '%' ∉ "!--".toList := by decide
    rcases List.mem_append.1 hmem with hc | hc
    · exact ⟨ne_of_mem_of_not_mem hc hless, ne_of_mem_of_not_mem hc hpercent⟩
    · exact hbody c hc
  | percent =>
    have htail : u ++ w = '%' :: body := congrArg List.tail heq
    cases u with
    | nil =>
      -- the second sign is left over, and a blank or the word follows it
      rw [List.nil_append] at htail
      subst htail
      rintro (hnil | ⟨style, r, hr⟩)
      · cases hnil
      obtain ⟨d, body, rfl⟩ := List.exists_cons_of_ne_nil hne
      cases style with
      | html => exact absurd (List.cons.inj hr).1 (by decide)
      | percent =>
        have hsecond : d = '%' := (List.cons.inj (List.cons.inj hr).2).1
        exact (hbody d List.mem_cons_self).2 hsecond
    | cons d u =>
      obtain rfl : u ++ w = body := (List.cons.inj htail).2
      exact hinside fun c hc => hbody c (List.mem_append_right u hc)

/-- A head that stands at the start of a text with a comment behind it stands in the text. -/
theorem IsHead.exists_of_append {head : Text} (h : IsHead head) (hu : u ≠ [])
    (hrest : AtOpening rest) (heq : u ++ rest = head ++ s) : ∃ v, u = head ++ v := by
  rcases List.append_eq_append_iff.1 heq with ⟨a, rfl, rfl⟩ | ⟨v, hv, _⟩
  · by_cases ha : a = []
    · exact ⟨[], by simp [ha]⟩
    · exact absurd hrest (not_atOpening_of_head h hu ha s)
  · exact ⟨v, hv⟩

theorem IsHead.word_infix (h : IsHead w) : word <:+: w := by
  obtain ⟨style, gap, gap', _, _, rfl⟩ := h
  exact ⟨style.opening ++ gap, gap' ++ ['{'], by simp⟩

/-! ## Markers -/

/-- The text of a marker, and its payload. -/
def IsMarker (w p : Text) : Prop :=
  ∃ (head b gap : Text) (style : MarkerStyle), IsHead head ∧ RunsOn ['}'] b ∧ Text.isBlank gap ∧
    p = '{' :: (b ++ ['}']) ∧ w = head ++ (b ++ '}' :: (gap ++ style.closing))

/-- A text starts with a marker exactly when the marker is found there. -/
theorem match?_eq_some_iff : match? t = some (p, r) ↔ ∃ w, IsMarker w p ∧ t = w ++ r := by
  constructor
  · intro h
    obtain ⟨head, s, q, hhead, rfl, hend, rfl⟩ := exists_head h
    obtain ⟨b, gap, style, hb, hgap, rfl, rfl⟩ := exists_of_payloadEnd? hend
    exact ⟨_, ⟨head, b, gap, style, hhead, hb, hgap, rfl, rfl⟩, by simp⟩
  · rintro ⟨_, ⟨head, b, gap, style, hhead, hb, hgap, rfl, rfl⟩, rfl⟩
    have hend := payloadEnd?_closing hb hgap style r
    rw [List.append_assoc, match?_head hhead]
    simp only [List.append_assoc, List.cons_append]
    rw [hend]
    rfl

theorem match?_of_isMarker (h : IsMarker w p) (r : Text) : match? (w ++ r) = some (p, r) :=
  match?_eq_some_iff.2 ⟨w, h, rfl⟩

theorem IsMarker.atOpening (h : IsMarker w p) (r : Text) : AtOpening (w ++ r) := by
  obtain ⟨_, b, gap, style, ⟨style', _, _, _, _, rfl⟩, _, _, _, rfl⟩ := h
  simp only [List.append_assoc]
  exact .inr ⟨style', _, rfl⟩

theorem IsMarker.ne_nil (h : IsMarker w p) : w ≠ [] := by
  obtain ⟨_, b, gap, style, _, _, _, _, rfl⟩ := h
  simp

/-! ## Texts between markers -/

theorem isSome_payloadEnd? (h : (payloadEnd? t).isSome) (s : Text) :
    (payloadEnd? (s ++ t)).isSome := by
  induction s with
  | nil => exact h
  | cons c s ih =>
    by_cases hc : c = '}' ∧ EndsHere (s ++ t)
    · obtain ⟨rfl, hend⟩ := hc
      obtain ⟨z, hz⟩ := Option.isSome_iff_exists.1 hend
      rw [List.cons_append, payloadEnd?_brace hz]
      rfl
    · rw [not_and] at hc
      rw [List.cons_append, payloadEnd?_cons hc, Option.isSome_map]
      exact ih

theorem isSome_payloadEnd?_marker (h : IsMarker w p) (s r : Text) :
    (payloadEnd? (s ++ (w ++ r))).isSome := by
  obtain ⟨head, b, gap, style, _, hb, hgap, _, rfl⟩ := h
  have hend := payloadEnd?_closing hb hgap style r
  have hsome := isSome_payloadEnd? (Option.isSome_iff_exists.2 ⟨_, hend⟩) (s ++ head)
  simpa only [List.append_assoc, List.cons_append] using hsome

/-- Where no marker starts in front of a marker, none starts in front of any comment. -/
theorem match?_before (hw : IsMarker w p) (hu : u ≠ []) (h : match? (u ++ (w ++ r)) = none)
    (hm : AtOpening m) : match? (u ++ m) = none := by
  rw [Option.eq_none_iff_forall_ne_some]
  rintro ⟨q, z⟩ hmatch
  obtain ⟨head, s, q, hhead, heq, -, -⟩ := exists_head hmatch
  -- a head is in front of the comment, so a payload is open where the marker starts
  obtain ⟨v, rfl⟩ := hhead.exists_of_append hu hm heq
  have hsome := isSome_payloadEnd?_marker hw v r
  rw [List.append_assoc, match?_head hhead, Option.map_eq_none_iff] at h
  rw [h] at hsome
  cases hsome

end Marker
end Marginalia
