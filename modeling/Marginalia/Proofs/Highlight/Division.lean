import Marginalia.Proofs.Text.Strip
import Marginalia.Record

/-
The paragraphs of a text.  A text is divided where blanks with two line ends in them
stand.  Where exactly such a break starts and ends makes no difference once the pieces
are trimmed, so every division of a text gives the same paragraphs.
-/
namespace Marginalia
namespace Group

open Text (isBlank_cons isBlank_append)

/-! ## Blank lines -/

/-- What stands between two paragraphs: blanks, two line ends among them. -/
def IsBreak (b : Text) : Prop := Text.isBlank b ∧ 2 ≤ b.count '\n'

def IsUnbroken (t : Text) : Prop := ∀ b, b <:+: t → ¬ IsBreak b

/-- The pieces of a text that is cut at breaks until none is left in a piece. -/
inductive Divided : Text → List Text → Prop where
  | whole {t : Text} (h : IsUnbroken t) : Divided t [t]
  | cut {p b t : Text} {ps : List Text} (hp : IsUnbroken p) (hb : IsBreak b)
    (h : Divided t ps) : Divided (p ++ (b ++ t)) (p :: ps)

theorem IsUnbroken.of_part {s t : Text} (h : IsUnbroken t) (hst : s <:+: t) : IsUnbroken s :=
  fun b hb => h b (hb.trans hst)

theorem IsUnbroken.nil : IsUnbroken [] := by
  rintro b hb ⟨_, hcount⟩
  rw [List.infix_nil] at hb
  subst hb
  exact absurd hcount (by decide)

theorem Divided.cons {c : Char} {t p : Text} {ps : List Text} (h : Divided t (p :: ps))
    (hp : IsUnbroken (c :: p)) : Divided (c :: t) ((c :: p) :: ps) := by
  cases h with
  | whole _ => exact .whole hp
  | cut _ hb h => exact .cut hp hb h

/-- The blanks at the start of a text, up to the last line end among them. -/
theorem exists_blanks {t : Text} (h : '\n' ∈ t.takeWhile Text.isSpace) :
    ∃ b, Text.isBlank b ∧ '\n' ∈ b ∧
      t = b ++ t.drop ((t.takeWhile Text.isSpace).length -
        ((t.takeWhile Text.isSpace).reverse.takeWhile (· ≠ '\n')).length) := by
  generalize hrun : t.takeWhile Text.isSpace = run at h ⊢
  have ht : t = run ++ t.dropWhile Text.isSpace := by
    rw [← hrun]
    exact List.takeWhile_append_dropWhile.symm
  have hsplit := List.takeWhile_append_dropWhile (p := (· ≠ '\n')) (l := run.reverse)
  generalize hlast : run.reverse.takeWhile (· ≠ '\n') = last at hsplit ⊢
  generalize run.reverse.dropWhile (· ≠ '\n') = kept at hsplit
  have hrev : run = kept.reverse ++ last.reverse := by
    rw [← List.reverse_append, hsplit, List.reverse_reverse]
  have hlen : run.length - last.length = kept.reverse.length := by
    rw [hrev]
    simp
  refine ⟨kept.reverse, ?_, ?_, ?_⟩
  · have hblank : Text.isBlank run := by
      rw [← hrun]
      exact List.all_takeWhile
    rw [hrev, isBlank_append] at hblank
    exact hblank.1
  · rw [hrev, List.mem_append] at h
    refine h.resolve_right fun hmem => ?_
    rw [List.mem_reverse, ← hlast] at hmem
    have hne := List.all_eq_true.1 List.all_takeWhile '\n' hmem
    simp at hne
  · rw [hlen]
    conv_rhs => rw [ht, hrev, List.append_assoc, List.drop_left]
    conv_lhs => rw [ht, hrev, List.append_assoc]

theorem IsBreak.of_blanks {b : Text} (h : Text.isBlank b) (hend : '\n' ∈ b) :
    IsBreak ('\n' :: b) := by
  constructor
  · exact isBlank_cons.2 ⟨by decide, h⟩
  · have := List.count_pos_iff.2 hend
    rw [List.count_cons_self]
    omega

theorem afterBlankLine?_eq (rest : Text) : afterBlankLine? ('\n' :: rest) =
    if '\n' ∈ rest.takeWhile Text.isSpace then
      some (rest.drop ((rest.takeWhile Text.isSpace).length -
        ((rest.takeWhile Text.isSpace).reverse.takeWhile (· ≠ '\n')).length))
    else none := by
  unfold afterBlankLine?
  simp only [List.contains_iff_mem]

theorem exists_break_of_lineEnd {rest after : Text}
    (h : afterBlankLine? ('\n' :: rest) = some after) :
    ∃ b, IsBreak ('\n' :: b) ∧ rest = b ++ after := by
  rw [afterBlankLine?_eq] at h
  split at h
  · rename_i hmem
    obtain ⟨b, hblank, hb, hrest⟩ := exists_blanks hmem
    cases h
    exact ⟨b, .of_blanks hblank hb, hrest⟩
  · cases h

theorem exists_break {t after : Text} (h : afterBlankLine? t = some after) :
    ∃ b, IsBreak b ∧ t = b ++ after := by
  unfold afterBlankLine? at h
  split at h
  · obtain ⟨b, hb, hrest⟩ := exists_break_of_lineEnd h
    exact ⟨_, hb, congrArg _ hrest⟩
  · obtain ⟨b, ⟨hblank, hcount⟩, hrest⟩ := exists_break_of_lineEnd h
    refine ⟨'\r' :: '\n' :: b, ⟨?_, ?_⟩, ?_⟩
    · exact isBlank_cons.2 ⟨by decide, hblank⟩
    · rwa [List.count_cons_of_ne (by decide)]
    · rw [hrest]
      rfl
  · cases h

/-- In front of a piece that has no break in it, a code point that starts none can
stand. -/
theorem IsUnbroken.cons {c : Char} {p t : Text} (hp : IsUnbroken p) (hpt : p <+: t)
    (h : afterBlankLine? (c :: t) = none) : IsUnbroken (c :: p) := by
  rintro b hb ⟨hblank, hcount⟩
  rcases List.infix_cons_iff.1 hb with hstart | hinside
  · cases b with
    | nil => exact absurd hcount (by decide)
    | cons d b =>
      obtain ⟨rfl, hbp⟩ := List.cons_prefix_cons.1 hstart
      have hb' : Text.isBlank b := (isBlank_cons.1 hblank).2
      by_cases hd : d = '\n'
      · subst hd
        -- the second line end of the break is among the blanks that follow the first
        have hmem : '\n' ∈ b := by
          rw [List.count_cons_self] at hcount
          exact List.count_pos_iff.1 (by omega)
        obtain ⟨rest, rfl⟩ := hbp.trans hpt
        rw [afterBlankLine?_eq, if_pos] at h
        · cases h
        · rw [List.takeWhile_append_of_pos (by simpa [Text.isBlank] using hb')]
          exact List.mem_append_left _ hmem
      · rw [List.count_cons_of_ne hd] at hcount
        exact hp b hbp.isInfix ⟨hb', hcount⟩
  · exact hp b hinside ⟨hblank, hcount⟩

theorem Divided.exists_cons {t : Text} {ps : List Text} (h : Divided t ps) :
    ∃ p rest, ps = p :: rest ∧ IsUnbroken p ∧ p <+: t := by
  cases h with
  | whole h => exact ⟨t, [], rfl, h, List.prefix_rfl⟩
  | cut hp _ _ => exact ⟨_, _, rfl, hp, List.prefix_append _ _⟩

theorem divided_paragraphsFrom {fuel : Nat} {t : Text} (h : t.length < fuel) :
    Divided t (paragraphsFrom fuel t) := by
  induction fuel generalizing t with
  | zero => exact absurd h (Nat.not_lt_zero _)
  | succ fuel ih =>
    cases t with
    | nil => exact .whole .nil
    | cons c rest =>
      rw [List.length_cons] at h
      rw [paragraphsFrom]
      cases hafter : afterBlankLine? (c :: rest) with
      | some after =>
        obtain ⟨b, hb, heq⟩ := exists_break hafter
        have hlen := congrArg List.length heq
        have hpos : 0 < b.length := by
          have := Nat.le_trans hb.2 List.count_le_length
          omega
        rw [List.length_cons, List.length_append] at hlen
        rw [heq]
        exact .cut .nil hb (ih (by omega))
      | none =>
        have hrest := ih (t := rest) (by omega)
        obtain ⟨p, ps, hps, hp, hstart⟩ := hrest.exists_cons
        dsimp only
        rw [hps] at hrest ⊢
        exact hrest.cons (hp.cons hstart hafter)

theorem divided_paragraphs (t : Text) : Divided t (paragraphs t) :=
  divided_paragraphsFrom (Nat.lt_succ_self _)

/-! ## Every division gives the same paragraphs -/

/-- What is left of pieces that are trimmed, where anything is left. -/
def trimmed (ps : List Text) : List Text := (ps.map Text.strip).filter (!·.isEmpty)

section

variable {p q b c t u : Text} {ps qs : List Text}

theorem trimmed_cons_congr (h : Text.strip p = Text.strip q) (hrest : trimmed ps = trimmed qs) :
    trimmed (p :: ps) = trimmed (q :: qs) := by
  unfold trimmed at *
  rw [List.map_cons, List.map_cons, List.filter_cons, List.filter_cons, h, hrest]

theorem trimmed_cons_of_isBlank (h : Text.isBlank p) (ps : List Text) :
    trimmed (p :: ps) = trimmed ps := by
  unfold trimmed
  rw [List.map_cons, Text.strip_of_isBlank h]
  rfl

theorem Divided.eq_single (h : Divided t ps) (ht : IsUnbroken t) : ps = [t] := by
  cases h with
  | whole _ => rfl
  | @cut p b t ps _ hb _ => exact absurd hb (ht b ⟨p, t, List.append_assoc p b t⟩)

/-- Two texts are the same but for blanks in front of them. -/
def Aligned (t u : Text) : Prop :=
  ∃ y z, Text.isBlank y ∧ Text.isBlank z ∧ y ++ t = z ++ u

theorem Aligned.symm (h : Aligned t u) : Aligned u t := by
  obtain ⟨y, z, hy, hz, heq⟩ := h
  exact ⟨z, y, hz, hy, heq.symm⟩

/-- A break inside a longer unbroken piece and the break behind it overlap. -/
theorem aligned_of_overlap {x : Text} (hx : IsUnbroken (p ++ x)) (hb : IsBreak b)
    (hc : IsBreak c) (h : b ++ t = x ++ (c ++ u)) :
    Text.strip (p ++ x) = Text.strip p ∧ Aligned t u := by
  rcases List.append_eq_append_iff.1 h with ⟨y, rfl, _⟩ | ⟨y, rfl, hcu⟩
  · exact absurd hb (hx b ⟨p, y, List.append_assoc p b y⟩)
  · obtain ⟨hxblank, hy⟩ := isBlank_append.1 hb.1
    exact ⟨Text.strip_append_right hxblank p, y, c, hy, hc.1, hcu.symm⟩

theorem aligned_of_breaks (hp : IsUnbroken p) (hb : IsBreak b) (hq : IsUnbroken q)
    (hc : IsBreak c) (h : p ++ (b ++ t) = q ++ (c ++ u)) :
    Text.strip p = Text.strip q ∧ Aligned t u := by
  rcases List.append_eq_append_iff.1 h with ⟨x, rfl, hx⟩ | ⟨x, rfl, hx⟩
  · obtain ⟨hstrip, haligned⟩ := aligned_of_overlap hq hb hc hx
    exact ⟨hstrip.symm, haligned⟩
  · obtain ⟨hstrip, haligned⟩ := aligned_of_overlap hp hc hb hx
    exact ⟨hstrip, haligned.symm⟩

/-- One step: blanks in front of a text make no difference, if they make none to what
follows its first break. -/
theorem trimmed_eq_of_blanks {n : Nat} {z : Text}
    (ih : ∀ {t u ps qs}, t.length + u.length < n → Divided t ps → Divided u qs →
      Aligned t u → trimmed ps = trimmed qs)
    (hlen : (z ++ u).length + u.length = n) (hz : Text.isBlank z) (ht : Divided (z ++ u) ps)
    (hu : Divided u qs) : trimmed ps = trimmed qs := by
  generalize heq : z ++ u = s at ht hlen
  cases ht with
  | whole hs =>
    subst heq
    obtain rfl := hu.eq_single (hs.of_part (List.suffix_append z u).isInfix)
    exact trimmed_cons_congr (Text.strip_append_left hz u) rfl
  | @cut p b t ps hp hb ht =>
    have hbpos : 0 < b.length := by
      have := Nat.le_trans hb.2 List.count_le_length
      omega
    simp only [List.length_append] at hlen
    rcases List.append_eq_append_iff.1 heq with ⟨x, rfl, hx⟩ | ⟨x, rfl, hx⟩
    · -- the first break comes after the blanks, so it overlaps the first one without them
      have hxpart : IsUnbroken x := hp.of_part (List.suffix_append z x).isInfix
      cases hu with
      | whole hu =>
        have hbu : b <:+: u := ⟨x, t, by rw [hx, List.append_assoc]⟩
        exact absurd hb (hu b hbu)
      | @cut q c u qs hq hc hu =>
        obtain ⟨hstrip, haligned⟩ := aligned_of_breaks hxpart hb hq hc hx.symm
        simp only [List.length_append] at hlen
        exact trimmed_cons_congr ((Text.strip_append_left hz x).trans hstrip)
          (ih (by omega) ht hu haligned)
    · obtain ⟨hpblank, hxblank⟩ := isBlank_append.1 hz
      rw [trimmed_cons_of_isBlank hpblank]
      exact ih (by omega) ht hu ⟨b, x, hb.1, hxblank, hx⟩

theorem trimmed_eq_of_aligned (ht : Divided t ps) (hu : Divided u qs) (h : Aligned t u) :
    trimmed ps = trimmed qs := by
  induction hn : t.length + u.length using Nat.strongRecOn generalizing t u ps qs with
  | ind n ih =>
    have hless : ∀ {t u ps qs}, t.length + u.length < n → Divided t ps → Divided u qs →
        Aligned t u → trimmed ps = trimmed qs :=
      fun hlt ht hu h => ih _ hlt ht hu h rfl
    obtain ⟨y, z, hy, hz, heq⟩ := h
    rcases List.append_eq_append_iff.1 heq with ⟨x, rfl, rfl⟩ | ⟨x, rfl, rfl⟩
    · exact trimmed_eq_of_blanks hless hn (isBlank_append.1 hz).2 ht hu
    · rw [Nat.add_comm] at hn
      exact (trimmed_eq_of_blanks hless hn (isBlank_append.1 hy).2 hu ht).symm

theorem Divided.trimmed_eq (h : Divided t ps) (h' : Divided t qs) : trimmed ps = trimmed qs :=
  trimmed_eq_of_aligned h h' ⟨[], [], rfl, rfl, rfl⟩

end

end Group
end Marginalia
