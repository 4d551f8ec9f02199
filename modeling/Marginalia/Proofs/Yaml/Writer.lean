import Mathlib.Data.List.TakeWhile
import Marginalia.Yaml.Writer
import Marginalia.Proofs.Text.Strip

/-
The look of a written entry.  Whatever text it holds, no line in it starts with a hyphen and
none is ended by a carriage return, so the entry can stand between lines of hyphens; and there
are no blanks at its ends.
-/
namespace Marginalia

/-! ## Texts whose lines go on -/

/-- Behind each line feed the text goes on, not with a hyphen, and there is no carriage
return. -/
def Text.GoesOn : Text → Prop
  | [] => True
  | c :: rest =>
    c ≠ '\r' ∧ (c = '\n' → ∃ d, rest.head? = some d ∧ d ≠ '-') ∧ Text.GoesOn rest

/-- A text on one line. -/
def Text.IsFlat (t : Text) : Prop := ∀ c ∈ t, c ≠ '\n' ∧ c ≠ '\r'

instance (t : Text) : Decidable t.IsFlat :=
  decidable_of_iff ((t.all fun c => decide (c ≠ '\n' ∧ c ≠ '\r')) = true)
    (by simp only [List.all_eq_true, decide_eq_true_eq, Text.IsFlat])

namespace Text

variable {s t : Text}

theorem IsFlat.goesOn (h : IsFlat t) : GoesOn t := by
  induction t with
  | nil => trivial
  | cons c rest ih =>
    obtain ⟨hc, hrest⟩ := List.forall_mem_cons.1 h
    exact ⟨hc.2, fun heq => absurd heq hc.1, ih hrest⟩

theorem GoesOn.append (hs : GoesOn s) (ht : GoesOn t) : GoesOn (s ++ t) := by
  induction s with
  | nil => exact ht
  | cons c rest ih =>
    obtain ⟨hreturn, hline, hrest⟩ := hs
    refine ⟨hreturn, fun hc => ?_, ih hrest⟩
    obtain ⟨d, hd, hne⟩ := hline hc
    have hhead : (rest ++ t).head? = some d := by rw [List.head?_append, hd, Option.some_or]
    exact ⟨d, hhead, hne⟩

theorem GoesOn.not_mem (h : GoesOn t) : '\r' ∉ t := by
  induction t with
  | nil => nofun
  | cons c rest ih => exact List.not_mem_cons_of_ne_of_not_mem (Ne.symm h.1) (ih h.2.2)

end Text

namespace Yaml
namespace Writer

open Text (GoesOn IsFlat)

variable {s t : Text}

/-! ## Escapes -/

theorem isFlat_upperHex (digits n : Nat) : IsFlat (upperHex digits n) := by
  have hdigit : ∀ d < 16, IsFlat (Text.upperChar (Text.hexDigit d)) := by decide
  have hhex : ∀ c ∈ Text.hex digits n, ∃ d < 16, c = Text.hexDigit d := by
    induction digits generalizing n with
    | zero => nofun
    | succ width ih =>
      intro c hc
      rcases List.mem_append.1 hc with hc | hc
      · exact ih _ c hc
      · exact ⟨n % 16, Nat.mod_lt n (by decide), List.mem_singleton.1 hc⟩
  intro c hc
  obtain ⟨d, hd, hc⟩ := List.mem_flatMap.1 hc
  obtain ⟨k, hk, rfl⟩ := hhex d hd
  exact hdigit k hk c hc

theorem isFlat_escape (c : Char) : IsFlat (escape c) := by
  have hletters : (escapeLetters.all fun e => decide (IsFlat ['\\', e.2])) = true := by decide
  have hcode : ∀ (kind : Char) (digits n : Nat), IsFlat ['\\', kind] →
      IsFlat ('\\' :: kind :: upperHex digits n) := fun kind digits n hkind =>
    List.forall_mem_append.2 ⟨hkind, isFlat_upperHex digits n⟩
  unfold escape
  dsimp only
  split
  · rename_i letter hletter
    obtain ⟨before, after, heq, _⟩ := List.lookup_eq_some_iff.1 hletter
    have hmem := heq ▸ List.mem_append_right before (.head _)
    exact of_decide_eq_true (List.all_eq_true.1 hletters (_, letter) hmem)
  · split
    · exact hcode 'x' 2 _ (by decide)
    · split
      · exact hcode 'u' 4 _ (by decide)
      · exact hcode 'U' 8 _ (by decide)

/-! ## The insides of the three styles -/

theorem goesOn_newLine : GoesOn newLine := by
  refine ⟨by decide, fun _ => ⟨' ', rfl, by decide⟩, ?_⟩
  exact IsFlat.goesOn (by decide)

theorem isFlat_spaces {run : Text} (h : ∀ c ∈ run, c = ' ') : IsFlat run := fun c hc => by
  rw [h c hc]
  decide

/-- A run of spaces in front of a text. -/
theorem forall_mem_run (rest : Text) : ∀ c ∈ ' ' :: rest.takeWhile (· = ' '), c = ' ' := by
  refine List.forall_mem_cons.2 ⟨rfl, fun c hc => ?_⟩
  simpa using List.mem_takeWhile_imp hc

theorem goesOn_plainFrom (fuel column : Nat) (h : IsFlat t) :
    GoesOn (plainFrom fuel column t) := by
  induction fuel generalizing column t with
  | zero => exact h.goesOn
  | succ fuel ih =>
    cases t with
    | nil => trivial
    | cons c rest =>
      obtain ⟨hc, hrest⟩ := List.forall_mem_cons.1 h
      have hafter : IsFlat (rest.dropWhile (· = ' ')) := fun c hc =>
        hrest c ((List.dropWhile_suffix _).subset hc)
      unfold plainFrom
      split
      · dsimp only
        split
        · exact goesOn_newLine.append (ih indent hafter)
        · exact (isFlat_spaces (forall_mem_run rest)).goesOn.append (ih _ hafter)
      · exact ⟨hc.2, fun heq => absurd heq hc.1, ih _ hrest⟩

/-- Line ends in front of an indented line. -/
theorem goesOn_lineEnds {run : Text} (h : ∀ c ∈ run, isLineEnd c) (ht : GoesOn (' ' :: t)) :
    GoesOn (run ++ ' ' :: t) := by
  induction run with
  | nil => exact ht
  | cons c rest ih =>
    obtain ⟨hc, hrest⟩ := List.forall_mem_cons.1 h
    have hhyphen : ∀ d, isLineEnd d → d ≠ '-' := by
      rintro d hd rfl
      cases hd
    have hreturn : c ≠ '\r' := by
      rintro rfl
      cases hc
    refine ⟨hreturn, fun _ => ?_, ih hrest⟩
    cases rest with
    | nil => exact ⟨' ', rfl, by decide⟩
    | cons d rest => exact ⟨d, rfl, hhyphen d (hrest d (.head _))⟩

theorem goesOn_singleFrom (atStart : Bool) (fuel column : Nat) (h : '\r' ∉ t)
    (hfuel : t.length ≤ fuel) : GoesOn (singleFrom atStart fuel column t) := by
  induction fuel generalizing atStart column t with
  | zero =>
    rw [List.length_eq_zero_iff.1 (Nat.le_zero.1 hfuel)]
    trivial
  | succ fuel ih =>
    cases t with
    | nil => trivial
    | cons c rest =>
      have hlength : rest.length ≤ fuel := Nat.le_of_succ_le_succ hfuel
      have hrest : '\r' ∉ rest := fun hmem => h (.tail _ hmem)
      have hc : c ≠ '\r' := fun hc => h (hc ▸ .head _)
      have hafter : ∀ (p : Char → Bool) (atStart : Bool) (column : Nat),
          GoesOn (singleFrom atStart fuel column (rest.dropWhile p)) := fun p atStart column =>
        have hsuffix := List.dropWhile_suffix (l := rest) p
        ih atStart column (fun hmem => hrest (hsuffix.subset hmem))
          (Nat.le_trans hsuffix.length_le hlength)
      unfold singleFrom
      split
      · dsimp only
        split
        · exact goesOn_newLine.append (hafter _ _ _)
        · exact (isFlat_spaces (forall_mem_run rest)).goesOn.append (hafter _ _ _)
      · split
        · rename_i hend
          have hrun : ∀ d ∈ (if c = '\n' then ['\n'] else []) ++ c :: rest.takeWhile isLineEnd,
              isLineEnd d := by
            refine List.forall_mem_append.2 ⟨?_, List.forall_mem_cons.2 ⟨hend, fun d hd =>
              List.mem_takeWhile_imp hd⟩⟩
            split
            · exact List.forall_mem_singleton.2 rfl
            · nofun
          have hindented : GoesOn (' ' :: ' ' ::
              singleFrom false fuel indent (rest.dropWhile isLineEnd)) :=
            (IsFlat.goesOn (by decide : IsFlat [' ', ' '])).append (hafter _ _ _)
          have hline := goesOn_lineEnds hrun hindented
          simpa [indent, List.append_assoc] using hline
        · rename_i hspace hend
          have hfeed : c ≠ '\n' := by
            rintro rfl
            exact hend rfl
          split
          · exact (IsFlat.goesOn (by decide : IsFlat ['\'', '\''])).append (ih _ _ hrest hlength)
          · exact ⟨hc, fun heq => absurd heq hfeed, ih _ _ hrest hlength⟩

theorem isFlat_of_standsInDouble {c : Char} (h : standsInDouble c) : IsFlat [c] := by
  refine List.forall_mem_singleton.2 ⟨?_, ?_⟩ <;> rintro rfl <;> cases h

/-- A line that is folded in double quotes. -/
theorem goesOn_fold (hs : IsFlat s) (p : Prop) [Decidable p] (ht : GoesOn t) :
    GoesOn (s ++ ['\\'] ++ newLine ++ (if p then ['\\'] else []) ++ t) := by
  have hmark : GoesOn ['\\'] := IsFlat.goesOn (by decide)
  have hguard : GoesOn (if p then ['\\'] else []) := by
    split
    · exact hmark
    · trivial
  exact (((hs.goesOn.append hmark).append goesOn_newLine).append hguard).append ht

theorem goesOn_doubleFrom (first : Bool) (column : Nat) {held : Text} (hheld : IsFlat held) :
    GoesOn (doubleFrom first column held t) := by
  induction t generalizing first column held with
  | nil => exact hheld.goesOn
  | cons c rest ih =>
    unfold doubleFrom
    dsimp only
    split
    · rename_i hstands
      have hc := isFlat_of_standsInDouble hstands
      split
      · exact goesOn_fold hheld _ (ih _ _ hc)
      · exact ih _ _ (List.forall_mem_append.2 ⟨hheld, hc⟩)
    · have hflushed : IsFlat (held ++ escape c) :=
        List.forall_mem_append.2 ⟨hheld, isFlat_escape c⟩
      split
      · rw [List.append_nil]
        exact goesOn_fold hflushed _ (ih _ _ nofun)
      · exact hflushed.goesOn.append (ih _ _ nofun)

/-! ## Entries -/

variable {key : Text}

theorem not_mem_of_isShown (h : t.all isShown = true) : '\r' ∉ t := by
  intro hmem
  cases List.all_eq_true.1 h _ hmem

theorem isFlat_of_isShown (h : t.all isShown = true) (hlines : t.any isLineEnd = false) :
    IsFlat t := by
  intro c hc
  refine ⟨?_, ?_⟩
  · rintro rfl
    cases List.any_eq_false.1 hlines _ hc rfl
  · rintro rfl
    exact not_mem_of_isShown h hc

/-- What the styles but double quotes ask of a text. -/
theorem styleFor_cases (t : Text) : (styleFor t = .plain ∧ t ≠ [] ∧ IsFlat t) ∨
    (styleFor t = .single ∧ '\r' ∉ t) ∨ styleFor t = .double := by
  by_cases hempty : t = []
  · subst hempty
    exact .inr (.inl ⟨by decide, List.not_mem_nil⟩)
  unfold styleFor
  dsimp only
  split
  · rename_i hplain
    simp only [Bool.and_eq_true, Bool.not_eq_true'] at hplain
    exact .inl ⟨rfl, hempty, isFlat_of_isShown hplain.1.1.1.1.1.1 hplain.1.2⟩
  · split
    · rename_i hsingle
      simp only [Bool.and_eq_true] at hsingle
      exact .inr (.inl ⟨rfl, not_mem_of_isShown hsingle.1.1⟩)
    · exact .inr (.inr rfl)

theorem goesOn_scalar (column : Nat) (t : Text) : GoesOn (scalar column t) := by
  have hsingle : GoesOn ['\''] := IsFlat.goesOn (by decide)
  have hdouble : GoesOn ['"'] := IsFlat.goesOn (by decide)
  unfold scalar
  rcases styleFor_cases t with ⟨hstyle, _, hflat⟩ | ⟨hstyle, hreturn⟩ | hstyle
  · rw [hstyle]
    exact goesOn_plainFrom _ column hflat
  · rw [hstyle]
    exact (hsingle.append (goesOn_singleFrom true _ _ hreturn (Nat.le_refl _))).append hsingle
  · rw [hstyle]
    have hnone : IsFlat [] := nofun
    exact (hdouble.append (goesOn_doubleFrom true _ hnone)).append hdouble

theorem goesOn_entry (hkey : IsFlat key) (t : Text) : GoesOn (entry key t) := by
  refine GoesOn.append (IsFlat.goesOn ?_) (goesOn_scalar _ t)
  exact List.forall_mem_append.2 ⟨hkey, (by decide : IsFlat [':', ' '])⟩

theorem getLast?_run (rest : Text) : (' ' :: rest.takeWhile (· = ' ')).getLast? = some ' ' := by
  rw [List.getLast?_eq_some_getLast (List.cons_ne_nil _ _)]
  exact congrArg some (forall_mem_run rest _ (List.getLast_mem _))

/-- Folding leaves the last code point where it is. -/
theorem getLast?_plainFrom (fuel column : Nat) (t : Text) :
    (plainFrom fuel column t).getLast? = t.getLast? := by
  induction fuel generalizing column t with
  | zero => rfl
  | succ fuel ih =>
    cases t with
    | nil => rfl
    | cons c rest =>
      unfold plainFrom
      split
      · rename_i hc
        have hrest : c :: rest =
            (' ' :: rest.takeWhile (· = ' ')) ++ rest.dropWhile (· = ' ') := by
          rw [hc, List.cons_append, List.takeWhile_append_dropWhile]
        rw [hrest, List.getLast?_append, getLast?_run]
        dsimp only
        split
        · rw [List.getLast?_append, ih]
          rfl
        · rw [List.getLast?_append, ih, getLast?_run]
      · rw [List.getLast?_cons, List.getLast?_cons, ih]

theorem getLast?_scalar (column : Nat) (ht : t.Tight) :
    ∃ c, (scalar column t).getLast? = some c ∧ Text.isSpace c = false := by
  unfold scalar
  rcases styleFor_cases t with ⟨hstyle, hne, _⟩ | ⟨hstyle, _⟩ | hstyle
  · rw [hstyle]
    dsimp only
    rw [getLast?_plainFrom, List.getLast?_eq_some_getLast hne]
    exact ⟨_, rfl, ht.last _ (List.getLast?_eq_some_getLast hne)⟩
  · rw [hstyle]
    exact ⟨'\'', List.getLast?_concat, by decide⟩
  · rw [hstyle]
    exact ⟨'"', List.getLast?_concat, by decide⟩

/-- There are no blanks at the ends of an entry, if there are none at those of its key and its
text. -/
theorem tight_entry (hkey : key.Tight) (hne : key ≠ []) (ht : t.Tight) : (entry key t).Tight := by
  obtain ⟨c, hlast, hc⟩ := getLast?_scalar (key ++ [':', ' ']).length ht
  constructor
  · intro d hd
    rw [entry, List.append_assoc, List.head?_append_of_ne_nil _ hne] at hd
    exact hkey.head d hd
  · intro d hd
    rw [entry, List.getLast?_append, hlast] at hd
    cases hd
    exact hc

end Writer
end Yaml
end Marginalia
