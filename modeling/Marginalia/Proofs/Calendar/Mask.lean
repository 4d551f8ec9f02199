import Marginalia.Calendar.Mask
import Marginalia.Proofs.Text.Cut

/-
Masks in two spellings.  A mask is put together from tokens and from text without braces and
without the letters of tokens; it is read the same whether its tokens stand in braces or bare, a
bare token being found even where another one with the same letter stands next to it.
-/
namespace Marginalia

/-! ## Segments -/

/-- A part of a mask: a token, or a text that is copied. -/
inductive MaskSegment where
  | literal (t : Text)
  | field (f : DateField)

namespace MaskSegment

/-- The braces and the letters of the tokens. -/
def isReserved (c : Char) : Bool := ['{', '}', 'Y', 'M', 'D', 'H', 'm', 's'].contains c

/-- Nothing in a literal can be taken for a token or a part of one. -/
def IsPlain : MaskSegment → Prop
  | .literal t => ∀ c ∈ t, isReserved c = false
  | .field _ => True

instance : DecidablePred IsPlain
  | .literal t => List.decidableBAll (isReserved · = false) t
  | .field _ => inferInstanceAs (Decidable True)

def braced : MaskSegment → Text
  | .literal t => t
  | .field f => '{' :: (f.token ++ ['}'])

def bare : MaskSegment → Text
  | .literal t => t
  | .field f => f.token

/-- What a segment is read as. -/
def items : MaskSegment → DateMask
  | .literal t => t.map .literal
  | .field f => [.field f]

/-- What a segment of a mask shows of a moment. -/
def text (m : Moment) : MaskSegment → Text
  | .literal t => t
  | .field f => f.text m

theorem not_mem_bare {s : MaskSegment} (h : s.IsPlain) : '{' ∉ s.bare := by
  cases s with
  | literal t => exact fun hmem => absurd (h '{' hmem) (by decide)
  | field f => cases f <;> decide

end MaskSegment

open MaskSegment (isReserved)

namespace DateField

variable {f : DateField}

theorem exists_token (f : DateField) : ∃ c t, f.token = c :: t ∧ isReserved c := by
  cases f <;> exact ⟨_, _, rfl, rfl⟩

theorem not_mem_token (f : DateField) : '}' ∉ f.token := by
  cases f <;> decide

theorem ofToken?_token (f : DateField) : ofToken? f.token = some f := by
  cases f <;> decide

end DateField

namespace DateMask

variable {t : Text} {c : Char} {f : DateField}

theorem render_append (mask mask' : DateMask) (m : Moment) :
    render (mask ++ mask') m = render mask m ++ render mask' m :=
  List.flatMap_append

/-! ## Bare tokens -/

theorem bareField?_token (f : DateField) (t : Text) : bareField? (f.token ++ t) = some f := by
  cases f <;> rfl

theorem bareField?_of_head (h : isReserved c = false) (t : Text) : bareField? (c :: t) = none := by
  unfold bareField?
  rw [List.find?_eq_none]
  intro f _
  obtain ⟨d, rest, hf, hd⟩ := f.exists_token
  have hne : d ≠ c := by
    rintro rfl
    rw [h] at hd
    cases hd
  rw [hf]
  simp [List.isPrefixOf, hne]

theorem bare_token (f : DateField) (t : Text) : bare (f.token ++ t) = .field f :: bare t := by
  obtain ⟨c, rest, hf, _⟩ := f.exists_token
  have hfield := bareField?_token f t
  rw [hf, List.cons_append] at hfield ⊢
  rw [bare, hfield]
  dsimp only
  rw [hf, List.length_cons, Nat.add_sub_cancel, List.drop_left]

theorem bare_plain (h : ∀ c ∈ t, isReserved c = false) (u : Text) :
    bare (t ++ u) = t.map .literal ++ bare u := by
  induction t with
  | nil => rfl
  | cons c t ih =>
    rw [List.cons_append, bare, bareField?_of_head (h c List.mem_cons_self)]
    dsimp only
    rw [ih fun d hd => h d (List.mem_cons_of_mem c hd)]
    rfl

/-! ## Tokens in braces -/

theorem braced?_token (f : DateField) (t : Text) :
    braced? ('{' :: (f.token ++ '}' :: t)) = (braced? t).map (.field f :: ·) := by
  rw [braced?, Text.cut_single f.not_mem_token]
  dsimp only
  rw [f.ofToken?_token]

theorem braced?_plain (h : ∀ c ∈ t, isReserved c = false) (u : Text) :
    braced? (t ++ u) = (braced? u).map (t.map .literal ++ ·) := by
  induction t with
  | nil => simp
  | cons c t ih =>
    have hc : c ≠ '{' := by
      rintro rfl
      exact absurd (h '{' List.mem_cons_self) (by decide)
    have hbraced : braced? (c :: (t ++ u)) = (braced? (t ++ u)).map (.literal c :: ·) := by
      rw [braced?]
      exact hc
    rw [List.cons_append, hbraced, ih fun d hd => h d (List.mem_cons_of_mem c hd), Option.map_map]
    rfl

/-! ## Whole masks -/

variable {segs : List MaskSegment} (hplain : ∀ s ∈ segs, s.IsPlain)

include hplain

theorem bare_segments : bare (segs.flatMap MaskSegment.bare) = segs.flatMap MaskSegment.items := by
  induction segs with
  | nil =>
    rw [List.flatMap_nil, bare]
    rfl
  | cons s segs ih =>
    have hrest := ih fun s hs => hplain s (List.mem_cons_of_mem _ hs)
    rw [List.flatMap_cons, List.flatMap_cons, ← hrest]
    cases s with
    | literal t => exact bare_plain (hplain _ List.mem_cons_self) _
    | field f => exact bare_token f _

theorem braced?_segments :
    braced? (segs.flatMap MaskSegment.braced) = some (segs.flatMap MaskSegment.items) := by
  induction segs with
  | nil =>
    rw [List.flatMap_nil, braced?]
    rfl
  | cons s segs ih =>
    have hrest := ih fun s hs => hplain s (List.mem_cons_of_mem _ hs)
    rw [List.flatMap_cons, List.flatMap_cons]
    cases s with
    | literal t =>
      show braced? (t ++ _) = _
      rw [braced?_plain (hplain _ List.mem_cons_self), hrest]
      rfl
    | field f =>
      show braced? ('{' :: ((f.token ++ ['}']) ++ _)) = _
      rw [List.append_assoc, List.singleton_append, braced?_token, hrest]
      rfl

omit hplain in
theorem render_segments (segs : List MaskSegment) (m : Moment) :
    render (segs.flatMap MaskSegment.items) m = segs.flatMap (MaskSegment.text m) := by
  induction segs with
  | nil => rfl
  | cons s segs ih =>
    rw [List.flatMap_cons, List.flatMap_cons, render_append, ih]
    cases s with
    | literal t =>
      have hcopy : render (t.map .literal) m = t := by
        unfold render
        rw [List.flatMap_map]
        exact List.flatMap_singleton' t
      exact congrArg (· ++ _) hcopy
    | field f =>
      have hone : render [.field f] m = f.text m := List.append_nil _
      exact congrArg (· ++ _) hone

theorem ofText?_bare :
    ofText? (segs.flatMap MaskSegment.bare) = some (segs.flatMap MaskSegment.items) := by
  have hbrace : '{' ∉ segs.flatMap MaskSegment.bare := by
    intro hmem
    obtain ⟨s, hs, hmem⟩ := List.mem_flatMap.1 hmem
    exact MaskSegment.not_mem_bare (hplain s hs) hmem
  rw [ofText?, if_neg (by simpa using hbrace), bare_segments hplain]

theorem ofText?_braced (hfield : ∃ f, .field f ∈ segs) :
    ofText? (segs.flatMap MaskSegment.braced) = some (segs.flatMap MaskSegment.items) := by
  obtain ⟨f, hf⟩ := hfield
  have hbrace : '{' ∈ segs.flatMap MaskSegment.braced :=
    List.mem_flatMap.2 ⟨_, hf, List.mem_cons_self⟩
  rw [ofText?, if_pos (by simpa using hbrace), braced?_segments hplain]

end DateMask

/-! ## Formatting -/

namespace Moment

/-- A pattern with a brace or a letter of a token in it is a mask, and not one of the names. -/
theorem format_mask {p : Text} (h : ∃ c ∈ p, isReserved c) (m : Moment) :
    m.format (some p) = ((DateMask.ofText? p).map (·.render m)).getD [] := by
  obtain ⟨c, hc, hreserved⟩ := h
  have hname : ∀ name : Text, name.any isReserved = false → p ≠ name := by
    rintro name hnone rfl
    rw [List.any_eq_false] at hnone
    exact hnone c hc hreserved
  have hempty : p.isEmpty = false := by simpa using List.ne_nil_of_mem hc
  unfold format
  dsimp only
  rw [hempty, if_neg (by nofun), if_neg (hname _ (by decide)), if_neg (hname _ (by decide))]
  cases DateMask.ofText? p <;> rfl

section

variable {segs : List MaskSegment} (hplain : ∀ s ∈ segs, s.IsPlain) (hfield : ∃ f, .field f ∈ segs)

include hplain hfield

theorem format_bare (m : Moment) :
    m.format (some (segs.flatMap MaskSegment.bare)) = segs.flatMap (MaskSegment.text m) := by
  obtain ⟨f, hf⟩ := hfield
  obtain ⟨c, t, htoken, hc⟩ := f.exists_token
  have hmem : c ∈ segs.flatMap MaskSegment.bare :=
    List.mem_flatMap.2 ⟨_, hf, show c ∈ f.token from htoken ▸ List.mem_cons_self⟩
  rw [m.format_mask ⟨c, hmem, hc⟩, DateMask.ofText?_bare hplain, Option.map_some,
    DateMask.render_segments]
  rfl

theorem format_braced (m : Moment) :
    m.format (some (segs.flatMap MaskSegment.braced)) = segs.flatMap (MaskSegment.text m) := by
  have hmem : '{' ∈ segs.flatMap MaskSegment.braced := by
    obtain ⟨f, hf⟩ := hfield
    exact List.mem_flatMap.2 ⟨_, hf, List.mem_cons_self⟩
  rw [m.format_mask ⟨'{', hmem, rfl⟩, DateMask.ofText?_braced hplain hfield, Option.map_some,
    DateMask.render_segments]
  rfl

end

end Moment

/-- The values that a date may be given as. -/
def Value.IsDateLike : Value → Prop
  | .null | .int _ | .float _ | .text _ | .moment _ => True
  | _ => False

theorem Value.IsDateLike.exists_moment {v : Value} (h : v.IsDateLike) :
    ∃ d, Moment.ofValue? v = .ok d := by
  cases v with
  | null => exact ⟨_, rfl⟩
  | int n => exact ⟨_, rfl⟩
  | float x => exact ⟨_, rfl⟩
  | text t => exact ⟨_, rfl⟩
  | moment m => exact ⟨_, rfl⟩
  | _ => cases h

theorem formatDate_eq (v : Value) (p : Option Text) :
    formatDate v p = (Moment.ofValue? v).map fun d => (d.map (·.format p)).getD [] := by
  unfold formatDate
  cases Moment.ofValue? v with
  | error e => rfl
  | ok d => cases d <;> rfl

/-- A mask shows the same whether its tokens stand in braces or bare: its literals as they are
and its tokens as the fields of the moment, or nothing where the value stands for no moment. -/
theorem formatDate_segments {segs : List MaskSegment} (hplain : ∀ s ∈ segs, s.IsPlain)
    (hfield : ∃ f, .field f ∈ segs) (v : Value) :
    formatDate v (some (segs.flatMap MaskSegment.braced)) =
      formatDate v (some (segs.flatMap MaskSegment.bare)) ∧
    formatDate v (some (segs.flatMap MaskSegment.bare)) = (Moment.ofValue? v).map
      (fun d => (d.map fun m => segs.flatMap (MaskSegment.text m)).getD []) ∧
    (v.IsDateLike → ∃ d, Moment.ofValue? v = .ok d) := by
  have hbare := Moment.format_bare hplain hfield
  have hbraced := Moment.format_braced hplain hfield
  refine ⟨?_, ?_, Value.IsDateLike.exists_moment⟩
  · simp only [formatDate_eq, hbare, hbraced]
  · simp only [formatDate_eq, hbare]

/-- A mask with tokens of the same letter next to each other. -/
def repeatedTokens : List MaskSegment :=
  [.field .month, .field .month, .literal "/at ".toList, .field .year, .field .year, .literal [],
    .field .minute, .field .month]

theorem formatDate_repeatedTokens : (∀ s ∈ repeatedTokens, s.IsPlain) ∧
    (∃ f, .field f ∈ repeatedTokens) ∧
    formatDate (.text "2024-03-05 13:14:15".toList)
      (some "\x7bMM\x7d\x7bMM\x7d/at \x7bYYYY\x7d\x7bYYYY\x7d\x7bmm\x7d\x7bMM\x7d".toList) =
      .ok "0303/at 202420241403".toList ∧
    formatDate (.text "2024-03-05 13:14:15".toList) (some "MMMM/at YYYYYYYYmmMM".toList) =
      .ok "0303/at 202420241403".toList := by
  have hplain : ∀ s ∈ repeatedTokens, s.IsPlain := by decide
  have hfield : ∃ f, .field f ∈ repeatedTokens := ⟨.month, List.mem_cons_self⟩
  obtain ⟨hsame, hbare, _⟩ := formatDate_segments hplain hfield (.text "2024-03-05 13:14:15".toList)
  have hshown : formatDate (.text "2024-03-05 13:14:15".toList)
      (some "MMMM/at YYYYYYYYmmMM".toList) = .ok "0303/at 202420241403".toList :=
    hbare.trans (by decide +kernel)
  exact ⟨hplain, hfield, hsame.trans hshown, hshown⟩

end Marginalia
