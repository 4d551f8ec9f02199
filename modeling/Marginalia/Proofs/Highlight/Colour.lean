import Mathlib.Data.List.Forall2
import Marginalia.Proofs.Html.Escape
import Marginalia.Proofs.Text.Case
import Marginalia.Proofs.Text.Strip
import Marginalia.Highlight.Style

/-
The colours that an annotation may give by their parts.  Three or six hexadecimal digits are one,
with or without a hash mark; so are decimal digits of any script among them, and a line break at
the end.  What is taken for a colour needs no escaping and stands in the style as it is; what is
not has no part in it.
-/
namespace Marginalia

namespace Rgb

variable {digit digit' : Char → Nat → Prop} {t body : Text} {rgb : Rgb} {c : Char} {v : Nat}

/-! ## Digits -/

/-- A basic hexadecimal digit, in upper or lower case, with its value. -/
def IsHexDigit (c : Char) (v : Nat) : Prop :=
  v < 16 ∧ (c = Nat.digitChar v ∨ c = (Nat.digitChar v).toUpper)

/-- A decimal digit of any script, or one of the six basic letters, with its value. -/
def IsAnyDigit (c : Char) (v : Nat) : Prop :=
  Text.digit? c = some v ∨ 10 ≤ v ∧ IsHexDigit c v

theorem isDigit_of_digit? (h : Text.digit? c = some v) : Text.isDigit c := by
  rw [Text.isDigit, h]
  rfl

theorem isHexDigit_letter : ∀ v < 16, 10 ≤ v →
    IsHexDigit (Char.ofNat (v + 87)) v ∧ IsHexDigit (Char.ofNat (v + 55)) v := by
  unfold IsHexDigit
  decide

theorem hexValue?_of_isHexDigit (h : IsHexDigit c v) : hexValue? c = some v := by
  have hvalues : ∀ v < 16, hexValue? (Nat.digitChar v) = some v ∧
      hexValue? (Nat.digitChar v).toUpper = some v := by decide +kernel
  obtain ⟨hv, rfl | rfl⟩ := h
  · exact (hvalues v hv).1
  · exact (hvalues v hv).2

theorem hexValue?_eq_some_iff : hexValue? c = some v ↔ IsAnyDigit c v := by
  constructor
  · intro h
    unfold hexValue? at h
    split at h
    · rename_i d hd
      exact .inl (hd.trans h)
    · split at h
      · rename_i hletter
        simp only [Bool.and_eq_true, decide_eq_true_eq] at hletter
        have hlow : 97 ≤ c.toNat := hletter.1
        have hhigh : c.toNat ≤ 102 := hletter.2
        obtain rfl := Option.some.inj h
        refine .inr ⟨by omega, ?_⟩
        have := (isHexDigit_letter (c.toNat - 87) (by omega) (by omega)).1
        rwa [Nat.sub_add_cancel (by omega), Char.ofNat_toNat] at this
      · split at h
        · rename_i hletter
          simp only [Bool.and_eq_true, decide_eq_true_eq] at hletter
          have hlow : 65 ≤ c.toNat := hletter.1
          have hhigh : c.toNat ≤ 70 := hletter.2
          obtain rfl := Option.some.inj h
          refine .inr ⟨by omega, ?_⟩
          have := (isHexDigit_letter (c.toNat - 55) (by omega) (by omega)).2
          rwa [Nat.sub_add_cancel (by omega), Char.ofNat_toNat] at this
        · cases h
  · rintro (h | ⟨_, h⟩)
    · rw [hexValue?, h]
    · exact hexValue?_of_isHexDigit h

theorem not_isAnyDigit (h : hexValue? c = none) : ¬ IsAnyDigit c v := fun hv => by
  rw [hexValue?_eq_some_iff.2 hv] at h
  cases h

/-- Among the basic code points, the digits of any script are the basic ones. -/
theorem isHexDigit_iff : IsHexDigit c v ↔ IsAnyDigit c v ∧ c.toNat < 128 := by
  constructor
  · intro h
    have hbasic : ∀ v < 16, (Nat.digitChar v).toNat < 128 ∧
        (Nat.digitChar v).toUpper.toNat < 128 := by decide
    refine ⟨hexValue?_eq_some_iff.1 (hexValue?_of_isHexDigit h), ?_⟩
    obtain ⟨hv, rfl | rfl⟩ := h
    · exact (hbasic v hv).1
    · exact (hbasic v hv).2
  · rintro ⟨h | ⟨_, h⟩, hbasic⟩
    · have hzeros : ∀ z ∈ Text.digitZeros, z < 128 → z = 48 := by decide
      obtain ⟨z, hz, hlow, hhigh, hvalue⟩ := Text.exists_of_isDigit (isDigit_of_digit? h)
      obtain rfl := hzeros z hz (by omega)
      obtain rfl := Option.some.inj (hvalue.symm.trans h)
      refine ⟨by omega, .inl ?_⟩
      have hdigit : ∀ n < 10, Char.ofNat (n + 48) = Nat.digitChar n := by decide
      rw [← hdigit _ (by omega), Nat.sub_add_cancel hlow, Char.ofNat_toNat]
    · exact h

/-! ## Colours -/

/-- Three digits, one for each part, or two digits for each. -/
inductive Spells (digit : Char → Nat → Prop) : Text → Rgb → Prop where
  | short {x y z : Char} {r g b : Nat} : digit x r → digit y g → digit z b →
    Spells digit [x, y, z] ⟨16 * r + r, 16 * g + g, 16 * b + b⟩
  | long {x x' y y' z z' : Char} {r r' g g' b b' : Nat} : digit x r → digit x' r' → digit y g →
    digit y' g' → digit z b → digit z' b' →
    Spells digit [x, x', y, y', z, z'] ⟨16 * r + r', 16 * g + g', 16 * b + b'⟩

/-- The digits of a colour, with or without a hash mark. -/
def IsColour (digit : Char → Nat → Prop) (t : Text) (rgb : Rgb) : Prop :=
  ∃ body, Spells digit body rgb ∧ (t = body ∨ t = '#' :: body)

theorem Spells.mono (h : Spells digit t rgb) (hdigit : ∀ c ∈ t, ∀ v, digit c v → digit' c v) :
    Spells digit' t rgb := by
  cases h with
  | short hx hy hz =>
    simp only [List.forall_mem_cons] at hdigit
    obtain ⟨hx', hy', hz', _⟩ := hdigit
    exact .short (hx' _ hx) (hy' _ hy) (hz' _ hz)
  | long hx₁ hx₂ hy₁ hy₂ hz₁ hz₂ =>
    simp only [List.forall_mem_cons] at hdigit
    obtain ⟨hx₁', hx₂', hy₁', hy₂', hz₁', hz₂', _⟩ := hdigit
    exact .long (hx₁' _ hx₁) (hx₂' _ hx₂) (hy₁' _ hy₁) (hy₂' _ hy₂) (hz₁' _ hz₁) (hz₂' _ hz₂)

theorem Spells.exists_digit (h : Spells digit t rgb) : ∀ c ∈ t, ∃ v, digit c v := by
  cases h with
  | short hx hy hz =>
    simp only [List.forall_mem_cons]
    exact ⟨⟨_, hx⟩, ⟨_, hy⟩, ⟨_, hz⟩, nofun⟩
  | long hx₁ hx₂ hy₁ hy₂ hz₁ hz₂ =>
    simp only [List.forall_mem_cons]
    exact ⟨⟨_, hx₁⟩, ⟨_, hx₂⟩, ⟨_, hy₁⟩, ⟨_, hy₂⟩, ⟨_, hz₁⟩, ⟨_, hz₂⟩, nofun⟩

theorem IsColour.exists_digit (h : IsColour digit t rgb) :
    ∀ c ∈ t, c = '#' ∨ ∃ v, digit c v := by
  obtain ⟨body, hbody, rfl | rfl⟩ := h
  · exact fun c hc => .inr (hbody.exists_digit c hc)
  · exact List.forall_mem_cons.2 ⟨.inl rfl, fun c hc => .inr (hbody.exists_digit c hc)⟩

theorem isColour_basic_iff :
    IsColour IsHexDigit t rgb ↔ IsColour IsAnyDigit t rgb ∧ ∀ c ∈ t, c.toNat < 128 := by
  constructor
  · intro h
    refine ⟨?_, fun c hc => ?_⟩
    · obtain ⟨body, hbody, ht⟩ := h
      exact ⟨body, hbody.mono fun c _ v hv => (isHexDigit_iff.1 hv).1, ht⟩
    · rcases h.exists_digit c hc with rfl | ⟨v, hv⟩
      · decide
      · exact (isHexDigit_iff.1 hv).2
  · rintro ⟨⟨body, hbody, ht⟩, hbasic⟩
    refine ⟨body, hbody.mono fun c hc v hv => isHexDigit_iff.2 ⟨hv, hbasic c ?_⟩, ht⟩
    rcases ht with rfl | rfl
    · exact hc
    · exact List.mem_cons_of_mem _ hc

/-! ## What is read as a colour -/

theorem mapM_hexValue?_eq_some_iff {vs : List Nat} :
    t.mapM hexValue? = some vs ↔ List.Forall₂ IsAnyDigit t vs := by
  induction t generalizing vs with
  | nil =>
    rw [List.mapM_nil, List.forall₂_nil_left_iff]
    exact Option.some_inj.trans eq_comm
  | cons c t ih =>
    rw [List.mapM_cons, List.forall₂_cons_left_iff]
    simp only [Option.bind_eq_bind, Option.bind_eq_some_iff, hexValue?_eq_some_iff, ih,
      Option.pure_def, Option.some.injEq]
    constructor
    · rintro ⟨v, hv, vs, hvs, rfl⟩
      exact ⟨v, vs, hv, hvs, rfl⟩
    · rintro ⟨v, vs, hv, hvs, rfl⟩
      exact ⟨v, hv, vs, hvs, rfl⟩

def withoutHash (t : Text) : Text :=
  match t with
  | '#' :: rest => rest
  | rest => rest

def withoutBreak (t : Text) : Text := if t.getLast? = some '\n' then t.dropLast else t

/-- The colour that the values of three or six digits make. -/
def ofValues? (vs : List Nat) : Option Rgb :=
  match vs with
  | [r, g, b] => some ⟨17 * r, 17 * g, 17 * b⟩
  | [r, r', g, g', b, b'] => some ⟨16 * r + r', 16 * g + g', 16 * b + b'⟩
  | _ => none

theorem ofText?_eq (t : Text) :
    ofText? t = ((withoutBreak (withoutHash t)).mapM hexValue?).bind ofValues? := rfl

theorem exists_values_iff :
    (∃ vs, List.Forall₂ IsAnyDigit t vs ∧ ofValues? vs = some rgb) ↔
      Spells IsAnyDigit t rgb := by
  constructor
  · rintro ⟨vs, hdigits, hvs⟩
    unfold ofValues? at hvs
    split at hvs
    · obtain rfl := Option.some.inj hvs
      obtain - | ⟨hx, - | ⟨hy, - | ⟨hz, ⟨⟩⟩⟩⟩ := hdigits
      rw [Nat.succ_mul 16, Nat.succ_mul 16, Nat.succ_mul 16]
      exact .short hx hy hz
    · obtain rfl := Option.some.inj hvs
      obtain - | ⟨hx, - | ⟨hx', - | ⟨hy, - | ⟨hy', - | ⟨hz, - | ⟨hz', ⟨⟩⟩⟩⟩⟩⟩⟩ := hdigits
      exact .long hx hx' hy hy' hz hz'
    · cases hvs
  · intro h
    cases h with
    | @short x y z r g b hx hy hz =>
      refine ⟨[r, g, b], .cons hx (.cons hy (.cons hz .nil)), ?_⟩
      rw [ofValues?, Nat.succ_mul 16, Nat.succ_mul 16, Nat.succ_mul 16]
    | @long x x' y y' z z' r r' g g' b b' hx hx' hy hy' hz hz' =>
      exact ⟨[r, r', g, g', b, b'],
        .cons hx (.cons hx' (.cons hy (.cons hy' (.cons hz (.cons hz' .nil))))), rfl⟩

theorem ofText?_eq_some_iff_spells :
    ofText? t = some rgb ↔ Spells IsAnyDigit (withoutBreak (withoutHash t)) rgb := by
  rw [ofText?_eq, Option.bind_eq_some_iff, ← exists_values_iff]
  simp only [mapM_hexValue?_eq_some_iff]

theorem eq_withoutHash (t : Text) : t = withoutHash t ∨ t = '#' :: withoutHash t := by
  unfold withoutHash
  split
  · exact .inr rfl
  · exact .inl rfl

theorem withoutHash_of_not_mem (h : '#' ∉ t) : withoutHash t = t := by
  rcases eq_withoutHash t with heq | heq
  · exact heq.symm
  · exact absurd (heq ▸ List.mem_cons_self) h

theorem eq_withoutBreak (t : Text) :
    t = withoutBreak t ∨ t = withoutBreak t ++ ['\n'] := by
  unfold withoutBreak
  split
  · rename_i hlast
    obtain ⟨front, rfl⟩ := List.getLast?_eq_some_iff.1 hlast
    exact .inr (by rw [List.dropLast_concat])
  · exact .inl rfl

theorem withoutBreak_of_not_mem (h : '\n' ∉ t) : withoutBreak t = t :=
  if_neg fun hlast => h (List.mem_of_getLast? hlast)

theorem withoutBreak_concat (t : Text) : withoutBreak (t ++ ['\n']) = t := by
  rw [withoutBreak, if_pos List.getLast?_concat, List.dropLast_concat]

/-- Digits are read with or without a hash mark before them and a line break behind them. -/
theorem ofText?_eq_some_iff :
    ofText? t = some rgb ↔
      ∃ s, IsColour IsAnyDigit s rgb ∧ (t = s ∨ t = s ++ ['\n']) := by
  rw [ofText?_eq_some_iff_spells]
  constructor
  · intro h
    have hbreak := eq_withoutBreak (withoutHash t)
    rcases eq_withoutHash t with ht | ht
    · rw [← ht] at h hbreak
      exact ⟨_, ⟨_, h, .inl rfl⟩, hbreak⟩
    · refine ⟨_, ⟨_, h, .inr rfl⟩, ?_⟩
      rcases hbreak with hbody | hbody
      · exact .inl (ht.trans (congrArg _ hbody))
      · exact .inr (ht.trans (congrArg _ hbody))
  · rintro ⟨s, ⟨body, hbody, hs⟩, ht⟩
    -- neither sign is a digit, so that all four spellings come down to the same digits
    have hplain (c : Char) (hc : hexValue? c = none) : c ∉ body := fun hmem =>
      (hbody.exists_digit c hmem).elim fun _ => not_isAnyDigit hc
    have hhash : '#' ∉ body := hplain '#' (by decide)
    have hbreak : '\n' ∉ body := hplain '\n' (by decide)
    have hbehind : '#' ∉ body ++ ['\n'] := by
      rw [List.mem_append, not_or]
      exact ⟨hhash, by decide⟩
    have hdigits : withoutBreak (withoutHash t) = body := by
      rcases ht with rfl | rfl <;> rcases hs with rfl | rfl
      · rw [withoutHash_of_not_mem hhash, withoutBreak_of_not_mem hbreak]
      · exact withoutBreak_of_not_mem hbreak
      · rw [withoutHash_of_not_mem hbehind, withoutBreak_concat]
      · exact withoutBreak_concat body
    rwa [hdigits]

/-- No colour has this code point in it. -/
def isForeign (c : Char) : Bool := c ≠ '#' && c ≠ '\n' && (hexValue? c).isNone

theorem IsColour.isForeign_eq_false (h : IsColour IsAnyDigit t rgb) :
    ∀ c ∈ t, isForeign c = false := by
  intro c hc
  rcases h.exists_digit c hc with rfl | ⟨v, hv⟩
  · decide
  · rw [isForeign, hexValue?_eq_some_iff.2 hv]
    exact Bool.and_false _

theorem isForeign_eq_false (h : ofText? t = some rgb) : ∀ c ∈ t, isForeign c = false := by
  obtain ⟨s, hs, rfl | rfl⟩ := ofText?_eq_some_iff.1 h
  · exact hs.isForeign_eq_false
  · exact List.forall_mem_append.2
      ⟨hs.isForeign_eq_false, List.forall_mem_singleton.2 (by decide)⟩

theorem avoids_of_ofText? {cs : List Char} (h : ofText? t = some rgb) (hcs : cs.all isForeign) :
    t.Avoids cs := by
  intro c hc hmem
  have hforeign := List.all_eq_true.1 hcs c hmem
  rw [isForeign_eq_false h c hc] at hforeign
  cases hforeign

/-- The basic digits alone are those colours that hold no line break and only basic code points. -/
theorem isColour_iff_ofText? :
    IsColour IsHexDigit t rgb ↔
      ofText? t = some rgb ∧ '\n' ∉ t ∧ ∀ c ∈ t, c.toNat < 128 := by
  rw [isColour_basic_iff, ofText?_eq_some_iff]
  constructor
  · rintro ⟨h, hbasic⟩
    refine ⟨⟨t, h, .inl rfl⟩, fun hbreak => ?_, hbasic⟩
    rcases h.exists_digit _ hbreak with hc | ⟨v, hv⟩
    · exact absurd hc (by decide)
    · exact not_isAnyDigit (by decide) hv
  · rintro ⟨⟨s, hs, rfl | rfl⟩, hbreak, hbasic⟩
    · exact ⟨hs, hbasic⟩
    · exact absurd (List.mem_append_right s List.mem_cons_self) hbreak

end Rgb

/-! ## The style of a highlight -/

namespace Palette

/-- The letters that are no hexadecimal digits. -/
def isPlainLetter (c : Char) : Bool := 'g' ≤ c && c ≤ 'z'

/-- Each name of the palette has such a letter in it. -/
theorem any_isPlainLetter (p : Palette) : p.name.any isPlainLetter := by
  cases p <;> decide

theorem isPlainLetter_of_isDigit {c : Char} (h : Text.isDigit c) : isPlainLetter c = false := by
  have hzeros : ∀ z ∈ Text.digitZeros, z + 9 < 0x67 ∨ 0x7A < z := by decide
  obtain ⟨z, hz, hlow, hhigh, _⟩ := Text.exists_of_isDigit h
  have := hzeros z hz
  rw [Bool.eq_false_iff]
  intro hletter
  simp only [isPlainLetter, Bool.and_eq_true, decide_eq_true_eq] at hletter
  have hfirst : 0x67 ≤ c.toNat := hletter.1
  have hlast : c.toNat ≤ 0x7A := hletter.2
  omega

/-- Lowering makes no such letter out of what a colour is made of. -/
theorem any_lowerChar {c : Char} (h : Rgb.isForeign c = false) :
    (Text.lowerChar c).any isPlainLetter = false := by
  cases hvalue : Rgb.hexValue? c with
  | none =>
    have hsign : c = '#' ∨ c = '\n' := by
      simpa [Rgb.isForeign, hvalue, or_iff_not_imp_left] using h
    rcases hsign with rfl | rfl <;> decide
  | some v =>
    rcases Rgb.hexValue?_eq_some_iff.1 hvalue with hvalue | ⟨_, hv, hletter⟩
    · have hdigit := Rgb.isDigit_of_digit? hvalue
      rw [Text.lowerChar_of_isDigit hdigit, List.any_cons, isPlainLetter_of_isDigit hdigit]
      rfl
    · have hletters : ∀ v < 16,
          (Text.lowerChar (Nat.digitChar v)).any isPlainLetter = false ∧
          (Text.lowerChar (Nat.digitChar v).toUpper).any isPlainLetter = false := by
        decide
      rcases hletter with rfl | rfl
      · exact (hletters v hv).1
      · exact (hletters v hv).2

/-- No colour given by its parts is the name of one of the palette. -/
theorem ofText?_of_rgb {t : Text} {rgb : Rgb} (h : Rgb.ofText? t = some rgb) :
    ofText? t = none := by
  have hplain : (Text.lower (Text.strip t)).any isPlainLetter = false := by
    refine List.any_eq_false.2 fun c hc => ?_
    obtain ⟨d, hd, hcd⟩ := Text.exists_of_mem_lowerAfter hc
    have hforeign := Rgb.isForeign_eq_false h d ((Text.strip_infix t).subset hd)
    rcases hcd with hcd | ⟨rfl, _⟩
    · exact List.any_eq_false.1 (any_lowerChar hforeign) c hcd
    · cases hforeign.symm.trans (by decide : Rgb.isForeign 'Σ' = true)
  cases hp : ofText? t with
  | none => rfl
  | some p =>
    have hname := List.find?_some hp
    rw [decide_eq_true_eq] at hname
    split at hname
    · -- the other spelling of gray has such a letter as well
      rename_i hgrey
      rw [hgrey] at hplain
      exact absurd hplain (by decide)
    · have := any_isPlainLetter p
      rw [hname, hplain] at this
      cases this

theorem ofText?_name (p : Palette) : ofText? p.name = some p := by
  cases p <;> decide

end Palette

namespace Highlight

/-- The palette's own name for a colour, or none. -/
def paletteName (t : Text) : Value :=
  match Palette.ofText? t with
  | some p => .text p.name
  | none => .null

theorem ofValue?_text (t : Text) : Palette.ofValue? (.text t) = .ok (Palette.ofText? t) := by
  cases t with
  | nil => rfl
  | cons c t => rfl

theorem ofValue?_paletteName (t : Text) :
    Palette.ofValue? (paletteName t) = .ok (Palette.ofText? t) := by
  unfold paletteName
  split
  · rename_i p hp
    rw [ofValue?_text, Palette.ofText?_name, hp]
  · rename_i hp
    rw [hp]
    rfl

theorem coloured_of_refused {t : Text} (h : Rgb.ofText? t = none) (content : Text) :
    coloured (Palette.ofText? t) (.text t) content =
      coloured (Palette.ofText? t) (paletteName t) content := by
  unfold paletteName
  cases Palette.ofText? t with
  | some p => rfl
  | none =>
    unfold coloured
    simp only [h, ite_self]
    rfl

/-- A colour that is neither of the palette nor given by its parts changes nothing. -/
theorem style_of_refused {t : Text} (h : Rgb.ofText? t = none) (text drawer : Value) :
    style text (.text t) drawer = style text (paletteName t) drawer := by
  have hdecorate (content : Text) : decorate (Palette.ofText? t) (.text t) drawer content =
      decorate (Palette.ofText? t) (paletteName t) drawer content := by
    unfold decorate
    simp only [coloured_of_refused h]
  unfold style
  rw [ofValue?_text, ofValue?_paletteName]
  cases content? text with
  | error _ => rfl
  | ok content =>
    cases content with
    | none => rfl
    | some u => exact hdecorate _

/-- A decoration that leaves the colour of a highlight out. -/
def hidesColour (drawer : Value) : Prop :=
  drawer = .text "underscore".toList ∨ drawer = .text "strikeout".toList ∨
    drawer = .text "invert".toList

theorem style_of_rgb {t s : Text} {rgb : Rgb} {drawer : Value} (h : Rgb.ofText? t = some rgb)
    (hs : Text.isBlank s = false) (hdrawer : ¬ hidesColour drawer) :
    style (.text s) (.text t) drawer =
      .ok (mark t rgb.readableText (joinParagraphs (Text.fields '\\' s))) := by
  have hcontent : content? (.text s) = .ok (some s) := by
    cases s with
    | nil => cases hs
    | cons c s =>
      unfold content?
      simp only [hs]
      rfl
  have hcoloured (content : Text) :
      coloured none (.text t) content = .ok (mark t rgb.readableText content) := by
    cases t with
    | nil => cases h
    | cons c t =>
      unfold coloured
      simp only [h]
      rfl
  have hdecorate (content : Text) :
      decorate none (.text t) drawer content = .ok (mark t rgb.readableText content) := by
    unfold decorate
    simp only [hidesColour, not_or] at hdrawer
    obtain ⟨hunderline, hstrike, hinvert⟩ := hdrawer
    split
    · rename_i d
      rw [if_neg fun hd => hunderline (congrArg _ hd), if_neg fun hd => hstrike (congrArg _ hd),
        if_neg fun hd => hinvert (congrArg _ hd), if_neg (by simp)]
      exact hcoloured content
    · exact hcoloured content
  unfold style
  rw [hcontent, ofValue?_text, Palette.ofText?_of_rgb h]
  exact hdecorate _

/-- The colours that a text gives by their parts are three or six hexadecimal digits, with or
without a hash mark; but decimal digits may be of any script, and a line break at the end is passed
over.  Such a text needs no escaping, and the highlight has it as it stands for its background
where it shows a colour; any other text shows nothing but a colour of the palette. -/
theorem colours_given (t : Text) :
    (∀ rgb, Rgb.ofText? t = some rgb ↔
      ∃ s, Rgb.IsColour Rgb.IsAnyDigit s rgb ∧ (t = s ∨ t = s ++ ['\n'])) ∧
    (∀ rgb, Rgb.IsColour Rgb.IsHexDigit t rgb ↔
      Rgb.ofText? t = some rgb ∧ '\n' ∉ t ∧ ∀ c ∈ t, c.toNat < 128) ∧
    (∀ rgb, Rgb.ofText? t = some rgb → Html.escape t = t ∧
      ∀ s drawer, Text.isBlank s = false → ¬ hidesColour drawer →
        style (.text s) (.text t) drawer =
          .ok (mark t rgb.readableText (joinParagraphs (Text.fields '\\' s)))) ∧
    (Rgb.ofText? t = none → ∀ text drawer,
      style text (.text t) drawer = style text (paletteName t) drawer) := by
  refine ⟨fun rgb => Rgb.ofText?_eq_some_iff, fun rgb => Rgb.isColour_iff_ofText?, fun rgb h => ?_,
    style_of_refused⟩
  exact ⟨Html.escape_of_avoids (Rgb.avoids_of_ofText? h (by decide +kernel)),
    fun s drawer => style_of_rgb h⟩

theorem colours_given_orange :
    Rgb.ofText? "#F80".toList = some ⟨255, 136, 0⟩ ∧
      Html.escape "#F80".toList = "#F80".toList ∧
      style (.text "a\\<b>".toList) (.text "#F80".toList) .null =
        .ok ("<mark style=\"background:#F80;color:#000;\">".toList ++
          "a<br><br>&lt;b&gt;</mark>".toList) ∧
      style (.text "a".toList) (.text "Orange ".toList) .null =
        style (.text "a".toList) (.text "orange".toList) .null := by
  obtain ⟨_, hbasic, hcopied, _⟩ := colours_given "#F80".toList
  have hcolour : Rgb.IsColour Rgb.IsHexDigit "#F80".toList ⟨255, 136, 0⟩ := by
    have hf : Rgb.IsHexDigit 'F' 15 := ⟨by decide, by decide⟩
    have h8 : Rgb.IsHexDigit '8' 8 := ⟨by decide, by decide⟩
    have h0 : Rgb.IsHexDigit '0' 0 := ⟨by decide, by decide⟩
    exact ⟨_, .short hf h8 h0, .inr rfl⟩
  have htaken := ((hbasic _).1 hcolour).1
  obtain ⟨hescape, hstyle⟩ := hcopied _ htaken
  refine ⟨htaken, hescape, ?_, ?_⟩
  · have hcontrast : Rgb.readableText ⟨255, 136, 0⟩ = "#000".toList := by decide +kernel
    rw [hstyle _ _ (by decide) (by simp [hidesColour]), hcontrast]
    decide +kernel
  · obtain ⟨_, _, _, hrefused⟩ := colours_given "Orange ".toList
    rw [hrefused (by decide +kernel)]
    have hname : paletteName "Orange ".toList = .text "orange".toList := by
      have : Palette.ofText? "Orange ".toList = some .orange := by decide +kernel
      rw [paletteName, this]
      rfl
    rw [hname]

/-- A line break at the end is taken, and so are digits of another script. -/
theorem colours_given_loose :
    Rgb.ofText? "#fff\n".toList = some ⟨255, 255, 255⟩ ∧
      Rgb.ofText? "٣٣٣".toList = some ⟨51, 51, 51⟩ ∧
      ∀ rgb, ¬ Rgb.IsColour Rgb.IsHexDigit "#fff\n".toList rgb ∧
        ¬ Rgb.IsColour Rgb.IsHexDigit "٣٣٣".toList rgb := by
  refine ⟨by decide +kernel, by decide +kernel, fun rgb => ⟨fun h => ?_, fun h => ?_⟩⟩
  · exact (Rgb.isColour_iff_ofText?.1 h).2.1 (by decide)
  · exact absurd ((Rgb.isColour_iff_ofText?.1 h).2.2 '٣' (by decide)) (by decide)

end Highlight
end Marginalia
