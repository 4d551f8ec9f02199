import Marginalia.Proofs.Ensures
import Marginalia.Proofs.Highlight.Colour
import Marginalia.Proofs.Highlight.Paragraphs

/-
The markup of a highlight.  Whatever text, colour and decoration an annotation has, its
markup is made of a few tags that match and of characters that cannot be taken for tags;
what the annotation says has no part in the tags but for a colour of hexadecimal digits.
-/
namespace Marginalia

/-! ## Tags -/

/-- What stands around the text of a highlight. -/
inductive Decoration where
  | underline
  | strike
  | mark (background foreground : Text)

namespace Decoration

def opening : Decoration → Text
  | .underline => "<u>".toList
  | .strike => "<s>".toList
  | .mark background foreground =>
    "<mark style=\"background:".toList ++ background ++ ";color:".toList ++ foreground ++
      ";\">".toList

def closing : Decoration → Text
  | .underline => "</u>".toList
  | .strike => "</s>".toList
  | .mark _ _ => "</mark>".toList

/-- The characters that could end a colour, or the tag it stands in. -/
def valueSigns : List Char := ['<', '>', '"', '\'', '&', ';']

/-- Neither colour gets out of its place. -/
def IsSafe : Decoration → Prop
  | .mark background foreground =>
    background.Avoids valueSigns ∧ foreground.Avoids valueSigns
  | _ => True

end Decoration

namespace Highlight

variable {allowed : Decoration → Prop} {d : Decoration} {s t : Text}

def lineBreak : Text := "<br>".toList

/-- A line break, or the tag before or after a text of some decoration. -/
inductive IsTag (allowed : Decoration → Prop) : Text → Prop where
  | lineBreak : IsTag allowed lineBreak
  | opening {d : Decoration} : allowed d → IsTag allowed d.opening
  | closing {d : Decoration} : allowed d → IsTag allowed d.closing

/-- Characters that no tag is made of, line breaks, and markup within a decoration. -/
inductive IsMarkup (allowed : Decoration → Prop) : Text → Prop where
  | nil : IsMarkup allowed []
  | char {c : Char} {t : Text} : c ∉ Html.signs → IsMarkup allowed t → IsMarkup allowed (c :: t)
  | lineBreak {t : Text} : IsMarkup allowed t → IsMarkup allowed (lineBreak ++ t)
  | decorated {d : Decoration} {s t : Text} : allowed d → IsMarkup allowed s →
    IsMarkup allowed t → IsMarkup allowed (d.opening ++ s ++ d.closing ++ t)

/-- Every less-than sign is the first of a tag. -/
def StartsTags (allowed : Decoration → Prop) (t : Text) : Prop :=
  ∀ before after, t = before ++ '<' :: after → ∃ tag, IsTag allowed tag ∧ tag <+: '<' :: after

theorem startsTags_of_not_mem (h : '<' ∉ t) : StartsTags allowed t := by
  rintro before after rfl
  exact absurd (by simp) h

theorem IsTag.startsTags {tag : Text} (htag : IsTag allowed tag) (htail : '<' ∉ tag.tail) :
    StartsTags allowed tag := by
  rintro before after rfl
  cases before with
  | nil => exact ⟨_, htag, List.prefix_rfl⟩
  | cons c before => exact absurd (by simp) htail

theorem StartsTags.append (hs : StartsTags allowed s) (ht : StartsTags allowed t) :
    StartsTags allowed (s ++ t) := by
  intro before after heq
  rcases List.append_eq_append_iff.1 heq with ⟨middle, rfl, rfl⟩ | ⟨middle, rfl, hmiddle⟩
  · exact ht middle after rfl
  · cases middle with
    | nil => exact ht [] after hmiddle.symm
    | cons c middle =>
      obtain ⟨rfl, rfl⟩ := List.cons.inj hmiddle
      obtain ⟨tag, htag, hprefix⟩ := hs before middle rfl
      exact ⟨tag, htag, hprefix.trans (List.prefix_append _ _)⟩

/-- The tag before a decorated text has no other sign of a tag in it. -/
theorem not_mem_tail_opening (hsafe : d.IsSafe) : '<' ∉ d.opening.tail := by
  cases d with
  | underline => decide
  | strike => decide
  | mark background foreground =>
    have hbackground : '<' ∉ background := fun h => hsafe.1 _ h (by decide)
    have hforeground : '<' ∉ foreground := fun h => hsafe.2 _ h (by decide)
    have hstyle : '<' ∉ "<mark style=\"background:".toList.tail := by decide
    have hcolor : '<' ∉ ";color:".toList := by decide
    have hend : '<' ∉ ";\">".toList := by decide
    unfold Decoration.opening
    simp only [List.append_assoc]
    rw [List.tail_append_of_ne_nil (by decide)]
    simp only [List.mem_append, not_or]
    exact ⟨hstyle, hbackground, hcolor, hforeground, hend⟩

theorem startsTags_opening (hd : allowed d) (hsafe : d.IsSafe) :
    StartsTags allowed d.opening :=
  (IsTag.opening hd).startsTags (not_mem_tail_opening hsafe)

theorem startsTags_closing (hd : allowed d) : StartsTags allowed d.closing := by
  refine (IsTag.closing hd).startsTags ?_
  cases d with
  | underline => decide
  | strike => decide
  | mark _ _ =>
    show '<' ∉ "</mark>".toList.tail
    decide

namespace IsMarkup

theorem startsTags (hsafe : ∀ d, allowed d → d.IsSafe) (ht : IsMarkup allowed t) :
    StartsTags allowed t := by
  induction ht with
  | nil => exact startsTags_of_not_mem List.not_mem_nil
  | @char c t hc _ ih =>
    refine StartsTags.append (s := [c]) (startsTags_of_not_mem ?_) ih
    rw [List.mem_singleton]
    rintro rfl
    exact hc (by decide)
  | lineBreak _ ih => exact StartsTags.append (IsTag.lineBreak.startsTags (by decide)) ih
  | decorated hd _ _ ihs iht =>
    have hopening := startsTags_opening hd (hsafe _ hd)
    exact ((hopening.append ihs).append (startsTags_closing hd)).append iht

theorem append (hs : IsMarkup allowed s) (ht : IsMarkup allowed t) : IsMarkup allowed (s ++ t) := by
  induction hs with
  | nil => exact ht
  | char hc _ ih => exact .char hc ih
  | lineBreak _ ih => exact .lineBreak ih
  | decorated hd hs _ _ ih =>
    rw [List.append_assoc]
    exact .decorated hd hs ih

theorem of_avoids (h : t.Avoids Html.signs) : IsMarkup allowed t := by
  induction t with
  | nil => exact .nil
  | cons c rest ih =>
    obtain ⟨hc, hrest⟩ := List.forall_mem_cons.1 h
    exact .char hc (ih hrest)

theorem within (hd : allowed d) (hs : IsMarkup allowed s) :
    IsMarkup allowed (d.opening ++ s ++ d.closing) := by
  have := decorated hd hs .nil
  rwa [List.append_nil] at this

theorem join {sep : Text} (hsep : IsMarkup allowed sep) {ts : List Text}
    (h : ∀ t ∈ ts, IsMarkup allowed t) : IsMarkup allowed (Text.join sep ts) := by
  induction ts with
  | nil => exact .nil
  | cons t rest ih =>
    obtain ⟨ht, hrest⟩ := List.forall_mem_cons.1 h
    cases rest with
    | nil => exact ht
    | cons u rest =>
      rw [Text.join_cons_cons]
      exact ht.append (hsep.append (ih hrest))

theorem escape (t : Text) : IsMarkup allowed (Html.escape t) := of_avoids (Html.escape_avoids t)

theorem paragraphBreak : IsMarkup allowed paragraphBreak :=
  lineBreak (lineBreak nil)

theorem joinParagraphs (ps : List Text) : IsMarkup allowed (joinParagraphs ps) := by
  rw [joinParagraphs_eq]
  refine paragraphBreak.join fun t ht => ?_
  obtain ⟨u, _, rfl⟩ := List.mem_map.1 ht
  exact escape u

end IsMarkup

/-! ## Colours -/

theorem background_avoids (p : Palette) : p.background.Avoids Decoration.valueSigns := by
  cases p <;> decide

theorem foreground_avoids (p : Palette) : p.foreground.Avoids Decoration.valueSigns := by
  cases p <;> decide

theorem readableText_avoids (rgb : Rgb) : rgb.readableText.Avoids Decoration.valueSigns := by
  unfold Rgb.readableText
  split <;> decide

/-- What a colour is made of is no sign. -/
theorem avoids_of_ofText? {t : Text} {rgb : Rgb} (h : Rgb.ofText? t = some rgb) :
    t.Avoids Decoration.valueSigns :=
  Rgb.avoids_of_ofText? h (by decide)

/-! ## Highlights -/

theorem element_eq (name : String) (content : Text) :
    element name content = ('<' :: name.toList ++ ['>']) ++ content ++
      ('<' :: '/' :: name.toList ++ ['>']) := by
  unfold element
  simp only [List.append_assoc, List.cons_append, List.nil_append]

/-- A text in a decoration with colours that stay in their place, or in none. -/
inductive IsDressed (content : Text) : Text → Prop where
  | plain : IsDressed content content
  | decorated {d : Decoration} : d.IsSafe → IsDressed content (d.opening ++ content ++ d.closing)

section

variable (content : Text)

theorem isDressed_underline : IsDressed content (element "u" content) := by
  rw [element_eq]
  exact .decorated (d := .underline) trivial

theorem isDressed_strike : IsDressed content (element "s" content) := by
  rw [element_eq]
  exact .decorated (d := .strike) trivial

theorem isDressed_mark {background foreground : Text}
    (hbackground : background.Avoids Decoration.valueSigns)
    (hforeground : foreground.Avoids Decoration.valueSigns) :
    IsDressed content (mark background foreground content) :=
  .decorated (d := .mark background foreground) ⟨hbackground, hforeground⟩

theorem coloured_ensures (palette : Option Palette) (colour : Value) :
    Ensures (fun _ => True) (IsDressed content) (coloured palette colour content) := by
  unfold coloured
  split
  · rename_i p
    exact isDressed_mark content (background_avoids p) (foreground_avoids p)
  · split
    · exact .plain
    · split
      · rename_i c _
        cases hrgb : Rgb.ofText? c with
        | none => exact .plain
        | some rgb =>
          exact isDressed_mark content (avoids_of_ofText? hrgb) (readableText_avoids rgb)
      · trivial

theorem decorate_ensures (palette : Option Palette) (colour drawer : Value) :
    Ensures (fun _ => True) (IsDressed content) (decorate palette colour drawer content) := by
  have hcoloured := coloured_ensures content palette colour
  unfold decorate
  split
  · split
    · exact isDressed_underline content
    · split
      · exact isDressed_strike content
      · split
        · refine isDressed_mark content (by decide) ?_
          split
          · exact background_avoids _
          · decide
        · split
          · exact .plain
          · exact hcoloured
  · exact hcoloured

end

/-- A highlight is its paragraphs, dressed; a blank one has none. -/
theorem style_dressed (text colour drawer : Value) :
    Ensures (fun _ => True) (fun t => ∃ ps, IsDressed (joinParagraphs ps) t)
      (style text colour drawer) := by
  unfold style
  refine (Ensures.self fun _ _ => trivial).bind fun content _ => ?_
  cases content with
  | none => exact ⟨[], .plain⟩
  | some t =>
    refine (Ensures.self fun _ _ => trivial).bind fun palette _ => ?_
    exact (decorate_ensures _ palette colour drawer).mono fun u hu => ⟨_, hu⟩

theorem IsDressed.isMarkup {content : Text} (h : IsDressed content t)
    (hcontent : IsMarkup Decoration.IsSafe content) : IsMarkup Decoration.IsSafe t := by
  cases h with
  | plain => exact hcontent
  | decorated hd => exact hcontent.within hd

/-- The markup of a highlight, whatever its text, its colour and its decoration are. -/
theorem style_ensures (text colour drawer : Value) :
    Ensures (fun _ => True) (IsMarkup Decoration.IsSafe) (style text colour drawer) :=
  (style_dressed text colour drawer).mono fun _ ⟨ps, ht⟩ => ht.isMarkup (.joinParagraphs ps)

end Highlight
end Marginalia
