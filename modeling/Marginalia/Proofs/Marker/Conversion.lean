import Marginalia.Proofs.Json.Data
import Marginalia.Proofs.Marker.Restyle
import Marginalia.Proofs.Marker.Values

/-
Converting a text twice.  The second conversion finds the markers that the first one found, in
the style that it wrote; so the last style wins, unless an object has a text that holds the end
of a payload, which may have been an escape before it was written anew.
-/
namespace Marginalia
namespace Marker

variable {style target : MarkerStyle} {f : Text → Text → Text} {t u w p q r m : Text}
  {es : List (Value × Value)}

/-! ## Scanning -/

/-- A payload that is found in a text, from the left. -/
inductive Finds (p : Text) : Text → Prop
  | here {t r : Text} : match? t = some (p, r) → Finds p t
  | behind {t q r : Text} : match? t = some (q, r) → Finds p r → Finds p t
  | past {c : Char} {t : Text} : match? (c :: t) = none → Finds p t → Finds p (c :: t)

theorem finds_marker (h : match? t = some (q, r)) : Finds p t ↔ p = q ∨ Finds p r := by
  constructor
  · intro hp
    cases hp with
    | here h' =>
      rw [h] at h'
      cases h'
      exact .inl rfl
    | behind h' hr =>
      rw [h] at h'
      cases h'
      exact .inr hr
    | past h' =>
      rw [h] at h'
      cases h'
  · rintro (rfl | hr)
    · exact .here h
    · exact .behind h hr

theorem finds_cons {c : Char} (h : match? (c :: t) = none) : Finds p (c :: t) ↔ Finds p t := by
  refine ⟨fun hp => ?_, .past h⟩
  cases hp with
  | here h' =>
    rw [h] at h'
    cases h'
  | behind h' =>
    rw [h] at h'
    cases h'
  | past _ ht => exact ht

/-! ## Markers written anew -/

theorem restyle_cons {c : Char} (h : match? (c :: t) = none) :
    restyle style (c :: t) = c :: restyle style t :=
  replace_cons h

theorem restyle_of_renewed (hw : IsMarker w p) (h : renewed style p w = .ok m) (r : Text) :
    restyle style (w ++ r) = m ++ restyle style r := by
  unfold restyle
  rw [replace_match hw.ne_nil (match?_of_isMarker hw r), h]

/-- A marker in a text is one of an object, or it is kept as it is. -/
theorem restyle_marker (hw : IsMarker w p) :
    (∃ es q, Json.read? p = some (.map es) ∧ Json.write (.map es) = .ok q ∧
      ∀ style r, restyle style (w ++ r) = wrap style q ++ restyle style r) ∨
    (∀ es, Json.read? p ≠ some (.map es)) ∧
      ∀ style r, restyle style (w ++ r) = w ++ restyle style r := by
  by_cases hread : ∃ es, Json.read? p = some (.map es)
  · obtain ⟨es, hread⟩ := hread
    obtain ⟨q, hq⟩ := Json.exists_write (Json.isData_of_read? hread)
    refine .inl ⟨es, q, hread, hq, fun style r => ?_⟩
    have hrenewed : renewed style p w = .ok (wrap style q) := by
      unfold renewed
      rw [hread]
      dsimp only
      rw [hq]
      rfl
    exact restyle_of_renewed hw hrenewed r
  · have hnot := not_exists.1 hread
    refine .inr ⟨hnot, fun style r => ?_⟩
    have hrenewed : renewed style p w = .ok w := by
      unfold renewed
      split
      · exact absurd ‹_› (hnot _)
      · rfl
    exact restyle_of_renewed hw hrenewed r

/-- No marker comes up where there was none. -/
theorem match?_restyle (hu : u ≠ []) (h : match? (u ++ t) = none) (style : MarkerStyle) :
    match? (u ++ restyle style t) = none := by
  -- what was passed is taken to the text in front, until there is a marker
  induction t using scan_induction generalizing u with
  | hnil => exact h
  | hchar c t hc ih =>
    rw [List.append_cons] at h
    rw [restyle_cons hc, List.append_cons]
    exact ih (List.append_ne_nil_of_left_ne_nil hu _) h
  | hmarker w p r hw _ =>
    refine match?_before hw hu h ?_
    rcases restyle_marker hw with ⟨es, q, _, _, hrestyle⟩ | ⟨_, hrestyle⟩
    · exact hrestyle style r ▸ atOpening_wrap style q _
    · exact hrestyle style r ▸ hw.atOpening _

theorem restyle_restyle_cons {c : Char} (h : match? (c :: t) = none) (style target : MarkerStyle) :
    restyle target (restyle style (c :: t)) = c :: restyle target (restyle style t) := by
  have hnone : match? (c :: restyle style t) = none :=
    match?_restyle (List.cons_ne_nil c []) h style
  rw [restyle_cons h, restyle_cons hnone]

/-- The payload of a sealed object is found again. -/
theorem isMarker_object (h : Sealed (.map es)) (hq : Json.write (.map es) = .ok q)
    (style : MarkerStyle) : IsMarker (wrap style q) q := by
  obtain ⟨ps, _, rfl⟩ := Json.write_map hq
  have hruns := h _ hq [] nofun
  rw [runsOn_cons (by decide), runsOn_append] at hruns
  exact isMarker_wrap hruns.1 style

/-- A marker that is written anew is written anew again, if nothing in it ends a payload. -/
theorem restyle_wrap_object (hread : Json.read? p = some (.map es))
    (hq : Json.write (.map es) = .ok q) (h : LacksEnds (.map es)) (style target : MarkerStyle)
    (r : Text) : restyle target (wrap style q ++ r) = wrap target q ++ restyle target r := by
  have hsealed := (sealedIff_of_read? hread).isSealed h
  have hback := Json.read?_written (Json.readsBack_of_read? hread) hq
  have hmarker := isMarker_object hsealed hq style
  rcases restyle_marker hmarker with ⟨es', q', hes, hq', hrestyle⟩ | ⟨hnot, _⟩
  · obtain rfl : es' = es := by
      rw [hback] at hes
      cases hes
      rfl
    obtain rfl : q = q' := Except.ok.inj (hq.symm.trans hq')
    exact hrestyle target r
  · exact absurd hback (hnot es)

/-- Otherwise it is kept, in the style that it has. -/
theorem restyle_wrap_cut (hread : Json.read? p = some (.map es))
    (hq : Json.write (.map es) = .ok q) (h : ¬ LacksEnds (.map es)) (style target : MarkerStyle)
    (r : Text) : (restyle target (wrap style q ++ r)).head? = style.opening.head? := by
  have hleaks := (sealedIff_of_read? hread).leaks h
  obtain ⟨b, z, hmatch, hnone⟩ := match?_of_leaks hleaks hq style r
  obtain ⟨w, hw, heq⟩ := match?_eq_some_iff.1 hmatch
  rcases restyle_marker hw with ⟨_, _, hsome, _⟩ | ⟨_, hrestyle⟩
  · rw [hnone] at hsome
    cases hsome
  · have hhead : (w ++ z).head? = style.opening.head? := by
      rw [← heq, wrap_append]
      cases style <;> rfl
    rw [heq, hrestyle, List.head?_append_of_ne_nil _ hw.ne_nil]
    rwa [List.head?_append_of_ne_nil _ hw.ne_nil] at hhead

/-! ## Converting twice -/

/-- Of the objects that markers of a text hold, no text holds the end of a payload. -/
def LacksLeaks (t : Text) : Prop :=
  ∀ p, Finds p t → ∀ es, Json.read? p = some (.map es) → LacksEnds (.map es)

theorem restyle_restyle (h : LacksLeaks t) (style target : MarkerStyle) :
    restyle target (restyle style t) = restyle target t := by
  induction t using scan_induction with
  | hnil => rfl
  | hchar c t hc ih =>
    have hlacks : LacksLeaks t := fun p hp => h p (.past hc hp)
    rw [restyle_restyle_cons hc, ih hlacks, restyle_cons hc]
  | hmarker w p r hw ih =>
    have hmatch := match?_of_isMarker hw r
    have hlacks : LacksLeaks r := fun q hq => h q (.behind hmatch hq)
    rcases restyle_marker hw with ⟨es, q, hread, hq, hrestyle⟩ | ⟨_, hrestyle⟩
    · rw [hrestyle, hrestyle, restyle_wrap_object hread hq (h p (.here hmatch) es hread), ih hlacks]
    · rw [hrestyle, hrestyle, hrestyle, ih hlacks]

theorem lacksLeaks_of_restyle (h : restyle .percent (restyle .html t) = restyle .percent t) :
    LacksLeaks t := by
  induction t using scan_induction with
  | hnil => exact fun p hp => by cases hp <;> contradiction
  | hchar c t hc ih =>
    rw [restyle_restyle_cons hc, restyle_cons hc, List.cons.injEq] at h
    exact fun p hp => ih h.2 p ((finds_cons hc).1 hp)
  | hmarker w p r hw ih =>
    intro p' hp' es' hread'
    have hfinds := (finds_marker (match?_of_isMarker hw r)).1 hp'
    rcases restyle_marker hw with ⟨es, q, hread, hq, hrestyle⟩ | ⟨hnot, hrestyle⟩
    · by_cases hlacks : LacksEnds (.map es)
      · rw [hrestyle, hrestyle, restyle_wrap_object hread hq hlacks,
          List.append_cancel_left_eq] at h
        rcases hfinds with rfl | hfinds
        · rw [hread] at hread'
          cases hread'
          exact hlacks
        · exact ih h p' hfinds es' hread'
      · have hhead := restyle_wrap_cut hread hq hlacks .html .percent (restyle .html r)
        rw [← hrestyle, h, hrestyle, wrap_append] at hhead
        have hsigns : some '%' = some '<' := hhead
        exact absurd hsigns (by decide)
    · rw [hrestyle, hrestyle, hrestyle, List.append_cancel_left_eq] at h
      rcases hfinds with rfl | hfinds
      · exact absurd hread' (hnot es')
      · exact ih h p' hfinds es' hread'

end Marker
end Marginalia
