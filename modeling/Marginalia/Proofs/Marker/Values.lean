import Marginalia.Proofs.Json.Roundtrip
import Marginalia.Proofs.Marker.Ends

/-
Payloads that end in a value, for every value that is read.  It is the texts and the keys in it
that matter: what else is written of a value has no closing brace in front of the end of a
comment.
-/
namespace Marginalia
namespace Marker

open Json (ReadsBack writeItems)

variable {v : Value} {vs : List Value} {ps : List Text} {t : Text}

/-! ## The texts of a value -/

/-- A text stands in a value, by itself or as a key. -/
inductive HoldsText (u : Text) : Value → Prop
  | text : HoldsText u (.text u)
  | item {vs : List Value} {v : Value} : v ∈ vs → HoldsText u v → HoldsText u (.list vs)
  | key {es : List (Value × Value)} {e : Value × Value} : e ∈ es → e.1 = .text u →
      HoldsText u (.map es)
  | value {es : List (Value × Value)} {e : Value × Value} : e ∈ es → HoldsText u e.2 →
      HoldsText u (.map es)

/-- No text in a value holds the end of a payload. -/
def LacksEnds (v : Value) : Prop := ∀ u, HoldsText u v → holdsEnd u = false

theorem lacksEnds_text : LacksEnds (.text t) ↔ holdsEnd t = false := by
  constructor
  · exact fun h => h t .text
  · rintro h u ⟨⟩
    exact h

theorem lacksEnds_list : LacksEnds (.list vs) ↔ ∀ v ∈ vs, LacksEnds v := by
  constructor
  · exact fun h v hv u hu => h u (.item hv hu)
  · rintro h u (_ | ⟨hv, hu⟩)
    exact h _ hv u hu

theorem lacksEnds_object {es : List (Text × Value)} :
    LacksEnds (Json.object es) ↔ ∀ e ∈ es, holdsEnd e.1 = false ∧ LacksEnds e.2 := by
  constructor
  · intro h e he
    have hmem : (Value.text e.1, e.2) ∈ Json.entries es := List.mem_map_of_mem he
    exact ⟨h e.1 (.key hmem rfl), fun u hu => h u (.value hmem hu)⟩
  · rintro h u (_ | _ | ⟨he, hu⟩ | ⟨he, hu⟩) <;> obtain ⟨f, hf, rfl⟩ := List.mem_map.1 he
    · cases hu
      exact (h f hf).1
    · exact (h f hf).2 u hu

/-! ## Words and numbers -/

/-- What is written without a brace does not end a payload. -/
theorem sealedIff_of_not_mem (hread : ReadsBack v) (h : ∀ t, Json.write v = .ok t → '}' ∉ t) :
    SealedIff True v where
  readsBack := hread
  isSealed _ t ht _ _ := runsOn_of_not_mem (h t ht)
  leaks hnot := absurd trivial hnot

theorem lacksEnds_word : ∀ p ∈ Json.wordValues, LacksEnds p.2 := by
  unfold Json.wordValues
  simp only [List.forall_mem_cons]
  exact ⟨nofun, nofun, nofun, nofun, nofun, nofun, nofun⟩

theorem sealedIff_word : ∀ p ∈ Json.wordValues, SealedIff True p.2 := by
  intro p hp
  have hwrite : Json.write p.2 = .ok p.1 ∧ '}' ∉ p.1 := by
    revert p
    unfold Json.wordValues
    simp only [List.forall_mem_cons]
    exact ⟨⟨rfl, by decide⟩, ⟨rfl, by decide⟩, ⟨rfl, by decide⟩, ⟨rfl, by decide⟩, ⟨rfl, by decide⟩,
      ⟨rfl, by decide⟩, nofun⟩
  refine sealedIff_of_not_mem (Json.readsBack_word p hp) fun t ht => ?_
  obtain rfl : p.1 = t := Except.ok.inj (hwrite.1.symm.trans ht)
  exact hwrite.2

theorem sealedIff_float {x : Binary64} (h : x.IsRounded) : SealedIff True (.float x) := by
  refine sealedIff_of_not_mem (Json.readsBack_float h) ?_
  rintro _ ⟨⟩
  cases h with
  | nan => decide
  | infinity s => cases s <;> decide
  | finite s hu hlimit =>
    obtain ⟨w, f, x, hparts, htext, _⟩ := Decimal.exists_text hu hlimit
    have hwritten : Json.float (.finite s _) = _ := htext s
    rw [hwritten]
    intro hmem
    rcases List.mem_append.1 hmem with hmem | hmem
    · revert hmem
      cases s <;> decide
    · exact (Decimal.mem_numeral hparts hmem).elim (by decide) (by decide)

/-! ## Lists -/

theorem runsOn_items (hvs : ∀ v ∈ vs, Sealed v) (h : writeItems vs = .ok ps) (after : Text) :
    RunsOn (']' :: after) (Text.join [','] ps) := by
  induction vs generalizing ps with
  | nil =>
    cases h
    trivial
  | cons v vs ih =>
    obtain ⟨hv, hvs⟩ := List.forall_mem_cons.1 hvs
    obtain ⟨t, qs, ht, hqs, rfl⟩ := Json.writeItems_cons h
    cases qs with
    | nil => exact hv t ht _ (Json.ends_cons (.inr (.inr rfl)) after)
    | cons q qs =>
      rw [Text.join_cons_of_ne_nil (List.cons_ne_nil q qs), runsOn_append]
      exact ⟨hv t ht _ (Json.ends_cons (.inl rfl) _), (runsOn_cons (by decide)).2 (ih hvs hqs)⟩

/-- A value does not start like the end of a list. -/
theorem skipBlanks_ne_bracket (h : ReadsBack v) (ht : Json.write v = .ok t) {after : Text}
    (hafter : Json.Ends after) (s : Text) : Json.skipBlanks (t ++ after) ≠ ']' :: s := by
  intro heq
  have hread := h t ht after hafter t.length (Nat.le_refl _)
  rw [heq, Json.value?_bracket] at hread
  cases hread

/-- Items of which one holds the end of a payload are cut off there, and are not read. -/
theorem payloadEnd?_items {whole : Value → Prop} (hvs : ∀ v ∈ vs, SealedIff (whole v) v)
    (hcut : ∃ v ∈ vs, ¬ whole v) (h : writeItems vs = .ok ps) (after : Text) : ∃ b r : Text,
      payloadEnd? (Text.join [','] ps ++ ']' :: after) = some (b, r) ∧
        (∀ s, Json.skipBlanks b ≠ ']' :: s) ∧
        ∀ f, 2 * b.length < f → Json.items? f (Json.skipBlanks b) = none := by
  -- by the first item that holds an end
  induction vs generalizing ps with
  | nil =>
    obtain ⟨v, hv, _⟩ := hcut
    cases hv
  | cons v vs ih =>
    obtain ⟨hv, hvs⟩ := List.forall_mem_cons.1 hvs
    obtain ⟨t, qs, ht, hqs, rfl⟩ := Json.writeItems_cons h
    by_cases hwhole : whole v
    · have hcut' : ∃ v ∈ vs, ¬ whole v :=
        (List.exists_mem_cons_iff ..).1 hcut |>.resolve_left fun hnot => hnot hwhole
      have hqs' : qs ≠ [] := by
        obtain ⟨w, hw, _⟩ := hcut'
        exact Json.writeItems_ne_nil hqs (List.ne_nil_of_mem hw)
      obtain ⟨b, r, hend, _, hread⟩ := ih hvs hcut' hqs
      have hends : ∀ s : Text, Json.Ends (',' :: s) := Json.ends_cons (.inl rfl)
      refine ⟨t ++ ',' :: b, r, ?_, skipBlanks_ne_bracket hv.readsBack ht (hends b),
        fun f hf => ?_⟩
      · rw [Text.join_cons_of_ne_nil hqs', List.append_assoc, List.cons_append,
          payloadEnd?_append (hv.isSealed hwhole t ht _ (hends _)),
          payloadEnd?_cons_of_ne (by decide), hend]
        rfl
      · simp only [List.length_append, List.length_cons] at hf
        obtain ⟨f, rfl⟩ := Nat.exists_eq_succ_of_ne_zero (by omega : f ≠ 0)
        rw [Json.items?, hv.readsBack t ht _ (hends b) f (by omega)]
        simp [Json.skipBlanks_cons (c := ',') (by decide), hread f (by omega)]
    · have hs := Text.join_cons [','] t qs
      obtain ⟨b, r, hend, hread⟩ := hv.leaks hwhole t ht (qs.flatMap ([','] ++ ·) ++ ']' :: after)
      have hends : Json.Ends (qs.flatMap ([','] ++ ·) ++ ']' :: after) := by
        cases qs with
        | nil => exact Json.ends_cons (.inr (.inr rfl)) after
        | cons q qs => exact Json.ends_cons (.inl rfl) _
      refine ⟨b, r, ?_, fun s hbracket => ?_, fun f hf => ?_⟩
      · rw [hs, List.append_assoc, hend]
      · obtain ⟨gap, heq⟩ := eq_of_payloadEnd? hend
        refine skipBlanks_ne_bracket hv.readsBack ht hends (s ++ (gap ++ r)) ?_
        unfold Json.skipBlanks at hbracket ⊢
        rw [heq, List.dropWhile_append, hbracket]
        rfl
      · obtain ⟨f, rfl⟩ := Nat.exists_eq_succ_of_ne_zero (by omega : f ≠ 0)
        exact Json.items?_of_value? (hread f (by omega))

theorem sealedIff_list {whole : Value → Prop} (hvs : ∀ v ∈ vs, SealedIff (whole v) v) :
    SealedIff (∀ v ∈ vs, whole v) (.list vs) where
  readsBack := Json.readsBack_list fun v hv => (hvs v hv).readsBack
  isSealed := by
    intro h t ht after hafter
    obtain ⟨ps, hps, rfl⟩ := Json.write_list ht
    rw [runsOn_cons (by decide), runsOn_append]
    exact ⟨runsOn_items (fun v hv => (hvs v hv).isSealed (h v hv)) hps after,
      runsOn_of_not_mem (by decide)⟩
  leaks := by
    intro h t ht after
    obtain ⟨ps, hps, rfl⟩ := Json.write_list ht
    have hcut : ∃ v ∈ vs, ¬ whole v := by simpa using h
    obtain ⟨b, r, hend, hbracket, hread⟩ := payloadEnd?_items hvs hcut hps after
    refine ⟨'[' :: b, r, ?_, fun fuel hfuel => ?_⟩
    · rw [List.cons_append, List.append_assoc, payloadEnd?_cons_of_ne (by decide),
        List.singleton_append, hend]
      rfl
    · rw [List.length_cons] at hfuel
      obtain ⟨fuel, rfl⟩ := Nat.exists_eq_succ_of_ne_zero (by omega : fuel ≠ 0)
      rw [Json.skipBlanks_cons (by decide), Json.value?]
      split
      · rename_i s hs
        exact absurd hs (hbracket s)
      · rw [hread fuel (by omega), Option.map_none]

/-! ## All values -/

/-- Whatever is read has its ends of payloads in its texts. -/
theorem passesUp_sealedIff : Json.PassesUp fun v => SealedIff (LacksEnds v) v where
  word p hp := (sealedIff_word p hp).congr (iff_of_true trivial (lacksEnds_word p hp))
  text t := (sealedIff_text t).congr lacksEnds_text.symm
  int _ := (sealedIff_int _).congr ⟨fun _ => nofun, fun _ => trivial⟩
  float d := (sealedIff_float (Decimal.isRounded_toBinary64 d)).congr
    ⟨fun _ => nofun, fun _ => trivial⟩
  list h := (sealedIff_list h).congr lacksEnds_list.symm
  object hkeys hes := (sealedIff_object hkeys hes).congr lacksEnds_object.symm

theorem sealedIff_of_read? (h : Json.read? t = some v) : SealedIff (LacksEnds v) v :=
  passesUp_sealedIff.of_read? h

end Marker
end Marginalia
