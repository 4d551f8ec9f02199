import Marginalia.Proofs.Json.Reading
import Marginalia.Proofs.Marker.Scan

/-
Where a written value ends a payload.  Only a closing brace inside a text can do so,
when blanks that are written as they are and the end of a comment follow it.  A
payload that is ended there was cut off in the middle of a text, so it is no value.
-/
namespace Marginalia
namespace Marker

open Json (escapeChar string object entries writeEntries ReadsBack)

variable {t after : Text}

/-! ## Texts -/

/-- A blank that is not written as an escape. -/
def staysBlank (c : Char) : Bool := Text.isSpace c && decide (0x20 ≤ c.toNat)

/-- A closing brace of a text has the end of a comment behind it. -/
def holdsEnd : Text → Bool
  | [] => false
  | c :: rest =>
    (c = '}' && (closing? (rest.dropWhile staysBlank)).isSome) || holdsEnd rest

theorem holdsEnd_of_not_mem (h : '}' ∉ t) : holdsEnd t = false := by
  induction t with
  | nil => rfl
  | cons c t ih =>
    rw [List.mem_cons, not_or] at h
    simp [holdsEnd, Ne.symm h.1, ih h.2]

/-- What is written as an escape. -/
def IsEscaped (c : Char) : Prop := c = '"' ∨ c = '\\' ∨ c.toNat < 0x20

theorem escapeChar_plain {c : Char} (h : ¬ IsEscaped c) : escapeChar c = [c] := by
  have hcontrol : ∀ d : Char, d.toNat < 0x20 → c ≠ d := by
    rintro d hd rfl
    exact h (.inr (.inr hd))
  unfold IsEscaped at h
  simp only [not_or] at h
  unfold escapeChar
  rw [if_neg h.1, if_neg h.2.1, if_neg (hcontrol '\n' (by decide)),
    if_neg (hcontrol '\r' (by decide)), if_neg (hcontrol '\t' (by decide)),
    if_neg (hcontrol '\x08' (by decide)), if_neg (hcontrol '\x0c' (by decide)), if_neg h.2.2]

theorem hex_avoids_brace (width n : Nat) : '}' ∉ Text.hex width n := by
  have hdigit : ∀ k < 16, Text.hexDigit k ≠ '}' := by decide
  induction width generalizing n with
  | zero => nofun
  | succ width ih =>
    rw [Text.hex, List.mem_append, List.mem_singleton, not_or]
    exact ⟨ih (n / 16), Ne.symm (hdigit _ (Nat.mod_lt n (by omega)))⟩

theorem exists_escape {c : Char} (h : IsEscaped c) :
    ∃ s, escapeChar c = '\\' :: s ∧ '}' ∉ s := by
  unfold escapeChar
  iterate 7
    split
    · exact ⟨_, rfl, by decide⟩
  split
  · refine ⟨_, rfl, ?_⟩
    rw [List.mem_cons, not_or]
    exact ⟨by decide, hex_avoids_brace 4 _⟩
  · unfold IsEscaped at h
    simp_all

theorem staysBlank_of_isEscaped {c : Char} (h : IsEscaped c) : staysBlank c = false := by
  rcases h with rfl | rfl | h
  · decide
  · decide
  · unfold staysBlank
    rw [decide_eq_false (by omega), Bool.and_false]

theorem isSpace_of_not_isEscaped {c : Char} (h : ¬ IsEscaped c) :
    Text.isSpace c = staysBlank c := by
  unfold IsEscaped at h
  simp only [not_or, Nat.not_lt] at h
  unfold staysBlank
  rw [decide_eq_true h.2.2, Bool.and_true]

/-- The blanks in front of a written text are those that are written as they are. -/
theorem dropWhile_escape (t after : Text) :
    (t.flatMap escapeChar ++ '"' :: after).dropWhile Text.isSpace =
      (t.dropWhile staysBlank).flatMap escapeChar ++ '"' :: after := by
  induction t with
  | nil => exact List.dropWhile_cons_of_neg (by decide)
  | cons c t ih =>
    by_cases hc : IsEscaped c
    · obtain ⟨s, hs, _⟩ := exists_escape hc
      rw [List.dropWhile_cons_of_neg (by simp [staysBlank_of_isEscaped hc]), List.flatMap_cons, hs]
      exact List.dropWhile_cons_of_neg (by decide)
    · rw [List.flatMap_cons, escapeChar_plain hc]
      by_cases hspace : staysBlank c
      · rw [List.dropWhile_cons_of_pos hspace, ← ih]
        exact List.dropWhile_cons_of_pos (by rwa [isSpace_of_not_isEscaped hc])
      · rw [List.dropWhile_cons_of_neg hspace, List.flatMap_cons, escapeChar_plain hc]
        exact List.dropWhile_cons_of_neg (by rwa [isSpace_of_not_isEscaped hc])

/-- A sign without escapes is found in a written text where it is in the text. -/
theorem isPrefixOf_escape {literal : Text} (h : ∀ c ∈ literal, ¬ IsEscaped c) :
    literal.isPrefixOf (t.flatMap escapeChar ++ '"' :: after) = literal.isPrefixOf t := by
  induction literal generalizing t with
  | nil => simp
  | cons d literal ih =>
    obtain ⟨hd, hliteral⟩ := List.forall_mem_cons.1 h
    have hne : ∀ c, IsEscaped c → (d == c) = false := by
      intro c hc
      rw [beq_eq_false_iff_ne]
      rintro rfl
      exact hd hc
    cases t with
    | nil => simp [List.isPrefixOf, hne '"' (.inl rfl)]
    | cons c t =>
      by_cases hc : IsEscaped c
      · obtain ⟨s, hs, _⟩ := exists_escape hc
        rw [List.flatMap_cons, hs]
        simp [List.isPrefixOf, hne c hc, hne '\\' (.inr (.inl rfl))]
      · rw [List.flatMap_cons, escapeChar_plain hc, List.singleton_append, List.cons_append,
          List.isPrefixOf, List.isPrefixOf, ih hliteral]

theorem endsHere_escape (t after : Text) :
    EndsHere (t.flatMap escapeChar ++ '"' :: after) ↔
      (closing? (t.dropWhile staysBlank)).isSome := by
  have hsigns : ∀ c ∈ ['-', '>', '%'], ¬ IsEscaped c := by
    unfold IsEscaped
    simp only [List.forall_mem_cons]
    exact ⟨by decide, by decide, by decide, nofun⟩
  have hhtml : "-->".toList ⊆ ['-', '>', '%'] := by decide
  have hpercent : "%%".toList ⊆ ['-', '>', '%'] := by decide
  unfold EndsHere
  rw [dropWhile_escape, isSome_closing?, isSome_closing?,
    isPrefixOf_escape fun c hc => hsigns c (hhtml hc),
    isPrefixOf_escape fun c hc => hsigns c (hpercent hc)]

/-- A character is passed over, unless it is a closing brace that ends a payload. -/
theorem runsOn_escapeChar {c : Char} (h : c = '}' → ¬ EndsHere after) :
    RunsOn after (escapeChar c) := by
  by_cases hc : IsEscaped c
  · obtain ⟨s, hs, hbrace⟩ := exists_escape hc
    rw [hs]
    exact (runsOn_cons (by decide)).2 (runsOn_of_not_mem hbrace)
  · rw [escapeChar_plain hc]
    exact ⟨h, trivial⟩

theorem runsOn_escape (h : holdsEnd t = false) : RunsOn ('"' :: after) (t.flatMap escapeChar) := by
  induction t with
  | nil => trivial
  | cons c t ih =>
    rw [holdsEnd, Bool.or_eq_false_iff] at h
    rw [List.flatMap_cons, runsOn_append]
    refine ⟨runsOn_escapeChar fun hc hend => ?_, ih h.2⟩
    rw [endsHere_escape] at hend
    simp [hc, hend] at h

/-- The payload that a text ends is cut off inside the text. -/
theorem payloadEnd?_escape (h : holdsEnd t) (after : Text) : ∃ s r : Text,
    payloadEnd? (t.flatMap escapeChar ++ '"' :: after) = some (s.flatMap escapeChar, r) := by
  induction t with
  | nil => cases h
  | cons c t ih =>
    by_cases hc : c = '}' ∧ (closing? (t.dropWhile staysBlank)).isSome
    · obtain ⟨rfl, hend⟩ := hc
      obtain ⟨r, hr⟩ := Option.isSome_iff_exists.1 ((endsHere_escape t after).2 hend)
      exact ⟨['}'], r, payloadEnd?_brace hr⟩
    · rw [holdsEnd, Bool.or_eq_true, Bool.and_eq_true, decide_eq_true_eq] at h
      obtain ⟨s, r, hs⟩ := ih (h.resolve_left hc)
      have hruns : RunsOn (t.flatMap escapeChar ++ '"' :: after) (escapeChar c) :=
        runsOn_escapeChar fun hbrace hend => hc ⟨hbrace, (endsHere_escape t after).1 hend⟩
      refine ⟨c :: s, r, ?_⟩
      rw [List.flatMap_cons, List.append_assoc, payloadEnd?_append hruns, hs]
      rfl

/-! ## Values -/

/-- No payload ends in a value, however it is written. -/
def Sealed (v : Value) : Prop :=
  ∀ t, Json.write v = .ok t → ∀ after, Json.Ends after → RunsOn after t

/-- A payload ends in a value, and what it has of the value is not read. -/
def Leaks (v : Value) : Prop :=
  ∀ t, Json.write v = .ok t → ∀ after, ∃ b r : Text, payloadEnd? (t ++ after) = some (b, r) ∧
    ∀ fuel, 2 * b.length ≤ fuel → Json.value? fuel (Json.skipBlanks b) = none

/-- A value that is read back, and that is sealed or leaks as `whole` tells. -/
structure SealedIff (whole : Prop) (v : Value) : Prop where
  readsBack : ReadsBack v
  isSealed : whole → Sealed v
  leaks : ¬ whole → Leaks v

theorem SealedIff.congr {p q : Prop} {v : Value} (h : SealedIff p v) (hpq : p ↔ q) :
    SealedIff q v :=
  propext hpq ▸ h

theorem runsOn_string (h : holdsEnd t = false) : RunsOn after (string t) := by
  show RunsOn after ('"' :: (t.flatMap escapeChar ++ ['"']))
  rw [runsOn_cons (by decide), runsOn_append]
  exact ⟨runsOn_escape h, (runsOn_cons (by decide)).2 trivial⟩

theorem payloadEnd?_string (h : holdsEnd t) (after : Text) : ∃ s r : Text,
    payloadEnd? (string t ++ after) = some ('"' :: s.flatMap escapeChar, r) := by
  obtain ⟨s, r, hs⟩ := payloadEnd?_escape h after
  refine ⟨s, r, ?_⟩
  rw [Json.string_append, payloadEnd?_cons_of_ne (by decide), hs]
  rfl

theorem sealedIff_text (t : Text) : SealedIff (holdsEnd t = false) (.text t) where
  readsBack := Json.readsBack_text t
  isSealed := by
    rintro h _ ⟨⟩ after _
    exact runsOn_string h
  leaks := by
    rintro h _ ⟨⟩ after
    obtain ⟨s, r, hs⟩ := payloadEnd?_string (by simpa using h) after
    refine ⟨_, r, hs, fun fuel _ => ?_⟩
    rw [Json.skipBlanks_cons (by decide)]
    cases fuel with
    | zero => rfl
    | succ fuel => rw [Json.value?, Json.string?_escape_eq_none, Option.map_none]

theorem sealedIff_int (n : Int) : SealedIff True (.int n) where
  readsBack := Json.readsBack_int n
  isSealed := by
    intro _ t ht after _
    obtain ⟨_, rfl⟩ := Value.wholeText_eq_ok.1 ht
    refine runsOn_of_not_mem fun hmem => ?_
    rw [Value.toList_toString] at hmem
    have hdigit : '}' ∉ Text.ofNat n.natAbs :=
      fun h => absurd (Text.isBasicDigit_of_mem_ofNat h) (by decide)
    split at hmem
    · exact (List.mem_cons.1 hmem).elim (by decide) hdigit
    · exact hdigit hmem
  leaks := fun h => absurd trivial h

/-! ### Objects -/

variable {k : Text} {v : Value} {es : List (Text × Value)} {ps : List Text}
  {whole : Text × Value → Prop}

theorem not_endsHere_of_ends (h : Json.Ends t) : ¬ EndsHere t := by
  cases t with
  | nil => decide
  | cons c t => rcases h c rfl with rfl | rfl | rfl <;> exact Bool.false_ne_true

theorem runsOn_entry (hk : holdsEnd k = false) (hv : Sealed v) (ht : Json.write v = .ok t)
    (h : Json.Ends after) : RunsOn after (string k ++ ':' :: t) := by
  rw [runsOn_append, runsOn_cons (by decide)]
  exact ⟨runsOn_string hk, hv t ht after h⟩

theorem runsOn_entries (hes : ∀ e ∈ es, holdsEnd e.1 = false ∧ Sealed e.2)
    (h : writeEntries (entries es) = .ok ps) :
    RunsOn ('}' :: after) (Text.join [','] ps) := by
  induction es generalizing ps with
  | nil =>
    cases h
    trivial
  | cons e es ih =>
    obtain ⟨⟨hk, hv⟩, hes⟩ := List.forall_mem_cons.1 hes
    obtain ⟨t, qs, ht, hqs, rfl⟩ := Json.writeEntries_cons h
    cases qs with
    | nil => exact runsOn_entry hk hv ht (Json.ends_cons (.inr (.inl rfl)) after)
    | cons q qs =>
      rw [Text.join_cons_of_ne_nil (List.cons_ne_nil q qs), runsOn_append]
      exact ⟨runsOn_entry hk hv ht (Json.ends_cons (.inl rfl) _),
        (runsOn_cons (by decide)).2 (ih hes hqs)⟩

theorem members?_cut_key (s : Text) (f : Nat) :
    Json.members? f ('"' :: s.flatMap escapeChar) = none := by
  cases f with
  | zero => rfl
  | succ f => rw [Json.members?, Json.string?_escape_eq_none]; rfl

theorem members?_cut_value {f : Nat} (h : Json.value? f (Json.skipBlanks t) = none) :
    Json.members? (f + 1) (string k ++ ':' :: t) = none := by
  rw [Json.string_append, Json.members?, Json.string?_written]
  simp [Json.skipBlanks_cons (c := ':') (by decide), h]

/-- Entries of which one holds the end of a payload are cut off there, and are not read. -/
theorem payloadEnd?_entries (hes : ∀ e ∈ es, SealedIff (whole e) e.2)
    (hcut : ∃ e ∈ es, ¬ (holdsEnd e.1 = false ∧ whole e))
    (h : writeEntries (entries es) = .ok ps) (after : Text) : ∃ b r : Text,
      payloadEnd? (Text.join [','] ps ++ after) = some ('"' :: b, r) ∧
        ∀ f, 2 * b.length < f → Json.members? f ('"' :: b) = none := by
  -- by the first entry that holds an end: in its key, in its value, or further on
  induction es generalizing ps with
  | nil =>
    obtain ⟨e, he, _⟩ := hcut
    cases he
  | cons e es ih =>
    obtain ⟨k, v⟩ := e
    obtain ⟨hv, hes⟩ := List.forall_mem_cons.1 hes
    obtain ⟨t, qs, ht, hqs, rfl⟩ := Json.writeEntries_cons h
    have hs := Text.join_cons [','] (string k ++ ':' :: t) qs
    by_cases hk : holdsEnd k = false
    · by_cases hwhole : whole (k, v)
      · have hcut' : ∃ e ∈ es, ¬ (holdsEnd e.1 = false ∧ whole e) :=
          (List.exists_mem_cons_iff ..).1 hcut |>.resolve_left fun hnot => hnot ⟨hk, hwhole⟩
        have hqs' : qs ≠ [] := by
          obtain ⟨e, he, _⟩ := hcut'
          exact Json.writeEntries_ne_nil hqs (List.ne_nil_of_mem he)
        obtain ⟨b, r, hend, hread⟩ := ih hes hcut' hqs
        have hruns := runsOn_entry hk (hv.isSealed hwhole) ht
          (Json.ends_cons (.inl rfl) (Text.join [','] qs ++ after))
        refine ⟨(string k).tail ++ (':' :: t ++ ',' :: '"' :: b), r, ?_, fun f hf => ?_⟩
        · rw [Text.join_cons_of_ne_nil hqs', List.append_assoc, List.cons_append,
            payloadEnd?_append hruns, payloadEnd?_cons_of_ne (by decide), hend]
          simp [string]
        · obtain ⟨f, rfl⟩ := Nat.exists_eq_succ_of_ne_zero (by omega : f ≠ 0)
          simp only [List.length_append, List.length_cons] at hf
          have hmore := Json.members?_more (k := k) (s := '"' :: b) hv.readsBack ht
            (by omega : t.length ≤ f)
          rw [Json.skipBlanks_cons (by decide), hread f (by omega)] at hmore
          exact hmore
      · obtain ⟨b, r, hend, hread⟩ := hv.leaks hwhole t ht (qs.flatMap ([','] ++ ·) ++ after)
        refine ⟨(string k).tail ++ ':' :: b, r, ?_, fun f hf => ?_⟩
        · rw [hs, List.append_assoc, List.append_assoc, List.cons_append,
            payloadEnd?_append (runsOn_string hk), payloadEnd?_cons_of_ne (by decide), hend]
          rfl
        · obtain ⟨f, rfl⟩ := Nat.exists_eq_succ_of_ne_zero (by omega : f ≠ 0)
          simp only [List.length_append, List.length_cons] at hf
          exact members?_cut_value (hread f (by omega))
    · obtain ⟨u, r, hend⟩ := payloadEnd?_string (by simpa using hk)
        (':' :: t ++ (qs.flatMap ([','] ++ ·) ++ after))
      refine ⟨_, r, ?_, fun f _ => members?_cut_key u f⟩
      rw [hs, List.append_assoc, List.append_assoc]
      exact hend

/-- A payload ends in an object when it ends in a key or in a value. -/
theorem sealedIff_object (hkeys : (es.map (·.1)).Nodup) (hes : ∀ e ∈ es, SealedIff (whole e) e.2) :
    SealedIff (∀ e ∈ es, holdsEnd e.1 = false ∧ whole e) (Json.object es) where
  readsBack := Json.readsBack_object hkeys fun e he => (hes e he).readsBack
  isSealed := by
    intro h t ht after hafter
    obtain ⟨ps, hps, rfl⟩ := Json.write_map ht
    rw [runsOn_cons (by decide), runsOn_append]
    refine ⟨runsOn_entries (fun e he => ?_) hps, fun _ => not_endsHere_of_ends hafter, trivial⟩
    exact ⟨(h e he).1, (hes e he).isSealed (h e he).2⟩
  leaks := by
    intro h t ht after
    obtain ⟨ps, hps, rfl⟩ := Json.write_map ht
    have hcut : ∃ e ∈ es, ¬ (holdsEnd e.1 = false ∧ whole e) := by simpa using h
    obtain ⟨b, r, hend, hread⟩ := payloadEnd?_entries hes hcut hps ('}' :: after)
    refine ⟨'{' :: '"' :: b, r, ?_, fun fuel hfuel => ?_⟩
    · rw [List.cons_append, List.append_assoc, payloadEnd?_cons_of_ne (by decide),
        List.singleton_append, hend]
      rfl
    · simp only [List.length_cons] at hfuel
      obtain ⟨fuel, rfl⟩ := Nat.exists_eq_succ_of_ne_zero (by omega : fuel ≠ 0)
      rw [Json.skipBlanks_cons (by decide), Json.value?, Json.skipBlanks_cons (by decide)]
      show (Json.members? fuel ('"' :: b)).map _ = none
      rw [hread fuel (by omega), Option.map_none]

/-! ## Payloads -/

theorem isWhole_object (hes : ∀ e ∈ es, holdsEnd e.1 = false ∧ Sealed e.2) {p : Text}
    (h : Json.write (Json.object es) = .ok p) : IsWhole p := by
  obtain ⟨ps, hps, rfl⟩ := Json.write_map h
  exact isWhole_of_runsOn (runsOn_entries hes hps)

/-- A payload that is cut off holds no value. -/
theorem match?_of_leaks {es : List (Value × Value)} (hleaks : Leaks (.map es)) {p : Text}
    (h : Json.write (.map es) = .ok p) (style : MarkerStyle) (rest : Text) :
    ∃ b r : Text, match? (wrap style p ++ rest) = some (b, r) ∧ Json.read? b = none := by
  obtain ⟨b, r, hend, hread⟩ := hleaks p h (' ' :: (style.closing ++ rest))
  obtain ⟨ps, _, rfl⟩ := Json.write_map h
  rw [List.cons_append, payloadEnd?_cons_of_ne (by decide)] at hend
  obtain ⟨⟨b, r⟩, hb, heq⟩ := Option.map_eq_some_iff.1 hend
  cases heq
  refine ⟨'{' :: b, r, match?_of_payloadEnd? hb, ?_⟩
  unfold Json.read?
  rw [hread _ (Nat.le_add_right _ 2)]
  rfl

end Marker
end Marginalia
