import Marginalia.Proofs.Calendar.Digits
import Marginalia.Proofs.Filter.Refusal
import Marginalia.Proofs.Html.Strip

/-
What filters make of nothing.  A quotation puts its mark there, and a date format takes away
every text that is no date; all other filters leave nothing where there is nothing, and some
text where there is some.  What filters can make of a mark is written with few code points,
among them no digit, so it is never taken for a date.
-/
namespace Marginalia

/-! ## What becomes of a mark -/

/-- The code points that a quotation mark can come to be written with: the letters of its
reference in both cases, what stands for a cut and before a special character, and what short
names over these letters refer to. -/
def traceChars : List Char :=
  [' ', '&', ';', '>', '\\', '…', 'A', 'G', 'M', 'P', 'T', 'a', 'g', 'm', 'p', 't',
    '±', 'Γ', 'γ', '∓', '≈', '≫', '⋙', '↦', '⤅', '⪆']

/-- What filters leave of a quotation mark. -/
structure IsTrace (t : Text) : Prop where
  nonempty : t ≠ []
  among : ∀ c ∈ t, c ∈ traceChars

namespace IsTrace

variable {t u : Text}

instance (t : Text) : Decidable (IsTrace t) :=
  decidable_of_iff (t ≠ [] ∧ (t.all fun c => traceChars.contains c) = true) <| by
    simp only [List.all_eq_true, List.contains_iff_mem]
    exact ⟨fun h => ⟨h.1, h.2⟩, fun h => ⟨h.1, h.2⟩⟩

theorem append_left (h : IsTrace t) (hu : ∀ c ∈ u, c ∈ traceChars) : IsTrace (t ++ u) :=
  ⟨List.append_ne_nil_of_left_ne_nil h.nonempty u, List.forall_mem_append.2 ⟨h.among, hu⟩⟩

theorem cons {c : Char} (hc : c ∈ traceChars) (h : ∀ d ∈ t, d ∈ traceChars) :
    IsTrace (c :: t) :=
  ⟨List.cons_ne_nil c t, List.forall_mem_cons.2 ⟨hc, h⟩⟩

theorem not_mem (h : IsTrace t) {c : Char} (hc : c ∉ traceChars) : c ∉ t :=
  fun hmem => hc (h.among c hmem)

/-- Filters that replace each code point by itself. -/
theorem flatMap (h : IsTrace t) {f : Char → Text}
    (hall : (traceChars.all fun c => decide (IsTrace (f c))) = true) : IsTrace (t.flatMap f) := by
  have hf : ∀ c ∈ traceChars, IsTrace (f c) := fun c hc =>
    of_decide_eq_true (List.all_eq_true.1 hall c hc)
  obtain ⟨c, rest, rfl⟩ := List.exists_cons_of_ne_nil h.nonempty
  obtain ⟨hc, hrest⟩ := List.forall_mem_cons.1 h.among
  refine (hf c hc).append_left fun d hd => ?_
  obtain ⟨e, he, hd⟩ := List.mem_flatMap.1 hd
  exact (hf e (hrest e he)).among d hd

theorem isDigitless (h : IsTrace t) : t.IsDigitless := by
  have hall : (traceChars.all fun c => !Text.isDigit c) = true := by decide
  intro c hc
  simpa using List.all_eq_true.1 hall c (h.among c hc)

end IsTrace

/-! ## References in it -/

namespace Html

variable {t u name : Text}

/-- The bytes that the code points of a trace are written with. -/
def traceBytes : List Nat :=
  [32, 38, 59, 62, 65, 71, 77, 80, 84, 92, 97, 103, 109, 112, 116, 128, 133, 134, 136, 137, 139,
    147, 153, 164, 166, 170, 171, 177, 179, 194, 206, 226]

theorem toNat_mem_traceBytes {s : String} (h : ∀ c ∈ s.toList, c ∈ traceChars) :
    ∀ b ∈ s.toByteArray.data.toList, b.toNat ∈ traceBytes := by
  have hchars : (traceChars.all fun c => (String.utf8EncodeChar c).all fun b =>
      traceBytes.contains b.toNat) = true := by
    decide
  rw [← String.utf8Encode_toList, List.utf8Encode, List.toList_data_toByteArray]
  intro b hb
  obtain ⟨c, hc, hb⟩ := List.mem_flatMap.1 hb
  exact List.contains_iff_mem.1 (List.all_eq_true.1 (List.all_eq_true.1 hchars c (h c hc)) b hb)

theorem isTrace_of_entity? (h : ∀ c ∈ name, c ∈ traceChars) (hread : entity? name = some u) :
    IsTrace u := by
  -- the bytes of a name are at hand, while its code points would have to be decoded
  have htable : (traceChars.all fun c => (entitiesFrom c).all fun e =>
      decide ((e.1.toByteArray.data.toList.all fun b => traceBytes.contains b.toNat) = true →
        IsTrace (e.2.map Char.ofNat))) = true := by
    decide +kernel
  cases name with
  | nil => cases hread
  | cons c rest =>
    obtain ⟨e, hfind, rfl⟩ := Option.map_eq_some_iff.1 hread
    have hname : e.1.toList = c :: rest := by simpa using List.find?_some hfind
    have hentry := List.all_eq_true.1 (List.all_eq_true.1 htable c (h c (.head _))) e
      (List.mem_of_find?_eq_some hfind)
    refine of_decide_eq_true hentry (List.all_eq_true.2 ?_)
    exact fun b hb => List.contains_iff_mem.2 (toNat_mem_traceBytes (hname ▸ h) b hb)

theorem isTrace_longestEntity (h : ∀ c ∈ name, c ∈ traceChars) (n : Nat) :
    IsTrace (longestEntity name n) := by
  have hself : IsTrace ('&' :: name) := .cons (by decide) h
  induction n using longestEntity.induct name with
  | case1 => exact hself
  | case2 => exact hself
  | case3 n t hread =>
    rw [longestEntity, hread]
    exact (isTrace_of_entity? (fun c hc => h c (List.mem_of_mem_take hc)) hread).append_left
      fun c hc => h c (List.mem_of_mem_drop hc)
  | case4 n hread ih =>
    rw [longestEntity, hread]
    exact ih

theorem isTrace_ofName (h : ∀ c ∈ name, c ∈ traceChars) : IsTrace (ofName name) := by
  unfold ofName
  split
  · exact isTrace_of_entity? h ‹_›
  · exact isTrace_longestEntity h _

/-- There is no reference by a number among these code points. -/
theorem reference?_trace (h : ∀ c ∈ t, c ∈ traceChars) :
    reference? t = .ok none ∨ ∃ s n, reference? t = .ok (some (s, n)) ∧ IsTrace s := by
  unfold reference?
  split
  · exact absurd (h '#' (.head _)) (by decide)
  · dsimp only
    split
    · exact .inl rfl
    · refine .inr ⟨_, _, rfl, isTrace_ofName fun c hc => ?_⟩
      have hname : ∀ c ∈ (t.take maxName).takeWhile fun c => !endsName c, c ∈ traceChars :=
        fun c hc => h c (List.mem_of_mem_take ((List.takeWhile_prefix _).subset hc))
      split at hc
      · rcases List.mem_append.1 hc with hc | hc
        · exact hname c hc
        · rw [List.mem_singleton.1 hc]
          decide
      · exact hname c hc

/-- What the decoding of such a text is. -/
theorem exists_decode_trace (h : ∀ c ∈ t, c ∈ traceChars) :
    ∃ u, decode t = .ok u ∧ (∀ c ∈ u, c ∈ traceChars) ∧ (t ≠ [] → u ≠ []) := by
  induction hn : t.length using Nat.strongRecOn generalizing t with
  | ind n ih =>
    cases t with
    | nil => exact ⟨[], by rw [decode], nofun, fun h => absurd rfl h⟩
    | cons c rest =>
      obtain ⟨hc, hrest⟩ := List.forall_mem_cons.1 h
      have hlen : rest.length < n := by rw [← hn]; exact Nat.lt_succ_self _
      obtain ⟨u, hu, hamong, _⟩ := ih _ hlen hrest rfl
      by_cases hamp : c = '&'
      · subst hamp
        rcases reference?_trace hrest with hread | ⟨s, k, hread, hs⟩
        · refine ⟨'&' :: u, ?_, List.forall_mem_cons.2 ⟨hc, hamong⟩, fun _ => List.cons_ne_nil _ _⟩
          rw [decode, hread, hu]
          rfl
        · have hdrop : (rest.drop k).length < n :=
            Nat.lt_of_le_of_lt (List.drop_sublist _ _).length_le hlen
          obtain ⟨v, hv, hamong, _⟩ :=
            ih _ hdrop (fun c hc => hrest c (List.mem_of_mem_drop hc)) rfl
          have hsv := hs.append_left hamong
          refine ⟨s ++ v, ?_, hsv.among, fun _ => hsv.nonempty⟩
          rw [decode_of_reference? hread, hv]
          rfl
      · refine ⟨c :: u, ?_, List.forall_mem_cons.2 ⟨hc, hamong⟩, fun _ => List.cons_ne_nil _ _⟩
        rw [decode_cons hamp, hu]
        rfl

theorem isTrace_decode (h : IsTrace t) (hdecode : decode t = .ok u) : IsTrace u := by
  obtain ⟨v, hv, hamong, hne⟩ := exists_decode_trace h.among
  cases hv.symm.trans hdecode
  exact ⟨hne h.nonempty, hamong⟩

theorem decodeReserved_trace (h : ∀ c ∈ t, c ∈ traceChars) :
    (∀ c ∈ decodeReserved t, c ∈ traceChars) ∧ (t ≠ [] → decodeReserved t ≠ []) := by
  fun_induction decodeReserved t with
  | case1 => exact ⟨nofun, fun h => absurd rfl h⟩
  | case2 rest ih =>
    have hrest : ∀ c ∈ rest, c ∈ traceChars := fun c hc => h c (by simp [hc])
    exact ⟨List.forall_mem_cons.2 ⟨by decide, (ih hrest).1⟩, fun _ => List.cons_ne_nil _ _⟩
  | case3 rest ih => exact absurd (h 'l' (by simp)) (by decide)
  | case4 rest ih =>
    have hrest : ∀ c ∈ rest, c ∈ traceChars := fun c hc => h c (by simp [hc])
    exact ⟨List.forall_mem_cons.2 ⟨by decide, (ih hrest).1⟩, fun _ => List.cons_ne_nil _ _⟩
  | case5 rest ih => exact absurd (h 'q' (by simp)) (by decide)
  | case6 rest ih => exact absurd (h '#' (by simp)) (by decide)
  | case7 c rest _ _ _ _ _ ih =>
    obtain ⟨hc, hrest⟩ := List.forall_mem_cons.1 h
    exact ⟨List.forall_mem_cons.2 ⟨hc, (ih hrest).1⟩, fun _ => List.cons_ne_nil _ _⟩

theorem isTrace_strip (h : IsTrace t) : IsTrace (strip t) := by
  obtain ⟨hamong, hne⟩ := decodeReserved_trace h.among
  have htrace : IsTrace (decodeReserved t) := ⟨hne h.nonempty, hamong⟩
  have htags : IsTagless (decodeReserved t) := isTagless_iff.2 fun before after heq =>
    absurd (heq ▸ by simp) (htrace.not_mem (by decide : '<' ∉ traceChars))
  rw [strip, dropTags_of_isTagless htags]
  exact htrace

theorem lineBreaks_trace (h : IsTrace t) : lineBreaks t = t := by
  have hlines := breaksToLines_append (h.not_mem (by decide : '<' ∉ traceChars)) 0 []
  rw [Nat.add_zero, List.append_nil] at hlines
  rw [lineBreaks, hlines]
  exact List.append_nil t

end Html

/-! ## One filter -/

namespace Filter

variable {f : Filter} {arg : Option Text} {t u : Text}

theorem lowerAfter_trace (h : ∀ c ∈ t, c ∈ traceChars) (before : Text) :
    Text.lowerAfter before t = t.flatMap Text.lowerChar := by
  induction t generalizing before with
  | nil => rfl
  | cons c rest ih =>
    obtain ⟨hc, hrest⟩ := List.forall_mem_cons.1 h
    have hsigma : c ≠ 'Σ' := fun heq => absurd (heq ▸ hc) (by decide)
    rw [Text.lowerAfter, if_neg hsigma, ih hrest, List.flatMap_cons]

theorem isTrace_quote (h : ∀ c ∈ t, c ∈ traceChars) : IsTrace (Markdown.quote t) := by
  have hline : '\n' ∉ t := fun hmem => absurd (h _ hmem) (by decide)
  rw [Markdown.quote, Text.fields_of_not_mem hline]
  show IsTrace (Markdown.quoteLine t)
  unfold Markdown.quoteLine
  split
  · decide
  · exact .cons (by decide) (List.forall_mem_cons.2 ⟨by decide, h⟩)

theorem isFinite_of_length? {x : Binary64} (h : Truncate.length? arg = .ok (some x)) :
    x.isFinite := by
  unfold Truncate.length? at h
  split at h
  · cases h
  · split at h
    · rename_i hread
      cases h
      exact (Option.filter_eq_some_iff.1 hread).2
    · split at h
      · cases h
      · obtain ⟨n, _, h⟩ := exists_of_bind_eq_ok h
        split at h
        · rename_i hof
          cases h
          unfold Binary64.ofInt? at hof
          split at hof
          · cases hof
            rfl
          · cases hof
        · cases h

/-- A text is cut only if there is something of it. -/
theorem truncate_cases (h : Truncate.apply t arg = .ok u) :
    u = t ∨ t ≠ [] ∧ ∃ n, u = t.take n ++ [Truncate.ellipsis] := by
  obtain ⟨x, hlength, h⟩ := exists_of_bind_eq_ok h
  cases x with
  | none =>
    cases h
    exact .inl rfl
  | some x =>
    dsimp only at h
    split at h
    · cases h
      exact .inl rfl
    · split at h
      · cases h
        exact .inl rfl
      · rename_i hpositive hlonger
        cases h
        refine .inr ⟨?_, _, rfl⟩
        rintro rfl
        -- a length cannot be greater and less than that of the empty text
        cases x with
        | nan => cases isFinite_of_length? hlength
        | infinity s => cases isFinite_of_length? hlength
        | finite s n =>
          simp only [Binary64.compareInt?, Option.any_some, decide_eq_true_eq, not_not]
            at hpositive hlonger
          rw [List.length_nil, Int.natCast_zero, hpositive] at hlonger
          cases hlonger

/-- Behind a filter there is a mark: a quotation puts one there, and a date format takes any
away. -/
def marks (marked : Bool) : Filter → Bool
  | .quote => true
  | .dateFormat => false
  | _ => marked

theorem apply_nil (h : f.apply arg [] = .ok u) : u = if f = .quote then ['>'] else [] := by
  cases f with
  | truncate =>
    rcases truncate_cases h with rfl | ⟨hne, _⟩
    · rfl
    · exact absurd rfl hne
  | unescapeHtml =>
    rw [apply, Html.decode] at h
    cases h
    rfl
  | stripHtml =>
    cases h
    rw [Html.strip, Html.decodeReserved, Html.dropTags]
    rfl
  | breaksToLines => cases h; rfl
  | escapeHtml => cases h; rfl
  | lower => cases h; rfl
  | upper => cases h; rfl
  | quote => cases h; rfl
  | escapeMarkdown => cases h; rfl
  | dateFormat => cases h; rfl
  | identity => cases h; rfl

theorem apply_trace (ht : IsTrace t) (h : f.apply arg t = .ok u) :
    if f = .dateFormat then u = [] else IsTrace u := by
  cases f with
  | truncate =>
    rcases truncate_cases h with rfl | ⟨_, n, rfl⟩
    · exact ht
    · refine ⟨List.append_ne_nil_of_right_ne_nil _ (List.cons_ne_nil _ _), ?_⟩
      refine List.forall_mem_append.2 ⟨fun c hc => ht.among c (List.mem_of_mem_take hc), ?_⟩
      exact List.forall_mem_singleton.2 (by decide)
  | unescapeHtml => exact Html.isTrace_decode ht h
  | stripHtml =>
    cases h
    exact Html.isTrace_strip ht
  | breaksToLines =>
    cases h
    rw [Html.lineBreaks_trace ht]
    exact ht
  | escapeHtml =>
    cases h
    exact ht.flatMap (by decide)
  | lower =>
    cases h
    rw [Text.lower, lowerAfter_trace ht.among]
    exact ht.flatMap (by decide +kernel)
  | upper =>
    cases h
    exact ht.flatMap (by decide +kernel)
  | quote =>
    cases h
    exact isTrace_quote ht.among
  | escapeMarkdown =>
    cases h
    exact ht.flatMap (by decide)
  | dateFormat =>
    have hnone := Moment.ofText?_of_isDigitless ht.isDigitless (ht.not_mem (by decide))
    change (Except.ok (Moment.ofText? t) >>= _) = _ at h
    rw [hnone] at h
    cases h
    rfl
  | identity =>
    cases h
    exact ht

end Filter

/-! ## Pipelines -/

/-- Nothing, or what filters leave of a mark. -/
def Text.IsLeft (marked : Bool) (t : Text) : Prop := if marked then IsTrace t else t = []

namespace Filter

variable {f : Filter} {arg : Option Text} {marked : Bool} {t u : Text}

theorem isLeft_apply (ht : t.IsLeft marked) (h : f.apply arg t = .ok u) :
    u.IsLeft (f.marks marked) := by
  cases marked with
  | false =>
    cases (ht : t = [])
    have hu := apply_nil h
    cases f with
    | quote => exact hu ▸ (by decide : IsTrace ['>'])
    | _ => exact hu
  | true =>
    have hu := apply_trace ht h
    cases f with
    | quote => exact hu
    | dateFormat => exact hu
    | _ => exact hu

end Filter

namespace Pipeline

variable {p : Pipeline} {marked : Bool} {t u : Text}

/-- Behind a pipeline there is a mark. -/
def marks (marked : Bool) (p : Pipeline) : Bool := p.foldl (fun m s => s.1.marks m) marked

/-- A quotation stands in the pipeline, and no date format behind it. -/
def Quotes (p : Pipeline) : Prop :=
  ∃ before arg after, p = before ++ (.quote, arg) :: after ∧ ∀ s ∈ after, s.1 ≠ .dateFormat

theorem isLeft_run (ht : t.IsLeft marked) (h : run p t = .ok u) : u.IsLeft (marks marked p) := by
  induction p generalizing marked t with
  | nil =>
    cases h
    exact ht
  | cons s rest ih =>
    rw [run] at h
    cases happly : s.1.apply s.2 t with
    | error e =>
      rw [happly] at h
      cases h
    | ok v =>
      rw [happly] at h
      exact ih (Filter.isLeft_apply ht happly) h

theorem quotes_append_singleton (f : Filter) (arg : Option Text) :
    Quotes (p ++ [(f, arg)]) ↔ f = .quote ∨ f ≠ .dateFormat ∧ Quotes p := by
  constructor
  · rintro ⟨before, arg', after, heq, hafter⟩
    cases after using List.reverseRecOn with
    | nil =>
      obtain ⟨_, hlast⟩ := List.append_inj' heq rfl
      cases hlast
      exact .inl rfl
    | append_singleton after s =>
      rw [← List.cons_append, ← List.append_assoc] at heq
      obtain ⟨rfl, hlast⟩ := List.append_inj' heq rfl
      cases hlast
      obtain ⟨hrest, hf⟩ := List.forall_mem_append.1 hafter
      exact .inr ⟨hf _ (.head _), before, arg', after, rfl, hrest⟩
  · rintro (rfl | ⟨hf, before, arg', after, rfl, hafter⟩)
    · exact ⟨p, arg, [], rfl, nofun⟩
    · refine ⟨before, arg', after ++ [(f, arg)], by simp, ?_⟩
      exact List.forall_mem_append.2 ⟨hafter, List.forall_mem_singleton.2 hf⟩

theorem marks_iff : marks false p = true ↔ Quotes p := by
  induction p using List.reverseRecOn with
  | nil =>
    refine iff_of_false nofun ?_
    rintro ⟨before, arg, after, heq, _⟩
    cases before <;> cases heq
  | append_singleton p s ih =>
    obtain ⟨f, arg⟩ := s
    rw [quotes_append_singleton, ← ih, marks, List.foldl_append]
    cases f <;> simp [Filter.marks, marks]

instance (p : Pipeline) : Decidable p.Quotes := decidable_of_iff _ marks_iff

/-- A pipeline that works on nothing makes something of it exactly if a quotation stands behind
its last date format. -/
theorem run_nil_ne_nil_iff (h : run p [] = .ok u) : u ≠ [] ↔ Quotes p := by
  have hleft : u.IsLeft (marks false p) := isLeft_run rfl h
  rw [← marks_iff]
  cases hmarks : marks false p with
  | false =>
    rw [hmarks] at hleft
    exact iff_of_false (not_not.2 hleft) nofun
  | true =>
    rw [hmarks] at hleft
    exact iff_of_true (IsTrace.nonempty hleft) rfl

/-- On nothing, a pipeline fails only where a length in it cannot be read. -/
theorem exists_run_nil (hp : ∀ s ∈ p, ∀ a ∈ s.2, Text.Tight a)
    (hlengths : ∀ a, (.truncate, some a) ∈ p → ¬ Truncate.IsBeyond a) :
    ∃ u, run p [] = .ok u := by
  rw [exists_ok_iff, run_refuses_iff hp]
  rintro ⟨done, f, arg, rest, u, rfl, hrun, hrefuses⟩
  have hleft : u.IsLeft (marks false done) := isLeft_run rfl hrun
  cases hrefuses with
  | @length a _ hbeyond => exact hlengths a (by simp) hbeyond
  | reference hlong =>
    obtain ⟨ds, _, hinfix⟩ := hlong
    have hsharp : '#' ∈ u := hinfix.subset (by simp)
    cases hmarks : marks false done with
    | false =>
      rw [hmarks] at hleft
      cases (hleft : u = [])
      cases hsharp
    | true =>
      rw [hmarks] at hleft
      exact IsTrace.not_mem hleft (by decide) hsharp

end Pipeline
end Marginalia
