import Marginalia.Template.Validation
import Marginalia.Proofs.Ensures
import Marginalia.Proofs.Filter.Refusal
import Marginalia.Proofs.Template.Memory

/-
What templates fail on.  Reading and compiling a template always work; validating it fails
where a length in it cannot be read, and rendering it where one of the filters refuses
its text.
-/
namespace Marginalia

/-! ## Values -/

namespace Value

/-- The kinds of values that records have: nothing, truth values, texts, and tuples of
texts. -/
inductive IsPlain : Value → Prop
  | null : IsPlain .null
  | bool (b : Bool) : IsPlain (.bool b)
  | text (t : Text) : IsPlain (.text t)
  | tuple (ts : List Text) : IsPlain (.tuple (ts.map .text))

theorem templateTexts_texts (ts : List Text) : templateTexts (ts.map .text) = .ok ts := by
  induction ts with
  | nil => rfl
  | cons t rest ih =>
    rw [List.map_cons, templateTexts, ih]
    rfl

theorem IsPlain.exists_templateText {v : Value} (h : v.IsPlain) :
    ∃ t, v.templateText = .ok t := by
  cases h with
  | null => exact ⟨_, rfl⟩
  | bool b => exact ⟨_, rfl⟩
  | text t => exact ⟨_, rfl⟩
  | tuple ts =>
    rw [templateText, templateTexts_texts]
    exact ⟨_, rfl⟩

end Value

/-! ## Validation -/

namespace Validation

/-- A filter, as it is written, has a length that cannot be read. -/
def IsBeyond (spec : Text) : Prop :=
  Filter.find? (Filter.split spec).1 = some .truncate ∧
    ∃ a ∈ (Filter.split spec).2, Truncate.IsBeyond a

theorem filterWarning?_refuses_iff (spec : Text) :
    (∃ e, filterWarning? spec = .error e) ↔ IsBeyond spec := by
  have htight : ∀ a ∈ (Filter.split spec).2, Text.Tight a := fun a => Filter.tight_of_split
  unfold filterWarning? IsBeyond
  generalize Filter.split spec = parts at htight ⊢
  obtain ⟨name, arg⟩ := parts
  dsimp only at htight ⊢
  cases hfind : Filter.find? name with
  | none => exact ⟨nofun, fun h => by cases h.1⟩
  | some f =>
    dsimp only
    by_cases hempty : (f.needsArgument && (arg.getD []).isEmpty) = true
    · rw [if_pos hempty]
      refine ⟨nofun, ?_⟩
      rintro ⟨_, a, ⟨⟩, hbeyond⟩
      rw [Bool.and_eq_true, Option.getD_some, List.isEmpty_iff] at hempty
      rw [hempty.2] at hbeyond
      exact absurd hbeyond Truncate.not_isBeyond_nil
    · rw [if_neg hempty]
      by_cases hf : f = .truncate
      · rw [if_pos hf, exists_bind_eq_error, hf]
        constructor
        · rintro (⟨e, he⟩ | ⟨x, _, e, he⟩)
          · cases arg with
            | none => cases he
            | some a =>
              exact ⟨rfl, a, rfl, (Truncate.length?_refuses_iff (htight a rfl)).1 ⟨e, he⟩⟩
          · cases x <;> cases he
        · rintro ⟨_, a, ⟨⟩, hbeyond⟩
          exact .inl ((Truncate.length?_refuses_iff (htight a rfl)).2 hbeyond)
      · rw [if_neg hf]
        exact ⟨nofun, fun h => absurd (Option.some.inj h.1) hf⟩

theorem filterWarnings_refuses_iff (specs : List Text) :
    (∃ e, filterWarnings specs = .error e) ↔ ∃ spec ∈ specs, IsBeyond spec := by
  induction specs with
  | nil => exact ⟨nofun, nofun⟩
  | cons spec rest ih =>
    rw [filterWarnings, exists_both_eq_error, filterWarning?_refuses_iff, ih]
    simp only [List.mem_cons, exists_eq_or_imp]

theorem mem_firsts {t : Text} {ts : List Text} : t ∈ Text.firsts ts ↔ t ∈ ts := by
  induction ts with
  | nil => rfl
  | cons u rest ih =>
    rw [Text.firsts, List.mem_cons, List.mem_cons, List.mem_filter, ih, decide_eq_true_eq]
    tauto

theorem ofTemplate_refuses_iff (limit : Int) (template : Text) :
    (∃ e, ofTemplate limit template = .error e) ↔
      ∃ spec ∈ Token.filterSpecs (tokenize limit template), IsBeyond spec := by
  unfold ofTemplate ofParsed
  dsimp only
  rw [exists_bind_eq_error, filterWarnings_refuses_iff]
  simp only [mem_firsts]
  refine or_iff_left ?_
  rintro ⟨ws, _, e, he⟩
  cases he

end Validation

/-! ## Rendering -/

namespace Compiled

/-- The text of a variable is refused by the filters behind it. -/
def Refuses (c : Compiled) (b : Bindings) (key : Text) (filters : List Text) : Prop :=
  ∃ t, c.variableText b key = .ok t ∧ (Pipeline.ofSpecs filters).Refuses t

section

variable (c : Compiled) {b : Bindings}

theorem exists_variableText {key : Text} (h : ∃ t, (b key).templateText = .ok t) :
    ∃ t, c.variableText b key = .ok t := by
  obtain ⟨t, ht⟩ := h
  unfold variableText Quoting.noteText
  rw [ht]
  cases c.quoting <;> split_ifs <;> exact ⟨_, rfl⟩

variable (hb : ∀ key, (b key).IsPlain)

include hb

theorem emit_refuses_iff (key : Text) (filters : List Text) :
    (∃ e, c.emit b (.lookup key filters) = .error e) ↔ c.Refuses b key filters := by
  obtain ⟨t, ht⟩ := c.exists_variableText (hb key).exists_templateText
  have hemit : c.emit b (.lookup key filters) = (Pipeline.ofSpecs filters).run t := by
    rw [emit, ht]
    rfl
  rw [hemit, Pipeline.run_refuses_iff (Pipeline.tight_of_mem_ofSpecs filters)]
  constructor
  · exact fun h => ⟨t, ht, h⟩
  · rintro ⟨t', ht', h⟩
    cases ht.symm.trans ht'
    exact h

theorem emitAll_refuses_iff (es : List Emission) :
    (∃ e, c.emitAll b es = .error e) ↔
      ∃ key filters, .lookup key filters ∈ es ∧ c.Refuses b key filters := by
  induction es with
  | nil =>
    refine ⟨nofun, ?_⟩
    rintro ⟨key, filters, h, _⟩
    cases h
  | cons first rest ih =>
    rw [emitAll, exists_both_eq_error, ih]
    cases first with
    | literal t =>
      constructor
      · rintro (⟨e, he⟩ | ⟨key, filters, h, hrefuses⟩)
        · cases he
        · exact ⟨key, filters, .tail _ h, hrefuses⟩
      · rintro ⟨key, filters, h, hrefuses⟩
        cases h with
        | tail _ h => exact .inr ⟨key, filters, h, hrefuses⟩
    | lookup key filters =>
      rw [c.emit_refuses_iff hb]
      constructor
      · rintro (hrefuses | ⟨key', filters', h, hrefuses⟩)
        · exact ⟨key, filters, .head _, hrefuses⟩
        · exact ⟨key', filters', .tail _ h, hrefuses⟩
      · rintro ⟨key', filters', h, hrefuses⟩
        cases h with
        | head => exact .inl hrefuses
        | tail _ h => exact .inr ⟨key', filters', h, hrefuses⟩

end

/-- A template validates exactly if every length in it can be read, and renders, for values
of the kinds that records have, exactly if no filter that is reached refuses its text; a
memory of pipelines makes no difference. -/
theorem returns_unless_refused (limit : Int) (template : Text) {b : Bindings}
    (hb : ∀ key, (b key).IsPlain) :
    ((∃ v, Validation.ofTemplate limit template = .ok v) ↔
      ∀ spec ∈ Token.filterSpecs (tokenize limit template), ¬ Validation.IsBeyond spec) ∧
    ((∃ t, (ofTemplate limit template).render b = .ok t) ↔
      ∀ key filters, .lookup key filters ∈ (ofTemplate limit template).emissions b →
        ¬ (ofTemplate limit template).Refuses b key filters) ∧
    ∀ s : RenderState, s.IsTruthful →
      ∃ s', ((ofTemplate limit template).renderShared b).run.run s =
        ((ofTemplate limit template).render b, s') ∧ s'.IsTruthful := by
  refine ⟨?_, ?_, comesTo_renderShared limit template b⟩
  · rw [exists_ok_iff, Validation.ofTemplate_refuses_iff]
    simp only [not_exists, not_and]
  · unfold render
    rw [exists_ok_iff, emitAll_refuses_iff _ hb]
    simp only [not_exists, not_and]

/-- A template that decodes a highlight and cuts it after a count of code points. -/
def cutAfter (length : Text) : Text :=
  "\x7b\x7bhighlight|unescapeHtml|truncate:".toList ++ length ++ "\x7d\x7d".toList

/-- Nothing is refused where a text is cut after its first code point. -/
theorem returns_cutAfter_one :
    (∀ spec ∈ Token.filterSpecs (tokenize 20 (cutAfter ['1'])), ¬ Validation.IsBeyond spec) ∧
    ∃ s', ((ofTemplate 20 (cutAfter ['1'])).renderShared (Rendering.always "&lt;b".toList)).run.run
      Rendering.crowded = (.ok ['<', '…'], s') := by
  have hplain : ∀ key, (Rendering.always "&lt;b".toList key).IsPlain := fun _ => .text _
  have hvalid : (Validation.ofTemplate 20 (cutAfter ['1'])).isOk := by decide +kernel
  have hrender : (ofTemplate 20 (cutAfter ['1'])).render (Rendering.always "&lt;b".toList) =
      .ok ['<', '…'] := by decide +kernel
  have hroom : Rendering.crowded.IsTruthful := by
    rintro _ ⟨rfl⟩
    exact ⟨by decide, nofun⟩
  obtain ⟨hvalidates, _, hshared⟩ := returns_unless_refused 20 (cutAfter ['1']) hplain
  constructor
  · exact hvalidates.1 (exists_of_isOk hvalid)
  · obtain ⟨s', hrun, _⟩ := hshared Rendering.crowded hroom
    exact ⟨s', hrun.trans (by rw [hrender])⟩

/-- A length out of the range of floating-point numbers is refused, and so is a reference by
a number with too many digits. -/
theorem refuses_large_numbers :
    Validation.ofTemplate 20 (cutAfter ('1' :: List.replicate 309 '0')) = .error .tooLarge ∧
    (ofTemplate 20 (cutAfter ('1' :: List.replicate 309 '0'))).render (Rendering.always ['x']) =
      .error .tooLarge ∧
    (ofTemplate 20 (cutAfter ['1'])).render
      (Rendering.always ("&#".toList ++ List.replicate 4301 '1')) =
        .error (.numeralTooLong 4301) := by
  decide +kernel

end Compiled
end Marginalia
