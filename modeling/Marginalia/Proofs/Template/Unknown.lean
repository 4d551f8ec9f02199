import Marginalia.Proofs.Filter.Empty
import Marginalia.Proofs.Template.Keys
import Marginalia.Proofs.Template.Refusal
import Marginalia.Proofs.Text.Order

/-
Variables that are reported as unknown.  No record has them, so their blocks show nothing, and
their own text is empty before its filters.  It stays empty unless a quotation comes last: that
filter puts its mark in front of an empty line as well.
-/
namespace Marginalia

/-! ## The report -/

namespace Validation

variable {limit : Int} {template key : Text} {v : Validation}

/-- The first code points of a report of an unknown variable. -/
def unknownStart : Text := "Unk".toList

theorem isPrefix_unknownVariableText (key : Text) : unknownStart <+: unknownVariableText key :=
  ⟨_, rfl⟩

theorem unknownVariableText_inj {key' : Text}
    (h : unknownVariableText key = unknownVariableText key') : key = key' :=
  List.append_cancel_left (List.append_cancel_right h)

theorem head?_of_isPrefix {w : Text} (h : unknownStart <+: w) : w.head? = some 'U' := by
  obtain ⟨rest, rfl⟩ := h
  rfl

theorem not_isPrefix_anomalyText (a : Anomaly) : ¬ unknownStart <+: anomalyText a := by
  have hkind : ∀ kind, ¬ unknownStart <+: kindText kind ∧
      unknownStart.length ≤ (kindText kind).length := fun kind => by cases kind <;> decide
  obtain ⟨hstart, hlength⟩ := hkind a.kind
  intro h
  unfold anomalyText at h
  simp only [List.append_assoc] at h
  exact hstart (List.prefix_of_prefix_length_le h (List.prefix_append _ _) hlength)

theorem not_isPrefix_filterWarning {spec w : Text} (h : filterWarning? spec = .ok (some w)) :
    ¬ unknownStart <+: w := by
  intro hstart
  have hhead := head?_of_isPrefix hstart
  unfold filterWarning? at h
  dsimp only at h
  split at h
  · cases h
  · split at h
    · cases h
      cases hhead
    · split at h
      · obtain ⟨x, _, h⟩ := exists_of_bind_eq_ok h
        split at h
        · cases h
        · cases h
          cases hhead
      · cases h

theorem not_isPrefix_filterWarnings {specs ws : List Text} (h : filterWarnings specs = .ok ws) :
    ∀ w ∈ ws, ¬ unknownStart <+: w := by
  induction specs generalizing ws with
  | nil =>
    cases h
    nofun
  | cons spec rest ih =>
    obtain ⟨w, hw, h⟩ := exists_of_bind_eq_ok h
    obtain ⟨ws', hws, h⟩ := exists_of_bind_eq_ok h
    cases h
    refine List.forall_mem_append.2 ⟨fun u hu => ?_, ih hws⟩
    cases w with
    | none => cases hu
    | some w =>
      cases List.mem_singleton.1 hu
      exact not_isPrefix_filterWarning hw

/-- A variable is reported as unknown exactly if the template has it and no record does. -/
theorem unknown_reported_iff (h : ofTemplate limit template = .ok v) :
    unknownVariableText key ∈ v.warnings ↔
      key ∈ Token.keys (tokenize limit template) ∧ key ∉ recordVariables := by
  obtain ⟨ws, hws, hv⟩ := exists_of_bind_eq_ok h
  cases hv
  have hunknown : unknownVariableText key ∈
      (unknownVariables (Token.keys (Parsed.ofTemplate limit template).tokens)).map
        unknownVariableText ↔
      key ∈ Token.keys (tokenize limit template) ∧ key ∉ recordVariables := by
    rw [List.mem_map_of_injective fun _ _ => unknownVariableText_inj, unknownVariables,
      List.mem_filter, Text.mem_sortNew]
    simp [tokenize]
  simp only [List.mem_append, hunknown]
  refine or_iff_right ?_
  rintro ((hname | hanomaly) | hfilter)
  · obtain ⟨n, _, hn⟩ := List.mem_map.1 hname
    cases head?_of_isPrefix (hn ▸ isPrefix_unknownVariableText key)
  · obtain ⟨a, _, ha⟩ := List.mem_map.1 hanomaly
    exact not_isPrefix_anomalyText a (ha ▸ isPrefix_unknownVariableText key)
  · exact not_isPrefix_filterWarnings hws _ hfilter (isPrefix_unknownVariableText key)

theorem not_isBeyond_of_lookup (h : ofTemplate limit template = .ok v) {filters : List Text}
    (hmem : .lookup key filters ∈ Token.withins (tokenize limit template)) :
    ∀ spec ∈ filters, ¬ IsBeyond spec := by
  intro spec hspec hbeyond
  obtain ⟨e, he⟩ := (ofTemplate_refuses_iff limit template).2
    ⟨spec, List.mem_flatMap.2 ⟨_, hmem, hspec⟩, hbeyond⟩
  cases he.symm.trans h

end Validation

/-- No record has a variable that is not among those of a record. -/
theorem Record.bindings_of_not_mem (r : Record) {key : Text} (h : key ∉ recordVariables) :
    r.bindings key = .null := by
  have hkeys : r.entries.map (·.1) = recordVariables := rfl
  have hnone : r.entries.lookup key = none := by
    rw [List.lookup_eq_none_iff]
    intro e he
    rw [bne_iff_ne]
    rintro rfl
    exact h (hkeys ▸ List.mem_map_of_mem he)
  rw [bindings, hnone]
  rfl

theorem Pipeline.isBeyond_of_mem_ofSpecs {specs : List Text} {a : Text}
    (h : (.truncate, some a) ∈ ofSpecs specs) (hbeyond : Truncate.IsBeyond a) :
    ∃ spec ∈ specs, Validation.IsBeyond spec := by
  obtain ⟨spec, hspec, hstep⟩ := List.mem_map.1 h
  obtain ⟨hname, harg⟩ := Prod.mk.inj hstep
  refine ⟨spec, hspec, ?_, a, harg, hbeyond⟩
  change (Filter.find? (Filter.split spec).1).getD .identity = .truncate at hname
  cases hfind : Filter.find? (Filter.split spec).1 with
  | none =>
    rw [hfind] at hname
    cases hname
  | some f =>
    rw [hfind] at hname
    exact congrArg some hname

/-! ## What it renders to -/

namespace Compiled

variable {limit : Int} {template key : Text} {v : Validation}

/-- A variable that no record has is empty before its filters, and afterwards exactly if no
quotation stands behind the last date format. -/
theorem exists_emit_unknown (c : Compiled) {r : Record} (hkey : key ∉ recordVariables)
    {filters : List Text} (hfilters : ∀ spec ∈ filters, ¬ Validation.IsBeyond spec) :
    ∃ t, c.emit r.bindings (.lookup key filters) = .ok t ∧
      (t = [] ↔ ¬ (Pipeline.ofSpecs filters).Quotes) := by
  have hnote : key ≠ "note".toList := fun h => hkey (h ▸ by decide)
  have hempty : c.variableText r.bindings key = .ok [] := by
    rw [variableText, if_neg hnote, r.bindings_of_not_mem hkey]
    rfl
  obtain ⟨t, ht⟩ := Pipeline.exists_run_nil (Pipeline.tight_of_mem_ofSpecs filters)
    fun a ha hbeyond => by
      obtain ⟨spec, hspec, hbeyond⟩ := Pipeline.isBeyond_of_mem_ofSpecs ha hbeyond
      exact hfilters spec hspec hbeyond
  refine ⟨t, ?_, ?_⟩
  · rw [emit, hempty]
    exact ht
  · rw [← Pipeline.run_nil_ne_nil_iff ht, ne_eq, not_not]

/-- A variable that is reported as unknown renders, for every record, to the empty text exactly
if no quotation stands behind the last date format among its filters, by itself as with a
memory of pipelines; and a block on it shows nothing. -/
theorem unknown_renders_empty_iff (h : Validation.ofTemplate limit template = .ok v)
    (hkey : Validation.unknownVariableText key ∈ v.warnings) (r : Record) :
    (∀ filters, .lookup key filters ∈ Token.withins (tokenize limit template) →
      ∃ t, (ofTemplate limit template).emit r.bindings (.lookup key filters) = .ok t ∧
        (t = [] ↔ ¬ (Pipeline.ofSpecs filters).Quotes) ∧
        ∀ s : RenderState, s.IsTruthful →
          ∃ s', ((ofTemplate limit template).emitShared r.bindings
            (.lookup key filters)).run.run s = (.ok t, s') ∧ s'.IsTruthful) ∧
    ∀ body, Emission.ofToken r.bindings (.block key body) = [] := by
  have hunknown := ((Validation.unknown_reported_iff h).1 hkey).2
  constructor
  · intro filters hmem
    obtain ⟨t, ht, hempty⟩ := (ofTemplate limit template).exists_emit_unknown (r := r) hunknown
      (Validation.not_isBeyond_of_lookup h hmem)
    refine ⟨t, ht, hempty, fun s hs => ?_⟩
    have hspecs : ∀ key' filters', Emission.lookup key filters = .lookup key' filters' →
        Pipeline.AreSpecs filters' := by
      rintro _ _ ⟨⟩
      exact Token.areSpecs_of_mem hmem
    obtain ⟨s', hrun, hs'⟩ := (ofTemplate limit template).comesTo_emitShared r.bindings hspecs s hs
    exact ⟨s', hrun.trans (by rw [ht]), hs'⟩
  · intro body
    rw [Emission.ofToken, r.bindings_of_not_mem hunknown]
    rfl

/-- A variable that no record has, as it is, and with a mark that is taken away again, in a
block on itself. -/
def unknownPlaces : Text :=
  "\x7b\x7b#titel\x7d\x7d\x7b\x7btitel\x7d\x7d\x7b\x7btitel|quote|dateFormat\x7d\x7d\x7b\x7b/titel\x7d\x7d".toList

theorem unknown_renders_empty_iff_unknownPlaces :
    (∃ v, Validation.ofTemplate 20 unknownPlaces = .ok v ∧
      Validation.unknownVariableText "titel".toList ∈ v.warnings) ∧
    (ofTemplate 20 unknownPlaces).emit chapterNote.bindings (.lookup "titel".toList []) = .ok [] ∧
    (ofTemplate 20 unknownPlaces).emit chapterNote.bindings
      (.lookup "titel".toList ["quote".toList, "dateFormat".toList]) = .ok [] := by
  obtain ⟨v, hv⟩ := exists_of_isOk (by decide +kernel :
    (Validation.ofTemplate 20 unknownPlaces).isOk)
  have hkey := (Validation.unknown_reported_iff hv).2
    ⟨(by decide +kernel : "titel".toList ∈ Token.keys (tokenize 20 unknownPlaces)),
      by decide +kernel⟩
  have hvariables := (unknown_renders_empty_iff hv hkey chapterNote).1
  have hempty : ∀ filters, .lookup "titel".toList filters ∈
      Token.withins (tokenize 20 unknownPlaces) → ¬ (Pipeline.ofSpecs filters).Quotes →
      (ofTemplate 20 unknownPlaces).emit chapterNote.bindings (.lookup "titel".toList filters) =
        .ok [] := by
    intro filters hmem hquotes
    obtain ⟨t, ht, hiff, _⟩ := hvariables filters hmem
    rw [ht, hiff.2 hquotes]
  exact ⟨⟨v, hv, hkey⟩, hempty _ (by decide +kernel) (by decide +kernel),
    hempty _ (by decide +kernel) (by decide +kernel)⟩

/-- An unknown variable behind a quotation. -/
def quotedUnknown : Text := "\x7b\x7bfoo|quote\x7d\x7d".toList

/-- It is reported as always empty, and renders to a bare mark in an empty record. -/
theorem unknown_renders_mark :
    ((Validation.ofTemplate 20 quotedUnknown).toOption.any fun v =>
      v.warnings.contains (Validation.unknownVariableText "foo".toList)) ∧
    .lookup "foo".toList ["quote".toList] ∈ Token.withins (tokenize 20 quotedUnknown) ∧
    (ofTemplate 20 quotedUnknown).emit ({} : Record).bindings
      (.lookup "foo".toList ["quote".toList]) = .ok ['>'] := by
  decide +kernel

end Compiled
end Marginalia
