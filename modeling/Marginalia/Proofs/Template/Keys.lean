import Marginalia.Proofs.Template.Memory
import Marginalia.Record
import Marginalia.Template.Validation

/-
What a template reads of a record.  Its keys are those of its variables and of its blocks, at
any depth: a record decides through the keys of blocks which variables are put out, and
through the keys of these what they are.  So records that agree on the keys of a template
render to the same, and a template that is reported to lack a variable never shows it.
-/
namespace Marginalia

/-! ## Keys of a sequence -/

namespace Token

variable {key : Text} {filters : List Text} {ts : List Token}

theorem keys_text (v : Text) (ts : List Token) : keys (.text v :: ts) = keys ts := by
  rw [keys, keys, withins_text, List.filterMap_cons_none]
  rfl

theorem keys_lookup (key : Text) (filters : List Text) (ts : List Token) :
    keys (.lookup key filters :: ts) = key :: keys ts := by
  rw [keys, keys, withins_lookup, List.filterMap_cons_some]
  rfl

theorem keys_block (key : Text) (body ts : List Token) :
    keys (.block key body :: ts) = key :: (keys body ++ keys ts) := by
  rw [keys, keys, keys, withins_block, List.filterMap_cons_some, List.filterMap_append]
  rfl

theorem mem_keys_of_lookup (h : .lookup key filters ∈ withins ts) : key ∈ keys ts :=
  List.mem_filterMap.2 ⟨_, h, rfl⟩

end Token

/-! ## Records that agree on the keys -/

namespace Emission

open Token (keys)

/-- The same variables and texts are put out, where the same keys count as present. -/
theorem ofTokens_congr {b b' : Bindings} {ts : List Token}
    (h : ∀ k ∈ keys ts, (b k).isTruthy = (b' k).isTruthy) : ofTokens b ts = ofTokens b' ts := by
  cases ts with
  | nil => rfl
  | cons t rest =>
    cases t with
    | text v =>
      rw [Token.keys_text] at h
      rw [ofTokens, ofTokens, ofTokens_congr h]
      rfl
    | lookup key filters =>
      rw [Token.keys_lookup, List.forall_mem_cons] at h
      rw [ofTokens, ofTokens, ofTokens_congr h.2]
      rfl
    | block key body =>
      rw [Token.keys_block, List.forall_mem_cons, List.forall_mem_append] at h
      obtain ⟨hkey, hbody, hrest⟩ := h
      rw [ofTokens, ofTokens, ofToken, ofToken, hkey, ofTokens_congr hbody, ofTokens_congr hrest]

theorem mem_keys_of_ofTokens {b : Bindings} {ts : List Token} {key : Text} {filters : List Text}
    (h : .lookup key filters ∈ ofTokens b ts) : key ∈ keys ts :=
  Token.mem_keys_of_lookup (mem_withins_of_ofTokens h)

end Emission

namespace Compiled

variable {c c' : Compiled} {b b' : Bindings}

/-- Two templates come to the same on two records, by themselves and in every state of a run,
with a memory of pipelines or without one. -/
structure RendersAs (c : Compiled) (b : Bindings) (c' : Compiled) (b' : Bindings) : Prop where
  alone : c.render b = c'.render b'
  shared : c.renderShared b = c'.renderShared b'

theorem emitAll_congr {es : List Emission}
    (h : ∀ key filters, .lookup key filters ∈ es → c.variableText b key = c'.variableText b' key) :
    c.emitAll b es = c'.emitAll b' es ∧ c.emitAllShared b es = c'.emitAllShared b' es := by
  induction es with
  | nil => exact ⟨rfl, rfl⟩
  | cons e rest ih =>
    obtain ⟨hrest, hshared⟩ := ih fun key filters hmem => h key filters (.tail _ hmem)
    have hfirst : c.emit b e = c'.emit b' e ∧ c.emitShared b e = c'.emitShared b' e := by
      cases e with
      | literal t => exact ⟨rfl, rfl⟩
      | lookup key filters =>
        have hkey := h key filters (.head _)
        rw [emit, emit, emitShared, emitShared, hkey]
        exact ⟨rfl, rfl⟩
    rw [emitAll, emitAll, emitAllShared, emitAllShared, hfirst.1, hfirst.2, hrest, hshared]
    exact ⟨rfl, rfl⟩

/-- What is put out, and the texts of its variables, are all that a rendering shows. -/
theorem rendersAs_of_emissions (hes : c.emissions b = c'.emissions b')
    (h : ∀ key filters, .lookup key filters ∈ c.emissions b →
      c.variableText b key = c'.variableText b' key) : c.RendersAs b c' b' := by
  obtain ⟨halone, hshared⟩ := emitAll_congr h
  unfold emissions at hes
  constructor
  · rw [render, render, emissions, emissions, ← hes]
    exact halone
  · rw [renderShared, renderShared, emissions, emissions, ← hes]
    exact hshared

theorem rendersAs_of_keys (h : ∀ k ∈ Token.keys c.tokens, b k = b' k) : c.RendersAs b c b' := by
  have htruthy : ∀ k ∈ Token.keys c.tokens, (b k).isTruthy = (b' k).isTruthy :=
    fun k hk => congrArg Value.isTruthy (h k hk)
  refine rendersAs_of_emissions (Emission.ofTokens_congr htruthy) fun key filters hmem => ?_
  rw [variableText, variableText, h key (Emission.mem_keys_of_ofTokens hmem)]

end Compiled

/-! ## Variables that are reported as missing -/

namespace Validation

open Token (keys)

/-- What a template may be reported to lack, with the variables one of which is meant. -/
def required : List (Text × List Text) :=
  [("Missing required variable: \x7b\x7bhighlight\x7d\x7d or \x7b\x7bhighlightPlain\x7d\x7d".toList,
      ["highlight".toList, "highlightPlain".toList]),
    ("Missing required variable: \x7b\x7bpageno\x7d\x7d".toList, ["pageno".toList])]

theorem not_mem_of_missing {known : List Text} {report : Text × List Text}
    (hreport : report ∈ required) (h : report.1 ∈ (missing known).map (·.1)) :
    ∀ k ∈ report.2, k ∉ known := by
  unfold missing at h
  rw [List.map_append, List.mem_append] at h
  rcases List.mem_pair.1 hreport with rfl | rfl
  · rcases h with h | h
    · split at h
      · cases h
      · rename_i hnone
        simpa using hnone
    · split at h
      · cases h
      · exact absurd (List.mem_singleton.1 h) (by decide)
  · rcases h with h | h
    · split at h
      · cases h
      · exact absurd (List.mem_singleton.1 h) (by decide)
    · split at h
      · cases h
      · rename_i hnone
        simpa using hnone

theorem not_mem_keys_of_error {limit : Int} {template : Text} {v : Validation}
    (h : ofTemplate limit template = .ok v) {report : Text × List Text}
    (hreport : report ∈ required) (herror : report.1 ∈ v.errors) :
    ∀ k ∈ report.2, k ∉ keys (tokenize limit template) := by
  obtain ⟨ws, _, hv⟩ := exists_of_bind_eq_ok h
  cases hv
  rcases List.mem_append.1 herror with herror | herror
  · exact not_mem_of_missing hreport herror
  · -- the names of unknown filters stand in other words
    obtain ⟨name, _, hname⟩ := List.mem_map.1 herror
    have hhead := congrArg List.head? hname
    rcases List.mem_pair.1 hreport with rfl | rfl
    · simp at hhead
    · simp at hhead

end Validation

namespace Compiled

/-- Records that agree on the keys of a template render to the same; and a template that is
reported to lack a variable renders to the same whatever that variable is. -/
theorem rendersAs_by_keys (limit : Int) (template : Text) :
    (∀ b b' : Bindings, (∀ k ∈ Token.keys (tokenize limit template), b k = b' k) →
      (ofTemplate limit template).RendersAs b (ofTemplate limit template) b') ∧
    ∀ v, Validation.ofTemplate limit template = .ok v →
      ∀ report ∈ Validation.required, report.1 ∈ v.errors →
        ∀ b b' : Bindings, (∀ k, k ∉ report.2 → b k = b' k) →
          (ofTemplate limit template).RendersAs b (ofTemplate limit template) b' := by
  refine ⟨fun b b' h => rendersAs_of_keys h, fun v hv report hreport herror b b' h => ?_⟩
  refine rendersAs_of_keys fun k hk => h k fun hmeant => ?_
  exact Validation.not_mem_keys_of_error hv hreport herror k hmeant hk

/-- The title of a chapter, where there is a note; without a page or a text. -/
def titleOnly : Text :=
  "\x7b\x7b#note\x7d\x7d\x7b\x7b#chapter\x7d\x7d\x7b\x7bchapter|upper\x7d\x7d\x7b\x7b/chapter\x7d\x7d\x7b\x7b/note\x7d\x7d".toList

/-- A note in a chapter, on a page. -/
def chapterNote : Record := { note := "n".toList, chapter := "One".toList, pageno := .int 7 }

/-- The same note and chapter in a mapping. -/
def chapterMapping : Bindings := fun key =>
  if key = "note".toList then .text "n".toList
  else if key = "chapter".toList then .text "One".toList
  else .null

/-- A record and a mapping that share a note and a chapter; and one record on two pages. -/
theorem rendersAs_by_keys_titleOnly :
    (∀ k ∈ Token.keys (tokenize 2 titleOnly), chapterNote.bindings k = chapterMapping k) ∧
      (ofTemplate 2 titleOnly).RendersAs chapterNote.bindings (ofTemplate 2 titleOnly)
        chapterMapping ∧
      Validation.ofTemplate 2 titleOnly =
        .ok ⟨(Validation.missing []).map (·.1), [], (Validation.missing []).map (·.2)⟩ ∧
      (ofTemplate 2 titleOnly).RendersAs chapterNote.bindings (ofTemplate 2 titleOnly)
        { chapterNote with pageno := .int 8 }.bindings := by
  have hagree : ∀ k ∈ Token.keys (tokenize 2 titleOnly),
      chapterNote.bindings k = chapterMapping k := by
    have hkeys : Token.keys (tokenize 2 titleOnly) =
        ["note".toList, "chapter".toList, "chapter".toList] := by decide +kernel
    rw [hkeys]
    simp only [List.forall_mem_cons]
    exact ⟨rfl, rfl, rfl, nofun⟩
  have hv : Validation.ofTemplate 2 titleOnly =
      .ok ⟨(Validation.missing []).map (·.1), [], (Validation.missing []).map (·.2)⟩ := by
    decide +kernel
  have hpage : ∀ k, k ∉ ["pageno".toList] →
      chapterNote.bindings k = { chapterNote with pageno := .int 8 }.bindings k := by
    intro k hk
    have hne : (k == "pageno".toList) = false := by simpa using hk
    simp only [Record.bindings, Record.entries, List.lookup_cons, hne]
  obtain ⟨hrecords, hreported⟩ := rendersAs_by_keys 2 titleOnly
  refine ⟨hagree, hrecords _ _ hagree, hv, ?_⟩
  have hreport : ("Missing required variable: \x7b\x7bpageno\x7d\x7d".toList,
      ["pageno".toList]) ∈ Validation.required := .tail _ (.head _)
  exact hreported _ hv _ hreport (by decide +kernel) _ _ hpage

end Compiled
end Marginalia
