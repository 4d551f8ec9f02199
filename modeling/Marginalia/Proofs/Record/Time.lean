import Marginalia.Proofs.Calendar.Layout
import Marginalia.Proofs.Calendar.Mask
import Marginalia.Proofs.Record

/-
The time in a record.  It is the moment of an annotation under a mask, and it can be formatted
again like the moment itself: its text is read back to the second, and to the second is all that
a pattern shows.  A template shows the same by it as by the date and time that the annotation came
with, unless these are a number, which a template takes for the text of that number.
-/
namespace Marginalia

variable {v : Value} {m : Moment}

/-! ## Formatting twice -/

namespace Record

/-- The parts of the mask for times. -/
def timeSegments : List MaskSegment :=
  [.field .year, .literal ['/'], .field .month, .literal ['/'], .field .day, .literal [' '],
    .field .hour, .literal [':'], .field .minute, .literal [':'], .field .second]

theorem format_timeMask (m : Moment) : m.format (some timeMask) = DateLayout.slashed m := by
  have hplain : ∀ s ∈ timeSegments, s.IsPlain := by decide
  have hbraced := Moment.format_braced hplain
    ⟨.year, List.mem_cons_self⟩ m
  have hmask : timeSegments.flatMap MaskSegment.braced = timeMask := by decide
  rw [hmask] at hbraced
  rw [hbraced]
  simp [timeSegments, MaskSegment.text, DateField.text, DateLayout.slashed, Iso.clockText,
    Iso.fractionText]

end Record

theorem formatDate_text_nil (p : Option Text) : formatDate (.text []) p = .ok [] := by
  have hread : Moment.ofValue? (.text []) = .ok none := rfl
  rw [formatDate_eq, hread]
  rfl

/-- Formatting a moment goes by what it is read as, to the second. -/
theorem formatDate_of_read {t : Text} (h : Moment.ofText? t = some m) (p : Option Text) :
    formatDate (.text t) p = .ok (m.format p) := by
  have hread : Moment.ofValue? (.text t) = .ok (some m) := congrArg Except.ok h
  rw [formatDate_eq, hread]
  rfl

/-- A time can be formatted again. -/
theorem formatDate_time (hv : ∀ m, v = .moment m → m.isValid) (p : Option Text) :
    (formatDate v (some Record.timeMask)).bind (fun t => formatDate (.text t) p) =
      formatDate v p := by
  rw [formatDate_eq, formatDate_eq v p]
  cases hread : Moment.ofValue? v with
  | error e => rfl
  | ok d =>
    cases d with
    | none => exact formatDate_text_nil p
    | some m =>
      have hvalid := Moment.isValid_ofValue? hv hread
      show formatDate (.text (m.format (some Record.timeMask))) p = .ok (m.format p)
      rw [Record.format_timeMask, formatDate_of_read (Moment.ofText?_slashed hvalid),
        Moment.format_toSecond]

/-! ## Formatting what a template shows -/

/-- What an annotation may say about its date and time other than by a number. -/
def Value.IsStamp (v : Value) : Prop :=
  v.IsWritten ∨ ∃ m, v = .moment m ∧ m.isValid

theorem Value.IsStamp.isValid (h : v.IsStamp) : ∀ m, v = .moment m → m.isValid := by
  rintro m rfl
  rcases h with (h | ⟨t, h⟩) | ⟨m, h, hm⟩
  · cases h
  · cases h
  · cases h
    exact hm

theorem Value.IsStamp.exists_moment (h : v.IsStamp) : ∃ d, Moment.ofValue? v = .ok d := by
  rcases h with h | ⟨m, rfl, _⟩
  · exact Marginalia.exists_moment h
  · exact ⟨_, rfl⟩

/-- A date is formatted as well from the text that stands for it in a template. -/
theorem formatDate_templateText (h : v.IsStamp) (p : Option Text) :
    v.orEmpty.templateText.bind (fun t => formatDate (.text t) p) = formatDate v p := by
  rcases h with (rfl | ⟨t, rfl⟩) | ⟨m, rfl, hm⟩
  · exact formatDate_text_nil p
  · cases t <;> rfl
  · have hsame : ({ m with offset := m.offset.map Iso.readOffset } : Moment).toSecond =
        m.toSecond := rfl
    have htext : (Value.moment m).orEmpty.templateText = .ok (m.text ' ') := rfl
    have hread : Moment.ofValue? (.moment m) = .ok (some m) := rfl
    rw [htext, formatDate_eq (.moment m), hread]
    dsimp only [Except.bind]
    rw [formatDate_of_read (Moment.ofText?_text hm ' '), ← Moment.format_toSecond, hsame,
      Moment.format_toSecond]
    rfl

namespace Record

variable {hex : Text} {g : Group} {first : Bool} {r : Record}

theorem filterValue_dateFormat {spec : Text}
    (hspec : Filter.resolve (Filter.split spec).1 = .dateFormat) (v : Value) (filters : List Text) :
    filterValue v (spec :: filters) =
      (v.templateText.bind fun t => formatDate (.text t) (Filter.split spec).2).bind
        (Pipeline.ofSpecs filters).run := by
  have hpipeline : Pipeline.ofSpecs (spec :: filters) =
      (.dateFormat, (Filter.split spec).2) :: Pipeline.ofSpecs filters := by
    rw [← hspec]
    rfl
  unfold filterValue
  rw [hpipeline]
  cases v.templateText with
  | error e => rfl
  | ok t =>
    show (Pipeline.run _ t) = (formatDate (.text t) (Filter.split spec).2).bind _
    unfold Pipeline.run Filter.apply
    cases formatDate (.text t) (Filter.split spec).2 <;> rfl

/-- Formatting the time of a moment again is formatting the moment, whatever the pattern, and
nothing where there is no moment.  So a tag with the time in it shows the same as one with the date
and time of the annotation, where these are a text or a moment or missing. -/
theorem time_formatted_again :
    (∀ (v : Value) (p : Option Text), (∀ m, v = .moment m → m.isValid) →
      (formatDate v (some timeMask)).bind (fun t => formatDate (.text t) p) = formatDate v p) ∧
    ∀ (hex : Text) (g : Group) (first : Bool),
      (g.annotations ≠ [] → (∀ a ∈ g.annotations, a.text.IsTextual ∧ a.color.IsTextual ∧
          a.chapter.IsTextual ∧ a.datetime.IsDateLike) → ∃ r, ofGroup hex g first = .ok r) ∧
      ∀ r, ofGroup hex g first = .ok r → ∀ head ∈ g.annotations.head?, head.datetime.IsStamp →
        ∀ spec : Text, Filter.resolve (Filter.split spec).1 = .dateFormat →
          ∃ u, formatDate head.datetime (Filter.split spec).2 = .ok u ∧
            ∀ (c : Compiled) (filters : List Text), ∀ key ∈ ["time".toList, "datetime".toList],
              c.emit r.bindings (.lookup key (spec :: filters)) =
                (Pipeline.ofSpecs filters).run u := by
  refine ⟨fun v p hv => formatDate_time hv p, fun hex g first => ⟨fun hne h => ?_, ?_⟩⟩
  · exact exists_ofGroup_of_textual hne (fun a ha => (h a ha).1) (fun a ha => (h a ha).2.1)
      (fun a ha => (h a ha).2.2.2.exists_moment) fun a ha => (h a ha).2.2.1
  intro r hr head hhead hstamp spec hspec
  obtain ⟨_, head', rest, hcons, htakes⟩ := hasHead_of_ofGroup hr
  rw [hcons] at hhead
  cases hhead
  have hagain := formatDate_time hstamp.isValid (Filter.split spec).2
  obtain ⟨u, hu⟩ := exists_formatDate hstamp.exists_moment (Filter.split spec).2
  refine ⟨u, hu, fun c filters key hkey => ?_⟩
  have htime' : (r.bindings "time".toList).templateText.bind
      (fun t => formatDate (.text t) (Filter.split spec).2) = .ok u := by
    rw [htakes.time, hu] at hagain
    exact hagain
  have hdatetime' : (r.bindings "datetime".toList).templateText.bind
      (fun t => formatDate (.text t) (Filter.split spec).2) = .ok u := by
    have hvalue : r.bindings "datetime".toList = head.datetime.orEmpty := htakes.datetime
    rw [hvalue, formatDate_templateText hstamp, hu]
  rcases List.mem_cons.1 hkey with rfl | hkey
  · rw [c.emit_of_ne_note _ (by decide), filterValue_dateFormat hspec, htime']
    rfl
  · obtain rfl := List.mem_singleton.1 hkey
    rw [c.emit_of_ne_note _ (by decide), filterValue_dateFormat hspec, hdatetime']
    rfl

/-- A moment of an early year, with a fraction of a second and an offset. -/
def early : Moment := ⟨⟨33, 4, 3⟩, 15, 0, 7, 500000, some 8400000000⟩

def earlyGroup : Group := ⟨[{ datetime := .moment early }], []⟩

theorem time_formatted_again_early : early.isValid ∧
    formatDate (.moment early) (some timeMask) = .ok "0033/04/03 15:00:07".toList ∧
    formatDate (.text "0033/04/03 15:00:07".toList) (some "daily-note".toList) =
      .ok "[[0033-04-03]]".toList ∧
    ∃ r, ofGroup [] earlyGroup true = .ok r ∧ ∀ c : Compiled,
      c.emit r.bindings (.lookup "time".toList ["dateFormat:YYYY-MM".toList]) =
        .ok "0033-04".toList ∧
      c.emit r.bindings (.lookup "datetime".toList ["dateFormat:YYYY-MM".toList]) =
        .ok "0033-04".toList := by
  have hvalid : early.isValid := by decide
  have hv : ∀ m, Value.moment early = .moment m → m.isValid := by
    rintro m ⟨⟩
    exact hvalid
  obtain ⟨hagain, hgroup⟩ := time_formatted_again
  have htime : formatDate (.moment early) (some timeMask) = .ok "0033/04/03 15:00:07".toList := by
    decide +kernel
  have hnote := hagain (.moment early) (some "daily-note".toList) hv
  rw [htime] at hnote
  obtain ⟨hmade, hshown⟩ := hgroup [] earlyGroup true
  obtain ⟨r, hr⟩ := hmade (by decide)
    (List.forall_mem_singleton.2 ⟨by decide, by decide, by decide, trivial⟩)
  obtain ⟨u, hu, hemit⟩ := hshown r hr _ rfl (.inr ⟨early, rfl, hvalid⟩)
    "dateFormat:YYYY-MM".toList (by decide)
  have hmonth : formatDate (.moment early) (Filter.split "dateFormat:YYYY-MM".toList).2 =
      .ok "0033-04".toList := by decide +kernel
  obtain rfl : u = "0033-04".toList := Except.ok.inj (hu.symm.trans hmonth)
  refine ⟨hvalid, htime, hnote.trans (by decide +kernel), r, hr, fun c => ⟨?_, ?_⟩⟩
  · exact hemit c [] _ (by decide)
  · exact hemit c [] _ (by decide)

/-- An annotation that is dated by a count of seconds. -/
def countedGroup : Group := ⟨[{ datetime := .int 1704200000 }], []⟩

/-- In a template the count is the text of a number, and no date. -/
theorem time_not_as_datetime_counted : ∃ r, ofGroup [] countedGroup true = .ok r ∧
    ∀ c : Compiled,
      c.emit r.bindings (.lookup "time".toList ["dateFormat:YYYY".toList]) = .ok "2024".toList ∧
      c.emit r.bindings (.lookup "datetime".toList ["dateFormat:YYYY".toList]) = .ok [] := by
  have hmade : ∃ r, ofGroup [] countedGroup true = .ok r :=
    exists_ofGroup_of_textual (by decide) (by decide) (by decide)
      (List.forall_mem_singleton.2 ⟨_, rfl⟩) (by decide)
  obtain ⟨r, hr⟩ := hmade
  obtain ⟨_, head, rest, hcons, htakes⟩ := hasHead_of_ofGroup hr
  cases hcons
  have hvalue : r.bindings "datetime".toList = .int 1704200000 := htakes.datetime
  have hvalue' : r.bindings "time".toList = .text "2024/01/02 12:53:20".toList := by
    have hshown : formatDate (.int 1704200000) (some timeMask) =
        .ok "2024/01/02 12:53:20".toList := by decide +kernel
    exact congrArg Value.text (Except.ok.inj (htakes.time.symm.trans hshown))
  refine ⟨r, hr, fun c => ⟨?_, ?_⟩⟩
  · rw [c.emit_of_ne_note _ (by decide), hvalue']
    decide +kernel
  · rw [c.emit_of_ne_note _ (by decide), hvalue]
    decide +kernel

end Record
end Marginalia
