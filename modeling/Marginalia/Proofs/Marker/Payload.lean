import Marginalia.Proofs.Annotation.Loading
import Marginalia.Proofs.Marker.Ends
import Marginalia.Proofs.Record

/-
The payload of an annotation.  Its fields are texts, whole numbers and positions, so
it is found as it was written exactly when none of them holds the end of a payload.
-/
namespace Marginalia

/-! ## What goes into a marker -/

namespace Value

/-- Nothing, a text that is as `P` asks, or a whole number. -/
inductive IsField (P : Text → Prop) : Value → Prop
  | absent : IsField P .null
  | text {t : Text} : P t → IsField P (.text t)
  | int {n : Int} : IsShort n → IsField P (.int n)

/-- A field, or whole numbers under distinct keys that are as `P` asks. -/
inductive IsPosition (P : Text → Prop) : Value → Prop
  | field {v : Value} : v.IsField P → IsPosition P v
  | map {es : List (Text × Int)} : (es.map (·.1)).Nodup →
      (∀ e ∈ es, P e.1 ∧ IsShort e.2) →
      IsPosition P (Json.object (es.map fun e => (e.1, .int e.2)))

end Value

/-- An annotation whose marker has texts only as `P` asks. -/
structure Annotation.IsMarkable (P : Text → Prop) (a : Annotation) : Prop where
  pageno : Value.IsShort a.pageno
  id : a.id.IsField P
  pageref : a.pageref.IsField P
  pos0 : a.pos0.IsPosition P
  pos1 : a.pos1.IsPosition P
  datetime : a.datetime.IsField P
  color : a.color.IsField P
  drawer : a.drawer.IsField P

/-- Text and note are texts, if they are there. -/
def Annotation.IsWorded (a : Annotation) : Prop := a.text.IsWritten ∧ a.note.IsWritten

variable {P Q : Text → Prop} {v : Value} {a : Annotation}

theorem Value.IsField.mono (h : v.IsField P) (hPQ : ∀ t, P t → Q t) : v.IsField Q := by
  cases h with
  | absent => exact .absent
  | text ht => exact .text (hPQ _ ht)
  | int hn => exact .int hn

theorem Value.IsPosition.mono (h : v.IsPosition P) (hPQ : ∀ t, P t → Q t) : v.IsPosition Q := by
  cases h with
  | field hv => exact .field (hv.mono hPQ)
  | map hkeys hes => exact .map hkeys fun e he => ⟨hPQ _ (hes e he).1, (hes e he).2⟩

/-- Where a field is asked for, a position is one. -/
theorem Value.IsField.of_isPosition (h : v.IsField Q) (hv : v.IsPosition P) : v.IsField P := by
  cases hv with
  | field hv => exact hv
  | map => cases h

theorem Annotation.IsMarkable.mono (h : a.IsMarkable P) (hPQ : ∀ t, P t → Q t) :
    a.IsMarkable Q where
  pageno := h.pageno
  id := h.id.mono hPQ
  pageref := h.pageref.mono hPQ
  pos0 := h.pos0.mono hPQ
  pos1 := h.pos1.mono hPQ
  datetime := h.datetime.mono hPQ
  color := h.color.mono hPQ
  drawer := h.drawer.mono hPQ

namespace Marker

/-! ## Fields -/

def isSet : Value → Bool
  | .null => false
  | _ => true

def fields (a : Annotation) (id : Value) : List (String × Value) :=
  [("v", .int 1), ("id", id), ("p", .int a.pageno), ("pr", a.pageref), ("pos0", a.pos0),
    ("pos1", a.pos1), ("t", a.datetime), ("c", a.color), ("d", a.drawer)]

/-- The fields that are set, under their names. -/
def setFields (a : Annotation) (id : Value) : List (Text × Value) :=
  ((fields a id).filter fun e => isSet e.2).map fun e => (e.1.toList, e.2)

/-- The identifier that is written for an annotation. -/
def writtenId (a : Annotation) : Except Fault Value :=
  if a.id.isTruthy then pure a.id else .text <$> contentId a

theorem payload_eq (a : Annotation) :
    payload a = writtenId a >>= fun id => Json.write (Json.object (setFields a id)) := by
  have hentries : ∀ id, Json.object (setFields a id) =
      .map (((fields a id).filter fun e => isSet e.2).map fun e => (.text e.1.toList, e.2)) :=
    fun id => congrArg Value.map List.map_map
  unfold payload writtenId
  split <;> simp only [hentries] <;> rfl

variable {id : Value} {p : Text}

theorem key_of_mem_setFields {e : Text × Value} (h : e ∈ setFields a id) :
    e.1 ∈ (fields a id).map fun e => e.1.toList := by
  obtain ⟨x, hx, rfl⟩ := List.mem_map.1 h
  exact List.mem_map_of_mem (List.mem_of_mem_filter hx)

theorem nodup_setFields (a : Annotation) (id : Value) : ((setFields a id).map (·.1)).Nodup := by
  have hsub : ((setFields a id).map (·.1)).Sublist ((fields a id).map fun e => e.1.toList) := by
    rw [setFields, List.map_map]
    exact List.filter_sublist.map _
  have hkeys : ["v".toList, "id".toList, "p".toList, "pr".toList, "pos0".toList, "pos1".toList,
      "t".toList, "c".toList, "d".toList].Nodup := by decide
  exact hkeys.sublist hsub

theorem holdsEnd_key {e : Text × Value} (h : e ∈ setFields a id) : holdsEnd e.1 = false := by
  have hkeys : ∀ k ∈ ["v".toList, "id".toList, "p".toList, "pr".toList, "pos0".toList,
      "pos1".toList, "t".toList, "c".toList, "d".toList], holdsEnd k = false := by decide
  exact hkeys _ (key_of_mem_setFields h)

theorem isPosition_setFields (h : a.IsMarkable P) (hid : id.IsField P) :
    ∀ e ∈ setFields a id, isSet e.2 ∧ e.2.IsPosition P := by
  have hall : ∀ e ∈ fields a id, e.2.IsPosition P := by
    unfold fields
    simp only [List.forall_mem_cons]
    have hversion : Value.IsShort 1 := Value.isShort_of_lt (by decide)
    exact ⟨.field (.int hversion), .field hid, .field (.int h.pageno), .field h.pageref, h.pos0,
      h.pos1, .field h.datetime, .field h.color, .field h.drawer, nofun⟩
  intro e he
  obtain ⟨x, hx, rfl⟩ := List.mem_map.1 he
  exact ⟨(List.mem_filter.1 hx).2, hall x (List.mem_of_mem_filter hx)⟩

theorem isPosition_of_setFields (h : ∀ e ∈ setFields a id, e.2.IsPosition P) {e : String × Value}
    (he : e ∈ fields a id) : e.2.IsPosition P := by
  by_cases hset : isSet e.2
  · exact h (e.1.toList, e.2) (List.mem_map_of_mem (List.mem_filter.2 ⟨he, hset⟩))
  · have hnull : e.2 = .null := by
      unfold isSet at hset
      split at hset
      · assumption
      · exact absurd rfl hset
    rw [hnull]
    exact .field .absent

/-! ## Identifiers -/

theorem contentId_avoids_brace {t : Text} (h : contentId a = .ok t) : '}' ∉ t := by
  obtain ⟨s, _, h⟩ := exists_of_bind_eq_ok h
  cases h
  intro hmem
  obtain ⟨w, _, hw⟩ := List.mem_flatMap.1 (List.mem_of_mem_take hmem)
  exact hex_avoids_brace 8 w.toNat hw

/-- The identifier is the annotation's own, or one without braces. -/
theorem writtenId_cases (h : writtenId a = .ok id) :
    id = a.id ∨ ¬ a.id.isTruthy ∧ ∃ t, id = .text t ∧ '}' ∉ t := by
  unfold writtenId at h
  split at h
  · exact .inl (Except.ok.inj h).symm
  · rename_i htruthy
    cases hid : contentId a with
    | error e =>
      rw [hid] at h
      cases h
    | ok t =>
      rw [hid] at h
      cases h
      exact .inr ⟨htruthy, t, rfl, contentId_avoids_brace hid⟩

theorem isField_writtenId (h : writtenId a = .ok id) (ha : a.id.IsField P)
    (hP : ∀ t, '}' ∉ t → P t) : id.IsField P := by
  rcases writtenId_cases h with rfl | ⟨_, t, rfl, ht⟩
  · exact ha
  · exact .text (hP t ht)

/-- An own identifier that is not written is empty. -/
theorem isField_id (h : a.id.IsField Q) (hid : writtenId a = .ok id) (hv : id.IsPosition P)
    (hnil : P []) : a.id.IsField P := by
  rcases writtenId_cases hid with rfl | ⟨htruthy, _⟩
  · exact h.of_isPosition hv
  · generalize a.id = v at h htruthy
    cases h with
    | absent => exact .absent
    | @text t _ =>
      obtain rfl : t = [] := by simpa [Value.isTruthy] using htruthy
      exact .text hnil
    | int hn => exact .int hn

/-- The other way round, what is asked of the written fields is asked of all. -/
theorem isMarkable_of_setFields (h : a.IsMarkable Q) (hid : writtenId a = .ok id) (hnil : P [])
    (hes : ∀ e ∈ setFields a id, e.2.IsPosition P) : a.IsMarkable P := by
  have hall : ∀ e ∈ fields a id, e.2.IsPosition P := fun e he => isPosition_of_setFields hes he
  unfold fields at hall
  simp only [List.forall_mem_cons] at hall
  obtain ⟨_, hid', _, hpageref, hpos0, hpos1, hdatetime, hcolor, hdrawer, _⟩ := hall
  exact ⟨h.pageno, isField_id h.id hid hid' hnil, h.pageref.of_isPosition hpageref, hpos0, hpos1,
    h.datetime.of_isPosition hdatetime, h.color.of_isPosition hcolor,
    h.drawer.of_isPosition hdrawer⟩

/-! ## How payloads are found -/

/-- No payload ends inside a text. -/
def NoEnd (t : Text) : Prop := holdsEnd t = false

theorem noEnd_of_not_mem (t : Text) (h : '}' ∉ t) : NoEnd t := holdsEnd_of_not_mem h

theorem noEnd_of_mem {es : List (Text × Value)}
    (h : (Json.object es).IsPosition NoEnd) : ∀ e ∈ es, NoEnd e.1 := by
  generalize hv : Json.object es = v at h
  cases h with
  | field h => cases h <;> cases hv
  | map _ hes =>
    rw [Json.object_injective hv]
    intro e he
    obtain ⟨x, hx, rfl⟩ := List.mem_map.1 he
    exact (hes x hx).1

theorem sealedIff_position (h : v.IsPosition fun _ => True) (hset : isSet v) :
    SealedIff (v.IsPosition NoEnd) v := by
  cases h with
  | field h =>
    cases h with
    | absent => cases hset
    | @text t _ =>
      refine (sealedIff_text t).congr ⟨fun ht => .field (.text ht), fun hv => ?_⟩
      cases hv with
      | field hv => cases hv with | text ht => exact ht
    | int hn => exact (sealedIff_int _).congr ⟨fun _ => .field (.int hn), fun _ => trivial⟩
  | @map es hkeys hes =>
    have hkeys' : ((es.map fun e => (e.1, Value.int e.2)).map (·.1)).Nodup := by
      rwa [List.map_map]
    have hvalues : ∀ e ∈ es.map fun e => (e.1, Value.int e.2), SealedIff True e.2 := by
      intro e he
      obtain ⟨x, _, rfl⟩ := List.mem_map.1 he
      exact sealedIff_int x.2
    have hobject := sealedIff_object hkeys' hvalues
    refine hobject.congr ⟨fun hv => ?_, fun hv e he => ⟨noEnd_of_mem hv e he, trivial⟩⟩
    exact .map hkeys fun e he =>
      ⟨(hv (e.1, .int e.2) (List.mem_map_of_mem he)).1, (hes e he).2⟩

/-- What is written for an annotation, and where a payload ends in it. -/
theorem sealedIff_setFields (h : a.IsMarkable fun _ => True) (hid : writtenId a = .ok id) :
    SealedIff (a.IsMarkable NoEnd) (Json.object (setFields a id)) := by
  have hfields := isPosition_setFields h (isField_writtenId hid h.id fun _ _ => trivial)
  have hobject : SealedIff (∀ e ∈ setFields a id, holdsEnd e.1 = false ∧ e.2.IsPosition NoEnd)
      (Json.object (setFields a id)) :=
    sealedIff_object (nodup_setFields a id) fun e he =>
      sealedIff_position (hfields e he).2 (hfields e he).1
  refine hobject.congr ⟨fun hes => ?_, fun ha e he => ⟨holdsEnd_key he, ?_⟩⟩
  · exact isMarkable_of_setFields h hid rfl fun e he => (hes e he).2
  · exact (isPosition_setFields ha (isField_writtenId hid ha.id noEnd_of_not_mem) e he).2

/-- A payload without an end inside is found as it was written. -/
theorem isWhole_payload (h : a.IsMarkable NoEnd) (hp : payload a = .ok p) : IsWhole p := by
  rw [payload_eq] at hp
  obtain ⟨id, hid, hp⟩ := exists_of_bind_eq_ok hp
  have hfields := isPosition_setFields h (isField_writtenId hid h.id noEnd_of_not_mem)
  refine isWhole_object (fun e he => ⟨holdsEnd_key he, ?_⟩) hp
  obtain ⟨hset, hposition⟩ := hfields e he
  exact (sealedIff_position (hposition.mono fun _ _ => trivial) hset).isSealed hposition

theorem exists_setFields (h : a.IsMarkable fun _ => True) (hp : payload a = .ok p) :
    ∃ id, writtenId a = .ok id ∧ Json.write (Json.object (setFields a id)) = .ok p ∧
      Json.read? p = some (Json.object (setFields a id)) := by
  rw [payload_eq] at hp
  obtain ⟨id, hid, hp⟩ := exists_of_bind_eq_ok hp
  exact ⟨id, hid, hp, Json.read?_written (sealedIff_setFields h hid).readsBack hp⟩

/-- The object of a payload is written as it was. -/
theorem renewed_payload (h : a.IsMarkable fun _ => True) (hp : payload a = .ok p)
    (style : MarkerStyle) (whole : Text) : renewed style p whole = .ok (wrap style p) := by
  obtain ⟨id, _, hwrite, hread⟩ := exists_setFields h hp
  unfold renewed
  rw [hread]
  show (Json.write (Json.object (setFields a id)) >>= fun t => .ok (wrap style t)) = _
  rw [hwrite]
  rfl

/-- A payload with an end inside is found up to there, and holds no value. -/
theorem exists_cut_payload (h : a.IsMarkable fun _ => True) (hend : ¬ a.IsMarkable NoEnd)
    (hp : payload a = .ok p) (style : MarkerStyle) (rest : Text) :
    ∃ b r : Text, match? (wrap style p ++ rest) = some (b, r) ∧ Json.read? b = none := by
  rw [payload_eq] at hp
  obtain ⟨id, hid, hp⟩ := exists_of_bind_eq_ok hp
  exact match?_of_leaks ((sealedIff_setFields h hid).leaks hend) hp style rest

/-! ## That payloads are written -/

theorem exists_fieldText (h : v.IsData) : ∃ t, fieldText v = .ok t := by
  have hshown := h.exists_shown
  cases h with
  | null => exact ⟨_, rfl⟩
  | map hkeys hes => exact Json.exists_write (.map hkeys hes)
  | bool => exact hshown
  | int => exact hshown
  | float => exact hshown
  | text => exact hshown
  | list => exact hshown

theorem exists_foldedText (h : v.IsData) : ∃ t, foldedText v = .ok t :=
  exists_bind_eq_ok h.orEmpty.exists_shown fun _ _ => ⟨_, rfl⟩

theorem exists_contentId (h : a.IsData) : ∃ t, contentId a = .ok t := by
  obtain ⟨text, htext⟩ := exists_foldedText h.text
  obtain ⟨note, hnote⟩ := exists_foldedText h.note
  obtain ⟨pos0, hpos0⟩ := exists_fieldText h.pos0
  obtain ⟨pos1, hpos1⟩ := exists_fieldText h.pos1
  obtain ⟨page, hpage⟩ := Value.exists_wholeText h.pageno
  unfold contentId identity
  rw [htext, hnote, hpos0, hpos1, hpage]
  exact ⟨_, rfl⟩

theorem exists_writtenId (h : a.IsData) : ∃ id, writtenId a = .ok id := by
  unfold writtenId
  split
  · exact ⟨_, rfl⟩
  · obtain ⟨t, ht⟩ := exists_contentId h
    rw [ht]
    exact ⟨_, rfl⟩

theorem isData_writtenId (h : a.IsData) (hid : writtenId a = .ok id) : id.IsData := by
  rcases writtenId_cases hid with rfl | ⟨_, t, rfl, _⟩
  · exact h.id
  · exact .text t

theorem isData_setFields (h : a.IsData) (hid : id.IsData) :
    (Json.object (setFields a id)).IsData := by
  have hall : ∀ e ∈ fields a id, e.2.IsData := by
    have hversion : Value.IsShort 1 := Value.isShort_of_lt (by decide)
    unfold fields
    simp only [List.forall_mem_cons]
    exact ⟨.int hversion, hid, .int h.pageno, h.pageref, h.pos0, h.pos1,
      h.datetime, h.color, h.drawer, nofun⟩
  refine .map (fun e he => ?_) fun e he => ?_ <;> obtain ⟨f, hf, rfl⟩ := List.mem_map.1 he
  · exact ⟨f.1, rfl⟩
  · obtain ⟨x, hx, rfl⟩ := List.mem_map.1 hf
    exact hall x (List.mem_of_mem_filter hx)

theorem exists_payload (h : a.IsData) : ∃ p, payload a = .ok p := by
  rw [payload_eq]
  refine exists_bind_eq_ok (exists_writtenId h) fun id hid => ?_
  exact Json.exists_write (isData_setFields h (isData_writtenId h hid))

end Marker

theorem Value.IsField.isData (h : v.IsField P) : v.IsData := by
  cases h with
  | absent => exact .null
  | text => exact .text _
  | int hn => exact .int hn

theorem Value.IsPosition.isData (h : v.IsPosition P) : v.IsData := by
  cases h with
  | field h => exact h.isData
  | map _ hes =>
    refine .map (fun e he => ?_) fun e he => ?_ <;> obtain ⟨f, hf, rfl⟩ := List.mem_map.1 he
    · exact ⟨f.1, rfl⟩
    · obtain ⟨x, hx, rfl⟩ := List.mem_map.1 hf
      exact .int (hes x hx).2

theorem Value.IsWritten.isData (h : v.IsWritten) : v.IsData := by
  obtain rfl | ⟨t, rfl⟩ := h
  · exact .null
  · exact .text t

/-- What is written into the marker of an annotation is data. -/
theorem Annotation.IsMarkable.isData (h : a.IsMarkable P) (hw : a.IsWorded) : a.IsData where
  text := hw.1.isData
  datetime := h.datetime.isData
  pageno := h.pageno
  note := hw.2.isData
  color := h.color.isData
  drawer := h.drawer.isData
  pageref := h.pageref.isData
  pos0 := h.pos0.isData
  pos1 := h.pos1.isData
  id := h.id.isData

namespace Marker

/-- A marker is found whole, and all fields that are set are read from it. -/
def IsRecovered (a : Annotation) : Prop :=
  ∃ id p, writtenId a = .ok id ∧ payload a = .ok p ∧ IsWhole p ∧
    Json.read? p = some (Json.object (setFields a id))

theorem isRecovered_iff (h : a.IsMarkable fun _ => True) (hw : a.IsWorded) :
    IsRecovered a ↔ a.IsMarkable NoEnd := by
  constructor
  · rintro ⟨id, p, _, hp, hwhole, hread⟩
    by_contra hend
    obtain ⟨b, r, hmatch, hnone⟩ := exists_cut_payload h hend hp .html []
    rw [hwhole .html []] at hmatch
    cases hmatch
    rw [hread] at hnone
    cases hnone
  · intro hend
    obtain ⟨p, hp⟩ := exists_payload (h.isData hw)
    obtain ⟨id, hid, _, hread⟩ := exists_setFields h hp
    exact ⟨id, p, hid, hp, isWhole_payload hend hp, hread⟩

/-! ## Markers of several annotations -/

/-- The payloads of some annotations. -/
def Payloads (as : List Annotation) (ps : List Text) : Prop :=
  List.Forall₂ (fun a p => payload a = .ok p) as ps

theorem exists_payloads {as : List Annotation} (h : ∀ a ∈ as, a.IsData) :
    ∃ ps, Payloads as ps := by
  induction as with
  | nil => exact ⟨[], .nil⟩
  | cons a as ih =>
    obtain ⟨ha, has⟩ := List.forall_mem_cons.1 h
    obtain ⟨p, hp⟩ := exists_payload ha
    obtain ⟨ps, hps⟩ := ih has
    exact ⟨p :: ps, .cons hp hps⟩

theorem Payloads.createAll {as : List Annotation} {ps : List Text} (h : Payloads as ps)
    (style : MarkerStyle) :
    createAll style as = .ok (Text.join ['\n'] (ps.map (wrap style))) := by
  have heach : createEach style as = .ok (ps.map (wrap style)) := by
    induction h with
    | nil => rfl
    | cons hp _ ih =>
      unfold createEach create
      rw [hp, ih]
      rfl
  unfold Marker.createAll
  rw [heach]
  rfl

theorem Payloads.isWhole {as : List Annotation} {ps : List Text} (h : Payloads as ps)
    (hend : ∀ a ∈ as, a.IsMarkable NoEnd) : ∀ p ∈ ps, IsWhole p := by
  induction h with
  | nil => nofun
  | cons hp _ ih =>
    obtain ⟨ha, has⟩ := List.forall_mem_cons.1 hend
    exact List.forall_mem_cons.2 ⟨isWhole_payload ha hp, ih has⟩

end Marker
end Marginalia
