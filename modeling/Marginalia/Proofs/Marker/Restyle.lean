import Marginalia.Proofs.Marker.Payload

/-
Bringing markers into one style.  What stands between markers stays, and a marker is
written anew unless its payload was cut off.
-/
namespace Marginalia

/-- The word that asks for a style. -/
def MarkerStyle.name : MarkerStyle → Text
  | .html => "html".toList
  | .percent => "md".toList

namespace Marker

variable {style target : MarkerStyle} {a : Annotation} {as : List Annotation} {p t rest : Text}

theorem convert_name (target : MarkerStyle) (t : Text) :
    convert target.name t = restyle target t := by
  cases target <;> rfl

theorem restyle_text (h : Text.holds word t = false) (hrest : AtOpening rest) :
    restyle target (t ++ rest) = t ++ restyle target rest :=
  replace_text h hrest

theorem restyle_eq_self (h : Text.holds word t = false) : restyle target t = t :=
  replace_eq_self h

theorem restyle_wrap (h : a.IsMarkable NoEnd) (hp : payload a = .ok p) :
    restyle target (wrap style p ++ rest) = wrap target p ++ restyle target rest := by
  have hrenewed := renewed_payload (h.mono fun _ _ => trivial) hp target (wrap style p)
  unfold restyle
  rw [replace_wrap (isWhole_payload h hp), hrenewed]

/-- A marker whose payload is cut off keeps the start of its comment. -/
theorem exists_restyle_cut (h : a.IsMarkable fun _ => True) (hend : ¬ a.IsMarkable NoEnd)
    (hp : payload a = .ok p) (target : MarkerStyle) (rest : Text) :
    ∃ s, restyle target (wrap .html p ++ rest) = '<' :: s := by
  obtain ⟨b, r, hmatch, hread⟩ := exists_cut_payload h hend hp .html rest
  obtain ⟨w, hw, heq⟩ := exists_of_match? hmatch
  obtain ⟨c, w, rfl⟩ := List.exists_cons_of_ne_nil hw
  have hopen := wrap_append .html p rest
  have hrenewed : renewed target b (c :: w) = .ok (c :: w) := by
    unfold renewed
    rw [hread]
  rw [heq] at hmatch hopen ⊢
  unfold restyle
  rw [replace_match hw hmatch, hrenewed]
  obtain rfl : c = '<' := (List.cons.inj hopen).1
  exact ⟨_, rfl⟩

/-! ## Documents -/

/-- The marker of an annotation, and the text behind it. -/
structure Passage where
  style : MarkerStyle
  annotation : Annotation
  text : Text

def Passage.inStyle (target : MarkerStyle) (x : Passage) : Passage := { x with style := target }

/-- A text with passages behind it. -/
def document (before : Text) : List Passage → Except Fault Text
  | [] => .ok before
  | x :: rest => do
    let m ← create x.style x.annotation
    let t ← document x.text rest
    .ok (before ++ (m ++ t))

variable {before : Text} {xs : List Passage} {x : Passage}

theorem document_cons (before : Text) (x : Passage) (xs : List Passage) :
    document before (x :: xs) = payload x.annotation >>= fun p =>
      (fun t => before ++ (wrap x.style p ++ t)) <$> document x.text xs := by
  rw [document]
  unfold create
  cases payload x.annotation with
  | error e => rfl
  | ok p => cases document x.text xs <;> rfl

theorem exists_document
    (h : ∀ x ∈ xs, x.annotation.IsMarkable ('}' ∉ ·) ∧ x.annotation.IsWorded) (before : Text) :
    ∃ t, document before xs = .ok t := by
  induction xs generalizing before with
  | nil => exact ⟨before, rfl⟩
  | cons x xs ih =>
    obtain ⟨hx, hxs⟩ := List.forall_mem_cons.1 h
    obtain ⟨p, hp⟩ := exists_payload (hx.1.isData hx.2)
    obtain ⟨t, ht⟩ := ih hxs x.text
    rw [document_cons, hp, ht]
    exact ⟨_, rfl⟩

/-- Only the markers of a document are brought into the style asked for, and they are
the markers that would have been written in it. -/
theorem convert_document (target : MarkerStyle) (hbefore : Text.holds word before = false)
    (h : ∀ x ∈ xs, x.annotation.IsMarkable ('}' ∉ ·) ∧ Text.holds word x.text = false) :
    convert target.name <$> document before xs = document before (xs.map (·.inStyle target)) ∧
      ((∀ x ∈ xs, x.annotation.IsWorded) → ∃ t, document before xs = .ok t) := by
  refine ⟨?_, fun hw => exists_document (fun x hx => ⟨(h x hx).1, hw x hx⟩) before⟩
  induction xs generalizing before with
  | nil =>
    show Except.ok (convert target.name before) = .ok before
    rw [convert_name, restyle_eq_self hbefore]
  | cons x xs ih =>
    obtain ⟨⟨hx, htext⟩, hxs⟩ := List.forall_mem_cons.1 h
    rw [List.map_cons, document_cons, document_cons]
    show _ = payload x.annotation >>= fun p => (fun t => before ++ (wrap target p ++ t)) <$>
      document x.text (xs.map (·.inStyle target))
    rw [← ih htext hxs]
    -- a marker that cannot be written stops both documents alike
    cases hp : payload x.annotation with
    | error e => rfl
    | ok p =>
      cases document x.text xs with
      | error e => rfl
      | ok t =>
        show Except.ok (convert target.name (before ++ (wrap x.style p ++ t))) =
          .ok (before ++ (wrap target p ++ convert target.name t))
        rw [convert_name, convert_name, restyle_text hbefore (atOpening_wrap x.style p t),
          restyle_wrap (hx.mono noEnd_of_not_mem) hp]

/-- Signs of comments and braces between the markers, and a position in parts. -/
def signPassages : List Passage :=
  [{ style := .percent
     annotation :=
      { pageno := 7
        id := .text "a %% b".toList
        pos0 := .map [(.text "x -->".toList, .int 3), (.text "y".toList, .int (-4))] }
     text := " --> \x7d %% KO".toList },
    { style := .html
      annotation := { note := .text "late".toList, datetime := .text "\"\n".toList }
      text := "%%HL <!--".toList }]

theorem convert_document_signPassages :
    Text.holds word "%%".toList = false ∧
    (∀ x ∈ signPassages, x.annotation.IsMarkable ('}' ∉ ·) ∧ Text.holds word x.text = false) ∧
    convert MarkerStyle.html.name <$> document "%%".toList signPassages =
        document "%%".toList (signPassages.map (·.inStyle .html)) ∧
      ((∀ x ∈ signPassages, x.annotation.IsWorded) →
        ∃ t, document "%%".toList signPassages = .ok t) := by
  have h : ∀ x ∈ signPassages,
      x.annotation.IsMarkable ('}' ∉ ·) ∧ Text.holds word x.text = false := by
    have hshort : ∀ n : Int, n.natAbs < 10 → Value.IsShort n := fun _ => Value.isShort_of_lt
    have hpos0 : Value.IsPosition ('}' ∉ ·)
        (.map [(.text "x -->".toList, .int 3), (.text "y".toList, .int (-4))]) := by
      refine @Value.IsPosition.map _ [("x -->".toList, 3), ("y".toList, -4)] (by decide) ?_
      simp only [List.forall_mem_cons]
      exact ⟨⟨by decide, hshort 3 (by decide)⟩, ⟨by decide, hshort (-4) (by decide)⟩, nofun⟩
    simp only [signPassages, List.forall_mem_cons]
    exact ⟨⟨⟨hshort 7 (by decide), .text (by decide), .absent, hpos0, .field .absent,
        .text (by decide), .absent, .absent⟩, by decide⟩,
      ⟨⟨hshort 0 (by decide), .absent, .absent, .field .absent, .field .absent,
        .text (by decide), .absent, .absent⟩, by decide⟩, nofun⟩
  exact ⟨by decide, h, convert_document .html (by decide) h⟩

/-! ## Markers by themselves -/

variable {ps : List Text} {u : Text}

theorem restyle_break (p t : Text) :
    restyle target ('\n' :: (wrap style p ++ t)) = '\n' :: restyle target (wrap style p ++ t) :=
  replace_break p t

theorem restyle_lines (h : Payloads as ps) (hend : ∀ a ∈ as, a.IsMarkable NoEnd) :
    restyle target (lines style ps) = lines target ps := by
  induction h with
  | nil => rfl
  | @cons a p as ps hp _ ih =>
    obtain ⟨ha, has⟩ := List.forall_mem_cons.1 hend
    show restyle target ('\n' :: (wrap style p ++ lines style ps)) =
      '\n' :: (wrap target p ++ lines target ps)
    rw [restyle_break, restyle_wrap ha hp, ih has]

/-- A marker is brought into the other style, and what follows it with it, only if
its payload is not cut off. -/
theorem restyle_wrap_iff (h : a.IsMarkable fun _ => True) (hp : payload a = .ok p) :
    restyle .percent (wrap .html p ++ t) = wrap .percent p ++ u ↔
      a.IsMarkable NoEnd ∧ restyle .percent t = u := by
  by_cases hend : a.IsMarkable NoEnd
  · rw [restyle_wrap hend hp, List.append_cancel_left_eq]
    exact (and_iff_right hend).symm
  · obtain ⟨s, hs⟩ := exists_restyle_cut h hend hp .percent t
    rw [hs, wrap_append]
    exact ⟨fun heq => absurd (List.cons.inj heq).1 (by decide), fun hand => absurd hand.1 hend⟩

theorem restyle_lines_iff (h : Payloads as ps) (hall : ∀ a ∈ as, a.IsMarkable fun _ => True) :
    restyle .percent (lines .html ps) = lines .percent ps ↔ ∀ a ∈ as, a.IsMarkable NoEnd := by
  induction h with
  | nil => exact ⟨fun _ => nofun, fun _ => rfl⟩
  | @cons a p as ps hp _ ih =>
    obtain ⟨ha, has⟩ := List.forall_mem_cons.1 hall
    show restyle .percent ('\n' :: (wrap .html p ++ lines .html ps)) =
      '\n' :: (wrap .percent p ++ lines .percent ps) ↔ _
    rw [restyle_break, List.cons.injEq, eq_self, true_and, restyle_wrap_iff ha hp, ih has,
      List.forall_mem_cons]

/-- Markers of annotations can be written in each style.  They go over into one another
exactly when no payload has an end inside, and these are the payloads that are read
back. -/
theorem convert_createAll_iff (h : ∀ a ∈ as, a.IsMarkable (fun _ => True) ∧ a.IsWorded) :
    ∃ markers : MarkerStyle → Text, (∀ style, createAll style as = .ok (markers style)) ∧
      ((∀ style target : MarkerStyle, convert target.name (markers style) = markers target) ↔
        ∀ a ∈ as, a.IsMarkable NoEnd) ∧
      ∀ a ∈ as, (IsRecovered a ↔ a.IsMarkable NoEnd) := by
  obtain ⟨ps, hps⟩ := exists_payloads fun a ha => (h a ha).1.isData (h a ha).2
  refine ⟨_, hps.createAll, ?_, fun a ha => isRecovered_iff (h a ha).1 (h a ha).2⟩
  simp only [convert_name]
  cases hps with
  | nil => exact ⟨fun _ => nofun, fun _ _ _ => rfl⟩
  | @cons a p as ps hp hps =>
    obtain ⟨ha, has⟩ := List.forall_mem_cons.1 h
    simp only [List.map_cons, Text.join_cons, List.forall_mem_cons]
    show (∀ style target, restyle target (wrap style p ++ lines style ps) =
      wrap target p ++ lines target ps) ↔ _
    constructor
    · intro hrestyle
      rw [← restyle_lines_iff hps fun a ha => (has a ha).1]
      exact (restyle_wrap_iff ha.1 hp).1 (hrestyle .html .percent)
    · rintro ⟨hend, hends⟩ style target
      rw [restyle_wrap hend hp, restyle_lines hps hends]

/-- The first is recovered, the second is not. -/
def percentAnnotations : List Annotation :=
  [{ pageno := 7, id := .text "a\x7d%".toList, pageref := .int 8 },
    { color := .text "x\x7d %% y".toList }]

theorem convert_percentAnnotations :
    (∀ a ∈ percentAnnotations, a.IsMarkable (fun _ => True) ∧ a.IsWorded) ∧
    ∃ markers : MarkerStyle → Text,
      (∀ style, createAll style percentAnnotations = .ok (markers style)) ∧
      ((∀ style target : MarkerStyle, convert target.name (markers style) = markers target) ↔
        ∀ a ∈ percentAnnotations, a.IsMarkable NoEnd) ∧
      ∀ a ∈ percentAnnotations, (IsRecovered a ↔ a.IsMarkable NoEnd) := by
  have h : ∀ a ∈ percentAnnotations, a.IsMarkable (fun _ => True) ∧ a.IsWorded := by
    simp only [percentAnnotations, List.forall_mem_cons]
    have hfirst : Value.IsShort 7 := Value.isShort_of_lt (by decide)
    have hsecond : Value.IsShort 0 := Value.isShort_of_lt (by decide)
    have hpageref : Value.IsShort 8 := Value.isShort_of_lt (by decide)
    refine ⟨⟨⟨hfirst, .text trivial, .int hpageref, .field .absent, .field .absent,
        .text trivial, .absent, .absent⟩, .inr ⟨_, rfl⟩, .inl rfl⟩,
      ⟨⟨hsecond, .absent, .absent, .field .absent, .field .absent, .text trivial,
        .text trivial, .absent⟩, .inr ⟨_, rfl⟩, .inl rfl⟩, nofun⟩
  exact ⟨h, convert_createAll_iff h⟩

/-- An identifier that holds a closing brace, a blank and the end of a comment. -/
theorem convert_createAll_cut : ∃ m n : Text,
    createAll .html [{ pageno := 1, id := .text "\x7d -->".toList }] = .ok m ∧
      createAll .percent [{ pageno := 1, id := .text "\x7d -->".toList }] = .ok n ∧
      convert MarkerStyle.percent.name m ≠ n := by
  refine ⟨"<!-- KOHL \x7b\"v\":1,\"id\":\"\x7d -->\",\"p\":1,\"t\":\"\"\x7d -->".toList,
    "%% KOHL \x7b\"v\":1,\"id\":\"\x7d -->\",\"p\":1,\"t\":\"\"\x7d %%".toList, ?_, ?_, ?_⟩
  · decide +kernel
  · decide +kernel
  · decide +kernel

end Marker
end Marginalia
