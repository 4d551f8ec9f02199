import Marginalia.Annotation.Basic
import Marginalia.Proofs.Json.Data
import Marginalia.Proofs.Number.Spelling

/-
Annotations as they are loaded.  Of the fields only the page is looked at, so any data may
be in the others.  A page may be a number or a text, and the text goes through a number in
floating point, so that the two are the same page only as far as those are exact.
-/
namespace Marginalia
namespace Annotation

/-- The fields that are written as they are, which the chapter is not, hold data. -/
structure IsData (a : Annotation) : Prop where
  text : a.text.IsData
  datetime : a.datetime.IsData
  pageno : Value.IsShort a.pageno
  note : a.note.IsData
  color : a.color.IsData
  drawer : a.drawer.IsData
  pageref : a.pageref.IsData
  pos0 : a.pos0.IsData
  pos1 : a.pos1.IsData
  id : a.id.IsData

variable {v : Value} {n : Int}

theorem isShort_of_wholePage {x : Binary64} (hx : x.InRange) {shown : Text}
    (h : wholePage x shown = .ok n) : Value.IsShort n := by
  unfold wholePage at h
  split at h
  · rename_i hwhole
    cases h
    split at hwhole
    · exact hx.isShort hwhole
    · cases hwhole
  · cases h

theorem isShort_of_page (hv : v.IsData) (h : page v = .ok n) : Value.IsShort n := by
  cases hv with
  | null =>
    cases h
    exact Value.isShort_of_lt (by decide)
  | bool => cases h
  | int hn =>
    cases h
    exact hn
  | float hx => exact isShort_of_wholePage hx h
  | text t =>
    unfold page at h
    dsimp only at h
    split at h
    · rename_i hread
      exact isShort_of_wholePage (Decimal.inRange_of_read? hread) h
    · cases h
  | list => cases h
  | map => cases h

theorem isData_lookup {es : List (Value × Value)} (hes : ∀ e ∈ es, e.2.IsData) (key : Text)
    (hv : v.IsData) : ((Value.lookup key es).getD v).IsData := by
  induction es with
  | nil => exact hv
  | cons e es ih =>
    obtain ⟨he, hrest⟩ := List.forall_mem_cons.1 hes
    unfold Value.lookup
    split
    · rename_i hnil
      cases hnil
    · rename_i hcons
      cases hcons
      split
      · exact he
      · exact ih hrest
    · rename_i hcons
      cases hcons
      exact ih hrest

theorem isData_of_ofEntries {es : List (Value × Value)} (hes : ∀ e ∈ es, e.2.IsData)
    {a : Annotation} (h : ofEntries es = .ok a) : a.IsData := by
  obtain ⟨pageno, hpage, h⟩ := exists_of_bind_eq_ok h
  cases h
  have hfield := fun key => isData_lookup hes key .null
  have htext := fun key => isData_lookup hes key (.text [])
  exact {
    text := htext _
    datetime := htext _
    pageno := isShort_of_page (hfield _) hpage
    note := hfield _
    color := hfield _
    drawer := hfield _
    pageref := hfield _
    pos0 := hfield _
    pos1 := hfield _
    id := hfield _ }

theorem isData_of_ofList {vs : List Value} (hvs : ∀ v ∈ vs, v.IsData) {as : List Annotation}
    (h : ofList vs = .ok as) : ∀ a ∈ as, a.IsData := by
  induction vs generalizing as with
  | nil =>
    cases h
    nofun
  | cons v vs ih =>
    obtain ⟨hv, hrest⟩ := List.forall_mem_cons.1 hvs
    cases hv with
    | map _ hes =>
      obtain ⟨a, ha, h⟩ := exists_of_bind_eq_ok h
      obtain ⟨bs, hbs, h⟩ := exists_of_bind_eq_ok h
      cases h
      exact List.forall_mem_cons.2 ⟨isData_of_ofEntries hes ha, ih hrest hbs⟩
    | null => exact ih hrest h
    | bool => exact ih hrest h
    | int => exact ih hrest h
    | float => exact ih hrest h
    | text => exact ih hrest h
    | list => exact ih hrest h

/-- The annotations loaded from interchange text. -/
theorem isData_of_read {t : Text} {raw : List Value} (hread : Json.read? t = some (.list raw))
    {as : List Annotation} (h : ofList raw = .ok as) : ∀ a ∈ as, a.IsData := by
  have hraw := Json.isData_of_read? hread
  cases hraw with
  | list hraw => exact isData_of_ofList hraw h

/-! ## Pages that are written as texts -/

/-- A page as a text: its numeral of fewer than 300 digits, perhaps with a zero behind a point,
and blanks around it. -/
structure PageText where
  number : Int
  length_lt : (Text.ofNat number.natAbs).length < 300
  before : Text
  hasPoint : Bool
  after : Text
  isBlank_before : Text.isBlank before
  isBlank_after : Text.isBlank after

/-- The nearest whole number of 53 significant bits, on the same side of zero. -/
def nearestPage (n : Int) : Int := Binary64.signedUnits (n < 0) (roundSignificand n.natAbs 1)

theorem nearestPage_eq_self_iff {n : Int} : nearestPage n = n ↔ IsSignificand n.natAbs := by
  rw [← roundSignificand_eq_self_iff]
  unfold nearestPage Binary64.signedUnits
  by_cases hn : n < 0
  · rw [if_pos (by simpa using hn)]
    omega
  · rw [if_neg (by simpa using hn)]
    omega

theorem wholePage_finite {u m : Nat} (hmod : u % Binary64.one = 0) (hdiv : u / Binary64.one = m)
    (negative : Bool) (shown : Text) :
    wholePage (.finite negative u) shown = .ok (Binary64.signedUnits negative m) := by
  unfold wholePage Binary64.isWhole Binary64.truncate?
  simp [hmod, hdiv]

namespace PageText

variable {p : PageText}

def text (p : PageText) : Text :=
  p.before ++ ((toString p.number).toList ++ (if p.hasPoint then ['.', '0'] else []) ++ p.after)

/-- The blanks are such as a number may be padded with. -/
def IsPlain (p : PageText) : Prop := (p.before ++ p.after).any Text.isInformationSeparator = false

instance : DecidablePred IsPlain := fun p =>
  inferInstanceAs (Decidable ((p.before ++ p.after).any Text.isInformationSeparator = false))

/-- The page can be read back from the text. -/
structure IsExact (p : PageText) : Prop where
  isPlain : p.IsPlain
  isSignificand : IsSignificand p.number.natAbs

/-- The numeral without its sign. -/
def numeral (p : PageText) : Decimal.Numeral where
  whole := Text.ofNat p.number.natAbs
  fraction := if p.hasPoint then some ['0'] else none
  exponent := none
  ne_nil := Text.ofNat_ne_nil _
  areDigits := fun _ hc => Text.isDigit_of_isBasicDigit (Text.isBasicDigit_of_mem_ofNat hc)
  areFraction := by
    intro ds hds c hc
    rw [Option.mem_def, Option.ite_none_right_eq_some] at hds
    cases hds.2
    cases List.mem_singleton.1 hc
    rfl

theorem fraction_numeral (p : PageText) :
    p.numeral.fraction = if p.hasPoint then some ['0'] else none := rfl

theorem text_eq (p : PageText) : p.text =
    p.before ++ (Decimal.signText (p.number < 0) ++ p.numeral.text ++ p.after) := by
  have hnumeral : p.numeral.text =
      Text.ofNat p.number.natAbs ++ (if p.hasPoint then ['.', '0'] else []) := by
    unfold Decimal.Numeral.text Decimal.Numeral.tail
    rw [fraction_numeral]
    cases p.hasPoint <;> rfl
  unfold text Decimal.signText
  rw [Value.toList_toString, hnumeral]
  by_cases hneg : p.number < 0
  · simp [hneg]
  · simp [hneg]

theorem value_numeral (p : PageText) : p.numeral.value = p.number.natAbs := by
  have hplaces : Text.digitsValue p.numeral.places = 0 := by
    unfold Decimal.Numeral.places
    rw [fraction_numeral]
    cases p.hasPoint <;> rfl
  have hwhole : Text.digitsValue p.numeral.whole = p.number.natAbs := Text.digitsValue_ofNat _
  unfold Decimal.Numeral.value
  rw [hplaces, hwhole, Nat.cast_zero, zero_div, add_zero]
  show (p.number.natAbs : ℚ) * 10 ^ (0 : Int) = p.number.natAbs
  rw [zpow_zero, mul_one]

theorem lt_overflow (p : PageText) : p.number.natAbs < Binary64.overflow := by
  -- The exponent is a variable, since a power of this size is left to the kernel.
  obtain ⟨k, hk⟩ : ∃ k, k = 299 := ⟨_, rfl⟩
  have hlarge : Nat.pow 10 k < Binary64.overflow := by
    rw [hk]
    decide +kernel
  have hlength : (Text.ofNat p.number.natAbs).length ≤ k := by
    rw [hk]
    exact Nat.le_of_lt_succ p.length_lt
  exact Nat.lt_trans ((Text.length_ofNat_le_iff (by omega)).1 hlength) hlarge

theorem read?_text (hplain : p.IsPlain) :
    Decimal.read? p.text = some (.finite (p.number < 0)
      (roundSignificand p.number.natAbs 1 * Binary64.one)) := by
  have hrange : (p.number.natAbs : ℚ) < Binary64.overflow := Nat.cast_lt.2 p.lt_overflow
  rw [text_eq, Decimal.read?_blank p.isBlank_before p.isBlank_after hplain,
    Decimal.Numeral.read?_signed, value_numeral, if_pos hrange, Binary64.units_natCast_eq]

theorem read?_text_of_not_isPlain (hplain : ¬ p.IsPlain) : Decimal.read? p.text = none := by
  obtain ⟨c, hc, hseparator⟩ := List.any_eq_true.1 (Bool.eq_true_of_not_eq_false hplain)
  refine Decimal.read?_of_separator (c := c) ?_ hseparator
  unfold text
  rw [List.mem_append, List.mem_append]
  exact (List.mem_append.1 hc).imp_right .inr

/-- A page is read from its text as the nearest one, or not at all. -/
theorem page_text (p : PageText) : page (.text p.text) =
    if p.IsPlain then .ok (nearestPage p.number)
    else .error (.pageNotNumber (Text.quoted p.text)) := by
  unfold page
  dsimp only
  by_cases hplain : p.IsPlain
  · rw [read?_text hplain, if_pos hplain]
    exact wholePage_finite (Nat.mul_mod_left _ _) (Nat.mul_div_cancel _ Binary64.pos_one) _ _
  · rw [read?_text_of_not_isPlain hplain, if_neg hplain]

theorem page_text_eq_iff (p : PageText) :
    page (.text p.text) = .ok p.number ↔ p.IsExact := by
  rw [page_text]
  constructor
  · intro h
    split at h
    · rename_i hplain
      exact ⟨hplain, nearestPage_eq_self_iff.1 (Except.ok.inj h)⟩
    · cases h
  · intro h
    rw [if_pos h.isPlain, nearestPage_eq_self_iff.2 h.isSignificand]

end PageText

/-! ## Exports -/

variable {p : PageText} {es fs : List (Value × Value)} {ps : List PageText} {vs ws : List Value}

/-- Records that differ in the page alone, which is a number in one and its text in the other. -/
structure Rewrites (p : PageText) (es fs : List (Value × Value)) : Prop where
  number : Value.lookup "pageno".toList es = some (.int p.number)
  text : Value.lookup "pageno".toList fs = some (.text p.text)
  others : ∀ key, key ≠ "pageno".toList → Value.lookup key fs = Value.lookup key es

/-- Exports of the same, some pages of which are numbers in one and texts in the other. -/
inductive Rewritten : List PageText → List Value → List Value → Prop
  | nil : Rewritten [] [] []
  | kept {ps : List PageText} {v : Value} {vs ws : List Value} :
      (∃ as, ofList [v] = .ok as) → Rewritten ps vs ws → Rewritten ps (v :: vs) (v :: ws)
  | page {p : PageText} {ps : List PageText} {es fs : List (Value × Value)} {vs ws : List Value} :
      Rewrites p es fs → Rewritten ps vs ws → Rewritten (p :: ps) (.map es :: vs) (.map fs :: ws)

/-- What is loaded from the records differs in the page alone. -/
theorem Rewrites.exists_ofEntries (h : Rewrites p es fs) : ∃ a, a.pageno = p.number ∧
    ofEntries es = .ok a ∧
    ofEntries fs = (page (.text p.text)).map fun n => { a with pageno := n } := by
  have hes : ∃ a, ofEntries es = .ok a ∧ a.pageno = p.number := by
    unfold ofEntries
    dsimp only
    rw [h.number]
    exact ⟨_, rfl, rfl⟩
  obtain ⟨a, ha, hpage⟩ := hes
  refine ⟨a, hpage, ha, ?_⟩
  unfold ofEntries at ha ⊢
  dsimp only at ha ⊢
  rw [h.number] at ha
  cases ha
  simp (disch := decide) only [h.text, h.others, Option.getD_some]
  cases page (.text p.text) <;> rfl

theorem ofList_map_cons_eq_ok_iff {a : Annotation} {as : List Annotation} :
    ofList (.map es :: vs) = .ok (a :: as) ↔ ofEntries es = .ok a ∧ ofList vs = .ok as := by
  constructor
  · intro h
    obtain ⟨b, hb, h⟩ := exists_of_bind_eq_ok h
    obtain ⟨bs, hbs, h⟩ := exists_of_bind_eq_ok h
    cases h
    exact ⟨hb, hbs⟩
  · rintro ⟨ha, has⟩
    unfold ofList
    rw [ha, has]
    rfl

/-- The record loads the same with its page as a text, if the page can be read back. -/
theorem Rewrites.exists_ofEntries_iff (h : Rewrites p es fs) : ∃ a, ofEntries es = .ok a ∧
    (ofEntries fs = .ok a ↔ page (.text p.text) = .ok p.number) := by
  obtain ⟨a, hpage, hes, hfs⟩ := h.exists_ofEntries
  refine ⟨a, hes, ?_⟩
  rw [hfs, ← hpage]
  cases page (.text p.text) with
  | error e => exact ⟨nofun, nofun⟩
  | ok n =>
    constructor
    · exact fun heq => congrArg (Except.map Annotation.pageno) heq
    · intro heq
      cases heq
      rfl

/-- An export that is loaded is loaded the same with pages as texts, if all of them can be
read back. -/
theorem Rewritten.exists_ofList_iff (h : Rewritten ps vs ws) :
    ∃ as, ofList vs = .ok as ∧ (ofList ws = .ok as ↔ ∀ p ∈ ps, p.IsExact) := by
  induction h with
  | nil => exact ⟨[], rfl, iff_of_true rfl nofun⟩
  | @kept ps v vs ws hv _ ih =>
    obtain ⟨as, hvs, hws⟩ := ih
    cases v with
    | map es =>
      obtain ⟨bs, hbs⟩ := hv
      obtain ⟨a, ha, -⟩ := exists_of_bind_eq_ok hbs
      refine ⟨a :: as, ofList_map_cons_eq_ok_iff.2 ⟨ha, hvs⟩, ?_⟩
      rw [ofList_map_cons_eq_ok_iff, and_iff_right ha, hws]
    | _ => exact ⟨as, hvs, hws⟩
  | page hrewrites _ ih =>
    obtain ⟨as, hvs, hws⟩ := ih
    obtain ⟨a, hes, hfs⟩ := hrewrites.exists_ofEntries_iff
    refine ⟨a :: as, ofList_map_cons_eq_ok_iff.2 ⟨hes, hvs⟩, ?_⟩
    rw [ofList_map_cons_eq_ok_iff, hfs, hws, PageText.page_text_eq_iff, List.forall_mem_cons]

/-- A page as a number is taken as it is.  As a text it is taken as the nearest whole number of
53 significant bits, whatever blanks are around it but the separators of information, with which
it is refused.  So it is the same page if nothing is rounded, and an export loads the same with
pages as texts if that is so for all of them. -/
theorem pages_written_as_texts (p : PageText) (h : Rewritten ps vs ws) :
    page (.int p.number) = .ok p.number ∧
      page (.text p.text) = (if p.IsPlain then .ok (nearestPage p.number)
        else .error (.pageNotNumber (Text.quoted p.text))) ∧
      (page (.text p.text) = .ok p.number ↔ p.IsExact) ∧
      ∃ as, ofList vs = .ok as ∧ (ofList ws = .ok as ↔ ∀ p ∈ ps, p.IsExact) :=
  ⟨rfl, p.page_text, p.page_text_eq_iff, h.exists_ofList_iff⟩

/-- The page 12 with blanks around it. -/
def paddedTwelve : PageText where
  number := 12
  length_lt := by decide
  before := ['\t']
  hasPoint := true
  after := ['\r', '\n']
  isBlank_before := rfl
  isBlank_after := rfl

theorem isExact_paddedTwelve : paddedTwelve.IsExact := ⟨by decide, 12, 0, rfl, by decide⟩

theorem pages_written_as_texts_paddedTwelve :
    page (.text "\t12.0\r\n".toList) = .ok 12 ∧
      ∃ as, ofList [.map [(.text "pageno".toList, .int 12)]] = .ok as ∧
        ofList [.map [(.text "pageno".toList, .text "\t12.0\r\n".toList)]] = .ok as := by
  have hrewritten : Rewritten [paddedTwelve] [.map [(.text "pageno".toList, .int 12)]]
      [.map [(.text "pageno".toList, .text "\t12.0\r\n".toList)]] := by
    refine .page { number := rfl, text := rfl, others := ?_ } .nil
    intro key hkey
    unfold Value.lookup
    rw [if_neg hkey.symm, if_neg hkey.symm]
  obtain ⟨_, _, hpage, as, hnumbers, htexts⟩ :=
    pages_written_as_texts paddedTwelve hrewritten
  exact ⟨hpage.2 isExact_paddedTwelve, as, hnumbers,
    htexts.2 (List.forall_mem_singleton.2 isExact_paddedTwelve)⟩

/-- A page of 54 bits. -/
def oddPage : PageText where
  number := 9007199254740993
  length_lt := by decide
  before := []
  hasPoint := false
  after := []
  isBlank_before := List.all_nil
  isBlank_after := List.all_nil

/-- Beyond 53 bits an odd page is another one as a text, and with a separator of information in
front none is read. -/
theorem page_text_differs :
    page (.int 9007199254740993) = .ok 9007199254740993 ∧
    page (.text "9007199254740993".toList) = .ok 9007199254740992 ∧
    page (.int 12) = .ok 12 ∧
    page (.text "\x1c12".toList) = .error (.pageNotNumber "'\\x1c12'".toList) := by
  refine ⟨rfl, ?_, rfl, rfl⟩
  have htext : oddPage.text = "9007199254740993".toList := rfl
  have hplain : oddPage.IsPlain := rfl
  have hpage : nearestPage oddPage.number = 9007199254740992 := by decide
  rw [← htext, PageText.page_text, if_pos hplain, hpage]

end Annotation
end Marginalia
