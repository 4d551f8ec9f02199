import Marginalia.Proofs.Calendar.Day
import Marginalia.Proofs.Number.Layout
import Marginalia.Proofs.Number.Reading
import Marginalia.Proofs.Text.Strip

/-
Moments in the international notation.  A moment is written with fields of fixed width, and each
field is read back in front of whatever follows it; so a moment is read back from its text, except
for an offset of less than a second.
-/
namespace Marginalia

/-! ## Fields of fixed width -/

namespace Text

variable {n k : Nat} {c : Char}

theorem length_padded (hk : 0 < k) (h : n < 10 ^ k) : (padded k n).length = k := by
  have hlength := (length_ofNat_le_iff hk).2 h
  unfold padded
  rw [List.length_append, List.length_replicate, Nat.sub_add_cancel hlength]

theorem isBasicDigit_of_mem_padded (h : c ∈ padded k n) : isBasicDigit c := by
  rcases List.mem_append.1 h with h | h
  · rw [List.eq_of_mem_replicate h]
    rfl
  · exact isBasicDigit_of_mem_ofNat h

theorem digitsValue_padded (k n : Nat) : digitsValue (padded k n) = n := by
  unfold padded
  rw [digitsValue_append, digitsValue_zeros, digitsValue_ofNat, Nat.zero_mul, Nat.zero_add]

theorem padded_ne_nil (k n : Nat) : padded k n ≠ [] :=
  List.append_ne_nil_of_right_ne_nil _ (ofNat_ne_nil n)

theorem exists_padded (k n : Nat) : ∃ c t, padded k n = c :: t :=
  List.exists_cons_of_ne_nil (padded_ne_nil k n)

theorem isBasicDigit_of_head? {t : Text} (h : c ∈ (padded k n ++ t).head?) : isBasicDigit c := by
  rw [List.head?_append_of_ne_nil _ (padded_ne_nil k n)] at h
  exact isBasicDigit_of_mem_padded (List.mem_of_mem_head? h)

theorem isBasicDigit_of_getLast? {t : Text} (h : c ∈ (t ++ padded k n).getLast?) :
    isBasicDigit c := by
  rw [List.getLast?_append_of_ne_nil _ (padded_ne_nil k n)] at h
  exact isBasicDigit_of_mem_padded (List.mem_of_getLast? h)

end Text

namespace Iso

open Text (padded isBasicDigit digitsValue)

variable {n k hour minute second micro : Nat} {t : Text}

theorem takeDigits_append {ds : Text} (h : ∀ c ∈ ds, isBasicDigit c) (t : Text) :
    takeDigits ds.length (ds ++ t) = some (digitsValue ds, t) := by
  have hdigits : (decide (ds.length = ds.length) && ds.all isBasicDigit) = true := by
    simpa using h
  unfold takeDigits
  rw [List.take_left, List.drop_left]
  exact if_pos hdigits

theorem takeDigits_padded (hk : 0 < k) (h : n < 10 ^ k) (t : Text) :
    takeDigits k (padded k n ++ t) = some (n, t) := by
  have hdigits : ∀ c ∈ padded k n, isBasicDigit c := fun _ => Text.isBasicDigit_of_mem_padded
  have hread := takeDigits_append hdigits t
  rwa [Text.length_padded hk h, Text.digitsValue_padded] at hread

theorem takeDigits_two (h : n < 60) (t : Text) : takeDigits 2 (padded 2 n ++ t) = some (n, t) :=
  takeDigits_padded (by decide) (Nat.lt_trans h (by decide)) t

/-! ## Times of day -/

/-- Six digits behind the point, or nothing for none. -/
def fractionText (micro : Nat) : Text := if micro = 0 then [] else '.' :: padded 6 micro

theorem fraction?_padded (h : micro < 10 ^ 6) :
    fraction? (padded 6 micro) = some (micro, false) := by
  have hread := takeDigits_padded (by decide) h []
  rw [List.append_nil] at hread
  unfold fraction?
  rw [Text.length_padded (by decide) h]
  dsimp only
  rw [Nat.min_self, hread]
  simp

theorem seconds?_text (hsecond : second < 60) (hmicro : micro < 10 ^ 6) :
    seconds? true hour minute (padded 2 second ++ fractionText micro) =
      some (⟨hour, minute, second, micro⟩, false) := by
  unfold seconds?
  rw [takeDigits_two hsecond]
  unfold fractionText
  split
  · rename_i hzero
    rw [hzero]
    rfl
  · obtain ⟨c, t, hpadded⟩ := Text.exists_padded 6 micro
    have hread := fraction?_padded hmicro
    rw [hpadded] at hread ⊢
    simp [hread]

theorem time?_minutes (hhour : hour < 60) (hminute : minute < 60) :
    time? (padded 2 hour ++ ':' :: padded 2 minute) = some (⟨hour, minute, 0, 0⟩, false) := by
  obtain ⟨c, t, hpadded⟩ := Text.exists_padded 2 minute
  have hread := takeDigits_two hminute []
  rw [List.append_nil, hpadded] at hread
  unfold time?
  rw [takeDigits_two hhour, hpadded]
  simp [hread]

/-- The time of day, down to the microseconds if there are any. -/
def clockText (hour minute second micro : Nat) : Text :=
  padded 2 hour ++ ':' :: (padded 2 minute ++ ':' :: (padded 2 second ++ fractionText micro))

theorem time?_clockText (hhour : hour < 60) (hminute : minute < 60) (hsecond : second < 60)
    (hmicro : micro < 10 ^ 6) :
    time? (clockText hour minute second micro) = some (⟨hour, minute, second, micro⟩, false) := by
  obtain ⟨c, t, hpadded⟩ := Text.exists_padded 2 minute
  obtain ⟨d, u, hpadded'⟩ := Text.exists_padded 2 second
  have hread := takeDigits_two hminute (':' :: (padded 2 second ++ fractionText micro))
  have hseconds : seconds? true hour minute (padded 2 second ++ fractionText micro) =
      some (⟨hour, minute, second, micro⟩, false) := seconds?_text hsecond hmicro
  rw [hpadded, hpadded'] at hread
  rw [hpadded'] at hseconds
  unfold time? clockText
  rw [takeDigits_two hhour, hpadded, hpadded']
  simp only [List.cons_append] at hread hseconds ⊢
  simp [hread, hseconds]

/-! ## Offsets -/

open Moment (microsPerSecond microsPerDay offsetText)

variable {o : Int}

/-- An offset as it is read back: of less than a second nothing is left. -/
def readOffset (o : Int) : Int := if o.natAbs < microsPerSecond then 0 else o

theorem natAbs_readOffset_le (o : Int) : (readOffset o).natAbs ≤ o.natAbs := by
  unfold readOffset
  split
  · exact Nat.zero_le _
  · exact Nat.le_refl _

/-- The time that an offset is written as, whose seconds may be left out. -/
def offsetClock (n : Nat) : Text :=
  if n / microsPerSecond % 60 = 0 ∧ n % microsPerSecond = 0 then
    padded 2 (n / microsPerSecond / 3600) ++ ':' :: padded 2 (n / microsPerSecond / 60 % 60)
  else
    clockText (n / microsPerSecond / 3600) (n / microsPerSecond / 60 % 60)
      (n / microsPerSecond % 60) (n % microsPerSecond)

theorem offsetText_eq (o : Int) :
    offsetText o = (if o < 0 then '-' else '+') :: offsetClock o.natAbs := by
  unfold offsetText offsetClock
  dsimp only
  generalize o.natAbs / microsPerSecond = seconds
  generalize o.natAbs % microsPerSecond = micros
  by_cases hwhole : seconds % 60 = 0 ∧ micros = 0
  · simp [hwhole.1, hwhole.2]
  · simp [clockText, fractionText, hwhole]

theorem time?_offsetClock {n : Nat} (h : n < microsPerDay) : time? (offsetClock n) =
    some (⟨n / microsPerSecond / 3600, n / microsPerSecond / 60 % 60, n / microsPerSecond % 60,
      n % microsPerSecond⟩, false) := by
  have hmicros : n % microsPerSecond < 10 ^ 6 := Nat.mod_lt _ (by decide)
  have hseconds : n / microsPerSecond < 86400 := (Nat.div_lt_iff_lt_mul (by decide)).2 h
  unfold offsetClock
  generalize n / microsPerSecond = seconds at *
  generalize n % microsPerSecond = micros at *
  split
  · rename_i hwhole
    rw [hwhole.1, hwhole.2]
    exact time?_minutes (by omega) (by omega)
  · exact time?_clockText (by omega) (by omega) (by omega) hmicros

/-- Hours, minutes and seconds of an offset add up again. -/
theorem offset_eq {seconds : Nat} (h : seconds = o.natAbs / microsPerSecond) :
    (if seconds / 3600 * 3600 + seconds / 60 % 60 * 60 + seconds % 60 = 0 then 0
    else if o < 0 then
      -(((seconds / 3600 * 3600 + seconds / 60 % 60 * 60 + seconds % 60 : Nat) : Int) *
        (microsPerSecond : Int) + ((o.natAbs % microsPerSecond : Nat) : Int))
    else ((seconds / 3600 * 3600 + seconds / 60 % 60 * 60 + seconds % 60 : Nat) : Int) *
      (microsPerSecond : Int) + ((o.natAbs % microsPerSecond : Nat) : Int)) = readOffset o := by
  have hsum : seconds / 3600 * 3600 + seconds / 60 % 60 * 60 + seconds % 60 = seconds := by omega
  rw [hsum]
  unfold readOffset microsPerSecond at *
  split_ifs <;> omega

theorem mem_clockText {c : Char} (h : c ∈ clockText hour minute second micro) :
    isBasicDigit c ∨ c = ':' ∨ c = '.' := by
  have hfraction : c ∈ fractionText micro → isBasicDigit c ∨ c = '.' := by
    unfold fractionText
    split
    · nofun
    · intro h
      exact (List.mem_cons.1 h).elim .inr fun h => .inl (Text.isBasicDigit_of_mem_padded h)
  simp only [clockText, List.mem_append, List.mem_cons] at h
  rcases h with h | h | h | h | h | h
  · exact .inl (Text.isBasicDigit_of_mem_padded h)
  · exact .inr (.inl h)
  · exact .inl (Text.isBasicDigit_of_mem_padded h)
  · exact .inr (.inl h)
  · exact .inl (Text.isBasicDigit_of_mem_padded h)
  · exact (hfraction h).imp_right .inr

/-- No offset starts within a time of day. -/
theorem no_offset_of_mem_clockText {c : Char} (h : c ∈ clockText hour minute second micro) :
    (!(decide (c = '+') || decide (c = '-') || decide (c = 'Z'))) = true := by
  simp only [Bool.not_eq_true', Bool.or_eq_false_iff, decide_eq_false_iff_not]
  refine ⟨⟨?_, ?_⟩, ?_⟩
  all_goals
    rintro rfl
    exact absurd (mem_clockText h) (by decide)

theorem timeAndOffset?_text (hhour : hour < 60) (hminute : minute < 60) (hsecond : second < 60)
    (hmicro : micro < 10 ^ 6) {offset : Option Int}
    (hoffset : ∀ o ∈ offset, o.natAbs < microsPerDay) :
    timeAndOffset? (clockText hour minute second micro ++ (offset.map offsetText).getD []) =
      some (⟨hour, minute, second, micro⟩, offset.map readOffset) := by
  have hclock : ∀ c ∈ clockText hour minute second micro,
      (!(decide (c = '+') || decide (c = '-') || decide (c = 'Z'))) = true :=
    fun _ => no_offset_of_mem_clockText
  have htime := time?_clockText hhour hminute hsecond hmicro
  cases offset with
  | none =>
    have hrun := Text.run_append (u := []) hclock nofun
    unfold timeAndOffset?
    dsimp only
    rw [Option.map_none, Option.getD_none, hrun.1, hrun.2, htime]
    rfl
  | some o =>
    have htext := offsetText_eq o
    have hread := time?_offsetClock (hoffset o rfl)
    have hhead : ∀ c ∈ (offsetText o).head?,
        (!(decide (c = '+') || decide (c = '-') || decide (c = 'Z'))) = false := by
      rw [htext]
      rintro c ⟨⟩
      split <;> rfl
    have hrun := Text.run_append hclock hhead
    unfold timeAndOffset?
    dsimp only
    rw [Option.map_some, Option.getD_some, hrun.1, hrun.2, htime, htext]
    have hvalue := offset_eq (o := o) rfl
    by_cases ho : o < 0
    · rw [if_pos ho] at hvalue ⊢
      simp [hread, ← hvalue]
    · rw [if_neg ho] at hvalue ⊢
      simp [hread, ← hvalue]

/-! ## Moments -/

variable {d : Day} {m : Moment}

theorem text_day (d : Day) :
    d.text = padded 4 d.year ++ '-' :: (padded 2 d.month ++ '-' :: padded 2 d.day) := by
  simp [Day.text]

theorem length_text_day (h : d.isValid) : d.text.length = 10 := by
  obtain ⟨hyear, hmonth, hday⟩ := Day.bounds_of_isValid h
  rw [text_day]
  simp only [List.length_append, List.length_cons]
  rw [Text.length_padded (by decide) hyear, Text.length_padded (by decide) (by omega),
    Text.length_padded (by decide) (by omega)]

theorem date?_text (h : d.isValid) : date? d.text = some d := by
  obtain ⟨hyear, hmonth, hday⟩ := Day.bounds_of_isValid h
  have hread := takeDigits_two (n := d.month) (by omega) ('-' :: padded 2 d.day)
  have hread' := takeDigits_two (n := d.day) (by omega) []
  obtain ⟨c, t, hpadded⟩ := Text.exists_padded 2 d.month
  have hc : isBasicDigit c := Text.isBasicDigit_of_mem_padded (hpadded ▸ List.mem_cons_self)
  have hweek : c ≠ 'W' := by
    rintro rfl
    exact absurd hc (by decide)
  rw [List.append_nil] at hread'
  rw [hpadded, List.cons_append] at hread
  rw [text_day]
  unfold date?
  rw [takeDigits_padded (by decide) hyear, hpadded]
  simp [hread, hread', hweek]

theorem text_eq (sep : Char) (m : Moment) : m.text sep = m.day.text ++
    sep :: (clockText m.hour m.minute m.second m.micro ++ (m.offset.map offsetText).getD []) := by
  unfold Moment.text clockText fractionText
  cases m.offset <;> simp

theorem dateLength_text (h : d.isValid) (c : Char) (t : Text) :
    dateLength (d.text ++ c :: t) = 10 := by
  obtain ⟨hyear, hmonth, hday⟩ := Day.bounds_of_isValid h
  have hlength : (d.text ++ c :: t).length ≠ 7 := by
    rw [List.length_append, length_text_day h]
    omega
  have hfour := Text.length_padded (by decide) hyear
  obtain ⟨e, u, hpadded⟩ := Text.exists_padded 2 d.month
  have he : isBasicDigit e := Text.isBasicDigit_of_mem_padded (hpadded ▸ List.mem_cons_self)
  have htext : d.text ++ c :: t =
      padded 4 d.year ++ '-' :: e :: (u ++ ('-' :: padded 2 d.day) ++ c :: t) := by
    rw [text_day, hpadded]
    simp
  have hhyphen : (d.text ++ c :: t)[4]? = some '-' := by
    rw [htext, List.getElem?_append_right (Nat.le_of_eq hfour), hfour]
    rfl
  have hmonth' : (d.text ++ c :: t)[5]? = some e := by
    rw [htext, List.getElem?_append_right (by omega), hfour]
    rfl
  have hweek : e ≠ 'W' := by
    rintro rfl
    exact absurd he (by decide)
  unfold dateLength
  dsimp only
  rw [if_neg hlength]
  simp [hhyphen, hmonth', hweek]

theorem offset_lt_of_isValid (h : m.isValid) : ∀ o ∈ m.offset, o.natAbs < microsPerDay := by
  simp only [Moment.isValid, Bool.and_eq_true] at h
  intro o ho
  have hoffset := h.2
  rw [Option.mem_def.1 ho] at hoffset
  exact of_decide_eq_true hoffset

theorem isValid_readOffset (h : m.isValid) :
    ({ m with offset := m.offset.map readOffset } : Moment).isValid := by
  have hbound := offset_lt_of_isValid h
  simp only [Moment.isValid, Bool.and_eq_true] at h ⊢
  refine ⟨h.1, ?_⟩
  cases ho : m.offset with
  | none => rfl
  | some o => exact decide_eq_true (Nat.lt_of_le_of_lt (natAbs_readOffset_le o) (hbound o ho))

/-- A moment is read back from its text, whatever stands between day and time. -/
theorem read?_text (h : m.isValid) (sep : Char) :
    read? (m.text sep) = some { m with offset := m.offset.map readOffset } := by
  have hoffset := offset_lt_of_isValid h
  have hvalid := isValid_readOffset h
  simp only [Moment.isValid, Bool.and_eq_true, decide_eq_true_eq] at h
  obtain ⟨⟨⟨⟨⟨hday, hhour⟩, hminute⟩, hsecond⟩, hmicro⟩, -⟩ := h
  have hlength := length_text_day hday
  have htime := timeAndOffset?_text (Nat.lt_trans hhour (by decide)) hminute hsecond hmicro hoffset
  rw [text_eq]
  generalize clockText m.hour m.minute m.second m.micro ++ (m.offset.map offsetText).getD [] = time
    at htime
  have hlong : ¬ (m.day.text ++ sep :: time).length < 7 := by
    rw [List.length_append, hlength]
    omega
  have htake : (m.day.text ++ sep :: time).take 10 = m.day.text :=
    hlength ▸ List.take_left
  have hdrop : (m.day.text ++ sep :: time).drop 10 = sep :: time :=
    hlength ▸ List.drop_left
  unfold read?
  rw [if_neg hlong, dateLength_text hday]
  dsimp only
  rw [htake, hdrop, date?_text hday]
  simp [htime, hvalid]

/-! ### In front and at the end -/

theorem exists_clockText_append (hour minute second micro : Nat) :
    ∃ s k n, clockText hour minute second micro = s ++ padded k n := by
  unfold clockText fractionText
  split
  · exact ⟨padded 2 hour ++ ':' :: (padded 2 minute ++ [':']), 2, second, by simp⟩
  · exact ⟨padded 2 hour ++ ':' :: (padded 2 minute ++ ':' :: (padded 2 second ++ ['.'])), 6, micro,
      by simp⟩

theorem exists_offsetClock_append (n : Nat) : ∃ s k l, offsetClock n = s ++ padded k l := by
  unfold offsetClock
  split
  · exact ⟨padded 2 (n / microsPerSecond / 3600) ++ [':'], 2, n / microsPerSecond / 60 % 60,
      by simp⟩
  · exact exists_clockText_append _ _ _ _

theorem exists_text_append (sep : Char) (m : Moment) : ∃ s k n, m.text sep = s ++ padded k n := by
  rw [text_eq]
  cases m.offset with
  | none =>
    obtain ⟨s, k, n, h⟩ := exists_clockText_append m.hour m.minute m.second m.micro
    exact ⟨m.day.text ++ sep :: s, k, n, by simp [h]⟩
  | some o =>
    obtain ⟨s, k, n, h⟩ := exists_offsetClock_append o.natAbs
    exact ⟨m.day.text ++ sep :: (clockText m.hour m.minute m.second m.micro ++
      (if o < 0 then '-' else '+') :: s), k, n, by simp [offsetText_eq, h]⟩

end Iso

namespace Moment

open Text (padded)

variable {m : Moment} {t : Text}

/-- A text between two numbers is read as it stands. -/
theorem ofText?_numbers {s u : Text} {k l n o : Nat} (h : t = padded k n ++ u)
    (h' : t = s ++ padded l o) : ofText? t =
      (Iso.read? t).or (DateLayout.known.findSome? fun layout => layout.read? t) := by
  have hlast : ∀ c ∈ t.getLast?, Text.isBasicDigit c := fun c hc =>
    Text.isBasicDigit_of_getLast? (h' ▸ hc)
  have hdigit : ∀ c, Text.isBasicDigit c → Text.isSpace c = false := fun c hc =>
    Text.not_isSpace_of_isDigit (Text.isDigit_of_isBasicDigit hc)
  have htight : t.Tight := by
    constructor
    · exact fun c hc => hdigit c (Text.isBasicDigit_of_head? (h ▸ hc))
    · exact fun c hc => hdigit c (hlast c hc)
  have hzulu : t.getLast? ≠ some 'Z' := fun hz => absurd (hlast 'Z' hz) (by decide)
  have hempty : t.isEmpty = false := by
    rw [h]
    simpa using fun hnil => absurd hnil (Text.padded_ne_nil k n)
  unfold ofText?
  dsimp only
  rw [htight.strip_eq, hempty, if_neg hzulu]
  cases Iso.read? t <;> rfl

/-- A moment is read back from the text that it shows. -/
theorem ofText?_text (h : m.isValid) (sep : Char) :
    ofText? (m.text sep) = some { m with offset := m.offset.map Iso.readOffset } := by
  obtain ⟨s, k, n, hend⟩ := Iso.exists_text_append sep m
  have hstart := Iso.text_eq sep m
  rw [Iso.text_day, List.append_assoc] at hstart
  rw [ofText?_numbers hstart hend, Iso.read?_text h]
  rfl

end Moment
end Marginalia
