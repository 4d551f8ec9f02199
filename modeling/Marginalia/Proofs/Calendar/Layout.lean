import Marginalia.Proofs.Calendar.Iso
import Marginalia.Proofs.Number.Spelling

/-
Moments with slashes in the day.  Day and time to the second, as a mask puts them, are no moment
of the international notation and fit only one of the everyday layouts; by it the same day and
time are read, so that formatting them again is formatting the moment itself.
-/
namespace Marginalia
namespace DateLayout

open Text (padded isBasicDigit digitsValue)

/-! ## Numbers of fixed width -/

variable {ds t : Text} {n : Nat} {f : Fields}

/-- Each digit is in its class. -/
def fits (classes : List (Char → Bool)) (ds : Text) : Bool :=
  (classes.zip ds).all fun (p, c) => p c

theorem number_append {classes : List (Char → Bool)} (h : ds.length = classes.length) (t : Text) :
    number classes (ds ++ t) = if fits classes ds then [(digitsValue ds, t)] else [] := by
  have hfull : ∀ b : Bool, (decide (ds.length = ds.length) && b) = b := fun b => by simp
  unfold number fits
  dsimp only
  rw [← h, List.take_left, List.drop_left, hfull]

/-- The first of the ways to read a number, among those that take all of its digits. -/
theorem head?_numbers {ways : List (List (Char → Bool))}
    (hlength : ∀ w ∈ ways, ds.length = w.length) (h : ways.any (fits · ds)) (t : Text) :
    (ways.flatMap (number · (ds ++ t))).head? = some (digitsValue ds, t) := by
  induction ways with
  | nil => cases h
  | cons w ways ih =>
    rw [List.flatMap_cons, number_append (hlength w List.mem_cons_self)]
    by_cases hw : fits w ds
    · rw [if_pos hw]
      rfl
    · rw [if_neg hw]
      rw [List.any_cons, Bool.or_eq_true] at h
      exact ih (fun w hw => hlength w (List.mem_cons_of_mem _ hw)) (h.resolve_left hw)

theorem head?_padded {ways : List (List (Char → Bool))} (hn : n < 60)
    (hlength : ∀ w ∈ ways, w.length = 2) (h : ways.any (fits · (padded 2 n))) (t : Text) :
    (ways.flatMap (number · (padded 2 n ++ t))).head? = some (n, t) := by
  have hpadded : (padded 2 n).length = 2 :=
    Text.length_padded (by decide) (Nat.lt_trans hn (by decide))
  have hhead := head?_numbers (fun w hw => hpadded.trans (hlength w hw).symm) h t
  rwa [Text.digitsValue_padded] at hhead

theorem head?_monthNumbers (h : 1 ≤ n ∧ n ≤ 12) (t : Text) :
    (monthNumbers (padded 2 n ++ t)).head? = some (n, t) := by
  let ways := [[(decide <| · = '1'), among '0' '2'], [(decide <| · = '0'), among '1' '9']]
  have hfits : ∀ n < 13, 1 ≤ n → ways.any (fits · (padded 2 n)) := by decide
  have hhead := head?_padded (by omega) (by decide) (hfits n (by omega) h.1) t
  simp only [ways, List.flatMap_cons, List.flatMap_nil, List.append_nil] at hhead
  rw [monthNumbers, List.head?_append, hhead]
  rfl

theorem head?_dayNumbers (h : 1 ≤ n ∧ n ≤ 31) (t : Text) :
    (dayNumbers (padded 2 n ++ t)).head? = some (n, t) := by
  let ways := [[(decide <| · = '3'), among '0' '1'], [among '1' '2', Text.isDigit],
    [(decide <| · = '0'), among '1' '9']]
  have hfits : ∀ n < 32, 1 ≤ n → ways.any (fits · (padded 2 n)) := by decide
  have hhead := head?_padded (by omega) (by decide) (hfits n (by omega) h.1) t
  simp only [ways, List.flatMap_cons, List.flatMap_nil, List.append_nil, ← List.append_assoc]
    at hhead
  unfold dayNumbers
  rw [List.head?_append, List.head?_append, hhead]
  rfl

theorem head?_hourNumbers (h : n < 24) (t : Text) :
    (hourNumbers (padded 2 n ++ t)).head? = some (n, t) := by
  let ways := [[(decide <| · = '2'), among '0' '3'], [among '0' '1', Text.isDigit]]
  have hfits : ∀ n < 24, ways.any (fits · (padded 2 n)) := by decide
  have hhead := head?_padded (by omega) (by decide) (hfits n h) t
  simp only [ways, List.flatMap_cons, List.flatMap_nil, List.append_nil] at hhead
  rw [hourNumbers, List.head?_append, hhead]
  rfl

theorem head?_minuteNumbers (h : n < 60) (t : Text) :
    (minuteNumbers (padded 2 n ++ t)).head? = some (n, t) := by
  let ways := [[among '0' '5', Text.isDigit]]
  have hfits : ∀ n < 60, ways.any (fits · (padded 2 n)) := by decide
  have hhead := head?_padded h (by decide) (hfits n h) t
  simp only [ways, List.flatMap_cons, List.flatMap_nil, List.append_nil] at hhead
  rw [minuteNumbers, List.head?_append, hhead]
  rfl

theorem head?_secondNumbers (h : n < 60) (t : Text) :
    (secondNumbers (padded 2 n ++ t)).head? = some (n, t) := by
  let ways := [[(decide <| · = '6'), among '0' '1'], [among '0' '5', Text.isDigit]]
  have hfits : ∀ n < 60, ways.any (fits · (padded 2 n)) := by decide
  have hhead := head?_padded h (by decide) (hfits n h) t
  simp only [ways, List.flatMap_cons, List.flatMap_nil, List.append_nil] at hhead
  rw [secondNumbers, minuteNumbers, ← List.append_assoc, List.head?_append, hhead]
  rfl

theorem fits_isDigit (hds : ∀ c ∈ ds, Text.isDigit c) (k : Nat) :
    fits (List.replicate k Text.isDigit) ds := by
  unfold fits
  rw [List.all_eq_true]
  rintro ⟨p, c⟩ hmem
  obtain ⟨hp, hc⟩ := List.of_mem_zip hmem
  rw [List.eq_of_mem_replicate hp]
  exact hds c hc

theorem yearNumbers_padded (h : n < 10 ^ 4) (t : Text) :
    yearNumbers (padded 4 n ++ t) = [(n, t)] := by
  have hdigits : ∀ c ∈ padded 4 n, Text.isDigit c := fun _ hc =>
    Text.isDigit_of_isBasicDigit (Text.isBasicDigit_of_mem_padded hc)
  have hfits := fits_isDigit hdigits 4
  have hlength : (padded 4 n).length = (List.replicate 4 Text.isDigit).length :=
    Text.length_padded (by decide) h
  show number (List.replicate 4 Text.isDigit) (padded 4 n ++ t) = _
  rw [number_append hlength, if_pos hfits, Text.digitsValue_padded]

/-! ## Layouts -/

variable {f' : Fields} {t' : Text} {i : LayoutItem} {layout : DateLayout}

/-- A layout is read by the first way to read each of its items, where that is the one in which
the rest of it can be read. -/
theorem first?_of_head {r : Fields × Text} (h : (item f t i).head? = some (f', t'))
    (hrest : first? layout f' t' = some r) : first? (i :: layout) f t = some r := by
  obtain ⟨more, hitem⟩ := List.head?_eq_some_iff.1 h
  rw [first?, hitem, List.findSome?_cons]
  dsimp only
  rw [hrest]

theorem item_literal (f : Fields) (c : Char) (t : Text) : item f (c :: t) (.literal c) = [(f, t)] :=
  if_pos rfl

theorem item_year (h : n < 10 ^ 4) (f : Fields) (t : Text) :
    item f (padded 4 n ++ t) .year = [({ f with year := n }, t)] := by
  rw [item, yearNumbers_padded h]
  rfl

theorem head?_gap (h : ∀ c ∈ t.head?, Text.isSpace c = false) (f : Fields) :
    (item f (' ' :: t) .gap).head? = some (f, t) := by
  have hrun : (' ' :: t).takeWhile Text.isSpace = [' '] := by
    have hblank : ∀ c ∈ [' '], Text.isSpace c := List.forall_mem_singleton.2 rfl
    exact (Text.run_append hblank h).1
  rw [item, gaps, hrun]
  rfl

theorem head?_month (h : 1 ≤ n ∧ n ≤ 12) (f : Fields) (t : Text) :
    (item f (padded 2 n ++ t) .month).head? = some ({ f with month := n }, t) := by
  rw [item, List.head?_map, head?_monthNumbers h]
  rfl

theorem head?_day (h : 1 ≤ n ∧ n ≤ 31) (f : Fields) (t : Text) :
    (item f (padded 2 n ++ t) .day).head? = some ({ f with day := n }, t) := by
  rw [item, List.head?_map, head?_dayNumbers h]
  rfl

theorem head?_hour (h : n < 24) (f : Fields) (t : Text) :
    (item f (padded 2 n ++ t) .hour).head? = some ({ f with hour := n }, t) := by
  rw [item, List.head?_map, head?_hourNumbers h]
  rfl

theorem head?_minute (h : n < 60) (f : Fields) (t : Text) :
    (item f (padded 2 n ++ t) .minute).head? = some ({ f with minute := n }, t) := by
  rw [item, List.head?_map, head?_minuteNumbers h]
  rfl

theorem head?_second (h : n < 60) (f : Fields) (t : Text) :
    (item f (padded 2 n ++ t) .second).head? = some ({ f with second := n }, t) := by
  rw [item, List.head?_map, head?_secondNumbers h]
  rfl

/-! ## Slashes in the day -/

variable {m : Moment}

/-- Day and time to the second, with slashes in the day. -/
def slashed (m : Moment) : Text :=
  padded 4 m.day.year ++ '/' :: (padded 2 m.day.month ++ '/' ::
    (padded 2 m.day.day ++ ' ' :: Iso.clockText m.hour m.minute m.second 0))

/-- The layout with slashes reads them back. -/
theorem read?_slashed (h : m.toSecond.isValid) :
    (numeric '/' ++ timeItems).read? (slashed m) = some m.toSecond := by
  obtain ⟨hvalid, hhour, hminute, hsecond⟩ := Moment.isValid_toSecond_iff.1 h
  obtain ⟨hyear, hmonth, hday⟩ := Day.bounds_of_isValid hvalid
  have hclock : ∀ c ∈ (Iso.clockText m.hour m.minute m.second 0).head?, Text.isSpace c = false :=
    fun c hc => Text.not_isSpace_of_isDigit <| Text.isDigit_of_isBasicDigit <|
      Text.isBasicDigit_of_head? hc
  have hfirst : first? (numeric '/' ++ timeItems) {} (slashed m) =
      some (⟨m.day.year, m.day.month, m.day.day, m.hour, m.minute, m.second⟩, []) := by
    refine first?_of_head (congrArg List.head? (item_year hyear _ _)) ?_
    refine first?_of_head (congrArg List.head? (item_literal _ '/' _)) ?_
    refine first?_of_head (head?_month hmonth _ _) ?_
    refine first?_of_head (congrArg List.head? (item_literal _ '/' _)) ?_
    refine first?_of_head (head?_day hday _ _) ?_
    refine first?_of_head (head?_gap hclock _) ?_
    refine first?_of_head (head?_hour hhour _ _) ?_
    refine first?_of_head (congrArg List.head? (item_literal _ ':' _)) ?_
    refine first?_of_head (head?_minute hminute _ _) ?_
    refine first?_of_head (congrArg List.head? (item_literal _ ':' _)) ?_
    exact first?_of_head (head?_second hsecond _ _) rfl
  have hvalid' : (⟨⟨m.day.year, m.day.month, m.day.day⟩, m.hour, m.minute, m.second, 0, none⟩ :
      Moment).isValid := h
  unfold read?
  rw [hfirst]
  exact if_pos hvalid'

/-! ### Other notations -/

theorem read?_hyphens (h : n < 10 ^ 4) (layout : DateLayout) (t : Text) :
    read? (.year :: .literal '-' :: layout) (padded 4 n ++ '/' :: t) = none := by
  have hfirst : first? (.year :: .literal '-' :: layout) {} (padded 4 n ++ '/' :: t) = none := by
    rw [first?, item_year h]
    rfl
  unfold read?
  rw [hfirst]
  rfl

/-- No name of a month starts with a digit. -/
theorem read?_named {names : List Text} {c : Char}
    (hnames : ∀ name ∈ names, name.head?.map (isBasicDigit <| Decimal.lowerBasic ·) = some false)
    (hc : isBasicDigit c) (t : Text) : read? (named names) (c :: t) = none := by
  have hnone : namedMonth names (c :: t) = [] := by
    unfold namedMonth
    rw [List.filterMap_eq_nil_iff]
    rintro ⟨name, n⟩ hmem
    have hname := hnames name (List.fst_mem_of_mem_zipIdx hmem)
    obtain ⟨d, hhead, hd⟩ := Option.map_eq_some_iff.1 hname
    obtain ⟨rest, rfl⟩ := List.head?_eq_some_iff.1 hhead
    have hne : Decimal.lowerBasic d ≠ c := by
      rintro rfl
      rw [hc] at hd
      cases hd
    simp [List.isPrefixOf, Decimal.lowerBasic_digit hc, hne]
  have hfirst : first? (named names) {} (c :: t) = none := by
    unfold named
    rw [first?, item, hnone]
    rfl
  unfold read?
  rw [hfirst]
  rfl

end DateLayout

namespace Iso

open Text (padded)

variable {n : Nat}

/-- Behind the year stands a hyphen, a week or the month, and no slash. -/
theorem read?_slash (h : n < 10 ^ 4) {t : Text} (ht : 3 ≤ t.length) :
    read? (padded 4 n ++ '/' :: t) = none := by
  have hfour := Text.length_padded (by decide) h
  have hlength : (padded 4 n ++ '/' :: t).length ≠ 7 ∧ ¬ (padded 4 n ++ '/' :: t).length < 7 := by
    rw [List.length_append, List.length_cons, hfour]
    omega
  have hslash : (padded 4 n ++ '/' :: t)[4]? = some '/' := by
    rw [List.getElem?_append_right (Nat.le_of_eq hfour), hfour]
    rfl
  have hreach : dateLength (padded 4 n ++ '/' :: t) = 8 := by
    unfold dateLength
    dsimp only
    rw [if_neg hlength.1]
    simp [hslash]
  have htake : (padded 4 n ++ '/' :: t).take 8 = padded 4 n ++ '/' :: t.take 3 := by
    rw [List.take_append, hfour, List.take_of_length_le (by omega)]
    rfl
  have hdate : date? (padded 4 n ++ '/' :: t.take 3) = none := by
    have hmonth : takeDigits 2 ('/' :: t.take 3) = none := by simp [takeDigits, Text.isBasicDigit]
    unfold date?
    rw [takeDigits_padded (by decide) h]
    simp [hmonth]
  unfold read?
  rw [if_neg hlength.2, hreach]
  dsimp only
  rw [htake, hdate]
  rfl

end Iso

namespace Moment

open DateLayout (slashed)

variable {m : Moment}

theorem read?_known (h : m.toSecond.isValid) :
    DateLayout.known.findSome? (fun layout => layout.read? (slashed m)) = some m.toSecond := by
  obtain ⟨hyear, _⟩ := Day.bounds_of_isValid (isValid_toSecond_iff.1 h).1
  obtain ⟨c, t, hpadded⟩ := Text.exists_padded 4 m.day.year
  have hc : Text.isBasicDigit c := Text.isBasicDigit_of_mem_padded (hpadded ▸ List.mem_cons_self)
  have hhyphens : ∀ layout : DateLayout,
      DateLayout.read? (.year :: .literal '-' :: layout) (slashed m) = none :=
    fun layout => DateLayout.read?_hyphens hyear layout _
  have hnamed : ∀ names : List Text,
      (∀ name ∈ names, name.head?.map (Text.isBasicDigit <| Decimal.lowerBasic ·) = some false) →
      (DateLayout.named names).read? (slashed m) = none := by
    intro names hnames
    unfold slashed
    rw [hpadded]
    exact DateLayout.read?_named hnames hc _
  have htime : (DateLayout.numeric '-' ++ DateLayout.timeItems).read? (slashed m) = none :=
    hhyphens _
  have hday : (DateLayout.numeric '-').read? (slashed m) = none := hhyphens _
  have hshort := hnamed DateLayout.shortMonths (by decide)
  have hlong := hnamed DateLayout.longMonths (by decide)
  simp only [DateLayout.known, List.findSome?_cons, htime, hday, hshort, hlong,
    DateLayout.read?_slashed h]

/-- Day and time with slashes are read back. -/
theorem ofText?_slashed (h : m.toSecond.isValid) : ofText? (slashed m) = some m.toSecond := by
  obtain ⟨hyear, hmonth, _⟩ := Day.bounds_of_isValid (isValid_toSecond_iff.1 h).1
  have hiso : Iso.read? (slashed m) = none := by
    refine Iso.read?_slash hyear ?_
    rw [List.length_append, List.length_cons, Text.length_padded (by decide) (by omega)]
    omega
  obtain ⟨s, k, n, hclock⟩ := Iso.exists_clockText_append m.hour m.minute m.second 0
  have hend : slashed m = (Text.padded 4 m.day.year ++ '/' :: (Text.padded 2 m.day.month ++ '/' ::
      (Text.padded 2 m.day.day ++ ' ' :: s))) ++ Text.padded k n := by
    simp [slashed, hclock]
  have hstart : slashed m = Text.padded 4 m.day.year ++ _ := rfl
  rw [ofText?_numbers hstart hend, hiso, read?_known h]
  rfl

end Moment
end Marginalia
