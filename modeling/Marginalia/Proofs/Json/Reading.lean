import Mathlib.Data.List.Nodup
import Marginalia.Json.Reader
import Marginalia.Json.Writer
import Marginalia.Proofs.Ensures
import Marginalia.Proofs.Number.Numeral
import Marginalia.Proofs.Text.Cut

/-
Reading back what was written.  Texts, whole numbers, and objects whose keys are
distinct texts come back as they were, whatever follows them; and a text that was
cut off before its closing quote is not read at all.
-/
namespace Marginalia
namespace Json

/-! ## Strings -/

theorem fourHex?_append {ds : Text} (hlen : ds.length = 4)
    (hds : ds.all fun c => (Html.hexValue? c).isSome) (rest : Text) :
    fourHex? (ds ++ rest) = some (Html.hexNumber ds, rest) := by
  have htake : (ds ++ rest).take 4 = ds := by rw [← hlen, List.take_left]
  have hdrop : (ds ++ rest).drop 4 = rest := by rw [← hlen, List.drop_left]
  unfold fourHex?
  simp [htake, hdrop, hlen, hds]

theorem hex_control : ∀ n < 0x20, (Text.hex 4 n).length = 4 ∧
    ((Text.hex 4 n).all fun c => (Html.hexValue? c).isSome) = true ∧
    Html.hexNumber (Text.hex 4 n) = n := by
  decide

theorem unicodeEscape?_control {c : Char} (h : c.toNat < 0x20) (rest : Text) :
    unicodeEscape? (Text.hex 4 c.toNat ++ rest) = some (c, rest) := by
  obtain ⟨hlen, hds, hvalue⟩ := hex_control c.toNat h
  have hhigh : isHighSurrogate c.toNat = false := by
    simp only [isHighSurrogate, Bool.and_eq_false_iff, decide_eq_false_iff_not]
    omega
  have hlow : isLowSurrogate c.toNat = false := by
    simp only [isLowSurrogate, Bool.and_eq_false_iff, decide_eq_false_iff_not]
    omega
  unfold unicodeEscape?
  rw [fourHex?_append hlen hds, hvalue]
  simp [hhigh, hlow]

variable {t rest : Text} {fuel : Nat}

theorem string?_plain {c : Char} (hquote : c ≠ '"') (hslash : c ≠ '\\') (h : ¬ c.toNat < 0x20)
    (s : Text) :
    string? (fuel + 1) (c :: s) = (string? fuel s).map fun p => (c :: p.1, p.2) := by
  rw [string?]
  · simp [h, hslash]
    cases string? fuel s <;> rfl
  all_goals simp [hquote, hslash]

/-- One character is read from what it was written as. -/
theorem string?_escapeChar (c : Char) (fuel : Nat) (s : Text) :
    string? (fuel + 1) (escapeChar c ++ s) =
      (string? fuel s).map fun p => (c :: p.1, p.2) := by
  have hshort : ∀ e d, shortEscape? e = some d → e ≠ 'u' →
      string? (fuel + 1) ('\\' :: e :: s) = (string? fuel s).map fun p => (d :: p.1, p.2) := by
    intro e d he hu
    rw [string?]
    · rw [he]
      cases string? fuel s <;> rfl
    · exact hu
  unfold escapeChar
  split
  · rename_i h
    exact h ▸ hshort '"' '"' rfl (by decide)
  split
  · rename_i h
    exact h ▸ hshort '\\' '\\' rfl (by decide)
  split
  · rename_i h
    exact h ▸ hshort 'n' '\n' rfl (by decide)
  split
  · rename_i h
    exact h ▸ hshort 'r' '\r' rfl (by decide)
  split
  · rename_i h
    exact h ▸ hshort 't' '\t' rfl (by decide)
  split
  · rename_i h
    exact h ▸ hshort 'b' '\x08' rfl (by decide)
  split
  · rename_i h
    exact h ▸ hshort 'f' '\x0c' rfl (by decide)
  split
  · rename_i h
    rw [List.cons_append, List.cons_append, string?, unicodeEscape?_control h,
      Option.bind_eq_bind, Option.bind_some]
    dsimp only
    cases string? fuel s <;> rfl
  · rename_i hquote hslash _ _ _ _ _ h
    exact string?_plain hquote hslash h s

theorem string?_escape (h : t.length < fuel) (rest : Text) :
    string? fuel (t.flatMap escapeChar ++ '"' :: rest) = some (t, rest) := by
  induction t generalizing fuel with
  | nil =>
    obtain ⟨fuel, rfl⟩ := Nat.exists_eq_succ_of_ne_zero (by omega : fuel ≠ 0)
    rfl
  | cons c t ih =>
    obtain ⟨fuel, rfl⟩ := Nat.exists_eq_succ_of_ne_zero (by omega : fuel ≠ 0)
    rw [List.length_cons] at h
    rw [List.flatMap_cons, List.append_assoc, string?_escapeChar, ih (by omega)]
    rfl

/-- Without its closing quote a text is not read. -/
theorem string?_escape_eq_none (t : Text) (fuel : Nat) :
    string? fuel (t.flatMap escapeChar) = none := by
  induction t generalizing fuel with
  | nil => cases fuel <;> rfl
  | cons c t ih =>
    cases fuel with
    | zero => rfl
    | succ fuel => rw [List.flatMap_cons, string?_escapeChar, ih]; rfl

theorem length_le_escape (t : Text) : t.length ≤ (t.flatMap escapeChar).length := by
  have hpos : ∀ c, 0 < (escapeChar c).length := by
    intro c
    unfold escapeChar
    repeat' split
    all_goals simp
  induction t with
  | nil => exact Nat.le_refl 0
  | cons c t ih =>
    have := hpos c
    rw [List.flatMap_cons, List.length_append, List.length_cons]
    omega

/-! ## Values -/

/-- What follows a value in an object or a list; no numeral goes on there. -/
def Ends (rest : Text) : Prop := ∀ c ∈ rest.head?, c = ',' ∨ c = '}' ∨ c = ']'

/-- However a value is written, it is read again as it was. -/
def ReadsBack (v : Value) : Prop :=
  ∀ t, write v = .ok t → ∀ rest, Ends rest → ∀ fuel, t.length ≤ fuel →
    value? fuel (skipBlanks (t ++ rest)) = some (v, rest)

theorem skipBlanks_cons {c : Char} (h : isBlank c = false) (t : Text) :
    skipBlanks (c :: t) = c :: t :=
  List.dropWhile_cons_of_neg (by simp [h])

theorem string_append (t rest : Text) :
    string t ++ rest = '"' :: (t.flatMap escapeChar ++ '"' :: rest) := by
  simp [string]

theorem string?_written (t rest : Text) :
    string? ((t.flatMap escapeChar ++ '"' :: rest).length + 1)
      (t.flatMap escapeChar ++ '"' :: rest) = some (t, rest) := by
  have := length_le_escape t
  refine string?_escape ?_ rest
  rw [List.length_append]
  omega

theorem readsBack_text (t : Text) : ReadsBack (.text t) := by
  intro u hu rest _ fuel hfuel
  cases hu
  obtain ⟨fuel, rfl⟩ := Nat.exists_eq_succ_of_ne_zero
    (by simp only [string, List.cons_append, List.length_cons] at hfuel; omega : fuel ≠ 0)
  rw [string_append, skipBlanks_cons (by decide), value?, string?_written]
  rfl

/-! ### Whole numbers -/

theorem fraction_of_ends (h : Ends rest) : fraction rest = ([], rest) := by
  unfold fraction
  split
  · rcases h '.' rfl with hc | hc | hc <;> cases hc
  · rfl

theorem exponent_of_ends (h : Ends rest) : exponent rest = (none, rest) := by
  unfold exponent
  split
  · rename_i c r
    rcases h c rfl with rfl | rfl | rfl <;> rfl
  · rfl

theorem takeWhile_of_ends (h : Ends rest) : rest.takeWhile Text.isBasicDigit = [] := by
  cases rest with
  | nil => rfl
  | cons c r => rcases h c rfl with rfl | rfl | rfl <;> rfl

theorem takeWhile_ofNat (n : Nat) (h : Ends rest) :
    (Text.ofNat n ++ rest).takeWhile Text.isBasicDigit = Text.ofNat n := by
  rw [List.takeWhile_append_of_pos fun c hc => Text.isBasicDigit_of_mem_ofNat hc,
    takeWhile_of_ends h, List.append_nil]

/-- Digits are read as far as they go; a zero in front stands by itself. -/
theorem number?_ofNat {n : Nat} (hn : (Text.ofNat n).length ≤ Text.maxNumeralDigits)
    (h : Ends rest) : number? (Text.ofNat n ++ rest) = some (.int n, rest) ∧
      number? ('-' :: (Text.ofNat n ++ rest)) = some (.int (-n), rest) := by
  have hvalue := Text.digitsValue_ofNat n
  have htake := takeWhile_ofNat n h
  have hlead : (Text.ofNat n).head? = some '0' → Text.ofNat n = ['0'] := Text.ofNat_of_head?
  have hdigit : ∀ c ∈ Text.ofNat n, Text.isBasicDigit c :=
    fun c hc => Text.isBasicDigit_of_mem_ofNat hc
  obtain ⟨c, cs, hcs⟩ := List.exists_cons_of_ne_nil (Text.ofNat_ne_nil n)
  rw [hcs] at hvalue hn htake hlead hdigit ⊢
  have hlen : ¬ Text.maxNumeralDigits < cs.length + 1 := Nat.not_lt.2 hn
  have hdrop : (c :: (cs ++ rest)).drop (cs.length + 1) = rest := by
    rw [List.drop_succ_cons, List.drop_left]
  by_cases hc : c = '0'
  · subst hc
    obtain rfl : cs = [] := (List.cons.inj (hlead rfl)).2
    constructor <;>
      simpa [number?, fraction_of_ends h, exponent_of_ends h, hvalue] using hlen
  · have hsign : c ≠ '-' := by
      rintro rfl
      exact absurd (hdigit '-' List.mem_cons_self) (by decide)
    rw [List.cons_append] at htake ⊢
    constructor <;>
      simp [number?, hsign, hc, htake, hdrop, fraction_of_ends h, exponent_of_ends h, hvalue,
        hlen]

theorem number?_written {n : Int} (hn : Value.IsShort n) (h : Ends rest) :
    number? ((toString n).toList ++ rest) = some (.int n, rest) := by
  obtain ⟨hplain, hnegative⟩ :=
    number?_ofNat ((Text.length_ofNat_le_iff (by decide)).2 hn) h
  rw [Value.toList_toString]
  split
  · rename_i hneg
    have hvalue : -(n.natAbs : Int) = n := by omega
    rw [hvalue] at hnegative
    exact hnegative
  · have hvalue : (n.natAbs : Int) = n := by omega
    rw [hvalue] at hplain
    exact hplain

/-- No word starts like a numeral. -/
theorem word?_of_digit {c : Char} (hc : Text.isBasicDigit c) (s : Text) :
    word? (c :: s) = none ∧ word? ('-' :: c :: s) = none := by
  have hne : ∀ d, Text.isBasicDigit d = false → d ≠ c := by
    rintro d hd rfl
    rw [hc] at hd
    cases hd
  have hn := hne 'n' (by decide)
  have ht := hne 't' (by decide)
  have hf := hne 'f' (by decide)
  have hN := hne 'N' (by decide)
  have hI := hne 'I' (by decide)
  have hminus := hne '-' (by decide)
  constructor <;> simp [word?, wordValues, List.isPrefixOf, hn, ht, hf, hN, hI, hminus]

theorem value?_numeral {c : Char} (hc : Text.isBasicDigit c) (s : Text) (fuel : Nat) :
    value? (fuel + 1) (c :: s) = number? (c :: s) ∧
      value? (fuel + 1) ('-' :: c :: s) = number? ('-' :: c :: s) := by
  have hne : ∀ d, Text.isBasicDigit d = false → c ≠ d := by
    rintro d hd rfl
    rw [hc] at hd
    cases hd
  have hquote := hne '"' (by decide)
  have hlist := hne '[' (by decide)
  have hmap := hne '{' (by decide)
  obtain ⟨hword, hword'⟩ := word?_of_digit hc s
  constructor
  · rw [value?, hword]
    · rfl
    all_goals simp [hquote, hlist, hmap]
  · rw [value?, hword']
    · rfl
    all_goals simp

theorem exists_numeral (n : Int) : ∃ c s, Text.isBasicDigit c ∧
    ((toString n).toList = c :: s ∨ (toString n).toList = '-' :: c :: s) := by
  obtain ⟨c, s, hs⟩ := List.exists_cons_of_ne_nil (Text.ofNat_ne_nil n.natAbs)
  refine ⟨c, s, Text.isBasicDigit_of_mem_ofNat (hs ▸ List.mem_cons_self), ?_⟩
  rw [Value.toList_toString, hs]
  split
  · exact .inr rfl
  · exact .inl rfl

theorem not_isBlank_of_digit {c : Char} (hc : Text.isBasicDigit c) : isBlank c = false := by
  rw [← Bool.not_eq_true]
  intro h
  simp only [isBlank, Bool.or_eq_true, decide_eq_true_eq] at h
  rcases h with ((rfl | rfl) | rfl) | rfl <;> exact absurd hc (by decide)

theorem readsBack_int (n : Int) : ReadsBack (.int n) := by
  intro t ht rest hrest fuel hfuel
  obtain ⟨hn, rfl⟩ := Value.wholeText_eq_ok.1 ht
  have hread := number?_written hn hrest
  obtain ⟨c, s, hc, hs | hs⟩ := exists_numeral n
  · rw [hs] at hread hfuel ⊢
    obtain ⟨fuel, rfl⟩ := Nat.exists_eq_add_of_lt hfuel
    rw [List.cons_append, skipBlanks_cons (not_isBlank_of_digit hc), (value?_numeral hc _ _).1]
    exact hread
  · rw [hs] at hread hfuel ⊢
    obtain ⟨fuel, rfl⟩ := Nat.exists_eq_add_of_lt hfuel
    rw [List.cons_append, List.cons_append, skipBlanks_cons (by decide),
      (value?_numeral hc _ _).2]
    exact hread

/-! ## Objects -/

/-- Entries with texts for keys. -/
def entries (es : List (Text × Value)) : List (Value × Value) :=
  es.map fun e => (.text e.1, e.2)

/-- An object with texts for its keys. -/
def object (es : List (Text × Value)) : Value := .map (entries es)

theorem object_injective : Function.Injective object := by
  intro es fs h
  have hentry : Function.Injective fun e : Text × Value => (Value.text e.1, e.2) := by
    rintro ⟨k, v⟩ ⟨l, w⟩ hkv
    cases hkv
    rfl
  exact List.map_injective_iff.2 hentry (Value.map.inj h)

variable {k : Text} {v : Value} {es : List (Text × Value)} {ps : List Text}

theorem insert_of_not_mem (h : k ∉ es.map (·.1)) (v : Value) :
    Value.insert (.text k) v (entries es) = entries (es ++ [(k, v)]) := by
  induction es with
  | nil => rfl
  | cons e es ih =>
    rw [List.map_cons, List.mem_cons, not_or] at h
    have hkey : Value.sameKey (.text e.1) (.text k) = false := by
      simp [Value.sameKey, Ne.symm h.1]
    show Value.insert (.text k) v ((.text e.1, e.2) :: entries es) = _
    rw [Value.insert, hkey, ih h.2]
    rfl

theorem foldl_insert (before : List (Text × Value))
    (h : ((before ++ es).map (·.1)).Nodup) :
    (entries es).foldl (fun es (k, v) => Value.insert k v es) (entries before) =
      entries (before ++ es) := by
  induction es generalizing before with
  | nil => rw [List.append_nil]; rfl
  | cons e es ih =>
    have hnot : e.1 ∉ before.map (·.1) := by
      rw [List.map_append] at h
      exact fun hmem => List.disjoint_of_nodup_append h hmem List.mem_cons_self
    rw [List.append_cons] at h ⊢
    rw [← ih _ h, ← insert_of_not_mem hnot]
    rfl

/-- Entries with distinct keys are the entries of their map. -/
theorem ofEntries_of_nodup (h : (es.map (·.1)).Nodup) :
    Value.ofEntries (entries es) = object es :=
  congrArg Value.map (foldl_insert [] h)

/-- What is written for one entry. -/
theorem writeEntries_cons (h : writeEntries (entries ((k, v) :: es)) = .ok ps) :
    ∃ t qs, write v = .ok t ∧ writeEntries (entries es) = .ok qs ∧
      ps = (string k ++ ':' :: t) :: qs := by
  obtain ⟨_, hk, h⟩ := exists_of_bind_eq_ok h
  cases hk
  obtain ⟨t, ht, h⟩ := exists_of_bind_eq_ok h
  obtain ⟨qs, hqs, h⟩ := exists_of_bind_eq_ok h
  cases h
  exact ⟨t, qs, ht, hqs, by simp⟩

theorem writeEntries_ne_nil (h : writeEntries (entries es) = .ok ps) (hne : es ≠ []) :
    ps ≠ [] := by
  obtain ⟨⟨k, v⟩, es, rfl⟩ := List.exists_cons_of_ne_nil hne
  obtain ⟨_, _, _, _, rfl⟩ := writeEntries_cons h
  exact List.cons_ne_nil _ _

theorem ends_cons {c : Char} (h : c = ',' ∨ c = '}' ∨ c = ']') (t : Text) : Ends (c :: t) := by
  rintro d ⟨⟩
  exact h

section

variable {f : Nat} {s : Text} (h : ReadsBack v) {t : Text} (ht : write v = .ok t)
  (hf : t.length ≤ f)

include h ht hf

theorem members?_last : members? (f + 1) (string k ++ (':' :: t ++ '}' :: s)) =
    some ([(.text k, v)], s) := by
  have hvalue := h t ht ('}' :: s) (ends_cons (.inr (.inl rfl)) s) f hf
  rw [string_append, members?, string?_written]
  simp [skipBlanks_cons (c := ':') (by decide), skipBlanks_cons (c := '}') (by decide), hvalue]

theorem members?_more : members? (f + 1) (string k ++ (':' :: t ++ ',' :: s)) =
    (members? f (skipBlanks s)).map fun p => ((.text k, v) :: p.1, p.2) := by
  have hvalue := h t ht (',' :: s) (ends_cons (.inl rfl) s) f hf
  rw [string_append, members?, string?_written]
  simp [skipBlanks_cons (c := ':') (by decide), skipBlanks_cons (c := ',') (by decide), hvalue]
  cases members? f (skipBlanks s) <;> rfl

end

/-- The text of some entries starts with the quote of the first key. -/
theorem exists_quote (h : writeEntries (entries es) = .ok ps) (hne : es ≠ []) :
    ∃ s, Text.join [','] ps = '"' :: s := by
  obtain ⟨⟨k, v⟩, es, rfl⟩ := List.exists_cons_of_ne_nil hne
  obtain ⟨t, qs, _, _, rfl⟩ := writeEntries_cons h
  cases qs with
  | nil => exact ⟨_, string_append k (':' :: t)⟩
  | cons q qs =>
    rw [Text.join_cons_of_ne_nil (List.cons_ne_nil q qs), List.append_assoc, string_append]
    exact ⟨_, rfl⟩

theorem skipBlanks_entries (h : writeEntries (entries es) = .ok ps) (hne : es ≠ []) (s : Text) :
    skipBlanks (Text.join [','] ps ++ s) = Text.join [','] ps ++ s := by
  obtain ⟨u, hu⟩ := exists_quote h hne
  rw [hu, List.cons_append, skipBlanks_cons (by decide)]

theorem members?_written (hes : ∀ e ∈ es, ReadsBack e.2) (hne : es ≠ [])
    (h : writeEntries (entries es) = .ok ps) {f : Nat}
    (hf : (Text.join [','] ps).length < f) (rest : Text) :
    members? f (Text.join [','] ps ++ '}' :: rest) = some (entries es, rest) := by
  induction es generalizing ps f with
  | nil => exact absurd rfl hne
  | cons e es ih =>
    obtain ⟨k, v⟩ := e
    obtain ⟨hv, hes⟩ := List.forall_mem_cons.1 hes
    obtain ⟨t, qs, ht, hqs, rfl⟩ := writeEntries_cons h
    obtain ⟨f, rfl⟩ := Nat.exists_eq_succ_of_ne_zero (by omega : f ≠ 0)
    cases es with
    | nil =>
      cases hqs
      rw [Text.join, List.length_append, List.length_cons] at hf
      rw [Text.join, List.append_assoc, members?_last hv ht (by omega)]
      rfl
    | cons e es =>
      have hqs' : qs ≠ [] := writeEntries_ne_nil hqs (List.cons_ne_nil e es)
      rw [Text.join_cons_of_ne_nil hqs'] at hf ⊢
      simp only [List.length_append, List.length_cons] at hf
      have hmore := ih hes (List.cons_ne_nil e es) hqs (by omega : _ < f)
      rw [List.append_assoc, List.append_assoc, List.cons_append, List.cons_append,
        ← List.cons_append (a := ':'), members?_more hv ht (by omega),
        skipBlanks_entries hqs (List.cons_ne_nil e es), hmore]
      rfl

theorem write_map {es : List (Value × Value)} {t : Text} (h : write (.map es) = .ok t) :
    ∃ ps, writeEntries es = .ok ps ∧ t = '{' :: (Text.join [','] ps ++ ['}']) := by
  obtain ⟨ps, hps, h⟩ := exists_of_bind_eq_ok h
  cases h
  exact ⟨ps, hps, rfl⟩

/-- An object with distinct keys is read back when all its values are. -/
theorem readsBack_object (hkeys : (es.map (·.1)).Nodup) (hes : ∀ e ∈ es, ReadsBack e.2) :
    ReadsBack (object es) := by
  intro t ht rest _ fuel hfuel
  obtain ⟨ps, hps, rfl⟩ := write_map ht
  simp only [List.length_cons, List.length_append, List.length_nil] at hfuel
  obtain ⟨fuel, rfl⟩ := Nat.exists_eq_succ_of_ne_zero (by omega : fuel ≠ 0)
  have hsplit : '{' :: (Text.join [','] ps ++ ['}']) ++ rest =
      '{' :: (Text.join [','] ps ++ '}' :: rest) := by simp
  rw [hsplit, skipBlanks_cons (by decide)]
  cases es with
  | nil =>
    cases hps
    rfl
  | cons e es =>
    have hskip := skipBlanks_entries hps (List.cons_ne_nil e es) ('}' :: rest)
    have hmembers := members?_written hes (List.cons_ne_nil e es) hps (by omega : _ < fuel) rest
    obtain ⟨u, hu⟩ := exists_quote hps (List.cons_ne_nil e es)
    rw [value?, hskip]
    rw [hu, List.cons_append] at hmembers ⊢
    show (members? fuel ('"' :: (u ++ '}' :: rest))).map
      (fun p => (Value.ofEntries p.1, p.2)) = _
    rw [hmembers, Option.map_some, ofEntries_of_nodup hkeys]

/-- The text of a value that is read back is read as the value. -/
theorem read?_written (h : ReadsBack v) {t : Text} (ht : write v = .ok t) :
    read? t = some v := by
  have hread := h t ht [] nofun (2 * t.length + 2) (by omega)
  rw [List.append_nil] at hread
  unfold read?
  rw [hread]
  rfl

end Json
end Marginalia
