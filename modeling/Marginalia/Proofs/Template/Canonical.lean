import Marginalia.Proofs.Template.Pieces
import Marginalia.Proofs.Template.Tag
import Marginalia.Proofs.Text.Words

/-
Reading the canonical text of a tree of tokens gives the tree back, without any
recovery, if its texts and keys cannot be taken for braces or bars.
-/
namespace Marginalia

open Text (IsInner IsOuter)

namespace Token

/-- A filter that is written as it is read. -/
structure IsFilter (f : Text) : Prop where
  ne_nil : f ≠ []
  trimmed : Text.strip f = f
  noBar : '|' ∉ f
  inner : f.IsInner

/-- A key of a block that is written as it is read. -/
structure IsBlockKey (k : Text) : Prop where
  ne_nil : k ≠ []
  trimmed : Text.strip k = k
  inner : k.IsInner
  last : k.getLast? ≠ some '}'
  notIf : ¬ ['i', 'f', ' '] <+: k

/-- A variable and filters that are written as they are read. -/
structure IsLookup (k : Text) (fs : List Text) : Prop where
  key : Text.isIdentifier k
  filters : ∀ f ∈ fs, IsFilter f
  last : ∀ f ∈ fs.getLast?, f.getLast? ≠ some '}'

/-- What may come after a token: no second text after a text, and nothing at all,
not even the end of a block, after a text that ends in half of a brace. -/
def MayPrecede (root : Bool) : Token → List Token → Prop
  | .text v, rest =>
    (∀ w, rest.head? ≠ some (.text w)) ∧ (v.getLast? = some '{' → root = true ∧ rest = [])
  | _, _ => True

mutual

/-- A token whose canonical text is read as this token. -/
def IsCanonical : Token → Prop
  | .text v => v ≠ [] ∧ v.IsOuter
  | .lookup k fs => IsLookup k fs
  | .block k body => IsBlockKey k ∧ AreCanonical false body

/-- A sequence of such tokens, at the root or in a block. -/
def AreCanonical (root : Bool) : List Token → Prop
  | [] => True
  | t :: rest => IsCanonical t ∧ MayPrecede root t rest ∧ AreCanonical root rest

end

mutual

/-- How many blocks stand inside each other. -/
def depth : Token → Nat
  | .block _ body => depths body + 1
  | _ => 0

def depths : List Token → Nat
  | [] => 0
  | t :: rest => max (depth t) (depths rest)

end

/-! ## The pieces of canonical texts -/

mutual

/-- The pieces that the canonical text of a token consists of. -/
def pieces : Token → List Piece
  | .text v => [.text v]
  | .lookup k fs => [.tag (Text.join ['|'] (k :: fs))]
  | .block k body => .tag ('#' :: k) :: (piecesOf body ++ [.tag ('/' :: k)])

def piecesOf : List Token → List Piece
  | [] => []
  | t :: rest => pieces t ++ piecesOf rest

end

mutual

theorem sources_pieces (t : Token) : Piece.sources (pieces t) = canonical t := by
  cases t with
  | text v =>
    rw [pieces, canonical]
    exact List.append_nil v
  | lookup k fs =>
    rw [pieces, canonical]
    exact List.append_nil _
  | block k body =>
    rw [pieces, canonical, Piece.sources, Piece.sources_append, sources_piecesOf body]
    simp [Piece.sources, Piece.source]

theorem sources_piecesOf (ts : List Token) : Piece.sources (piecesOf ts) = canonicals ts := by
  cases ts with
  | nil =>
    rw [piecesOf, canonicals]
    rfl
  | cons t rest =>
    rw [piecesOf, canonicals, Piece.sources_append, sources_pieces t, sources_piecesOf rest]

end

/-! ## Tags -/

theorem isInner_cons {c : Char} {k : Text} (hc : c ≠ '}') (h : k.IsInner) : IsInner (c :: k) :=
  Text.holds_cons (by simp [tagClose, List.isPrefixOf, Ne.symm hc]) h

theorem getLast?_cons_ne {c d : Char} {k : Text} (hne : k ≠ []) (h : k.getLast? ≠ some d) :
    (c :: k).getLast? ≠ some d := by
  rwa [List.getLast?_cons_of_ne_nil hne]

namespace IsBlockKey

variable {k : Text}

theorem read_opener (h : IsBlockKey k) : Tag.read ('#' :: k) = .opener k k := by
  have hstrip : Text.strip ('#' :: k) = '#' :: k :=
    ((Text.tight_iff.2 h.trimmed).cons (by decide) h.ne_nil).strip_eq
  unfold Tag.read
  rw [hstrip]
  show Tag.ofBlockKey (Text.strip k) = .opener k k
  rw [h.trimmed]
  exact Tag.ofBlockKey_of_opens (.plain h.ne_nil h.notIf)

theorem read_closer (h : IsBlockKey k) : Tag.read ('/' :: k) = .closer k := by
  have hstrip : Text.strip ('/' :: k) = '/' :: k :=
    ((Text.tight_iff.2 h.trimmed).cons (by decide) h.ne_nil).strip_eq
  unfold Tag.read
  rw [hstrip]
  show Tag.closer (Text.strip k) = .closer k
  rw [h.trimmed]

end IsBlockKey

namespace IsLookup

variable {k : Text} {fs : List Text}

theorem isWord_of_mem (h : IsLookup k fs) {c : Char} (hc : c ∈ k) : Text.isWord c := by
  have hkey := h.key
  rw [Text.isIdentifier, Bool.and_eq_true, List.all_eq_true] at hkey
  exact hkey.2 c hc

theorem key_ne_nil (h : IsLookup k fs) : k ≠ [] := by
  rintro rfl
  cases h.key

/-- The key is written as it is read, as filters are. -/
theorem isFilter_key (h : IsLookup k fs) : IsFilter k where
  ne_nil := h.key_ne_nil
  trimmed := by
    refine Text.Tight.strip_eq ⟨fun c hc => ?_, fun c hc => ?_⟩
    · exact Text.not_isSpace_of_isWord (h.isWord_of_mem (List.mem_of_mem_head? hc))
    · exact Text.not_isSpace_of_isWord (h.isWord_of_mem (List.mem_of_mem_getLast? hc))
  noBar := fun hmem => Text.ne_mark_of_isWord (h.isWord_of_mem hmem) (by decide) rfl
  inner := by
    have hne : ∀ c ∈ k, c ≠ '}' :=
      fun c hc => Text.ne_mark_of_isWord (h.isWord_of_mem hc) (by decide)
    exact Text.holds_of_not_mem fun hmem => hne '}' hmem rfl

theorem isFilter_of_mem (h : IsLookup k fs) : ∀ f ∈ k :: fs, IsFilter f :=
  List.forall_mem_cons.2 ⟨h.isFilter_key, h.filters⟩

theorem isInner (h : IsLookup k fs) : IsInner (Text.join ['|'] (k :: fs)) :=
  Text.holds_join (by decide) fun f hf => (h.isFilter_of_mem f hf).inner

/-- The last code point of a variable with its filters is the last one of its last
part. -/
theorem getLast?_join (h : IsLookup k fs) {c : Char}
    (hc : c ∈ (Text.join ['|'] (k :: fs)).getLast?) :
    ∃ f ∈ (k :: fs).getLast?, c ∈ f.getLast? := by
  rw [Text.getLast?_join fun f hf => (h.isFilter_of_mem f hf).ne_nil] at hc
  exact Option.bind_eq_some_iff.1 hc

theorem getLast?_ne (h : IsLookup k fs) :
    (Text.join ['|'] (k :: fs)).getLast? ≠ some '}' := by
  intro hlast
  obtain ⟨f, hf, hc⟩ := h.getLast?_join hlast
  cases hfs : fs.getLast? with
  | none =>
    rw [List.getLast?_eq_none_iff] at hfs
    subst hfs
    cases hf
    have hword := h.isWord_of_mem (List.mem_of_mem_getLast? hc)
    exact Text.ne_mark_of_isWord hword (by decide) rfl
  | some g =>
    have hne : fs ≠ [] := by
      rintro rfl
      cases hfs
    rw [List.getLast?_cons_of_ne_nil hne, hfs] at hf
    cases hf
    exact h.last f hfs hc

theorem exists_cons (h : IsLookup k fs) :
    ∃ c rest, Text.join ['|'] (k :: fs) = c :: rest ∧ Text.isWord c := by
  obtain ⟨c, rest, rfl⟩ := List.exists_cons_of_ne_nil h.key_ne_nil
  have hc := h.isWord_of_mem List.mem_cons_self
  cases fs with
  | nil => exact ⟨c, rest, rfl, hc⟩
  | cons f fs => exact ⟨c, _, rfl, hc⟩

theorem strip_join (h : IsLookup k fs) :
    Text.strip (Text.join ['|'] (k :: fs)) = Text.join ['|'] (k :: fs) := by
  refine Text.Tight.strip_eq ⟨fun c hc => ?_, fun c hc => ?_⟩
  · obtain ⟨d, rest, heq, hd⟩ := h.exists_cons
    rw [heq] at hc
    cases hc
    exact Text.not_isSpace_of_isWord hd
  · obtain ⟨f, hf, hcf⟩ := h.getLast?_join hc
    have htrimmed := (h.isFilter_of_mem f (List.mem_of_mem_getLast? hf)).trimmed
    exact (Text.tight_iff.2 htrimmed).last c hcf

theorem parts_join (h : IsLookup k fs) : parts (Text.join ['|'] (k :: fs)) = k :: fs := by
  unfold parts
  have hfields : Text.fields '|' (Text.join ['|'] (k :: fs)) = k :: fs :=
    Text.fields_join (List.cons_ne_nil k fs) fun f hf => (h.isFilter_of_mem f hf).noBar
  have hstrip : (k :: fs).map Text.strip = (k :: fs).map id :=
    List.map_congr_left fun f hf => (h.isFilter_of_mem f hf).trimmed
  rw [hfields, hstrip, List.map_id, List.filter_eq_self]
  intro f hf
  simpa using (h.isFilter_of_mem f hf).ne_nil

theorem ofLookup_join (h : IsLookup k fs) :
    Tag.ofLookup (Text.join ['|'] (k :: fs)) = .lookup k fs := by
  rw [Tag.ofLookup_eq, h.parts_join]
  exact if_pos h.key

theorem read (h : IsLookup k fs) : Tag.read (Text.join ['|'] (k :: fs)) = .lookup k fs := by
  obtain ⟨c, rest, heq, hc⟩ := h.exists_cons
  unfold Tag.read
  rw [h.strip_join]
  split
  · rename_i key hkey
    rw [heq] at hkey
    cases hkey
    exact absurd rfl (Text.ne_mark_of_isWord hc (by decide))
  · rename_i key hkey
    rw [heq] at hkey
    cases hkey
    exact absurd rfl (Text.ne_mark_of_isWord hc (by decide))
  · exact h.ofLookup_join

end IsLookup

/-! ## Canonical texts are cut where their tokens meet -/

/-- What may stand behind the pieces of a sequence: the closing tag of a block, or
nothing at the root. -/
def EndsAt (root : Bool) (ps : List Piece) : Prop :=
  if root then ps = [] else ∃ inner rest, ps = .tag inner :: rest

theorem EndsAt.head?_ne_text {root : Bool} {ps : List Piece} (h : EndsAt root ps) (u : Text) :
    ps.head? ≠ some (.text u) := by
  cases root with
  | true =>
    obtain rfl : ps = [] := h
    nofun
  | false =>
    obtain ⟨inner, rest, rfl⟩ := h
    nofun

/-- A text is followed by a piece that is no text. -/
theorem head?_piecesOf_ne_text {root : Bool} {ts : List Token} {ps : List Piece} (u : Text)
    (h : ∀ w, ts.head? ≠ some (.text w)) (hps : EndsAt root ps) :
    (piecesOf ts ++ ps).head? ≠ some (.text u) := by
  cases ts with
  | nil =>
    rw [piecesOf]
    exact hps.head?_ne_text u
  | cons t rest =>
    cases t with
    | text w => exact absurd rfl (h w)
    | lookup k fs =>
      rw [piecesOf, pieces]
      nofun
    | block k body =>
      rw [piecesOf, pieces]
      nofun

mutual

theorem areCut_pieces {root : Bool} (t : Token) {rest : List Token} {ps : List Piece}
    (ht : IsCanonical t) (hnext : MayPrecede root t rest) (hend : EndsAt root ps)
    (h : Piece.AreCut (piecesOf rest ++ ps)) :
    Piece.AreCut (pieces t ++ (piecesOf rest ++ ps)) := by
  cases t with
  | text v =>
    rw [IsCanonical] at ht
    obtain ⟨hhead, hlast⟩ := hnext
    rw [pieces]
    -- a text that ends in half of a brace is the last token, so no piece follows
    refine ⟨ht.1, ht.2, fun hne hbrace => hne ?_, fun u => ?_, h⟩
    · obtain ⟨rfl, rfl⟩ := hlast hbrace
      exact hend
    · exact head?_piecesOf_ne_text u hhead hend
  | lookup k fs =>
    rw [IsCanonical] at ht
    rw [pieces]
    exact ⟨ht.isInner, ht.getLast?_ne, h⟩
  | block k body =>
    rw [IsCanonical] at ht
    obtain ⟨hk, hbody⟩ := ht
    rw [pieces, List.cons_append, List.append_assoc]
    refine ⟨isInner_cons (by decide) hk.inner, getLast?_cons_ne hk.ne_nil hk.last, ?_⟩
    refine areCut_piecesOf body hbody ⟨_, _, rfl⟩ ?_
    exact ⟨isInner_cons (by decide) hk.inner, getLast?_cons_ne hk.ne_nil hk.last, h⟩

theorem areCut_piecesOf {root : Bool} (ts : List Token) {ps : List Piece}
    (hts : AreCanonical root ts) (hend : EndsAt root ps) (h : Piece.AreCut ps) :
    Piece.AreCut (piecesOf ts ++ ps) := by
  cases ts with
  | nil =>
    rw [piecesOf]
    exact h
  | cons t rest =>
    rw [AreCanonical] at hts
    obtain ⟨ht, hnext, hrest⟩ := hts
    rw [piecesOf, List.append_assoc]
    exact areCut_pieces t ht hnext hend (areCut_piecesOf rest hrest hend h)

end

theorem pieces_canonicals {ts : List Token} (h : AreCanonical true ts) :
    Piece.ofTemplate (canonicals ts) = piecesOf ts := by
  have hcut := areCut_piecesOf ts h (rfl : EndsAt true []) trivial
  rw [List.append_nil] at hcut
  rw [← sources_piecesOf, Piece.ofTemplate_sources hcut]

end Token

/-! ## Reading canonical texts -/

namespace Reading

open Token

theorem steps_append (limit : Int) (r : Reading) (offset : Nat) (ps qs : List Piece) :
    r.steps limit offset (ps ++ qs) =
      (r.steps limit offset ps).steps limit (offset + (Piece.sources ps).length) qs := by
  induction ps generalizing r offset with
  | nil => rfl
  | cons p rest ih =>
    rw [List.cons_append, steps, ih, steps, Piece.sources, List.length_append, Nat.add_assoc]

section

variable (limit : Int) (r : Reading) (offset : Nat) {inner key closer : Text}

theorem step_opener (h : Tag.read inner = .opener key closer) :
    r.step limit offset (.tag inner) =
      r.openBlock limit offset (Token.tag inner) key closer := by
  rw [step, h]
  rfl

theorem step_closer (h : Tag.read inner = .closer key) :
    r.step limit offset (.tag inner) = r.closeBlock offset (Token.tag inner) key := by
  rw [step, h]
  rfl

theorem step_lookup {filters : List Text} (h : Tag.read inner = .lookup key filters) :
    r.step limit offset (.tag inner) = r.push (.lookup key filters) := by
  rw [step, h]

end

mutual

/-- The pieces of a token add this token to the sequence that is open. -/
theorem steps_pieces (limit : Int) (r : Reading) (offset : Nat) (t : Token)
    (ht : t.IsCanonical) (hdepth : r.frames.length + t.depth ≤ limit) :
    r.steps limit offset (pieces t) = r.push t := by
  cases t with
  | text v =>
    rw [pieces]
    rfl
  | lookup k fs =>
    rw [IsCanonical] at ht
    rw [pieces, steps, step_lookup limit r offset ht.read]
    rfl
  | block k body =>
    rw [IsCanonical] at ht
    rw [depth] at hdepth
    obtain ⟨hk, hbody⟩ := ht
    -- the frame that the first tag opens is on top again when the last tag is read
    have hopen : r.step limit offset (.tag ('#' :: k)) =
        { r with body := [], frames := ⟨k, k, offset, r.body⟩ :: r.frames } := by
      rw [step_opener limit r offset hk.read_opener]
      exact if_neg (by omega)
    rw [pieces, steps, steps_append, hopen]
    rw [steps_piecesOf limit _ _ body hbody (by simp only [List.length_cons]; omega)]
    rw [steps, step_closer limit _ _ hk.read_closer]
    simp only [closeBlock, if_true, steps, push, List.append_nil, List.reverse_reverse]

theorem steps_piecesOf (limit : Int) (r : Reading) (offset : Nat) (ts : List Token)
    {root : Bool} (hts : AreCanonical root ts) (hdepth : r.frames.length + depths ts ≤ limit) :
    r.steps limit offset (piecesOf ts) = { r with body := ts.reverse ++ r.body } := by
  cases ts with
  | nil =>
    rw [piecesOf]
    rfl
  | cons t rest =>
    rw [AreCanonical] at hts
    rw [depths] at hdepth
    obtain ⟨ht, _, hrest⟩ := hts
    rw [piecesOf, steps_append, steps_pieces limit r offset t ht (by omega)]
    rw [steps_piecesOf limit (r.push t) _ rest hrest (by simp only [push]; omega)]
    simp [push]

end

end Reading

/-- Reading the canonical text of a tree whose blocks are nested no deeper than
allowed gives the tree, and nothing has to be recovered. -/
theorem Parsed.ofTemplate_canonicals {limit : Int} {ts : List Token}
    (h : Token.AreCanonical true ts) (hdepth : (Token.depths ts : Int) ≤ limit) :
    Parsed.ofTemplate limit (Token.canonicals ts) = ⟨ts, []⟩ := by
  unfold Parsed.ofTemplate
  rw [Token.pieces_canonicals h, Reading.steps_piecesOf limit {} 0 ts h (by simpa using hdepth)]
  simp [Parsed.finish]

/-- A note in a block, with braces in places where they do no harm. -/
def Token.smallTree : List Token :=
  [.text "\x7d ".toList, .block "\x7bnote".toList
    [.lookup "note".toList ["a\x7db".toList, "upper".toList], .text "\x7b.".toList],
    .text "\x7b".toList]

theorem Parsed.ofTemplate_smallTree :
    Token.AreCanonical true Token.smallTree ∧
      Parsed.ofTemplate 1 (Token.canonicals Token.smallTree) = ⟨Token.smallTree, []⟩ := by
  have hfilters : ∀ f ∈ ["a\x7db".toList, "upper".toList], Token.IsFilter f := by
    rintro f hf
    rcases List.mem_pair.1 hf with rfl | rfl
    · exact ⟨by decide, by decide, by decide, by decide⟩
    · exact ⟨by decide, by decide, by decide, by decide⟩
  have hlookup : Token.IsLookup "note".toList ["a\x7db".toList, "upper".toList] :=
    ⟨by decide +kernel, hfilters, by decide⟩
  have hkey : Token.IsBlockKey "\x7bnote".toList :=
    ⟨by decide, by decide, by decide, by decide, by decide⟩
  have h : Token.AreCanonical true Token.smallTree := by
    simp only [Token.smallTree, Token.AreCanonical, Token.IsCanonical, Token.MayPrecede]
    refine ⟨⟨by decide, by decide⟩, ⟨nofun, by decide⟩, ⟨hkey, hlookup, trivial, ?_⟩, trivial, ?_⟩
    · exact ⟨⟨by decide, by decide⟩, ⟨nofun, by decide⟩, trivial⟩
    · exact ⟨⟨by decide, by decide⟩, ⟨nofun, fun _ => ⟨trivial, trivial⟩⟩, trivial⟩
  exact ⟨h, Parsed.ofTemplate_canonicals h (by decide)⟩

end Marginalia
