import Mathlib.Data.List.TakeWhile
import Marginalia.Proofs.Command.Output

/-
Template sources as they are shown.  The rules take a source to pieces without help: wherever
reading has come to, one of them applies, and whichever applies first takes something.  So the
fragments of a source are those that the rules make, they are the displayed source when they are
put together again, and on a terminal nothing but control sequences comes between its code points.
-/
namespace Marginalia
namespace Fragment

/-! ## What the rules take -/

/-- Where a part of a pattern applies it takes something, so that it does not apply at the end. -/
structure Segment.IsSolid (p : Segment) : Prop where
  size?_nil : p.size? [] = none
  ne_zero : ∀ {t n}, p.size? t = some n → n ≠ 0

namespace Segment

variable {kind : FragmentKind}

theorem isSolid_exactly {mark : String} (h : mark.toList ≠ []) : (exactly kind mark).IsSolid := by
  obtain ⟨c, cs, hmark⟩ := List.exists_cons_of_ne_nil h
  constructor
  · simp only [exactly, hmark]
    rfl
  · intro t n hsize
    simp only [exactly, Option.ite_none_right_eq_some, Option.some.injEq] at hsize
    rw [← hsize.2, hmark]
    exact Nat.succ_ne_zero _

theorem isSolid_run1 (p : Char → Bool) : (run1 kind p).IsSolid := by
  refine ⟨rfl, fun {t n} hsize => ?_⟩
  simp only [run1, Option.ite_none_left_eq_some, Option.some.injEq] at hsize
  exact hsize.2 ▸ hsize.1

theorem isSolid_between {opener : String} (h : opener.toList ≠ []) (closer : String) :
    (between kind opener closer).IsSolid := by
  obtain ⟨c, cs, hopener⟩ := List.exists_cons_of_ne_nil h
  constructor
  · simp only [between, hopener]
    rfl
  · intro t n hsize
    simp only [between, hopener, List.length_cons] at hsize
    split at hsize
    · split at hsize
      · split at hsize
        · cases hsize
        · cases hsize
          omega
      · cases hsize
    · cases hsize

theorem isSolid_tag : tag.IsSolid := by
  refine ⟨rfl, fun {t n} hsize => ?_⟩
  simp only [tag] at hsize
  split at hsize
  · split at hsize
    · split at hsize
      · cases hsize
      · cases hsize
        omega
    · cases hsize
  · cases hsize

theorem isSolid_heading : heading.IsSolid := by
  refine ⟨rfl, fun {t n} hsize => ?_⟩
  simp only [heading] at hsize
  split at hsize
  · rename_i h
    cases hsize
    cases t with
    | nil => simp at h
    | cons c t =>
      have hc : c ≠ '\n' := by
        rintro rfl
        simp at h
      simp [hc]
  · cases hsize

theorem isSolid_thematicRule : thematicRule.IsSolid := by
  refine ⟨rfl, fun {t n} hsize => ?_⟩
  obtain ⟨m, hm, rfl⟩ := Option.map_eq_some_iff.1 hsize
  obtain ⟨mark, _, hmark⟩ := List.exists_of_findSome?_eq_some hm
  simp only [Markdown.ruleOf?] at hmark
  split at hmark
  · obtain ⟨k, _, rfl⟩ := Option.map_eq_some_iff.1 hmark
    omega
  · cases hmark

theorem isSolid_anyInLine : (anyInLine kind).IsSolid := by
  refine ⟨rfl, fun {t n} hsize => ?_⟩
  simp only [anyInLine] at hsize
  split at hsize
  · cases hsize
  · split at hsize <;> cases hsize
    exact Nat.one_ne_zero

end Segment

variable {p : Segment} {ps : List Segment} {t rest : Text} {fs : List Fragment}

/-- What the first part of a pattern takes, and what the others do with the rest. -/
theorem exists_of_take?_cons (h : take? (p :: ps) t = some (fs, rest)) :
    ∃ n gs, p.size? t = some n ∧ take? ps (t.drop n) = some (gs, rest) ∧
      fs = if (t.take n).isEmpty then gs else ⟨p.kind, t.take n⟩ :: gs := by
  rw [take?] at h
  split at h
  · cases h
  · rename_i n hsize
    obtain ⟨⟨gs, r⟩, hgs, heq⟩ := Option.map_eq_some_iff.1 h
    cases heq
    exact ⟨n, gs, hsize, hgs, rfl⟩

/-- Parts that take nothing leave no trace. -/
theorem source_ne_nil_of_take? (h : take? ps t = some (fs, rest)) : ∀ f ∈ fs, f.source ≠ [] := by
  induction ps generalizing t fs with
  | nil =>
    cases h
    nofun
  | cons p ps ih =>
    obtain ⟨n, gs, _, hgs, rfl⟩ := exists_of_take?_cons h
    split
    · exact ih hgs
    · rename_i htake
      refine List.forall_mem_cons.2 ⟨fun hnil => htake ?_, ih hgs⟩
      exact List.isEmpty_iff.2 hnil

theorem ne_nil_of_take? (hp : p.IsSolid) (h : take? (p :: ps) t = some (fs, rest)) : fs ≠ [] := by
  obtain ⟨n, gs, hsize, _, rfl⟩ := exists_of_take?_cons h
  have ht : t ≠ [] := by
    rintro rfl
    rw [hp.size?_nil] at hsize
    cases hsize
  have htake : (t.take n).isEmpty = false := by
    simpa [hp.ne_zero hsize] using ht
  rw [htake]
  exact List.cons_ne_nil _ _

namespace Rule

/-- What a rule takes from the front of a text, what it leaves, and how reading goes on. -/
def take? (r : Rule) (lineStart : Bool) (t : Text) : Option (List Fragment × Text × FragmentMode) :=
  if r.atLineStart && !lineStart then none
  else (Fragment.take? r.parts t).map fun x => (x.1, x.2, r.next)

/-- The first part of a rule takes something. -/
def IsSolid (r : Rule) : Prop := ∃ p ps, r.parts = p :: ps ∧ p.IsSolid

variable {lineStart : Bool} {mode : FragmentMode} {r : Rule}

theorem parts_of_take? (h : r.take? lineStart t = some (fs, rest, mode)) :
    Fragment.take? r.parts t = some (fs, rest) := by
  unfold take? at h
  split at h
  · cases h
  · obtain ⟨_, hparts, heq⟩ := Option.map_eq_some_iff.1 h
    cases heq
    exact hparts

theorem IsSolid.ne_nil_of_parts (hr : r.IsSolid) (h : Fragment.take? r.parts t = some (fs, rest)) :
    fs ≠ [] := by
  obtain ⟨p, ps, hparts, hp⟩ := hr
  rw [hparts] at h
  exact ne_nil_of_take? hp h

end Rule

variable {lineStart : Bool} {mode next : FragmentMode}

theorem isSolid_of_mem_rules : ∀ r ∈ rules mode, r.IsSolid := by
  cases mode with
  | outside =>
    simp only [rules, outsideRules, List.forall_mem_cons]
    exact ⟨⟨_, _, rfl, Segment.isSolid_between (by decide) _⟩,
      ⟨_, _, rfl, Segment.isSolid_between (by decide) _⟩,
      ⟨_, _, rfl, Segment.isSolid_exactly (by decide)⟩,
      ⟨_, _, rfl, Segment.isSolid_exactly (by decide)⟩,
      ⟨_, _, rfl, Segment.isSolid_exactly (by decide)⟩,
      ⟨_, _, rfl, Segment.isSolid_exactly (by decide)⟩,
      ⟨_, _, rfl, Segment.isSolid_exactly (by decide)⟩,
      ⟨_, _, rfl, Segment.isSolid_thematicRule⟩,
      ⟨_, _, rfl, Segment.isSolid_heading⟩,
      ⟨_, _, rfl, Segment.isSolid_tag⟩,
      ⟨_, _, rfl, Segment.isSolid_run1 _⟩,
      ⟨_, _, rfl, Segment.isSolid_exactly (by decide)⟩,
      ⟨_, _, rfl, Segment.isSolid_anyInLine⟩, nofun⟩
  | inTag =>
    simp only [rules, inTagRules, List.forall_mem_cons]
    exact ⟨⟨_, _, rfl, Segment.isSolid_run1 _⟩,
      ⟨_, _, rfl, Segment.isSolid_exactly (by decide)⟩,
      ⟨_, _, rfl, Segment.isSolid_exactly (by decide)⟩,
      ⟨_, _, rfl, Segment.isSolid_exactly (by decide)⟩,
      ⟨_, _, rfl, Segment.isSolid_exactly (by decide)⟩,
      ⟨_, _, rfl, Segment.isSolid_anyInLine⟩, nofun⟩

/-! ## Reading by the rules -/

/-- What the first rule that applies takes. -/
def first? (mode : FragmentMode) (lineStart : Bool) (t : Text) :
    Option (List Fragment × Text × FragmentMode) :=
  (rules mode).findSome? (·.take? lineStart t)

/-- A text read to its end by the rules alone: each time the first one that applies takes what it
matches and says how reading goes on. -/
inductive Reads : FragmentMode → Bool → Text → List Fragment → Prop
  | done {mode : FragmentMode} {lineStart : Bool} : Reads mode lineStart [] []
  | rule {mode next : FragmentMode} {lineStart : Bool} {t rest : Text} {fs gs : List Fragment} :
      first? mode lineStart t = some (fs, rest, next) → Reads next (endsLine fs) rest gs →
        Reads mode lineStart t (fs ++ gs)

theorem exists_rule_of_first? (h : first? mode lineStart t = some (fs, rest, next)) :
    ∃ r ∈ rules mode, r.take? lineStart t = some (fs, rest, next) :=
  List.exists_of_findSome?_eq_some h

/-- Some rule applies to the next code point, whatever that is. -/
theorem exists_first? (mode : FragmentMode) (lineStart : Bool) (c : Char) (t : Text) :
    ∃ fs rest next, first? mode lineStart (c :: t) = some (fs, rest, next) := by
  have hsome : (first? mode lineStart (c :: t)).isSome := by
    rw [first?, List.findSome?_isSome_iff]
    by_cases hc : c = '\n'
    · refine ⟨{ parts := [.exactly .text "\n"], next := .outside }, ?_, ?_⟩
      · cases mode <;> simp [rules, outsideRules, inTagRules]
      · rw [hc]
        rfl
    · cases mode with
      | outside =>
        refine ⟨{ parts := [.anyInLine .text], next := .outside }, ?_, ?_⟩
        · simp [rules, outsideRules]
        · simp [Rule.take?, Fragment.take?, Segment.anyInLine, hc]
      | inTag =>
        refine ⟨{ parts := [.anyInLine .error], next := .inTag }, ?_, ?_⟩
        · simp [rules, inTagRules]
        · simp [Rule.take?, Fragment.take?, Segment.anyInLine, hc]
  obtain ⟨⟨fs, rest, next⟩, hfirst⟩ := Option.isSome_iff_exists.1 hsome
  exact ⟨fs, rest, next, hfirst⟩

/-- A line feed does not end a tag: it is a blank, and the rule for blanks comes first. -/
theorem first?_lineFeed (lineStart : Bool) (t : Text) :
    ∃ fs rest, first? .inTag lineStart ('\n' :: t) = some (fs, rest, .inTag) := by
  have hspace : Text.isSpace '\n' = true := rfl
  simp [first?, rules, inTagRules, Rule.take?, take?, Segment.run1, hspace]

/-- A scan need not pass over rules that apply without taking anything. -/
theorem step?_eq_findSome? {rs : List Rule} (h : ∀ r ∈ rs, r.IsSolid) :
    step? lineStart t rs = rs.findSome? (·.take? lineStart t) := by
  induction rs with
  | nil => rfl
  | cons r rs ih =>
    obtain ⟨hr, hrs⟩ := List.forall_mem_cons.1 h
    rw [List.findSome?_cons, ← ih hrs, step?, Rule.take?]
    by_cases hskip : (r.atLineStart && !lineStart) = true
    · rw [if_pos hskip, if_pos hskip]
    · rw [if_neg hskip, if_neg hskip]
      cases hparts : take? r.parts t with
      | none => rfl
      | some x =>
        have hne : x.1.isEmpty = false := by
          simpa using hr.ne_nil_of_parts hparts
        dsimp only
        rw [hne]
        rfl

theorem length_lt_of_first? (h : first? mode lineStart t = some (fs, rest, next)) :
    rest.length < t.length := by
  obtain ⟨r, hr, htake⟩ := exists_rule_of_first? h
  have hparts := Rule.parts_of_take? htake
  obtain ⟨f, gs, rfl⟩ :=
    List.exists_cons_of_ne_nil ((isSolid_of_mem_rules r hr).ne_nil_of_parts hparts)
  have hf := source_ne_nil_of_take? hparts f List.mem_cons_self
  have hlength := congrArg List.length (sources_take hparts)
  have hpos := List.length_pos_of_ne_nil hf
  simp only [sources, List.flatMap_cons, List.length_append] at hlength
  omega

/-- A scan goes on where the first rule leaves off. -/
theorem scan_eq (h : first? mode lineStart t = some (fs, rest, next)) :
    scan mode lineStart t = fs ++ scan next (endsLine fs) rest := by
  have hlength := length_lt_of_first? h
  cases t with
  | nil => exact absurd hlength (Nat.not_lt_zero _)
  | cons c t =>
    rw [scan, step?_eq_findSome? isSolid_of_mem_rules, ← first?, h]
    dsimp only
    rw [if_pos hlength]

/-- A scan never falls back on taking a code point that no rule takes. -/
theorem reads_scan (mode : FragmentMode) (lineStart : Bool) (t : Text) :
    Reads mode lineStart t (scan mode lineStart t) := by
  induction hn : t.length using Nat.strongRecOn generalizing mode lineStart t with
  | ind n ih =>
    cases t with
    | nil =>
      rw [scan]
      exact .done
    | cons c t =>
      obtain ⟨fs, rest, next, hfirst⟩ := exists_first? mode lineStart c t
      have hlength := length_lt_of_first? hfirst
      rw [scan_eq hfirst]
      exact .rule hfirst (ih _ (hn ▸ hlength) _ _ _ rfl)

/-- Reading by the rules loses nothing. -/
theorem Reads.sources_eq (h : Reads mode lineStart t fs) : sources fs = t := by
  induction h with
  | done => rfl
  | rule hfirst _ ih =>
    obtain ⟨r, _, htake⟩ := exists_rule_of_first? hfirst
    have hparts := sources_take (Rule.parts_of_take? htake)
    rw [sources, List.flatMap_append]
    rw [sources] at ih hparts
    rw [ih, hparts]

/-- Reading by the rules has one outcome, which a scan comes to. -/
theorem reads_iff : Reads mode lineStart t fs ↔ fs = scan mode lineStart t := by
  constructor
  · intro h
    induction h with
    | done => rw [scan]
    | rule hfirst _ ih => rw [scan_eq hfirst, ih]
  · rintro rfl
    exact reads_scan mode lineStart t

/-! ## What is displayed -/

/-- A source without the byte order mark that it may start with. -/
def unmarked : Text → Text
  | '\ufeff' :: rest => rest
  | t => t

/-- `body` is `t` without the line feeds at its ends. -/
structure IsTrimmed (t body : Text) : Prop where
  ends : ∃ before after, t = before ++ (body ++ after) ∧
    (∀ c ∈ before, c = '\n') ∧ ∀ c ∈ after, c = '\n'
  head : body.head? ≠ some '\n'
  last : body.getLast? ≠ some '\n'

/-- The line feeds in front of a text, and a rest that does not start with one. -/
theorem exists_dropWhile (t : Text) : ∃ before, (∀ c ∈ before, c = '\n') ∧
    t = before ++ t.dropWhile (· = '\n') ∧ (t.dropWhile (· = '\n')).head? ≠ some '\n' := by
  refine ⟨t.takeWhile (· = '\n'), fun c hc => ?_, List.takeWhile_append_dropWhile.symm, ?_⟩
  · simpa using List.mem_takeWhile_imp hc
  · intro h
    have hnot := List.head?_dropWhile_not (fun c : Char => decide (c = '\n')) t
    rw [h] at hnot
    cases hnot

theorem isTrimmed_dropWhile (t : Text) :
    IsTrimmed t ((t.dropWhile (· = '\n')).reverse.dropWhile (· = '\n')).reverse := by
  obtain ⟨before, hbefore, ht, hhead⟩ := exists_dropWhile t
  generalize t.dropWhile (· = '\n') = u at ht hhead ⊢
  obtain ⟨after, hafter, hu, hlast⟩ := exists_dropWhile u.reverse
  generalize u.reverse.dropWhile (· = '\n') = v at hu hlast ⊢
  have hu' : u = v.reverse ++ after.reverse := by
    rw [← List.reverse_append, ← hu, List.reverse_reverse]
  refine ⟨⟨before, after.reverse, ?_, hbefore, ?_⟩, ?_, ?_⟩
  · rw [← hu', ← ht]
  · exact fun c hc => hafter c (List.mem_reverse.1 hc)
  · intro h
    rw [hu', List.head?_append, h] at hhead
    exact hhead rfl
  · rw [List.getLast?_reverse]
    exact hlast

theorem exists_displayed (source : Text) :
    ∃ body, IsTrimmed (Text.unifyLineEnds (unmarked source)) body ∧
      displayed source = body ++ ['\n'] :=
  ⟨_, isTrimmed_dropWhile _, rfl⟩

theorem sources_ofSource (source : Text) : sources (ofSource source) = displayed source :=
  (reads_scan _ _ _).sources_eq

/-! ## Colours -/

/-- What switches a colour on, or all of them off. -/
def IsControl (u : Text) : Prop := u = colourOff ∨ ∃ kind : FragmentKind, kind.colour? = some u

/-- A text as it is printed in colours: all of it and in its order, with control sequences in
between. -/
inductive Colours : Text → Text → Prop
  | nil : Colours [] []
  | char {t s : Text} (c : Char) : Colours t s → Colours (c :: t) (c :: s)
  | control {t s u : Text} : IsControl u → Colours t s → Colours t (u ++ s)

namespace Colours

variable {s u v : Text}

theorem refl (t : Text) : Colours t t := by
  induction t with
  | nil => exact .nil
  | cons c t ih => exact .char c ih

theorem append (h : Colours t s) (h' : Colours u v) : Colours (t ++ u) (s ++ v) := by
  induction h with
  | nil => exact h'
  | char c _ ih => exact .char c ih
  | control hu _ ih =>
    rw [List.append_assoc]
    exact .control hu ih

theorem flatMap {α : Type} {f g : α → Text} (h : ∀ a, Colours (f a) (g a)) (as : List α) :
    Colours (as.flatMap f) (as.flatMap g) := by
  induction as with
  | nil => exact .nil
  | cons a as ih =>
    rw [List.flatMap_cons, List.flatMap_cons]
    exact (h a).append ih

end Colours

variable {kind : FragmentKind} {colour : Text}

theorem colours_between (h : kind.colour? = some colour) (t : Text) :
    Colours t (colour ++ t ++ colourOff) := by
  have hoff : Colours [] (colourOff ++ []) := .control (.inl rfl) .nil
  have hshown := (Colours.refl t).append hoff
  rw [List.append_nil, List.append_nil] at hshown
  rw [List.append_assoc]
  exact .control (.inr ⟨kind, h⟩) hshown

theorem colours_paintedLine (h : kind.colour? = some colour) (line : Text) :
    Colours line (paintedLine colour line) := by
  unfold paintedLine Text.dropTail?
  by_cases hend : ['\n'].isSuffixOf line
  · obtain ⟨body, rfl⟩ := List.isSuffixOf_iff_suffix.1 hend
    rw [if_pos hend]
    simpa using (colours_between h body).append (Colours.refl ['\n'])
  · rw [if_neg hend]
    exact colours_between h line

theorem colours_painted (f : Fragment) : Colours f.source f.painted := by
  unfold painted
  split
  · exact .refl _
  · rename_i colour hcolour
    have hlines := Colours.flatMap (colours_paintedLine hcolour) (Text.fullLines f.source)
    rwa [List.flatMap_id', Text.flatten_fullLines] at hlines

theorem colours_paint (source : Text) : Colours (sources (ofSource source)) (paint source) :=
  Colours.flatMap colours_painted _

/-! ## Sources -/

/-- The fragments of a source are what the rules alone read it as, and put together they are the
source without byte order mark, with line feeds for line ends, and with one line feed for those at
its ends.  A run that is to print a template prints this text, with control sequences in it. -/
theorem ofSource_reads (source : Text) :
    ∃ body, IsTrimmed (Text.unifyLineEnds (unmarked source)) body ∧
      sources (ofSource source) = body ++ ['\n'] ∧
      (∀ fs, Reads .outside true (body ++ ['\n']) fs ↔ fs = ofSource source) ∧
      ∀ (w : Surroundings) (j : Job) (s : Session),
        (Use.outcome ((j.library w).load j.template) (j.shelf w s)).1 = .ok source →
        ∃ s' shown, (j.printTemplate w).outcome s = (.ok (), s') ∧
          s'.stdout = s.stdout ++ shown ∧ Colours (body ++ ['\n']) shown := by
  obtain ⟨body, htrimmed, hdisplayed⟩ := exists_displayed source
  have hsources : sources (ofSource source) = body ++ ['\n'] :=
    (sources_ofSource source).trans hdisplayed
  refine ⟨body, htrimmed, hsources, fun fs => ?_, fun w j s hload => ?_⟩
  · rw [← hdisplayed]
    exact reads_iff
  · obtain ⟨s', hrun, hstdout⟩ := Job.outcome_printTemplate hload
    exact ⟨s', paint source, hrun, hstdout, hsources ▸ colours_paint source⟩

/-- Files with a template that starts with a byte order mark, has a tag on two lines and ends with
an empty line. -/
def markedSession : Session where
  files :=
    { entries := [(["in".toList], .directory),
        (["in".toList, "t.md".toList], .file (Text.encode
          "\ufeff\x7b\x7bhighlight|\nupper\x7d\x7d <b (\x7b\x7bpageno\x7d\x7d)\r\n\n".toList))] }

theorem ofSource_reads_marked :
    let w : Surroundings := ⟨{}, fun _ => []⟩
    let body := "\x7b\x7bhighlight|\nupper\x7d\x7d <b (\x7b\x7bpageno\x7d\x7d)".toList
    (Use.outcome ((Job.small.library w).load Job.small.template)
        (Job.small.shelf w markedSession)).1 = .ok ('\ufeff' :: (body ++ ['\n', '\n'])) ∧
      ∃ s', (Job.small.printTemplate w).outcome markedSession = (.ok (), s') ∧
        Colours (body ++ ['\n']) s'.stdout := by
  intro w body
  have hload : (Use.outcome ((Job.small.library w).load Job.small.template)
      (Job.small.shelf w markedSession)).1 = .ok ('\ufeff' :: (body ++ ['\n', '\n'])) := by
    decide +kernel
  obtain ⟨body', _, hsources, _, hprints⟩ := ofSource_reads ('\ufeff' :: (body ++ ['\n', '\n']))
  obtain ⟨s', shown, hrun, hstdout, hcolours⟩ := hprints w Job.small markedSession hload
  have hbody : body' ++ ['\n'] = body ++ ['\n'] := by
    rw [← hsources, sources_ofSource]
    rfl
  rw [hbody] at hcolours
  exact ⟨hload, s', hrun, hstdout ▸ hcolours⟩

end Fragment
end Marginalia
