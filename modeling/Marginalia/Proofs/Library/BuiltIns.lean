import Mathlib.Data.List.Forall2
import Marginalia.Proofs.Library.Use

/-
How the built-in templates of a directory are read.  They are put on the shelf one by
one, and a shelf with any of them on it counts as read: what a failure leaves behind is
all that later uses see.
-/
namespace Marginalia

open Use

namespace TemplateDefinition

/-- The definitions on a shelf after some more have been put there in their order. -/
def insertAll (ds known : List TemplateDefinition) : List TemplateDefinition :=
  ds.foldl (fun known d => d.insert known) known

theorem insert_ne_nil (d : TemplateDefinition) (known : List TemplateDefinition) :
    d.insert known ≠ [] := by
  cases known with
  | nil => exact List.cons_ne_nil _ _
  | cons e rest =>
    unfold insert
    split <;> exact List.cons_ne_nil _ _

theorem insertAll_eq_nil {ds known : List TemplateDefinition} :
    insertAll ds known = [] ↔ ds = [] ∧ known = [] := by
  induction ds generalizing known with
  | nil => exact (and_iff_right rfl).symm
  | cons d ds ih =>
    rw [insertAll, List.foldl_cons, ← insertAll, ih]
    exact ⟨fun h => absurd h.2 (insert_ne_nil d known), nofun⟩

/-- What the built-in template of a name holds. -/
def builtIn? (files : FileTree) (p : Path) (name : Text) : Except Fault TemplateDefinition :=
  (ofFile files (p.child name) true).1

/-- The built-in templates of some names up to the first one that cannot be read, and
how their reading ends. -/
def readAll (files : FileTree) (p : Path) :
    List Text → List TemplateDefinition × Except Fault Unit
  | [] => ([], .ok ())
  | name :: rest =>
    match builtIn? files p name with
    | .error e => ([], .error e)
    | .ok d => (d :: (readAll files p rest).1, (readAll files p rest).2)

/-- The reading of a directory breaks off: some templates are read, and then comes one
that is refused. -/
def BreaksOff (files : FileTree) (p : Path) (ds : List TemplateDefinition) (e : Fault) : Prop :=
  files.isDirectory p = .ok true ∧ ∃ before name after,
    namesIn files p = .ok (before ++ name :: after) ∧
      List.Forall₂ (fun name d => builtIn? files p name = .ok d) before ds ∧
      builtIn? files p name = .error e

theorem readAll_eq_error {files : FileTree} {p : Path} {names : List Text}
    {ds : List TemplateDefinition} {e : Fault} :
    readAll files p names = (ds, .error e) ↔ ∃ before name after,
      names = before ++ name :: after ∧
        List.Forall₂ (fun name d => builtIn? files p name = .ok d) before ds ∧
        builtIn? files p name = .error e := by
  induction names generalizing ds with
  | nil =>
    refine ⟨nofun, ?_⟩
    rintro ⟨before, name, after, h, _⟩
    cases before <;> cases h
  | cons first rest ih =>
    unfold readAll
    constructor
    · intro h
      cases hfirst : builtIn? files p first with
      | error e' =>
        rw [hfirst] at h
        cases h
        exact ⟨[], first, rest, rfl, .nil, hfirst⟩
      | ok d =>
        rw [hfirst] at h
        obtain ⟨rfl, hrest⟩ := Prod.mk.inj h
        obtain ⟨before, name, after, rfl, hbefore, hname⟩ := ih.1 (Prod.ext rfl hrest)
        exact ⟨first :: before, name, after, rfl, .cons hfirst hbefore, hname⟩
    · rintro ⟨before, name, after, hnames, hbefore, hname⟩
      cases hbefore with
      | nil =>
        cases hnames
        rw [hname]
      | cons hfirst hbefore =>
        cases hnames
        rw [hfirst, ih.2 ⟨_, name, after, rfl, hbefore, hname⟩]

/-- The built-in templates that a first use of a directory puts on the shelf, and how it
ends. -/
def firstReading (files : FileTree) (p : Path) : List TemplateDefinition × Except Fault Unit :=
  match files.isDirectory p with
  | .error e => ([], .error (.file e))
  | .ok false => ([], .error (.template (.directoryMissing p.text)))
  | .ok true =>
    match namesIn files p with
    | .error e => ([], .error e)
    | .ok names =>
      match readAll files p names with
      | (ds, .error e) => (ds, .error e)
      | ([], .ok ()) => ([], .error (.template (.noTemplates p.text)))
      | (ds, .ok ()) => (ds, .ok ())

/-- A first use that fails leaves templates behind only where it breaks off. -/
theorem breaksOff_iff {files : FileTree} {p : Path} {ds : List TemplateDefinition} {e : Fault}
    (hne : ds ≠ []) : firstReading files p = (ds, .error e) ↔ BreaksOff files p ds e := by
  unfold firstReading BreaksOff
  constructor
  · intro h
    split at h
    · exact absurd (Prod.mk.inj h).1.symm hne
    · exact absurd (Prod.mk.inj h).1.symm hne
    · rename_i hdirectory
      split at h
      · exact absurd (Prod.mk.inj h).1.symm hne
      · rename_i names hnames
        split at h
        · rename_i hread
          cases h
          obtain ⟨before, name, after, rfl, hbefore, hname⟩ := readAll_eq_error.1 hread
          exact ⟨hdirectory, before, name, after, hnames, hbefore, hname⟩
        · exact absurd (Prod.mk.inj h).1.symm hne
        · cases h
  · rintro ⟨hdirectory, before, name, after, hnames, hbefore, hname⟩
    rw [hdirectory, hnames]
    dsimp only
    rw [readAll_eq_error.2 ⟨before, name, after, rfl, hbefore, hname⟩]

end TemplateDefinition

/-- The shelf with other built-in templates. -/
def Shelf.holding (s : Shelf) (ds : List TemplateDefinition) : Shelf := { s with builtIns := ds }

namespace Library

open TemplateDefinition

variable {l : Library} {p : Path} {s s' : Shelf} {e : Fault}

/-! ## Reading a directory -/

theorem outcome_addBuiltInsFrom (p : Path) (names : List Text) (s : Shelf) :
    ∃ log, (addBuiltInsFrom p names).outcome s = ((readAll s.files p names).2,
      (s.noting log).holding (insertAll (readAll s.files p names).1 s.builtIns)) := by
  induction names generalizing s with
  | nil =>
    refine ⟨[], ?_⟩
    rw [Shelf.noting_nil]
    rfl
  | cons name rest ih =>
    have hread := outcome_readDefinition (p.child name) true s
    unfold readAll builtIn?
    cases h : (ofFile s.files (p.child name) true).1 with
    | error e =>
      rw [h] at hread
      exact ⟨_, outcome_bind_of_error hread⟩
    | ok d =>
      rw [h] at hread
      let t := (s.noting (ofFile s.files (p.child name) true).2).holding (d.insert s.builtIns)
      have hadd : (addBuiltIn d).outcome (s.noting (ofFile s.files (p.child name) true).2) =
          (.ok (), t) := rfl
      obtain ⟨log, hrest⟩ := ih t
      refine ⟨(ofFile s.files (p.child name) true).2 ++ log, ?_⟩
      refine (outcome_bind_of_ok hread).trans ((outcome_bind_of_ok hadd).trans ?_)
      rw [hrest, ← Shelf.noting_noting]
      rfl

theorem outcome_builtIns_of_known (hknown : s.builtIns ≠ []) :
    l.builtIns.outcome s = (.ok s.builtIns, s) := by
  rw [builtIns, outcome_bind_of_ok (outcome_get s), if_pos (by simpa using hknown)]
  exact outcome_pure _ s

section

variable (hsource : l.builtInSource = .directory p) (hs : s.builtIns = [])

include hsource hs

/-- Without a template on the shelf, the directory is looked for first. -/
theorem outcome_builtIns_start : l.builtIns.outcome s = Use.outcome (do
    if !(← Use.query (·.isDirectory p)) then throw (.template (.directoryMissing p.text))
    addBuiltInsFrom p (← templateNames p)
    if (← get).builtIns.isEmpty then throw (.template (.noTemplates p.text))
    let ds := (← get).builtIns
    Use.report (countEntry ds)
    return ds) s := by
  rw [builtIns, outcome_bind_of_ok (outcome_get s), if_neg (by simp [hs]), hsource]

/-- The first use of a directory whose templates have names. -/
theorem outcome_builtIns_of_names {names : List Text} (hd : s.files.isDirectory p = .ok true)
    (hn : namesIn s.files p = .ok names) :
    ∃ log, l.builtIns.outcome s =
      ((firstReading s.files p).2.map fun _ => insertAll (firstReading s.files p).1 [],
        (s.noting log).holding (insertAll (firstReading s.files p).1 [])) := by
  have hdirectory := outcome_query (·.isDirectory p) s
  have hnames := outcome_templateNames p s
  obtain ⟨log, hadd⟩ := outcome_addBuiltInsFrom p names s
  rw [hd] at hdirectory
  rw [hn] at hnames
  rw [hs] at hadd
  rw [outcome_builtIns_start hsource hs, outcome_bind_of_ok hdirectory, if_neg (by decide), outcome_bind_of_ok hnames]
  rcases hr : readAll s.files p names with ⟨ds, e | _⟩
  · have hfirst : firstReading s.files p = (ds, .error e) := by
      simp only [firstReading, hd, hn, hr]
    rw [hr] at hadd
    rw [hfirst, outcome_bind_of_error hadd]
    exact ⟨log, rfl⟩
  · rw [hr] at hadd
    rw [outcome_bind_of_ok hadd, outcome_bind_of_ok (outcome_get _)]
    cases ds with
    | nil =>
      have hfirst : firstReading s.files p = ([], .error (.template (.noTemplates p.text))) := by
        simp only [firstReading, hd, hn, hr]
      rw [hfirst]
      exact ⟨log, rfl⟩
    | cons d ds =>
      have hfirst : firstReading s.files p = (d :: ds, .ok ()) := by
        simp only [firstReading, hd, hn, hr]
      have hne : insertAll (d :: ds) [] ≠ [] := fun h => by cases (insertAll_eq_nil.1 h).1
      rw [hfirst, if_neg (by simpa [Shelf.holding] using hne)]
      refine ⟨log ++ [countEntry (insertAll (d :: ds) [])], ?_⟩
      rw [← Shelf.noting_noting]
      rfl

/-- The first use of the built-in templates, from a shelf that has none of them. -/
theorem outcome_builtIns :
    ∃ log, l.builtIns.outcome s =
      ((firstReading s.files p).2.map fun _ => insertAll (firstReading s.files p).1 [],
        (s.noting log).holding (insertAll (firstReading s.files p).1 [])) := by
  have hkeep : (s.noting []).holding [] = s := by rw [Shelf.noting_nil, Shelf.holding, ← hs]
  have hdirectory := outcome_query (·.isDirectory p) s
  have hnames := outcome_templateNames p s
  -- Until a template is read, a refusal leaves the shelf as it is.
  have hrefused : ∀ e, firstReading s.files p = ([], .error e) →
      l.builtIns.outcome s = (.error e, s) → ∃ log, l.builtIns.outcome s =
        ((firstReading s.files p).2.map fun _ => insertAll (firstReading s.files p).1 [],
          (s.noting log).holding (insertAll (firstReading s.files p).1 [])) := by
    intro e hfirst houtcome
    rw [hfirst, houtcome]
    exact ⟨[], congrArg (Prod.mk _) hkeep.symm⟩
  cases hd : s.files.isDirectory p with
  | error e =>
    rw [hd] at hdirectory
    refine hrefused (.file e) (by rw [firstReading, hd]) ?_
    rw [outcome_builtIns_start hsource hs]
    exact outcome_bind_of_error hdirectory
  | ok found =>
    rw [hd] at hdirectory
    cases found with
    | false =>
      refine hrefused (.template (.directoryMissing p.text)) (by rw [firstReading, hd]) ?_
      rw [outcome_builtIns_start hsource hs]
      exact (outcome_bind_of_ok hdirectory).trans (outcome_throw _ s)
    | true =>
      cases hn : namesIn s.files p with
      | error e =>
        rw [hn] at hnames
        refine hrefused e (by rw [firstReading, hd, hn]) ?_
        rw [outcome_builtIns_start hsource hs]
        exact (outcome_bind_of_ok hdirectory).trans (outcome_bind_of_error hnames)
      | ok names => exact outcome_builtIns_of_names hsource hs hd hn

end

/-! ## Failures -/

/-- What the uses of the built-in templates come to, one after another. -/
def attempts (l : Library) : Nat → Shelf → List (Except Fault (List TemplateDefinition))
  | 0, _ => []
  | n + 1, s => (l.builtIns.outcome s).1 :: attempts l n (l.builtIns.outcome s).2

/-- A use that leaves templates behind is the last one that reads any. -/
theorem attempts_of_known (hknown : s.builtIns ≠ []) (n : Nat) :
    l.attempts n s = List.replicate n (.ok s.builtIns) := by
  induction n with
  | zero => rfl
  | succ n ih => rw [attempts, outcome_builtIns_of_known hknown, ih, List.replicate_succ]

/-- A use that fails and leaves nothing behind fails again, and again leaves nothing. -/
theorem attempts_of_first (hsource : l.builtInSource = .directory p) (hs : s.builtIns = [])
    (hfirst : firstReading s.files p = ([], .error e)) (n : Nat) :
    l.attempts n s = List.replicate n (.error e) := by
  induction n generalizing s with
  | zero => rfl
  | succ n ih =>
    obtain ⟨log, h⟩ := outcome_builtIns hsource hs
    rw [hfirst] at h
    have hrest := ih (s := (s.noting log).holding []) rfl hfirst
    rw [attempts, h, List.replicate_succ, ← hrest]
    rfl

/-- When the built-in templates of a directory cannot be read, nothing but them and the
log changes.  If the reading breaks off after the first templates, these are left behind,
and from then on they are what every use is given; in all other cases nothing is left
behind, and every later use fails in the same way. -/
theorem builtIns_after_failure (hsource : l.builtInSource = .directory p)
    (hfail : l.builtIns.outcome s = (.error e, s')) :
    s.builtIns = [] ∧ (∃ log, s' = (s.noting log).holding s'.builtIns) ∧
      (∀ ds, ds ≠ [] → BreaksOff s.files p ds e →
        s'.builtIns = insertAll ds [] ∧ s'.builtIns ≠ [] ∧
          ∀ n, l.attempts n s' = List.replicate n (.ok s'.builtIns)) ∧
      ((¬ ∃ ds, ds ≠ [] ∧ BreaksOff s.files p ds e) →
        s'.builtIns = [] ∧ ∀ n, l.attempts n s' = List.replicate n (.error e)) := by
  have hs : s.builtIns = [] := by
    by_contra hknown
    rw [outcome_builtIns_of_known hknown] at hfail
    cases hfail
  obtain ⟨log, h⟩ := outcome_builtIns hsource hs
  rw [hfail] at h
  obtain ⟨ds, hfirst⟩ : ∃ ds, firstReading s.files p = (ds, .error e) := by
    rcases hr : firstReading s.files p with ⟨ds, e' | _⟩
    · rw [hr] at h
      cases h
      exact ⟨ds, rfl⟩
    · rw [hr] at h
      cases h
  rw [hfirst] at h
  have hleft : s' = (s.noting log).holding (insertAll ds []) := (Prod.mk.inj h).2
  refine ⟨hs, ⟨log, by rw [hleft]; rfl⟩, fun ds' hne hbreak => ?_, fun hbreak => ?_⟩
  · have hds : ds = ds' := by
      have := (breaksOff_iff hne).2 hbreak
      rw [hfirst] at this
      exact (Prod.mk.inj this).1
    have hholds : s'.builtIns = insertAll ds' [] := by rw [hleft, hds]; rfl
    have hknown : s'.builtIns ≠ [] := by
      rw [hholds]
      exact fun h => hne (insertAll_eq_nil.1 h).1
    exact ⟨hholds, hknown, fun n => attempts_of_known hknown n⟩
  · have hds : ds = [] := by
      by_contra hne
      exact hbreak ⟨ds, hne, (breaksOff_iff hne).1 hfirst⟩
    have hholds : s'.builtIns = [] := by rw [hleft, hds]; rfl
    refine ⟨hholds, fun n => attempts_of_first hsource hholds ?_ n⟩
    rw [hleft, ← hds]
    exact hfirst

/-- A library whose built-in templates are two files, `a` and `b`, in one directory. -/
def ofTwo : Library :=
  { settings := {}, builtInSource := .directory (Path.ofText "lib".toList), hexes := fun _ => [] }

/-- The library of two files with templates of a user besides. -/
def ofUser : Library := { ofTwo with userDirectory := some (Path.ofText "user".toList) }

/-- A shelf that has not been used yet, with the contents of the two files. -/
def twoFiles (a b : List UInt8) : Shelf :=
  ofTwo.opened
    { entries := [(["lib".toList], .directory), (["lib".toList, "a.md".toList], .file a),
        (["lib".toList, "b.md".toList], .file b)] } 1

/-- Where the first file is no text, every use fails. -/
theorem builtIns_fail_twoFiles :
    (ofTwo.builtIns.outcome (twoFiles [0xff] [0x41])).1 = .error .undecodable ∧
    ∀ n, ofTwo.attempts n (ofTwo.builtIns.outcome (twoFiles [0xff] [0x41])).2 =
      List.replicate n (.error .undecodable) := by
  have hfail : (ofTwo.builtIns.outcome (twoFiles [0xff] [0x41])).1 = .error .undecodable := by
    decide +kernel
  have hfirst : firstReading (twoFiles [0xff] [0x41]).files (Path.ofText "lib".toList) =
      ([], .error .undecodable) := by decide +kernel
  refine ⟨hfail, ((builtIns_after_failure rfl (Prod.ext hfail rfl)).2.2.2 ?_).2⟩
  rintro ⟨ds, hne, hbreak⟩
  have := (breaksOff_iff hne).2 hbreak
  rw [hfirst] at this
  exact hne (Prod.mk.inj this).1.symm

/-- Where the second file is no text, the first use fails, and the next one gives the first
template for all there are. -/
theorem builtIns_incomplete :
    (ofTwo.builtIns.outcome (twoFiles [0x41] [0xff])).1 = .error .undecodable ∧
    (ofTwo.builtIns.outcome (ofTwo.builtIns.outcome (twoFiles [0x41] [0xff])).2).1 =
      .ok [{ id := ['a'], name := ['A'], description := "The A template.".toList,
             content := ['A'], builtIn := true }] := by
  decide +kernel

end Library
end Marginalia
