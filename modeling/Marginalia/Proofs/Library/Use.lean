import Marginalia.Library.Basic
import Marginalia.Proofs.Ensures

/-
What a use of a library comes to and the shelf that it leaves, part by part.  Reading a
template depends on the files alone, and of the shelf it changes the log alone.
-/
namespace Marginalia
namespace Use

variable {α β : Type} {m : Use α} {s t : Shelf}

/-- What a use comes to, and the shelf that it leaves. -/
def outcome (m : Use α) (s : Shelf) : Except Fault α × Shelf := m.run.run s

theorem outcome_pure (a : α) (s : Shelf) : outcome (pure a) s = (.ok a, s) := rfl

theorem outcome_get (s : Shelf) : (get : Use Shelf).outcome s = (.ok s, s) := rfl

theorem outcome_throw (e : Fault) (s : Shelf) :
    outcome (throw e : Use α) s = (.error e, s) := rfl

theorem outcome_bind_of_ok {f : α → Use β} {a : α} (h : m.outcome s = (.ok a, t)) :
    outcome (m >>= f) s = (f a).outcome t :=
  run_bind_of_eq_ok h f

theorem outcome_bind_of_error {f : α → Use β} {e : Fault} (h : m.outcome s = (.error e, t)) :
    outcome (m >>= f) s = (.error e, t) :=
  run_bind_of_eq_error h f

theorem outcome_ofExcept (x : Except Fault α) (s : Shelf) :
    outcome (ofExcept x) s = (x, s) := by
  cases x with
  | error e => rfl
  | ok a => rfl

theorem outcome_query (f : FileTree → Except FileProblem α) (s : Shelf) :
    outcome (query f) s = ((f s.files).mapError .file, s) := by
  rw [query, outcome_bind_of_ok (outcome_get s)]
  cases f s.files with
  | error e => exact outcome_throw _ s
  | ok a => exact outcome_pure a s

end Use

/-- The shelf when something more has been reported. -/
def Shelf.noting (s : Shelf) (log : Log) : Shelf :=
  { s with render := { s.render with log := s.render.log ++ log } }

namespace Shelf

@[simp] theorem noting_nil (s : Shelf) : s.noting [] = s := by
  simp [noting]

@[simp] theorem noting_noting (s : Shelf) (log log' : Log) :
    (s.noting log).noting log' = s.noting (log ++ log') := by
  simp [noting]

@[simp] theorem files_noting (s : Shelf) (log : Log) : (s.noting log).files = s.files := rfl

@[simp] theorem builtIns_noting (s : Shelf) (log : Log) :
    (s.noting log).builtIns = s.builtIns := rfl

end Shelf

/-! ## Reading templates -/

namespace TemplateDefinition

/-- The text of a file. -/
def textOf (files : FileTree) (p : Path) : Except Fault Text :=
  match files.read p with
  | .error e => .error (.file e)
  | .ok bytes =>
    match Text.decode? bytes with
    | none => .error .undecodable
    | some t => .ok (Text.unifyLineEnds t)

/-- The template that a file holds, and what reading it reports. -/
def ofFile (files : FileTree) (p : Path) (builtIn : Bool) : Except Fault TemplateDefinition × Log :=
  match textOf files p with
  | .error e => (.error e, [])
  | .ok t => ofText p.stem builtIn t

/-- The names of the templates in a directory, in the order in which they are read. -/
def namesIn (files : FileTree) (p : Path) : Except Fault (List Text) :=
  match files.locate p with
  | .error e => .error (.file e)
  | .ok place => .ok (Text.sortNew ((files.namesIn place).filter isFileName))

end TemplateDefinition

namespace Library

open Use

theorem outcome_define (id : Text) (builtIn : Bool) (t : Text) (s : Shelf) :
    (define id builtIn t).outcome s = ((TemplateDefinition.ofText id builtIn t).1,
      s.noting (TemplateDefinition.ofText id builtIn t).2) := by
  have hreport : (reportAll (TemplateDefinition.ofText id builtIn t).2).outcome s =
      (.ok (), s.noting (TemplateDefinition.ofText id builtIn t).2) := rfl
  exact (outcome_bind_of_ok hreport).trans (outcome_ofExcept _ _)

theorem outcome_readText (p : Path) (s : Shelf) :
    (readText p).outcome s = (TemplateDefinition.textOf s.files p, s) := by
  have hquery := outcome_query (·.read p) s
  unfold TemplateDefinition.textOf
  cases hread : s.files.read p with
  | error e =>
    rw [hread] at hquery
    exact outcome_bind_of_error hquery
  | ok bytes =>
    rw [hread] at hquery
    refine (outcome_bind_of_ok hquery).trans ?_
    dsimp only
    cases Text.decode? bytes with
    | none => exact outcome_throw _ s
    | some t => exact outcome_pure _ s

theorem outcome_readDefinition (p : Path) (builtIn : Bool) (s : Shelf) :
    (readDefinition p builtIn).outcome s = ((TemplateDefinition.ofFile s.files p builtIn).1,
      s.noting (TemplateDefinition.ofFile s.files p builtIn).2) := by
  have htext := outcome_readText p s
  unfold TemplateDefinition.ofFile
  cases h : TemplateDefinition.textOf s.files p with
  | error e =>
    rw [h] at htext
    rw [readDefinition, outcome_bind_of_error htext, Shelf.noting_nil]
  | ok t =>
    rw [h] at htext
    rw [readDefinition, outcome_bind_of_ok htext, outcome_define]

theorem outcome_templateNames (p : Path) (s : Shelf) :
    (templateNames p).outcome s = (TemplateDefinition.namesIn s.files p, s) := by
  have hquery := outcome_query (·.locate p) s
  unfold TemplateDefinition.namesIn
  cases hlocate : s.files.locate p with
  | error e =>
    rw [hlocate] at hquery
    exact outcome_bind_of_error hquery
  | ok place =>
    rw [hlocate] at hquery
    exact outcome_bind_of_ok hquery

end Library
end Marginalia
