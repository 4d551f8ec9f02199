import Marginalia.Command.Job
import Marginalia.Proofs.File.Contents

/-
How the parts of a run end.  A part returns or it stops; a part that stops must have left
the contents of files alone, and of one that returns it is stated what it leaves.
-/
namespace Marginalia
namespace Act

variable {α β : Type} {m : Act α} {before : FileTree} {P : α → Session → Prop} {s t : Session}

/-- What a part of a run comes to, and the session that it leaves. -/
def outcome (m : Act α) (s : Session) : Except Stop α × Session := m.run.run s

/-- A part of a run either returns, and `P` holds of what it returns and of what it leaves,
or it stops, and then files hold what they held before. -/
def Ends (before : FileTree) (P : α → Session → Prop) (m : Act α) (s : Session) : Prop :=
  match m.outcome s with
  | (.ok a, t) => P a t
  | (.error _, t) => before.KeepsContents t.files

/-- A part of a run that returns and changes neither the files nor what is drawn. -/
def IsQuiet (m : Act Unit) : Prop :=
  ∀ s, ∃ t, m.outcome s = (.ok (), t) ∧ t.files = s.files ∧ t.drawn = s.drawn

theorem outcome_bind_of_ok {f : α → Act β} {a : α} (h : m.outcome s = (.ok a, t)) :
    outcome (m >>= f) s = (f a).outcome t :=
  run_bind_of_eq_ok h f

theorem outcome_bind_of_error {f : α → Act β} {e : Stop} (h : m.outcome s = (.error e, t)) :
    outcome (m >>= f) s = (.error e, t) :=
  run_bind_of_eq_error h f

theorem isQuiet_report (e : LogEntry) : IsQuiet (report e) :=
  fun _ => ⟨_, rfl, rfl, rfl⟩

theorem outcome_get (s : Session) : (get : Act Session).outcome s = (.ok s, s) := rfl

namespace Ends

theorem pure {a : α} (h : P a s) : Ends before P (Pure.pure a) s := h

theorem bind {Q : β → Session → Prop} {f : α → Act β} (h : Ends before P m s)
    (hf : ∀ a t, P a t → Ends before Q (f a) t) : Ends before Q (m >>= f) s := by
  unfold Ends at h
  split at h
  · rename_i a t hrun
    rw [Ends, outcome_bind_of_ok hrun]
    exact hf a t h
  · rename_i e t hrun
    rw [Ends, outcome_bind_of_error hrun]
    exact h

theorem mono {Q : α → Session → Prop} (h : Ends before P m s) (hPQ : ∀ a t, P a t → Q a t) :
    Ends before Q m s := by
  unfold Ends at *
  split at h
  · exact hPQ _ _ h
  · exact h

/-- What comes after a quiet part. -/
theorem quiet {m : Act Unit} {f : Unit → Act α} (hm : IsQuiet m)
    (hf : ∀ t, t.files = s.files → t.drawn = s.drawn → Ends before P (f ()) t) :
    Ends before P (m >>= f) s := by
  obtain ⟨t, hrun, hfiles, hdrawn⟩ := hm s
  rw [Ends, outcome_bind_of_ok hrun]
  exact hf t hfiles hdrawn

theorem get {f : Session → Act α} (h : Ends before P (f s) s) :
    Ends before P (MonadState.get >>= f) s := by
  rw [Ends, outcome_bind_of_ok (outcome_get s)]
  exact h

theorem giveUp (line : Text) (h : before.KeepsContents s.files) :
    Ends before P (Act.giveUp line) s := h

theorem query {γ : Type} {f : FileTree → Except FileProblem γ} {g : γ → Act α}
    (h : before.KeepsContents s.files) (hg : ∀ a, f s.files = .ok a → Ends before P (g a) s) :
    Ends before P (Act.query f >>= g) s := by
  have hquery : (Act.query f).outcome s =
      ((f s.files).mapError fun e => .fault (.file e), s) := by
    rw [Act.query, outcome_bind_of_ok (outcome_get s)]
    cases f s.files <;> rfl
  cases hf : f s.files with
  | error e =>
    rw [hf] at hquery
    rw [Ends, outcome_bind_of_error hquery]
    exact h
  | ok a =>
    rw [hf] at hquery
    rw [Ends, outcome_bind_of_ok hquery]
    exact hg a hf

end Ends

/-- Whether the directories can all be made or not, files hold what they held. -/
theorem ends_makeDirectories (p : Path) (s : Session) : Ends s.files
    (fun _ t => t.files = (s.files.makeDirectories p).1 ∧ t.drawn = s.drawn)
    (makeDirectories p) s := by
  have hkeeps := FileTree.keepsContents_makeDirectories s.files p
  refine .get ?_
  rcases hmade : s.files.makeDirectories p with ⟨files, e | _⟩
  · rw [hmade] at hkeeps
    exact hkeeps
  · exact ⟨rfl, rfl⟩

end Act

end Marginalia
