import Marginalia.Filter.Basic
import Marginalia.Proofs.Filter.Length
import Marginalia.Proofs.Html.LongNumber

/-
What filters refuse.  Two of them refuse anything at all: one a length that cannot be read,
the other a reference that cannot be decoded.  A pipeline refuses a text where one of its
filters refuses what the filters before it have made of the text.
-/
namespace Marginalia

namespace Filter

/-- A filter with an argument does not work on a text. -/
inductive Refuses : Filter → Option Text → Text → Prop
  | length {a t : Text} (h : Truncate.IsBeyond a) : Refuses .truncate (some a) t
  | reference {arg : Option Text} {t : Text} (h : Html.HasLongNumber t) :
    Refuses .unescapeHtml arg t

variable {f : Filter} {arg : Option Text} {t : Text}

theorem exists_formatDate_text (arg : Option Text) (t : Text) :
    ∃ u, formatDate (.text t) arg = .ok u :=
  exists_bind_eq_ok ⟨Moment.ofText? t, rfl⟩ fun m _ => by cases m <;> exact ⟨_, rfl⟩

theorem truncate_refuses_iff (harg : ∀ a ∈ arg, Text.Tight a) :
    (∃ e, Truncate.apply t arg = .error e) ↔ Refuses .truncate arg t := by
  cases arg with
  | none => exact ⟨nofun, nofun⟩
  | some a =>
    rw [Truncate.apply_refuses_iff (harg a rfl)]
    exact ⟨.length, fun h => by cases h; assumption⟩

theorem apply_refuses_iff (harg : ∀ a ∈ arg, Text.Tight a) :
    (∃ e, f.apply arg t = .error e) ↔ f.Refuses arg t := by
  cases f with
  | truncate => exact truncate_refuses_iff harg
  | unescapeHtml =>
    refine (Html.decode_refuses_iff t).trans ⟨.reference, fun h => ?_⟩
    cases h
    assumption
  | dateFormat =>
    obtain ⟨u, hu⟩ := exists_formatDate_text arg t
    refine ⟨fun ⟨e, he⟩ => ?_, nofun⟩
    cases hu.symm.trans he
  | stripHtml => exact ⟨nofun, nofun⟩
  | breaksToLines => exact ⟨nofun, nofun⟩
  | escapeHtml => exact ⟨nofun, nofun⟩
  | lower => exact ⟨nofun, nofun⟩
  | upper => exact ⟨nofun, nofun⟩
  | quote => exact ⟨nofun, nofun⟩
  | escapeMarkdown => exact ⟨nofun, nofun⟩
  | identity => exact ⟨nofun, nofun⟩

/-- The argument of a filter as it is written has no blanks at its ends. -/
theorem tight_of_split {spec a : Text} (h : a ∈ (split spec).2) : a.Tight := by
  unfold split at h
  split at h
  · cases h
  · cases h
    exact Text.tight_strip _

end Filter

namespace Pipeline

/-- A text is refused by one of the filters, behind those that have worked on it. -/
def Refuses (p : Pipeline) (t : Text) : Prop :=
  ∃ done f arg rest u, p = done ++ (f, arg) :: rest ∧ run done t = .ok u ∧
    Filter.Refuses f arg u

theorem refuses_cons {f : Filter} {arg : Option Text} {rest : Pipeline} {t : Text} :
    Refuses ((f, arg) :: rest) t ↔
      f.Refuses arg t ∨ ∃ u, f.apply arg t = .ok u ∧ Refuses rest u := by
  constructor
  · rintro ⟨done, g, arg', rest', u, heq, hrun, hrefuses⟩
    cases done with
    | nil =>
      cases heq
      cases hrun
      exact .inl hrefuses
    | cons s done =>
      cases heq
      rw [run] at hrun
      cases happly : f.apply arg t with
      | error e =>
        rw [happly] at hrun
        cases hrun
      | ok v =>
        rw [happly] at hrun
        exact .inr ⟨v, rfl, done, g, arg', rest', u, rfl, hrun, hrefuses⟩
  · rintro (hrefuses | ⟨v, happly, done, g, arg', rest', u, rfl, hrun, hrefuses⟩)
    · exact ⟨[], f, arg, rest, t, rfl, rfl, hrefuses⟩
    · refine ⟨(f, arg) :: done, g, arg', rest', u, rfl, ?_, hrefuses⟩
      rw [run, happly]
      exact hrun

/-- A pipeline fails on the texts that it refuses, and on no others. -/
theorem run_refuses_iff {p : Pipeline} (hp : ∀ s ∈ p, ∀ a ∈ s.2, Text.Tight a) (t : Text) :
    (∃ e, run p t = .error e) ↔ Refuses p t := by
  induction p generalizing t with
  | nil =>
    refine ⟨nofun, ?_⟩
    rintro ⟨done, f, arg, rest, u, heq, _⟩
    cases done <;> cases heq
  | cons s rest ih =>
    obtain ⟨f, arg⟩ := s
    have hfilter := Filter.apply_refuses_iff (f := f) (t := t) (hp (f, arg) List.mem_cons_self)
    have hrest := ih fun s hs => hp s (List.mem_cons_of_mem _ hs)
    rw [refuses_cons, ← hfilter, run]
    cases happly : f.apply arg t with
    | error e => exact ⟨fun _ => .inl ⟨e, rfl⟩, fun _ => ⟨e, rfl⟩⟩
    | ok u =>
      dsimp only
      rw [hrest u]
      constructor
      · exact fun h => .inr ⟨u, rfl, h⟩
      · rintro (⟨e, he⟩ | ⟨v, hv, h⟩)
        · cases he
        · cases hv
          exact h

theorem tight_of_mem_ofSpecs (specs : List Text) :
    ∀ s ∈ ofSpecs specs, ∀ a ∈ s.2, Text.Tight a := by
  intro s hs a ha
  obtain ⟨spec, _, rfl⟩ := List.mem_map.1 hs
  exact Filter.tight_of_split ha

end Pipeline
end Marginalia
