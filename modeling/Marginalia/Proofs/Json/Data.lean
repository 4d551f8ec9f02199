import Marginalia.Calendar.Mask
import Marginalia.Json.Reader
import Marginalia.Json.Writer
import Marginalia.Proofs.Ensures
import Marginalia.Proofs.Json.Induction
import Marginalia.Proofs.Number.Numeral
import Marginalia.Proofs.Number.Range

/-
Values as they come out of interchange text.  Whatever is read is made of numbers that are
short enough to be written, of texts, and of lists and objects of such values; and
everything that is asked of a value as a text is answered by these.
-/
namespace Marginalia

/-! ## Numbers -/

namespace Binary64

/-- A finite number is less than the limit. -/
inductive InRange : Binary64 → Prop
  | nan : InRange .nan
  | infinity (negative : Bool) : InRange (.infinity negative)
  | finite {negative : Bool} {u : Nat} : u < limit → InRange (.finite negative u)

theorem inRange_ofRatio (negative : Bool) (num den : Nat) : (ofRatio negative num den).InRange := by
  unfold ofRatio
  dsimp only
  split_ifs with h
  · exact .finite h
  · exact .infinity negative

theorem inRange_zero (negative : Bool) : (finite negative 0).InRange :=
  .finite (by decide +kernel)

/-- The whole part of a number is short enough to be written. -/
theorem InRange.isShort {x : Binary64} (h : x.InRange) {n : Int} (hn : x.truncate? = some n) :
    Value.IsShort n := by
  cases h with
  | nan => cases hn
  | infinity => cases hn
  | @finite s u hu =>
    obtain ⟨k, hlimit, hk⟩ : ∃ k, limit = k * one ∧ k ≤ Nat.pow 10 Text.maxNumeralDigits :=
      ⟨Nat.pow 2 1024, by decide +kernel, by decide +kernel⟩
    have habs : n.natAbs = u / one := by
      obtain rfl : signedUnits s (u / one) = n := Option.some.inj hn
      unfold signedUnits
      split
      · exact Int.natAbs_neg _
      · rfl
    rw [hlimit, ← Nat.div_lt_iff_lt_mul pos_one, ← habs] at hu
    exact Nat.lt_of_lt_of_le hu hk

end Binary64

namespace Decimal

theorem inRange_toBinary64 (d : Decimal) : d.toBinary64.InRange := by
  unfold toBinary64
  split_ifs
  · exact Binary64.inRange_zero _
  · exact .infinity _
  · exact Binary64.inRange_ofRatio _ _ _
  · exact Binary64.inRange_zero _
  · exact Binary64.inRange_ofRatio _ _ _

theorem inRange_of_read? {t : Text} {x : Binary64} (h : read? t = some x) : x.InRange := by
  obtain ⟨body, _, h⟩ := Option.bind_eq_some_iff.1 h
  dsimp only at h
  split_ifs at h
  · cases h
    exact .infinity _
  · cases h
    exact .nan
  · obtain ⟨d, _, rfl⟩ := Option.map_eq_some_iff.1 h
    exact inRange_toBinary64 d

end Decimal

/-! ## Data -/

namespace Value

/-- What interchange text can stand for. -/
inductive IsData : Value → Prop
  | null : IsData .null
  | bool (b : Bool) : IsData (.bool b)
  | int {n : Int} : IsShort n → IsData (.int n)
  | float {x : Binary64} : x.InRange → IsData (.float x)
  | text (t : Text) : IsData (.text t)
  | list {xs : List Value} : (∀ x ∈ xs, IsData x) → IsData (.list xs)
  | map {es : List (Value × Value)} : (∀ e ∈ es, ∃ k, e.1 = .text k) →
      (∀ e ∈ es, IsData e.2) → IsData (.map es)

variable {v : Value}

/-- How one entry of a map shows inside it. -/
def entryLiteral (e : Value × Value) : Except Fault Text := do
  let kt ← literal e.1
  let vt ← literal e.2
  .ok (kt ++ [':', ' '] ++ vt)

theorem entryLiterals_cons (e : Value × Value) (es : List (Value × Value)) :
    entryLiterals (e :: es) =
      entryLiteral e >>= fun t => entryLiterals es >>= fun ts => .ok (t :: ts) := by
  rw [entryLiterals, entryLiteral]
  cases literal e.1 with
  | error _ => rfl
  | ok _ => cases literal e.2 <;> rfl

theorem IsData.exists_literal (h : v.IsData) : ∃ t, v.literal = .ok t := by
  induction h with
  | null => exact ⟨_, rfl⟩
  | bool b => exact ⟨_, rfl⟩
  | int hn =>
    rw [literal]
    exact exists_wholeText hn
  | float => exact ⟨_, rfl⟩
  | text t => exact ⟨_, rfl⟩
  | list _ ih =>
    rw [literal]
    exact exists_bind_eq_ok (exists_each literals rfl (fun _ _ => rfl) ih) fun _ _ => ⟨_, rfl⟩
  | map hkeys _ ih =>
    rw [literal]
    refine exists_bind_eq_ok (exists_each entryLiterals rfl entryLiterals_cons fun e he => ?_)
      fun _ _ => ⟨_, rfl⟩
    obtain ⟨k, hk⟩ := hkeys e he
    unfold entryLiteral
    rw [hk]
    exact exists_bind_eq_ok ⟨_, rfl⟩ fun _ _ => exists_bind_eq_ok (ih e he) fun _ _ => ⟨_, rfl⟩

theorem IsData.exists_shown (h : v.IsData) : ∃ t, v.shown = .ok t := by
  have hliteral := h.exists_literal
  cases h with
  | text t => exact ⟨t, rfl⟩
  | null => exact hliteral
  | bool => exact hliteral
  | int => exact hliteral
  | float => exact hliteral
  | list => exact hliteral
  | map => exact hliteral

theorem IsData.orEmpty (h : v.IsData) : v.orEmpty.IsData := by
  unfold Value.orEmpty
  split
  · exact h
  · exact .text []

theorem IsData.exists_templateText (h : v.IsData) : ∃ t, v.templateText = .ok t := by
  induction h with
  | null => exact ⟨_, rfl⟩
  | bool b => exact ⟨_, rfl⟩
  | int hn => exact (IsData.int hn).exists_literal
  | text t => exact ⟨_, rfl⟩
  | @float x hx =>
    rw [templateText]
    split
    · rename_i n hn
      split at hn
      · exact exists_wholeText (hx.isShort hn)
      · cases hn
    · exact ⟨_, rfl⟩
  | list _ ih =>
    rw [templateText]
    exact exists_bind_eq_ok (exists_each templateTexts rfl (fun _ _ => rfl) ih) fun _ _ => ⟨_, rfl⟩
  | map hkeys hvalues => exact (IsData.map hkeys hvalues).exists_literal

/-- A moment is looked for in any of these. -/
theorem IsData.exists_moment (h : v.IsData) : ∃ m, Moment.ofValue? v = .ok m := by
  have hshown := h.exists_shown
  cases h with
  | null => exact ⟨_, rfl⟩
  | bool => exact ⟨_, rfl⟩
  | int => exact ⟨_, rfl⟩
  | float => exact ⟨_, rfl⟩
  | text => exact ⟨_, rfl⟩
  | list => exact exists_bind_eq_ok hshown fun _ _ => ⟨_, rfl⟩
  | map => exact exists_bind_eq_ok hshown fun _ _ => ⟨_, rfl⟩

end Value

namespace Json

/-! ## Writing -/

/-- One entry of an object as it is written. -/
def writeEntry (e : Value × Value) : Except Fault Text := do
  let k ← key e.1
  let t ← write e.2
  .ok (string k ++ [':'] ++ t)

theorem writeEntries_step (e : Value × Value) (es : List (Value × Value)) :
    writeEntries (e :: es) =
      writeEntry e >>= fun t => writeEntries es >>= fun ts => .ok (t :: ts) := by
  rw [writeEntries, writeEntry]
  cases key e.1 with
  | error _ => rfl
  | ok _ => cases write e.2 <;> rfl

theorem exists_write {v : Value} (h : v.IsData) : ∃ t, write v = .ok t := by
  induction h with
  | null => exact ⟨_, rfl⟩
  | bool b => exact ⟨_, rfl⟩
  | int hn =>
    rw [write]
    exact Value.exists_wholeText hn
  | float => exact ⟨_, rfl⟩
  | text t => exact ⟨_, rfl⟩
  | list _ ih =>
    rw [write]
    exact exists_bind_eq_ok (exists_each writeItems rfl (fun _ _ => rfl) ih) fun _ _ => ⟨_, rfl⟩
  | map hkeys _ ih =>
    rw [write]
    refine exists_bind_eq_ok (exists_each writeEntries rfl writeEntries_step fun e he => ?_)
      fun _ _ => ⟨_, rfl⟩
    obtain ⟨k, hk⟩ := hkeys e he
    unfold writeEntry
    rw [hk]
    exact exists_bind_eq_ok ⟨_, rfl⟩ fun _ _ => exists_bind_eq_ok (ih e he) fun _ _ => ⟨_, rfl⟩

/-! ## Reading -/

/-- Data is read from data. -/
theorem passesUp_isData : PassesUp Value.IsData where
  word := by
    unfold wordValues
    simp only [List.forall_mem_cons]
    exact ⟨.null, .bool true, .bool false, .float .nan, .float (.infinity false),
      .float (.infinity true), nofun⟩
  text := .text
  int := .int
  float d := .float (Decimal.inRange_toBinary64 d)
  list := .list
  object _ hes := by
    refine .map (fun e he => ?_) fun e he => ?_ <;> obtain ⟨f, hf, rfl⟩ := List.mem_map.1 he
    · exact ⟨f.1, rfl⟩
    · exact hes f hf

/-- Whatever interchange text stands for is data. -/
theorem isData_of_read? {t : Text} {v : Value} (h : read? t = some v) : v.IsData :=
  passesUp_isData.of_read? h

end Json
end Marginalia
