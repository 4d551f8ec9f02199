import Mathlib.Data.List.Nodup
import Marginalia.Cache
import Marginalia.Proofs.Number.Comparison

/-
Runs of a cache that starts empty.  Looking up and storing put no entry in that is not the one
looked up or stored.  Whatever steps are made, the cache stays within its bound and holds no key
twice, every look-up is counted once, and what is found is what was stored last, no older than
the age allows: a look-up does not make an entry younger.
-/
namespace Marginalia

/-! ## Entries -/

namespace Cache

variable {κ υ : Type} [BEq κ] {c : Cache κ υ} {now : Binary64} {key : κ} {v : υ}
  {P : CacheEntry κ υ → Prop}

theorem mem_of_find? {e : CacheEntry κ υ} (h : c.find? key = some e) : e ∈ c.entries :=
  List.mem_of_find?_eq_some h

theorem key_of_find? [LawfulBEq κ] {e : CacheEntry κ υ} (h : c.find? key = some e) :
    e.key = key := by
  unfold find? at h
  simpa using List.find?_some h

theorem maxSize_lookup : (c.lookup now key).2.maxSize = c.maxSize := by
  unfold lookup
  split
  · rfl
  · split <;> rfl

theorem forall_entries_lookup (now : Binary64) (key : κ) (h : ∀ e ∈ c.entries, P e) :
    ∀ e ∈ (c.lookup now key).2.entries, P e := by
  have hwithout : ∀ e ∈ without key c.entries, P e :=
    fun e he => h e (List.mem_filter.1 he).1
  unfold lookup
  split
  · exact h
  · rename_i e hfind
    split
    · exact hwithout
    · intro e' he'
      rcases List.mem_append.1 he' with he' | he'
      · exact hwithout e' he'
      · obtain rfl := List.mem_singleton.1 he'
        exact h e' (mem_of_find? hfind)

/-- What is found under a key was stored under it. -/
theorem exists_of_lookup [LawfulBEq κ] (h : (c.lookup now key).1 = some v) :
    ∃ e ∈ c.entries, e.key = key ∧ e.value = v := by
  unfold lookup at h
  split at h
  · cases h
  · rename_i e hfind
    split at h
    · cases h
    · cases h
      exact ⟨e, mem_of_find? hfind, key_of_find? hfind, rfl⟩

theorem forall_entries_store (h : ∀ e ∈ c.entries, P e) (hnew : P ⟨key, v, now⟩) :
    ∀ e ∈ (c.store now key v).entries, P e := by
  intro e he
  rcases List.mem_append.1 (List.mem_of_mem_drop he) with he | he
  · exact h e (List.mem_filter.1 he).1
  · obtain rfl := List.mem_singleton.1 he
    exact hnew

end Cache

/-! ## Steps -/

namespace Binary64

/-- No more than; what is not a number is no more and no less than anything. -/
def AtMost (x y : Binary64) : Prop := ∃ o, x.compare? y = some o ∧ o ≠ .gt

end Binary64

namespace CacheStep

variable {κ υ : Type}

/-- The key that a step looks up. -/
def lookedUp : CacheStep κ υ → Option κ
  | .get key => some key
  | .contains key => some key
  | _ => none

/-- What was stored under the key before is not what is stored there after. -/
def Overrides (key : κ) : CacheStep κ υ → Prop
  | .set k _ => k = key
  | .delete k => k = key
  | .clear => True
  | _ => False

def isClear : CacheStep κ υ → Bool
  | .clear => true
  | _ => false

/-- The steps since the cache was cleared, the latest first. -/
def sinceClear (steps : List (CacheStep κ υ)) : List (CacheStep κ υ) :=
  steps.takeWhile (!·.isClear)

/-- What a look-up answers when it finds a value. -/
inductive Finds (isNothing : υ → Bool) (v : υ) : CacheStep κ υ → CacheAnswer υ → Prop where
  | get (key : κ) : Finds isNothing v (.get key) (.value (some v))
  | contains (key : κ) : Finds isNothing v (.contains key) (.held (!isNothing v))

end CacheStep

/-- The steps made so far with what the clock showed, the latest first. -/
abbrev CacheHistory (κ υ : Type) := List (Binary64 × CacheStep κ υ)

namespace CacheHistory

variable {κ υ : Type} {h : CacheHistory κ υ} {key : κ} {v : υ} {stored now : Binary64}
  {step : CacheStep κ υ}

def steps (h : CacheHistory κ υ) : List (CacheStep κ υ) := h.map (·.2)

/-- The key was stored with this value at this time, and neither stored again nor dropped
by a step since. -/
def LastSet (h : CacheHistory κ υ) (key : κ) (v : υ) (stored : Binary64) : Prop :=
  ∃ later earlier, h = later ++ (stored, .set key v) :: earlier ∧
    ∀ s ∈ later, ¬ s.2.Overrides key

/-- How many keys were looked up since the cache was cleared. -/
def lookups (h : CacheHistory κ υ) : Nat :=
  (CacheStep.sinceClear h.steps).countP (·.lookedUp.isSome)

theorem lookups_lookedUp (hstep : step.lookedUp = some key) :
    lookups ((now, step) :: h) = h.lookups + 1 := by
  cases step with
  | get k => simp [lookups, steps, CacheStep.sinceClear, CacheStep.isClear, CacheStep.lookedUp]
  | contains k =>
    simp [lookups, steps, CacheStep.sinceClear, CacheStep.isClear, CacheStep.lookedUp]
  | set | delete | clear => cases hstep

theorem LastSet.here (h : CacheHistory κ υ) (key : κ) (v : υ) (now : Binary64) :
    LastSet ((now, .set key v) :: h) key v now :=
  ⟨[], h, rfl, by simp⟩

theorem LastSet.cons (hlast : h.LastSet key v stored) (hstep : ¬ step.Overrides key) :
    LastSet ((now, step) :: h) key v stored := by
  obtain ⟨later, earlier, rfl, hlater⟩ := hlast
  exact ⟨(now, step) :: later, earlier, rfl, List.forall_mem_cons.2 ⟨hstep, hlater⟩⟩

end CacheHistory

namespace Cache

variable {κ υ : Type} {c : Cache κ υ} {maxSize : Nat} {maxAge : Option Binary64}
  {h : CacheHistory κ υ} {now : Binary64} {key : κ} {v : υ} {e : CacheEntry κ υ}
  {step : CacheStep κ υ}

/-- What is known of a cache after some steps. -/
structure Accounts (maxSize : Nat) (maxAge : Option Binary64) (h : CacheHistory κ υ)
    (c : Cache κ υ) : Prop where
  maxSize_eq : c.maxSize = maxSize
  maxAge_eq : c.maxAge = maxAge
  size_le : c.size ≤ maxSize
  nodup : c.keys.Nodup
  counted : c.hits + c.misses = h.lookups
  lastSet : ∀ e ∈ c.entries, h.LastSet e.key e.value e.stored

theorem toNat_maxSize (h : c.maxSize = maxSize) : c.maxSize.toNat = maxSize := by
  rw [h]
  exact Int.toNat_natCast maxSize

theorem isExpired_of_maxAge (h : c.maxAge = none) : c.isExpired now e = false := by
  unfold isExpired
  rw [h]

theorem Accounts.clear (hc : Accounts maxSize maxAge h c) :
    Accounts maxSize maxAge ((now, .clear) :: h) c.clear :=
  ⟨hc.maxSize_eq, hc.maxAge_eq, Nat.zero_le _, List.nodup_nil, rfl, nofun⟩

theorem atMost_of_not_expired {age : Binary64} (hage : c.maxAge = some age)
    (he : c.isExpired now e = false) (hnow : now.isFinite) (hstored : e.stored.isFinite)
    (hnumber : age ≠ .nan) : (now.sub e.stored).AtMost age := by
  obtain ⟨o, ho⟩ := Binary64.exists_compare?_of_ne_nan (Binary64.sub_ne_nan hnow hstored) hnumber
  refine ⟨o, ho, ?_⟩
  rintro rfl
  unfold isExpired at he
  rw [hage] at he
  simp [ho] at he

variable [BEq κ]

/-! ## Look-ups -/

theorem lookup_of_absent (h : c.find? key = none) :
    c.lookup now key = (none, { c with misses := c.misses + 1 }) := by
  unfold lookup
  rw [h]

theorem lookup_of_expired (h : c.find? key = some e) (he : c.isExpired now e = true) :
    c.lookup now key =
      (none, { c with entries := without key c.entries, misses := c.misses + 1 }) := by
  unfold lookup
  rw [h]
  exact if_pos he

theorem lookup_of_held (h : c.find? key = some e) (he : c.isExpired now e = false) :
    c.lookup now key =
      (some e.value,
        { c with entries := without key c.entries ++ [e], hits := c.hits + 1 }) := by
  unfold lookup
  rw [h]
  exact if_neg (by simp [he])

/-- A look-up counts as a hit exactly if there is an entry that is not too old. -/
theorem hits_lookup : (c.lookup now key).2.hits = c.hits + 1 ↔
    ∃ e, c.find? key = some e ∧ c.isExpired now e = false := by
  cases hfind : c.find? key with
  | none => simp [lookup_of_absent hfind]
  | some e =>
    cases hexpired : c.isExpired now e with
    | true => simp [lookup_of_expired hfind hexpired, hexpired]
    | false => simp [lookup_of_held hfind hexpired, hexpired]

theorem perform_lookedUp (isNothing : υ → Bool) (hstep : step.lookedUp = some key) :
    (c.perform isNothing now step).2 = (c.lookup now key).2 := by
  cases step with
  | get k =>
    cases hstep
    rfl
  | contains k =>
    cases hstep
    rfl
  | set | delete | clear => cases hstep

/-- A look-up that counts as a hit answers with the value of the entry it finds. -/
theorem finds_of_held (isNothing : υ → Bool) (hstep : step.lookedUp = some key)
    (hfind : c.find? key = some e) (he : c.isExpired now e = false) :
    step.Finds isNothing e.value (c.perform isNothing now step).1 := by
  have hlookup := lookup_of_held hfind he
  cases step with
  | get k =>
    cases hstep
    show CacheStep.Finds isNothing e.value _ (CacheAnswer.value (c.lookup now key).1)
    rw [hlookup]
    exact .get key
  | contains k =>
    cases hstep
    show CacheStep.Finds isNothing e.value _
      (CacheAnswer.held ((c.lookup now key).1.any fun v => !isNothing v))
    rw [hlookup]
    exact .contains key
  | set | delete | clear => cases hstep

theorem keys_without (key : κ) (es : List (CacheEntry κ υ)) :
    (without key es).map (·.key) = (es.map (·.key)).filter fun k => !(k == key) := by
  unfold without
  rw [List.filter_map]
  rfl

theorem nodup_without (key : κ) (h : c.keys.Nodup) :
    ((without key c.entries).map (·.key)).Nodup := by
  rw [keys_without]
  exact h.filter _

/-! ## Runs -/

/-- What a cache that was empty at first has become. -/
def run (isNothing : υ → Bool) (maxSize : Nat) (maxAge : Option Binary64) :
    CacheHistory κ υ → Cache κ υ
  | [] => { maxSize, maxAge }
  | (now, step) :: earlier =>
    ((run isNothing maxSize maxAge earlier).perform isNothing now step).2

variable [LawfulBEq κ]

theorem not_mem_keys_without (key : κ) (es : List (CacheEntry κ υ)) :
    key ∉ (without key es).map (·.key) := by
  rw [keys_without]
  simp

theorem nodup_renewed (h : c.keys.Nodup) (he : e.key = key) :
    ((without key c.entries ++ [e]).map (·.key)).Nodup := by
  have hnot := not_mem_keys_without key c.entries
  rw [List.map_append, List.map_singleton, he]
  refine List.Nodup.append (nodup_without key h) (List.nodup_singleton key) ?_
  rw [List.disjoint_singleton]
  exact hnot

theorem length_renewed_le (h : c.find? key = some e) :
    (without key c.entries ++ [e]).length ≤ c.size := by
  have hlt : (without key c.entries).length < c.entries.length := by
    refine List.length_filter_lt_length_iff_exists.2 ⟨e, mem_of_find? h, ?_⟩
    simp [key_of_find? h]
  rw [List.length_append, List.length_singleton]
  exact hlt

theorem Accounts.lookup (hc : Accounts maxSize maxAge h c)
    (hstep : step.lookedUp = some key) :
    Accounts maxSize maxAge ((now, step) :: h) (c.lookup now key).2 := by
  have hsince : CacheHistory.lookups ((now, step) :: h) = c.hits + c.misses + 1 := by
    rw [CacheHistory.lookups_lookedUp hstep, hc.counted]
  have hkeeps : ∀ e ∈ c.entries,
      CacheHistory.LastSet ((now, step) :: h) e.key e.value e.stored := by
    intro e he
    refine (hc.lastSet e he).cons ?_
    cases step with
    | get | contains => exact id
    | set | delete | clear => cases hstep
  have hlast := forall_entries_lookup now key hkeeps
  cases hfind : c.find? key with
  | none =>
    rw [lookup_of_absent hfind] at hlast ⊢
    refine ⟨hc.maxSize_eq, hc.maxAge_eq, hc.size_le, hc.nodup, ?_, hlast⟩
    rw [hsince]
    exact (Nat.add_assoc _ _ 1).symm
  | some e =>
    cases hexpired : c.isExpired now e with
    | true =>
      rw [lookup_of_expired hfind hexpired] at hlast ⊢
      refine ⟨hc.maxSize_eq, hc.maxAge_eq, ?_, nodup_without key hc.nodup, ?_, hlast⟩
      · exact Nat.le_trans (List.length_filter_le _ _) hc.size_le
      · rw [hsince]
        exact (Nat.add_assoc _ _ 1).symm
    | false =>
      rw [lookup_of_held hfind hexpired] at hlast ⊢
      refine ⟨hc.maxSize_eq, hc.maxAge_eq, ?_, ?_, ?_, hlast⟩
      · exact Nat.le_trans (length_renewed_le hfind) hc.size_le
      · exact nodup_renewed hc.nodup (key_of_find? hfind)
      · rw [hsince]
        exact Nat.add_right_comm _ 1 _

theorem lastSet_of_mem_without (hc : Accounts maxSize maxAge h c)
    (hstep : ∀ k, step.Overrides k → k = key) (he : e ∈ without key c.entries) :
    CacheHistory.LastSet ((now, step) :: h) e.key e.value e.stored := by
  obtain ⟨hmem, hne⟩ := List.mem_filter.1 he
  refine (hc.lastSet e hmem).cons fun hover => ?_
  rw [hstep _ hover] at hne
  simp at hne

theorem Accounts.store (hc : Accounts maxSize maxAge h c) :
    Accounts maxSize maxAge ((now, .set key v) :: h) (c.store now key v) := by
  refine ⟨hc.maxSize_eq, hc.maxAge_eq, ?_, ?_, hc.counted, ?_⟩
  · show (List.drop _ (without key c.entries ++ [⟨key, v, now⟩])).length ≤ maxSize
    rw [toNat_maxSize hc.maxSize_eq, List.length_drop]
    omega
  · have hnodup := nodup_renewed (e := ⟨key, v, now⟩) hc.nodup rfl
    exact hnodup.sublist ((List.drop_sublist _ _).map _)
  · intro e he
    rcases List.mem_append.1 (List.mem_of_mem_drop he) with he | he
    · refine lastSet_of_mem_without hc (fun k hk => ?_) he
      exact hk.symm
    · obtain rfl := List.mem_singleton.1 he
      exact .here h key v now

theorem Accounts.erase (hc : Accounts maxSize maxAge h c) :
    Accounts maxSize maxAge ((now, .delete key) :: h) (c.erase key).2 := by
  refine ⟨hc.maxSize_eq, hc.maxAge_eq, ?_, nodup_without key hc.nodup, hc.counted, ?_⟩
  · exact Nat.le_trans (List.length_filter_le _ _) hc.size_le
  · intro e he
    refine lastSet_of_mem_without hc (fun k hk => ?_) he
    exact hk.symm

/-- One step keeps what is known of a cache true. -/
theorem Accounts.perform (isNothing : υ → Bool) (hc : Accounts maxSize maxAge h c)
    (now : Binary64) (step : CacheStep κ υ) :
    Accounts maxSize maxAge ((now, step) :: h) (c.perform isNothing now step).2 := by
  cases step with
  | set key v => exact hc.store
  | get key => exact hc.lookup rfl
  | contains key => exact hc.lookup rfl
  | delete key => exact hc.erase
  | clear => exact hc.clear

theorem accounts_run (isNothing : υ → Bool) (maxSize : Nat) (maxAge : Option Binary64)
    (h : CacheHistory κ υ) : Accounts maxSize maxAge h (run isNothing maxSize maxAge h) := by
  induction h with
  | nil => exact ⟨rfl, rfl, Nat.zero_le _, List.nodup_nil, rfl, nofun⟩
  | cons s earlier ih => exact ih.perform isNothing s.1 s.2

/-- After any steps the cache is within its bound, its keys are distinct, and all look-ups
since it was cleared are counted.  A look-up that counts as a hit answers with the value
that its key was last set to, and comes no later after that than the age allows. -/
theorem run_keeps_accounts (isNothing : υ → Bool) (maxSize : Nat) (maxAge : Option Binary64)
    (h : CacheHistory κ υ) :
    (run isNothing maxSize maxAge h).size ≤ maxSize ∧
      (run isNothing maxSize maxAge h).keys.Nodup ∧
      (run isNothing maxSize maxAge h).hits + (run isNothing maxSize maxAge h).misses =
        (CacheStep.sinceClear h.steps).countP (·.lookedUp.isSome) ∧
      ∀ (now : Binary64) (step : CacheStep κ υ) (key : κ), step.lookedUp = some key →
        (run isNothing maxSize maxAge ((now, step) :: h)).hits =
            (run isNothing maxSize maxAge h).hits + 1 →
          ∃ v stored, h.LastSet key v stored ∧
            step.Finds isNothing v ((run isNothing maxSize maxAge h).perform isNothing now step).1 ∧
            ∀ age, maxAge = some age → age ≠ .nan → now.isFinite → stored.isFinite →
              (now.sub stored).AtMost age := by
  have hc := accounts_run isNothing maxSize maxAge h
  refine ⟨hc.size_le, hc.nodup, hc.counted, fun now step key hstep hhit => ?_⟩
  rw [run, perform_lookedUp isNothing hstep, hits_lookup] at hhit
  obtain ⟨e, hfind, hheld⟩ := hhit
  have hlast := hc.lastSet e (mem_of_find? hfind)
  rw [key_of_find? hfind] at hlast
  refine ⟨e.value, e.stored, hlast, finds_of_held isNothing hstep hfind hheld, ?_⟩
  intro age hage hnumber hnow hstored
  exact atMost_of_not_expired (hc.maxAge_eq.trans hage) hheld hnow hstored hnumber

/-- A number of the least units of time. -/
def tick (n : Nat) : Binary64 := .finite false n

/-- Three keys for two places; the first one is looked up in between, and set again. -/
def crowdedRun : CacheHistory Nat Nat :=
  [(tick 9, .get 1), (tick 8, .contains 2), (tick 7, .set 3 30), (tick 5, .set 1 11),
    (tick 2, .get 1), (tick 1, .set 2 20), (tick 0, .set 1 10)]

theorem run_keeps_accounts_crowdedRun :
    (run (fun _ => false) 2 (some (tick 9)) crowdedRun).size ≤ 2 ∧
      ∃ v stored, crowdedRun.LastSet 1 v stored ∧
        (CacheStep.get 1).Finds (fun _ => false) v
          ((run (fun _ => false) 2 (some (tick 9)) crowdedRun).perform (fun _ => false) (tick 14)
            (.get 1)).1 ∧
        ((tick 14).sub stored).AtMost (tick 9) := by
  obtain ⟨hsize, _, _, hfound⟩ :=
    run_keeps_accounts (fun _ => false) 2 (some (tick 9)) crowdedRun
  obtain ⟨v, stored, hlast, hfinds, hage⟩ :=
    hfound (tick 14) (.get 1) 1 rfl (by decide +kernel)
  have hfinite : ∀ s ∈ crowdedRun, s.1.isFinite := by decide
  have hstored : stored.isFinite := by
    obtain ⟨later, earlier, heq, _⟩ := hlast
    exact hfinite (stored, .set 1 v) (heq ▸ by simp)
  exact ⟨hsize, v, stored, hlast, hfinds, hage (tick 9) rfl nofun rfl hstored⟩

end Cache

end Marginalia
