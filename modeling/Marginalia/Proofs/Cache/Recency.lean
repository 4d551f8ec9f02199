import Mathlib.Data.List.TakeWhile
import Marginalia.Proofs.Cache.Run

/-
What a cache forgets.  Without an age and without deletions a cache holds the keys that
were used last, as many as there is room for: a key is there exactly if it was stored
since the cache was cleared, and fewer other keys were used since than there is room for.
-/
namespace Marginalia

/-! ## Keys by their first places -/

section

variable {α : Type} [BEq α] [LawfulBEq α] {a : α} {l : List α}

theorem eraseDups_filter (a : α) (l : List α) :
    (l.filter fun b => !(b == a)).eraseDups = l.eraseDups.filter fun b => !(b == a) := by
  -- on the length: what comes after the head is not the tail but what is left of it
  induction hn : l.length using Nat.strongRecOn generalizing l with
  | ind n ih =>
    cases l with
    | nil => rfl
    | cons b rest =>
      have hlen : (rest.filter fun c => !(c == b)).length < n := by
        have := List.length_filter_le (fun c => !(c == b)) rest
        rw [List.length_cons] at hn
        omega
      have hrest := ih _ hlen (rest.filter fun c => !(c == b)) rfl
      rw [List.eraseDups_cons]
      by_cases hb : b = a
      · subst hb
        rw [List.filter_cons_of_neg (by simp), List.filter_cons_of_neg (by simp), ← hrest,
          List.filter_filter]
        simp
      · rw [List.filter_cons_of_pos (by simpa using hb), List.filter_cons_of_pos (by simpa using hb),
          List.eraseDups_cons, ← hrest, List.filter_filter, List.filter_filter]
        simp only [Bool.and_comm]

theorem eraseDups_cons_eq (a : α) (l : List α) :
    (a :: l).eraseDups = a :: l.eraseDups.filter fun b => !(b == a) := by
  rw [List.eraseDups_cons, eraseDups_filter]

theorem nodup_eraseDups (l : List α) : l.eraseDups.Nodup := by
  induction l with
  | nil => exact List.nodup_nil
  | cons a rest ih =>
    rw [eraseDups_cons_eq, List.nodup_cons]
    exact ⟨by simp, ih.filter _⟩

/-- Taking one element out of the front of a list leaves room for one more. -/
theorem take_filter_take (hl : l.Nodup) (a : α) (n : Nat) :
    ((l.take (n + 1)).filter fun b => !(b == a)).take n =
      (l.filter fun b => !(b == a)).take n := by
  induction l generalizing n with
  | nil => rfl
  | cons b rest ih =>
    rw [List.nodup_cons] at hl
    rw [List.take_succ_cons]
    by_cases hb : b = a
    · -- the element is found: there is no other one behind it to take out
      subst hb
      have hkeep (s : List α) (hs : s ⊆ rest) : (s.filter fun c => !(c == b)) = s := by
        rw [List.filter_eq_self]
        intro c hc
        have : c ≠ b := fun hcb => hl.1 (hcb ▸ hs hc)
        simpa using this
      rw [List.filter_cons_of_neg (by simp), List.filter_cons_of_neg (by simp),
        hkeep _ (List.take_subset n rest), hkeep rest (List.Subset.refl rest), List.take_take,
        Nat.min_self]
    · rw [List.filter_cons_of_pos (by simpa using hb), List.filter_cons_of_pos (by simpa using hb)]
      cases n with
      | zero => rfl
      | succ n => rw [List.take_succ_cons, List.take_succ_cons, ih hl.2]

/-- What is used moves to the front, and what is beyond the bound then drops out. -/
theorem take_renewed (hl : l.Nodup) (a : α) (n : Nat) :
    (a :: (l.take n).filter fun b => !(b == a)).take n =
      (a :: l.filter fun b => !(b == a)).take n := by
  cases n with
  | zero => rfl
  | succ n => rw [List.take_succ_cons, List.take_succ_cons, take_filter_take hl]

theorem mem_take_eraseDups {n : Nat} : a ∈ l.eraseDups.take n ↔
    a ∈ l ∧ (l.takeWhile fun b => !(b == a)).eraseDups.length < n := by
  by_cases ha : a ∈ l
  · -- divided at the first place of the element, which comes right after those before it
    obtain ⟨before, after, rfl, hbefore⟩ := List.eq_append_cons_of_mem ha
    have htake : (before ++ a :: after).takeWhile (fun b => !(b == a)) = before := by
      rw [List.takeWhile_append_of_pos]
      · simp
      · intro b hb
        have : b ≠ a := fun hba => hbefore (hba ▸ hb)
        simpa using this
    have hremove : (a :: after).removeAll before = a :: after.removeAll before := by
      rw [List.cons_removeAll, if_pos (by simpa using hbefore)]
    rw [htake, List.eraseDups_append, hremove, List.eraseDups_cons]
    have hfirst : a ∉ before.eraseDups := by
      rwa [List.mem_eraseDups]
    rw [List.take_append, List.mem_append]
    constructor
    · intro hmem
      refine ⟨ha, ?_⟩
      by_contra hlen
      have hnone : n - before.eraseDups.length = 0 := by omega
      rw [hnone, List.take_zero] at hmem
      rcases hmem with hmem | hmem
      · exact hfirst (List.take_subset _ _ hmem)
      · cases hmem
    · rintro ⟨_, hlen⟩
      obtain ⟨k, hk⟩ := Nat.exists_eq_add_one.2 (Nat.sub_pos_of_lt hlen)
      rw [hk, List.take_succ_cons]
      exact .inr List.mem_cons_self
  · have hnot : a ∉ l.eraseDups.take n := by
      intro hmem
      exact ha (List.mem_eraseDups.1 (List.take_subset _ _ hmem))
    simp [ha, hnot]

end

namespace Cache

variable {κ υ : Type} [BEq κ]

/-! ## The keys that are used -/

/-- The key that a step uses: one that is stored, or one that is looked up with success. -/
def used (isNothing : υ → Bool) (c : Cache κ υ) (now : Binary64) : CacheStep κ υ → Option κ
  | .set key _ => some key
  | step =>
    if (c.perform isNothing now step).2.hits = c.hits + 1 then step.lookedUp else none

/-- For each step the key that it used, the latest first. -/
def uses (isNothing : υ → Bool) (maxSize : Nat) : CacheHistory κ υ → List (Option κ)
  | [] => []
  | (now, step) :: earlier =>
    (run isNothing maxSize none earlier).used isNothing now step ::
      uses isNothing maxSize earlier

/-- The keys used since the last use of a key. -/
def usedSince (key : κ) (us : List (Option κ)) : List κ :=
  (us.takeWhile fun u => !(u == some key)).filterMap id

/-- The keys used since the cache was cleared, the latest first. -/
def recents (isNothing : υ → Bool) (maxSize : Nat) : CacheHistory κ υ → List κ
  | [] => []
  | (now, step) :: earlier =>
    if step.isClear then []
    else ((run isNothing maxSize none earlier).used isNothing now step).toList ++
      recents isNothing maxSize earlier

variable [LawfulBEq κ] {isNothing : υ → Bool} {maxSize : Nat} {h : CacheHistory κ υ}
  {c : Cache κ υ} {now : Binary64} {key : κ} {v : υ} {step : CacheStep κ υ}

omit [BEq κ] [LawfulBEq κ] in
theorem forall_not_mem_steps (hdelete : ∀ k, .delete k ∉ CacheHistory.steps ((now, step) :: h)) :
    (∀ k, step ≠ .delete k) ∧ ∀ k, .delete k ∉ h.steps := by
  refine ⟨fun k hk => hdelete k ?_, fun k hk => hdelete k (List.mem_cons_of_mem _ hk)⟩
  exact hk ▸ List.mem_cons_self

theorem exists_find? : (∃ e, c.find? key = some e) ↔ key ∈ c.keys := by
  unfold find? keys
  rw [← Option.isSome_iff_exists, List.find?_isSome, List.mem_map]
  simp

/-- Without an age a look-up counts as a hit exactly if the key is held. -/
theorem hits_perform (hage : c.maxAge = none) (hstep : step.lookedUp = some key) :
    (c.perform isNothing now step).2.hits = c.hits + 1 ↔ key ∈ c.keys := by
  rw [perform_lookedUp isNothing hstep, hits_lookup, ← exists_find?]
  simp [isExpired_of_maxAge hage]

omit [LawfulBEq κ] in
theorem used_lookedUp (isNothing : υ → Bool) (c : Cache κ υ) (now : Binary64)
    (hstep : step.lookedUp = some key) : c.used isNothing now step =
      if (c.perform isNothing now step).2.hits = c.hits + 1 then some key else none := by
  cases step with
  | get k | contains k =>
    cases hstep
    rfl
  | set | delete | clear => cases hstep

theorem used_of_mem (hage : c.maxAge = none) (hstep : step.lookedUp = some key)
    (hkey : key ∈ c.keys) : c.used isNothing now step = some key := by
  rw [used_lookedUp isNothing c now hstep]
  exact if_pos ((hits_perform hage hstep).2 hkey)

theorem used_of_not_mem (hage : c.maxAge = none) (hstep : step.lookedUp = some key)
    (hkey : key ∉ c.keys) : c.used isNothing now step = none := by
  rw [used_lookedUp isNothing c now hstep]
  exact if_neg (mt (hits_perform hage hstep).1 hkey)

omit [LawfulBEq κ] in
theorem reverse_keys_renewed (es : List (CacheEntry κ υ)) (e : CacheEntry κ υ) :
    ((without e.key es ++ [e]).map (·.key)).reverse =
      e.key :: (es.map (·.key)).reverse.filter fun k => !(k == e.key) := by
  rw [List.map_append, List.map_singleton, List.reverse_append, List.reverse_singleton,
    keys_without, List.filter_reverse]
  rfl

omit [LawfulBEq κ] in
theorem reverse_keys_store (hsize : c.maxSize = maxSize) :
    (c.store now key v).keys.reverse =
      (key :: c.keys.reverse.filter fun k => !(k == key)).take maxSize := by
  unfold store keys
  dsimp only
  rw [toNat_maxSize hsize, List.map_drop, ← List.length_map (·.key), ← List.take_reverse,
    reverse_keys_renewed c.entries ⟨key, v, now⟩]

/-- A look-up with success makes its key the most recent one. -/
theorem reverse_keys_lookedUp (hc : Accounts maxSize none h c)
    (hstep : step.lookedUp = some key) (hkey : key ∈ c.keys) :
    (c.perform isNothing now step).2.keys.reverse =
      (key :: c.keys.reverse.filter fun k => !(k == key)).take maxSize := by
  obtain ⟨e, hfind⟩ := exists_find?.2 hkey
  have hfresh : c.isExpired now e = false := isExpired_of_maxAge hc.maxAge_eq
  obtain rfl := key_of_find? hfind
  have hrenewed : (c.perform isNothing now step).2.keys.reverse =
      e.key :: c.keys.reverse.filter fun k => !(k == e.key) := by
    rw [perform_lookedUp isNothing hstep, lookup_of_held hfind hfresh]
    exact reverse_keys_renewed c.entries e
  have hroom := (hc.perform isNothing now step).size_le
  rw [hrenewed, List.take_of_length_le]
  rw [← hrenewed, List.length_reverse]
  unfold keys
  rwa [List.length_map]

/-- A look-up without success changes no key. -/
theorem keys_perform_of_not_mem (hstep : step.lookedUp = some key) (hkey : key ∉ c.keys) :
    (c.perform isNothing now step).2.keys = c.keys := by
  have habsent : c.find? key = none := by
    rw [Option.eq_none_iff_forall_ne_some]
    exact fun e he => hkey (exists_find?.1 ⟨e, he⟩)
  rw [perform_lookedUp isNothing hstep, lookup_of_absent habsent]
  rfl

/-- A step that drops nothing moves the key that it uses to the front, within the bound. -/
theorem reverse_keys_perform (isNothing : υ → Bool) (now : Binary64)
    (hc : Accounts maxSize none h c) (hdelete : ∀ k, step ≠ .delete k)
    (hclear : step.isClear = false) :
    (c.perform isNothing now step).2.keys.reverse =
      (c.used isNothing now step).elim c.keys.reverse fun key =>
        (key :: c.keys.reverse.filter fun k => !(k == key)).take maxSize := by
  have hlookedUp (key : κ) (hstep : step.lookedUp = some key) :
      (c.perform isNothing now step).2.keys.reverse =
        (c.used isNothing now step).elim c.keys.reverse fun key =>
          (key :: c.keys.reverse.filter fun k => !(k == key)).take maxSize := by
    by_cases hkey : key ∈ c.keys
    · rw [used_of_mem hc.maxAge_eq hstep hkey]
      exact reverse_keys_lookedUp hc hstep hkey
    · rw [used_of_not_mem hc.maxAge_eq hstep hkey, keys_perform_of_not_mem hstep hkey]
      rfl
  cases step with
  | set key v => exact reverse_keys_store hc.maxSize_eq
  | get key => exact hlookedUp key rfl
  | contains key => exact hlookedUp key rfl
  | delete key => exact absurd rfl (hdelete key)
  | clear => cases hclear

/-! ## What is held -/

/-- The cache holds the keys used since it was cleared, as many as there is room for. -/
theorem reverse_keys_run (isNothing : υ → Bool) (maxSize : Nat)
    (hdelete : ∀ k, .delete k ∉ h.steps) :
    (run isNothing maxSize none h).keys.reverse =
      (recents isNothing maxSize h).eraseDups.take maxSize := by
  induction h with
  | nil => exact List.take_nil.symm
  | cons s earlier ih =>
    obtain ⟨now, step⟩ := s
    obtain ⟨hstep, hrest⟩ := forall_not_mem_steps hdelete
    have hearlier := ih hrest
    cases hclear : step.isClear with
    | true =>
      cases step with
      | clear => exact List.take_nil.symm
      | set | get | contains | delete => cases hclear
    | false =>
      have hc := accounts_run isNothing maxSize none earlier
      rw [run, reverse_keys_perform isNothing now hc hstep hclear, recents, hclear,
        if_neg Bool.false_ne_true]
      cases (run isNothing maxSize none earlier).used isNothing now step with
      | none => exact hearlier
      | some key =>
        show List.take maxSize (key :: _) = List.take maxSize (key :: _).eraseDups
        rw [hearlier, take_renewed (nodup_eraseDups _), eraseDups_cons_eq]
        rfl

theorem mem_keys_run (hdelete : ∀ k, .delete k ∉ h.steps) :
    key ∈ (run isNothing maxSize none h).keys ↔
      key ∈ recents isNothing maxSize h ∧
        ((recents isNothing maxSize h).takeWhile fun k => !(k == key)).eraseDups.length <
          maxSize := by
  rw [← mem_take_eraseDups, ← reverse_keys_run isNothing maxSize hdelete, List.mem_reverse]

/-- A key that a step uses was stored, by this step or before. -/
theorem stored_of_used (hage : c.maxAge = none) (hused : c.used isNothing now step = some key) :
    (∃ v, step = .set key v) ∨ key ∈ c.keys := by
  have hlookedUp (k : κ) (hstep : step.lookedUp = some k) : key ∈ c.keys := by
    by_cases hk : k ∈ c.keys
    · rw [used_of_mem hage hstep hk] at hused
      cases hused
      exact hk
    · rw [used_of_not_mem hage hstep hk] at hused
      cases hused
  cases step with
  | set k v =>
    cases hused
    exact .inl ⟨v, rfl⟩
  | get k => exact .inr (hlookedUp k rfl)
  | contains k => exact .inr (hlookedUp k rfl)
  | delete k | clear =>
    unfold used at hused
    simp [CacheStep.lookedUp] at hused

/-- The keys used since the cache was cleared are those that were stored since. -/
theorem mem_recents (isNothing : υ → Bool) (maxSize : Nat) (hdelete : ∀ k, .delete k ∉ h.steps) :
    key ∈ recents isNothing maxSize h ↔ ∃ v, .set key v ∈ CacheStep.sinceClear h.steps := by
  induction h with
  | nil => simp [recents, CacheHistory.steps, CacheStep.sinceClear]
  | cons s earlier ih =>
    obtain ⟨now, step⟩ := s
    obtain ⟨_, hrest⟩ := forall_not_mem_steps hdelete
    cases hclear : step.isClear with
    | true =>
      simp [recents, CacheHistory.steps, CacheStep.sinceClear, hclear]
    | false =>
      have hsince : CacheStep.sinceClear (CacheHistory.steps ((now, step) :: earlier)) =
          step :: CacheStep.sinceClear (CacheHistory.steps earlier) :=
        List.takeWhile_cons_of_pos (by simp [hclear])
      rw [recents, hclear, if_neg Bool.false_ne_true, List.mem_append, Option.mem_toList, hsince]
      constructor
      · rintro (hused | hkey)
        · rcases stored_of_used (accounts_run isNothing maxSize none earlier).maxAge_eq hused with
            ⟨v, rfl⟩ | hheld
          · exact ⟨v, List.mem_cons_self⟩
          · obtain ⟨v, hv⟩ := (ih hrest).1 ((mem_keys_run hrest).1 hheld).1
            exact ⟨v, List.mem_cons_of_mem _ hv⟩
        · obtain ⟨v, hv⟩ := (ih hrest).1 hkey
          exact ⟨v, List.mem_cons_of_mem _ hv⟩
      · rintro ⟨v, hv⟩
        rcases List.mem_cons.1 hv with rfl | hv
        · exact .inl rfl
        · exact .inr ((ih hrest).2 ⟨v, hv⟩)

theorem takeWhile_recents (hkey : key ∈ recents isNothing maxSize h) :
    (recents isNothing maxSize h).takeWhile (fun k => !(k == key)) =
      usedSince key (uses isNothing maxSize h) := by
  induction h with
  | nil => cases hkey
  | cons s earlier ih =>
    obtain ⟨now, step⟩ := s
    have hclear : step.isClear = false := by
      by_contra hclear
      rw [recents, if_pos (by simpa using hclear)] at hkey
      cases hkey
    rw [recents, hclear, if_neg Bool.false_ne_true] at hkey ⊢
    rw [uses]
    cases hused : (run isNothing maxSize none earlier).used isNothing now step with
    | none =>
      rw [hused] at hkey
      exact ih hkey
    | some k =>
      rw [hused] at hkey
      unfold usedSince at ih ⊢
      by_cases hk : k = key
      · subst hk
        simp
      · have hin : key ∈ recents isNothing maxSize earlier := by
          simpa [Ne.symm hk] using hkey
        rw [List.takeWhile_cons_of_pos (by simpa using hk)]
        simp [hk, ih hin]

/-- Without an age and without deletions a look-up counts as a hit exactly if the key was
stored since the cache was cleared, and fewer other keys than there is room for were used,
by storing them or looking them up with success, since this key was last used. -/
theorem hit_iff_used_recently (isNothing : υ → Bool) (maxSize : Nat) (h : CacheHistory κ υ)
    (now : Binary64) (step : CacheStep κ υ) (key : κ) (hdelete : ∀ k, .delete k ∉ h.steps)
    (hstep : step.lookedUp = some key) :
    (run isNothing maxSize none ((now, step) :: h)).hits =
        (run isNothing maxSize none h).hits + 1 ↔
      (∃ v, .set key v ∈ CacheStep.sinceClear h.steps) ∧
        (usedSince key (uses isNothing maxSize h)).eraseDups.length < maxSize := by
  rw [run, hits_perform (accounts_run isNothing maxSize none h).maxAge_eq hstep,
    mem_keys_run hdelete, ← mem_recents isNothing maxSize hdelete]
  exact and_congr_right fun hkey => by rw [takeWhile_recents hkey]

theorem hit_iff_used_recently_crowdedRun :
    (run (fun _ => false) 2 none ((tick 10, .contains 3) :: crowdedRun)).hits =
        (run (fun _ => false) 2 none crowdedRun).hits + 1 ∧
      (run (fun _ => false) 2 none ((tick 10, .get 2) :: crowdedRun)).hits ≠
        (run (fun _ => false) 2 none crowdedRun).hits + 1 := by
  have hdelete : ∀ k, .delete k ∉ crowdedRun.steps := by
    simp [crowdedRun, CacheHistory.steps]
  constructor
  · rw [hit_iff_used_recently _ 2 crowdedRun (tick 10) (.contains 3) 3 hdelete rfl]
    exact ⟨⟨30, by decide⟩, by decide +kernel⟩
  · rw [Ne, hit_iff_used_recently _ 2 crowdedRun (tick 10) (.get 2) 2 hdelete rfl]
    rintro ⟨_, hfew⟩
    exact absurd hfew (by decide +kernel)

end Cache
end Marginalia
