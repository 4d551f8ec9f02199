import Marginalia.Proofs.Json.Reading

/-
Reading by parts.  Values, the items of lists and the members of objects are read together; a
property that words, texts and numbers have, and that goes from parts to what is read from
them, is one of all that is read.
-/
namespace Marginalia
namespace Json

/-! ## Objects -/

theorem insert_of_mem {k : Text} {es : List (Text × Value)} (h : k ∈ es.map (·.1)) (v : Value) :
    ∃ fs : List (Text × Value), Value.insert (.text k) v (entries es) = entries fs ∧
      fs.map (·.1) = es.map (·.1) ∧ ∀ f ∈ fs, f ∈ (k, v) :: es := by
  induction es with
  | nil => cases h
  | cons e es ih =>
    show ∃ fs, Value.insert (.text k) v ((.text e.1, e.2) :: entries es) = entries fs ∧ _
    by_cases hkey : e.1 = k
    · subst hkey
      refine ⟨(e.1, v) :: es, ?_, rfl, ?_⟩
      · simp [Value.insert, Value.sameKey, entries]
      · exact fun f hf => (List.mem_cons.1 hf).elim (· ▸ List.mem_cons_self)
          fun hf => List.mem_cons_of_mem _ (List.mem_cons_of_mem _ hf)
    · obtain ⟨fs, hinsert, hkeys, hmem⟩ := ih ((List.mem_cons.1 h).resolve_left (Ne.symm hkey))
      refine ⟨e :: fs, ?_, congrArg (e.1 :: ·) hkeys, ?_⟩
      · have hne : Value.sameKey (.text e.1) (.text k) = false := by simp [Value.sameKey, hkey]
        rw [Value.insert, hne, hinsert]
        rfl
      · intro f hf
        rcases List.mem_cons.1 hf with rfl | hf
        · exact List.mem_cons_of_mem _ List.mem_cons_self
        · rcases List.mem_cons.1 (hmem f hf) with rfl | hf
          · exact List.mem_cons_self
          · exact List.mem_cons_of_mem _ (List.mem_cons_of_mem _ hf)

theorem exists_insert {es : List (Text × Value)} (h : (es.map (·.1)).Nodup) (k : Text) (v : Value) :
    ∃ fs : List (Text × Value), Value.insert (.text k) v (entries es) = entries fs ∧
      (fs.map (·.1)).Nodup ∧ ∀ f ∈ fs, f ∈ (k, v) :: es := by
  by_cases hk : k ∈ es.map (·.1)
  · obtain ⟨fs, hinsert, hkeys, hmem⟩ := insert_of_mem hk v
    exact ⟨fs, hinsert, hkeys ▸ h, hmem⟩
  · refine ⟨_, insert_of_not_mem hk v, ?_, by simp [or_comm]⟩
    rw [List.map_append]
    refine List.nodup_append.2 ⟨h, List.nodup_singleton k, ?_⟩
    rintro l hmem _ hsingle rfl
    obtain rfl : l = k := List.mem_singleton.1 hsingle
    exact hk hmem

/-- Entries under texts, repeated or not, are an object with distinct keys and no other values. -/
theorem exists_object {es : List (Value × Value)} (h : ∀ e ∈ es, ∃ k, e.1 = .text k) :
    ∃ fs : List (Text × Value), Value.ofEntries es = object fs ∧ (fs.map (·.1)).Nodup ∧
      ∀ f ∈ fs, (.text f.1, f.2) ∈ es := by
  have hfold : ∀ before : List (Text × Value), (before.map (·.1)).Nodup →
      ∃ fs, es.foldl (fun es e => Value.insert e.1 e.2 es) (entries before) = entries fs ∧
        (fs.map (·.1)).Nodup ∧ ∀ f ∈ fs, f ∈ before ∨ (.text f.1, f.2) ∈ es := by
    induction es with
    | nil => exact fun before hbefore => ⟨before, rfl, hbefore, fun f hf => .inl hf⟩
    | cons e es ih =>
      obtain ⟨k, v⟩ := e
      obtain ⟨⟨k, rfl⟩, hes⟩ := List.forall_mem_cons.1 h
      intro before hbefore
      obtain ⟨next, hnext, hnodup, hmem⟩ := exists_insert hbefore k v
      obtain ⟨fs, hfs, hnodup, hmem'⟩ := ih hes next hnodup
      refine ⟨fs, ?_, hnodup, fun f hf => ?_⟩
      · rw [List.foldl_cons, hnext, hfs]
      · rcases hmem' f hf with hf | hf
        · exact (List.mem_cons.1 (hmem f hf)).elim (fun hkv => .inr (hkv ▸ List.mem_cons_self)) .inl
        · exact .inr (List.mem_cons_of_mem _ hf)
  obtain ⟨fs, hfs, hnodup, hmem⟩ := hfold [] List.nodup_nil
  exact ⟨fs, congrArg Value.map hfs, hnodup, fun f hf => (hmem f hf).resolve_left nofun⟩

/-! ## What is read -/

variable {P : Value → Prop} {t rest : Text} {v : Value} {vs : List Value}
  {es : List (Value × Value)} {fuel : Nat}

/-- A property that goes from parts to what is read from them. -/
structure PassesUp (P : Value → Prop) : Prop where
  word : ∀ p ∈ wordValues, P p.2
  text (t : Text) : P (.text t)
  int {n : Int} : Value.IsShort n → P (.int n)
  float (d : Decimal) : P (.float d.toBinary64)
  list {vs : List Value} : (∀ v ∈ vs, P v) → P (.list vs)
  object {es : List (Text × Value)} : (es.map (·.1)).Nodup → (∀ e ∈ es, P e.2) → P (object es)

/-- What the three readers yield with some fuel. -/
structure Yields (P : Value → Prop) (fuel : Nat) : Prop where
  value : ∀ {t v rest}, value? fuel t = some (v, rest) → P v
  items : ∀ {t vs rest}, items? fuel t = some (vs, rest) → ∀ v ∈ vs, P v
  members : ∀ {t es rest}, members? fuel t = some (es, rest) →
    ∀ e ∈ es, (∃ k, e.1 = .text k) ∧ P e.2

theorem isShort_digitsValue {ds : Text} (h : ds.length ≤ Text.maxNumeralDigits) (negative : Bool) :
    Value.IsShort (if negative then -(Text.digitsValue ds : Int) else Text.digitsValue ds) := by
  have habs : (if negative then -(Text.digitsValue ds : Int) else Text.digitsValue ds).natAbs =
      Text.digitsValue ds := by
    cases negative
    · rfl
    · exact Int.natAbs_neg _
  have hpow : ∀ k, ds.length ≤ k → Text.digitsValue ds < Nat.pow 10 k := fun k hk =>
    Nat.lt_of_lt_of_le (Text.digitsValue_lt ds) (Nat.pow_le_pow_right (n := 10) (by decide) hk)
  unfold Value.IsShort
  rw [habs]
  exact hpow _ h

namespace PassesUp

variable (hP : PassesUp P)

include hP

theorem of_number? (h : number? t = some (v, rest)) : P v := by
  unfold number? at h
  split at h
  extract_lets ds n join at h
  by_cases hempty : ds.isEmpty = true
  · rw [if_pos hempty] at h
    cases h
  · rw [if_neg hempty] at h
    dsimp only [join] at h
    split at h
    · split at h
      · cases h
      · rename_i hlen
        cases h
        exact hP.int (isShort_digitsValue (Nat.le_of_not_lt hlen) _)
    · cases h
      exact hP.float _

theorem of_word? (h : word? t = some (v, rest)) : P v := by
  obtain ⟨⟨w, v'⟩, hfind, heq⟩ := Option.map_eq_some_iff.1 h
  obtain rfl : v' = v := congrArg Prod.fst heq
  exact hP.word _ (List.mem_of_find?_eq_some hfind)

omit hP in
theorem of_items? (ih : Yields P fuel) (h : items? (fuel + 1) t = some (vs, rest)) :
    ∀ v ∈ vs, P v := by
  obtain ⟨⟨v, r⟩, hv, h⟩ := Option.bind_eq_some_iff.1 h
  have hv := ih.value hv
  dsimp only at h
  split at h
  · cases h
    exact List.forall_mem_singleton.2 hv
  · obtain ⟨⟨vs, r⟩, hvs, h⟩ := Option.bind_eq_some_iff.1 h
    cases h
    exact List.forall_mem_cons.2 ⟨hv, ih.items hvs⟩
  · cases h

omit hP in
theorem of_members? (ih : Yields P fuel) (h : members? (fuel + 1) t = some (es, rest)) :
    ∀ e ∈ es, (∃ k, e.1 = .text k) ∧ P e.2 := by
  unfold members? at h
  split at h
  · obtain ⟨⟨k, r⟩, _, h⟩ := Option.bind_eq_some_iff.1 h
    dsimp only at h
    split at h
    · obtain ⟨⟨v, r⟩, hv, h⟩ := Option.bind_eq_some_iff.1 h
      have hv := ih.value hv
      dsimp only at h
      split at h
      · cases h
        exact List.forall_mem_singleton.2 ⟨⟨k, rfl⟩, hv⟩
      · obtain ⟨⟨es, r⟩, hes, h⟩ := Option.bind_eq_some_iff.1 h
        cases h
        exact List.forall_mem_cons.2 ⟨⟨⟨k, rfl⟩, hv⟩, ih.members hes⟩
      · cases h
    · cases h
  · cases h

theorem ofEntries (h : ∀ e ∈ es, (∃ k, e.1 = .text k) ∧ P e.2) : P (Value.ofEntries es) := by
  obtain ⟨fs, hfs, hnodup, hmem⟩ := exists_object fun e he => (h e he).1
  rw [hfs]
  exact hP.object hnodup fun f hf => (h _ (hmem f hf)).2

theorem of_value? (ih : Yields P fuel) (h : value? (fuel + 1) t = some (v, rest)) : P v := by
  unfold value? at h
  split at h
  · obtain ⟨⟨s, r⟩, _, heq⟩ := Option.map_eq_some_iff.1 h
    cases heq
    exact hP.text s
  · split at h
    · cases h
      exact hP.list (List.forall_mem_nil _)
    · obtain ⟨⟨xs, r⟩, hxs, heq⟩ := Option.map_eq_some_iff.1 h
      cases heq
      exact hP.list (ih.items hxs)
  · split at h
    · cases h
      show P (Value.ofEntries [])
      exact hP.ofEntries (List.forall_mem_nil _)
    · obtain ⟨⟨es, r⟩, hes, heq⟩ := Option.map_eq_some_iff.1 h
      cases heq
      exact hP.ofEntries (ih.members hes)
  · cases hword : word? t with
    | none =>
      rw [hword] at h
      exact hP.of_number? h
    | some p =>
      rw [hword] at h
      cases h
      exact hP.of_word? hword

theorem yields (fuel : Nat) : Yields P fuel := by
  induction fuel with
  | zero => exact ⟨nofun, nofun, nofun⟩
  | succ fuel ih => exact ⟨hP.of_value? ih, of_items? ih, of_members? ih⟩

/-- A property that passes up is one of whatever is read. -/
theorem of_read? (h : read? t = some v) : P v := by
  obtain ⟨⟨w, r⟩, hw, h⟩ := Option.bind_eq_some_iff.1 h
  dsimp only at h
  split_ifs at h
  cases h
  exact (hP.yields _).value hw

end PassesUp

end Json
end Marginalia
