import Mathlib.Algebra.BigOperators.Group.Finset.Piecewise
import Mathlib.Tactic.Abel

/-!
# Ledgers

A ledger is a list of entries, each under a key; the last entry of a key is the one that counts. A
tally adds up a weight of the last entries over all keys. It is kept up to date by adding, for every
new entry, its weight less that of the entry it replaces: `tally_append_singleton` for one entry,
`tally_append` for several of different keys.

Where entries carry numbers, `Ascending` is a ledger in which the numbers of every key increase from
entry to entry and start above those of a base. Then the last entry of a key is the highest.
-/

namespace OtaPlatform

open List Function

namespace Ledger

variable {κ β M : Type*} [DecidableEq κ] (key : β → κ)

def lastOf (log : List β) (k : κ) : Option β := (log.filter fun e ↦ key e = k).getLast?

def keysOf (log : List β) : Finset κ := (log.map key).toFinset

/-- The weights of the last entries, added up. -/
def tally [AddCommMonoid M] (w : β → M) (log : List β) : M :=
  ∑ k ∈ keysOf key log, (lastOf key log k).elim 0 w

variable {key} {log more : List β} {e : β} {k : κ}

/-! ## Last entries -/

theorem mem_of_lastOf (h : lastOf key log k = some e) : e ∈ log ∧ key e = k := by
  obtain ⟨hmem, hkey⟩ := mem_filter.mp (mem_of_getLast? h)
  exact ⟨hmem, of_decide_eq_true hkey⟩

theorem mem_keysOf : k ∈ keysOf key log ↔ ∃ e ∈ log, key e = k := by
  rw [keysOf, mem_toFinset, mem_map]

theorem lastOf_eq_none_iff : lastOf key log k = none ↔ k ∉ keysOf key log := by
  rw [lastOf, getLast?_eq_none_iff, filter_eq_nil_iff, mem_keysOf]
  simp only [decide_eq_true_eq, not_exists, not_and]

theorem exists_lastOf (h : k ∈ keysOf key log) : ∃ e, lastOf key log k = some e := by
  refine Option.ne_none_iff_exists'.mp fun hnone ↦ ?_
  exact lastOf_eq_none_iff.mp hnone h

theorem mem_keysOf_of_lastOf (h : lastOf key log k = some e) : k ∈ keysOf key log :=
  mem_keysOf.mpr ⟨e, mem_of_lastOf h⟩

theorem lastOf_append (log more : List β) (k : κ) :
    lastOf key (log ++ more) k = (lastOf key more k).or (lastOf key log k) := by
  rw [lastOf, filter_append, getLast?_append, lastOf, lastOf]

theorem lastOf_append_of_notMem (h : ∀ e ∈ more, key e ≠ k) :
    lastOf key (log ++ more) k = lastOf key log k := by
  have hnone : lastOf key more k = none := by
    rw [lastOf_eq_none_iff, mem_keysOf]
    rintro ⟨e, he, hkey⟩
    exact h e he hkey
  rw [lastOf_append, hnone, Option.none_or]

@[simp] theorem lastOf_append_singleton_self (log : List β) (e : β) :
    lastOf key (log ++ [e]) (key e) = some e := by
  have hone : lastOf key [e] (key e) = some e := by
    rw [lastOf, filter_cons_of_pos (by simp)]
    rfl
  rw [lastOf_append, hone, Option.some_or]

theorem lastOf_append_singleton_of_ne (h : key e ≠ k) :
    lastOf key (log ++ [e]) k = lastOf key log k := by
  refine lastOf_append_of_notMem fun e' he' ↦ ?_
  rw [mem_singleton.mp he']
  exact h

theorem lastOf_append_of_mem (hnodup : (more.map key).Nodup) (he : e ∈ more) :
    lastOf key (log ++ more) (key e) = some e := by
  obtain ⟨more₁, more₂, rfl⟩ := append_of_mem he
  rw [map_append, map_cons, nodup_append] at hnodup
  obtain ⟨-, htail, -⟩ := hnodup
  rw [← singleton_append, ← append_assoc, ← append_assoc,
    lastOf_append_of_notMem, lastOf_append_singleton_self]
  intro e' he' hkey
  exact (nodup_cons.mp htail).1 (mem_map.mpr ⟨e', he', hkey⟩)

/-! ## Keys -/

theorem keysOf_append (log more : List β) :
    keysOf key (log ++ more) = keysOf key log ∪ keysOf key more := by
  rw [keysOf, map_append, toFinset_append, keysOf, keysOf]

theorem keysOf_append_of_subset (h : ∀ e ∈ more, key e ∈ keysOf key log) :
    keysOf key (log ++ more) = keysOf key log := by
  rw [keysOf_append, Finset.union_eq_left]
  intro k hk
  obtain ⟨e, he, rfl⟩ := mem_keysOf.mp hk
  exact h e he

/-! ## Tallies -/

section Tally

variable [AddCommGroup M] (w : β → M)

/-- A new entry adds its weight, less the weight of the entry it replaces. -/
theorem tally_append_singleton (log : List β) (e : β) : tally key w (log ++ [e])
      = tally key w log + (w e - (lastOf key log (key e)).elim 0 w) := by
  -- the weights by key, which are zero where there is no entry
  let weight (log : List β) (k : κ) : M := (lastOf key log k).elim 0 w
  have hkeys : keysOf key (log ++ [e]) = insert (key e) (keysOf key log) := by
    rw [keysOf_append, Finset.union_comm]
    rfl
  have hweight : weight (log ++ [e]) = update (weight log) (key e) (w e) := by
    refine funext fun k ↦ ?_
    by_cases hk : key e = k
    · subst hk
      rw [update_self]
      exact congrArg (Option.elim · 0 w) (lastOf_append_singleton_self log e)
    · rw [update_of_ne (Ne.symm hk)]
      exact congrArg (Option.elim · 0 w) (lastOf_append_singleton_of_ne hk)
  have hold : tally key w log = ∑ k ∈ insert (key e) (keysOf key log), weight log k := by
    rw [Finset.sum_insert_of_eq_zero_if_notMem, tally]
    intro hnotMem
    exact congrArg (Option.elim · 0 w) (lastOf_eq_none_iff.mpr hnotMem)
  have hmem := Finset.mem_insert_self (key e) (keysOf key log)
  calc tally key w (log ++ [e])
      = ∑ k ∈ insert (key e) (keysOf key log),
          update (weight log) (key e) (w e) k := by rw [← hweight, tally, hkeys]
    _ = w e + ∑ k ∈ insert (key e) (keysOf key log) \ {key e}, weight log k :=
        Finset.sum_update_of_mem hmem _ _
    _ = tally key w log + (w e - weight log (key e)) := by
        rw [hold, Finset.sum_eq_add_sum_sdiff_singleton_of_mem hmem]
        abel

theorem tally_append (hnodup : (more.map key).Nodup) : tally key w (log ++ more) = tally key w log
        + (more.map fun e ↦ w e - (lastOf key log (key e)).elim 0 w).sum := by
  induction more generalizing log with
  | nil => rw [append_nil, map_nil, sum_nil, add_zero]
  | cons e more ih =>
    rw [map_cons, nodup_cons] at hnodup
    have hrest : more.map (fun e' ↦ w e' - (lastOf key (log ++ [e]) (key e')).elim 0 w)
        = more.map (fun e' ↦ w e' - (lastOf key log (key e')).elim 0 w) := by
      refine map_congr_left fun e' he' ↦ ?_
      have hne : key e ≠ key e' := fun hkey ↦ hnodup.1 (hkey ▸ mem_map_of_mem he')
      rw [lastOf_append_singleton_of_ne hne]
    rw [← singleton_append, ← append_assoc, ih hnodup.2, hrest,
      tally_append_singleton, singleton_append, map_cons, sum_cons, add_assoc]

end Tally

/-! ## Numbered entries -/

/-- The numbers of a key increase from entry to entry, and are above those of the base. -/
structure Ascending {ν : Type*} [LT ν] (key : β → κ) (num : β → ν) (base log : List β) :
    Prop where
  above : ∀ e ∈ base, ∀ e' ∈ log, key e = key e' → num e < num e'
  increasing : log.Pairwise fun e e' ↦ key e = key e' → num e < num e'

section Ascending

variable {ν : Type*} [LT ν] {num : β → ν} {base : List β}

omit [DecidableEq κ] in
theorem Ascending.nil : Ascending key num base [] :=
  ⟨fun _ _ _ he' ↦ absurd he' not_mem_nil, Pairwise.nil⟩

omit [DecidableEq κ] in
theorem Ascending.append (h : Ascending key num base log) (hnodup : (more.map key).Nodup)
    (hmore : ∀ e ∈ base ++ log, ∀ e' ∈ more, key e = key e' → num e < num e') :
    Ascending key num base (log ++ more) := by
  refine ⟨fun e he e' he' hkey ↦ ?_, pairwise_append.mpr ⟨h.increasing, ?_, ?_⟩⟩
  · rcases mem_append.mp he' with he' | he'
    · exact h.above e he e' he' hkey
    · exact hmore e (mem_append_left _ he) e' he' hkey
  · refine (pairwise_map.mp hnodup).imp fun hne hkey ↦ ?_
    exact absurd hkey hne
  · intro e he e' he'
    exact hmore e (mem_append_right _ he) e' he'

theorem Ascending.eq_or_lt (h : Ascending key num base log) (hlast : lastOf key log k = some e)
    {e' : β} (he' : e' ∈ base ++ log) (hkey : key e' = k) : e' = e ∨ num e' < num e := by
  obtain ⟨he, hk⟩ := mem_of_lastOf hlast
  rcases mem_append.mp he' with he' | he'
  · exact Or.inr (h.above e' he' e he (hkey.trans hk.symm))
  · obtain ⟨before, hbefore⟩ := getLast?_eq_some_iff.mp hlast
    have hpairwise := h.increasing.filter fun x ↦ decide (key x = k)
    have hmem : e' ∈ log.filter fun x ↦ decide (key x = k) :=
      mem_filter.mpr ⟨he', decide_eq_true hkey⟩
    rw [hbefore] at hpairwise hmem
    rcases mem_append.mp hmem with hmem | hmem
    · exact Or.inr ((pairwise_append.mp hpairwise).2.2 e' hmem e mem_cons_self
        (hkey.trans hk.symm))
    · exact Or.inl (mem_singleton.mp hmem)

end Ascending

end Ledger

end OtaPlatform
