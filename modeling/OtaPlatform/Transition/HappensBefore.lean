import Mathlib.Data.Finset.Lattice.Lemmas

/-!
# Accesses and what happened before them

Threads access shared objects, and pass on through locks and channels what they have done. The
accesses are numbered in the order in which they are made. Each thread has a set of numbers: the
accesses that happened before whatever it does next. It grows by what the thread does itself and by
what it learns when it acquires a lock, receives, or is started.

An access is recorded with the set that its thread had at that time. Two accesses of the same
object conflict if one of them is a write; they are ordered if the earlier one is in the set of the
later one (`Clocks.Ordered`).

`Clocks.WellNumbered` collects what every operation keeps: the sets hold numbers that were given
out, and the accesses of one thread are ordered. That something is *not* known to a thread is stated
with `Clocks.Excludes`, which every operation keeps as long as the sets that are passed on have it.
-/

namespace OtaPlatform

open List Function

structure Access (τ ρ : Type) where
  thread : τ
  object : ρ
  isWrite : Bool
  before : Finset ℕ

/-- The accesses so far, and who knows of them. -/
structure Clocks (τ κ ρ : Type) where
  log : List (Access τ ρ)
  /-- What happened before whatever the thread does next. -/
  known : τ → Finset ℕ
  /-- What is passed on by a lock or a channel. -/
  carried : κ → Finset ℕ

namespace Clocks

variable {τ κ ρ : Type}

def start (τ κ ρ : Type) : Clocks τ κ ρ := ⟨[], fun _ ↦ ∅, fun _ ↦ ∅⟩

/-- **The accesses are ordered.** -/
def Ordered (s : Clocks τ κ ρ) : Prop :=
  ∀ (i j : ℕ) (a b : Access τ ρ), s.log[i]? = some a → s.log[j]? = some b → i < j →
    a.object = b.object → a.isWrite = true ∨ b.isWrite = true → i ∈ b.before

/-- **No conflict of two threads is ordered.** -/
def Unordered (s : Clocks τ κ ρ) : Prop :=
  ∀ (i j : ℕ) (a b : Access τ ρ), s.log[i]? = some a → s.log[j]? = some b → i < j →
    a.object = b.object → a.isWrite = true ∨ b.isWrite = true → a.thread ≠ b.thread →
    i ∉ b.before

/-- The numbers are not those of accesses with the property. -/
def Excludes (s : Clocks τ κ ρ) (P : Access τ ρ → Prop) (k : Finset ℕ) : Prop :=
  ∀ i ∈ k, ∀ a, s.log[i]? = some a → ¬P a

/-- The numbers have been given out. -/
def Numbers (s : Clocks τ κ ρ) (k : Finset ℕ) : Prop := ∀ i ∈ k, i < s.log.length

/-- The sets hold numbers of accesses, and the accesses of a thread are ordered. -/
structure WellNumbered (s : Clocks τ κ ρ) : Prop where
  known : ∀ t, s.Numbers (s.known t)
  carried : ∀ l, s.Numbers (s.carried l)
  own : ∀ (i : ℕ) (a : Access τ ρ), s.log[i]? = some a → i ∈ s.known a.thread
  before : ∀ (i j : ℕ) (a b : Access τ ρ), s.log[i]? = some a → s.log[j]? = some b → i < j →
    a.thread = b.thread → i ∈ b.before

theorem wellNumbered_start (τ κ ρ : Type) : (start τ κ ρ).WellNumbered :=
  ⟨fun _ i hi ↦ absurd hi (Finset.notMem_empty i), fun _ i hi ↦ absurd hi (Finset.notMem_empty i),
    fun i a ha ↦ by simp [start] at ha, fun i j a b ha ↦ by simp [start] at ha⟩

variable {s : Clocks τ κ ρ} {k : Finset ℕ} {P : Access τ ρ → Prop}

theorem Numbers.union {k' : Finset ℕ} (h : s.Numbers k) (h' : s.Numbers k') : s.Numbers (k ∪ k') :=
  fun i hi ↦ (Finset.mem_union.mp hi).elim (h i) (h' i)

theorem excludes_empty : s.Excludes P ∅ := fun i hi ↦ absurd hi (Finset.notMem_empty i)

theorem Excludes.union {k' : Finset ℕ} (h : s.Excludes P k) (h' : s.Excludes P k') :
    s.Excludes P (k ∪ k') := fun i hi ↦ (Finset.mem_union.mp hi).elim (h i) (h' i)

theorem Excludes.imp {Q : Access τ ρ → Prop} (h : s.Excludes P k)
    (hQ : ∀ (i : ℕ) a, s.log[i]? = some a → Q a → P a) : s.Excludes Q k :=
  fun i hi a ha hq ↦ h i hi a ha (hQ i a ha hq)

/-- The accesses with the property are known to some threads only. -/
structure Hidden (s : Clocks τ κ ρ) (P : Access τ ρ → Prop) (insider : τ → Prop) : Prop where
  known : ∀ t, ¬insider t → s.Excludes P (s.known t)
  carried : ∀ l, s.Excludes P (s.carried l)

theorem hidden_of_forall_not (h : ∀ (i : ℕ) a, s.log[i]? = some a → ¬P a) (insider : τ → Prop) :
    s.Hidden P insider :=
  ⟨fun _ _ i _ a ha ↦ h i a ha, fun _ i _ a ha ↦ h i a ha⟩

theorem Hidden.mono {insider insider' : τ → Prop} (h : s.Hidden P insider)
    (hsub : ∀ t, insider t → insider' t) : s.Hidden P insider' :=
  ⟨fun t ht ↦ h.known t fun hin ↦ ht (hsub t hin), h.carried⟩

/-! ## Passing on -/

section Release

variable [DecidableEq κ]

/-- A thread passes on what it knows. -/
def release (s : Clocks τ κ ρ) (t : τ) (l : κ) : Clocks τ κ ρ :=
  { s with carried := update s.carried l (s.carried l ∪ s.known t) }

/-- What holds of all that is carried and of what the thread knows holds of all that is carried. -/
theorem forall_carried_release {Q : Finset ℕ → Prop} (hunion : ∀ k k', Q k → Q k' → Q (k ∪ k'))
    (h : ∀ l, Q (s.carried l)) {t : τ} (ht : Q (s.known t)) (l l' : κ) :
    Q ((s.release t l).carried l') := by
  change Q (update s.carried l (s.carried l ∪ s.known t) l')
  rw [update_apply]
  split_ifs
  · exact hunion _ _ (h l) ht
  · exact h l'

theorem WellNumbered.release (h : s.WellNumbered) (t : τ) (l : κ) : (s.release t l).WellNumbered :=
  ⟨h.known, forall_carried_release (fun _ _ hk hk' ↦ Numbers.union hk hk') h.carried (h.known t) l,
    h.own, h.before⟩

theorem Hidden.release {insider : τ → Prop} (h : s.Hidden P insider) {t : τ} (ht : ¬insider t)
    (l : κ) : (s.release t l).Hidden P insider :=
  ⟨h.known, forall_carried_release (fun _ _ hk hk' ↦ Excludes.union hk hk') h.carried
    (h.known t ht) l⟩

end Release

/-! ## Learning and accessing -/

section Access

variable [DecidableEq τ]

/-- A thread accesses an object. -/
def access (s : Clocks τ κ ρ) (t : τ) (o : ρ) (isWrite : Bool) : Clocks τ κ ρ where
  log := s.log ++ [⟨t, o, isWrite, s.known t⟩]
  known := update s.known t (insert s.log.length (s.known t))
  carried := s.carried

/-- A thread learns of accesses. -/
def learn (s : Clocks τ κ ρ) (t : τ) (k : Finset ℕ) : Clocks τ κ ρ :=
  { s with known := update s.known t (s.known t ∪ k) }

/-- A thread learns what was passed on. -/
def acquire (s : Clocks τ κ ρ) (t : τ) (l : κ) : Clocks τ κ ρ := s.learn t (s.carried l)

theorem known_learn_self (t : τ) : (s.learn t k).known t = s.known t ∪ k :=
  update_self ..

theorem known_learn_of_ne {t t' : τ} (h : t' ≠ t) : (s.learn t k).known t' = s.known t' :=
  update_of_ne h ..

theorem known_access_self (t : τ) (o : ρ) (w : Bool) :
    (s.access t o w).known t = insert s.log.length (s.known t) :=
  update_self ..

theorem known_access_of_ne {t t' : τ} (h : t' ≠ t) (o : ρ) (w : Bool) :
    (s.access t o w).known t' = s.known t' :=
  update_of_ne h ..

theorem getElem?_log_access {t : τ} {o : ρ} {w : Bool} {i : ℕ} {a : Access τ ρ} :
    (s.access t o w).log[i]? = some a ↔
      s.log[i]? = some a ∨ i = s.log.length ∧ a = ⟨t, o, w, s.known t⟩ := by
  change (s.log ++ [_])[i]? = some a ↔ _
  rcases lt_trichotomy i s.log.length with hlt | rfl | hgt
  · rw [getElem?_append_left hlt]
    exact (or_iff_left fun h ↦ hlt.ne h.1).symm
  · rw [getElem?_concat_length, getElem?_eq_none le_rfl]
    simp [eq_comm]
  · rw [getElem?_eq_none (by simp; omega), getElem?_eq_none hgt.le]
    simp [hgt.ne']

theorem Numbers.access (h : s.Numbers k) (t : τ) (o : ρ) (w : Bool) : (s.access t o w).Numbers k :=
  fun i hi ↦ by
  rw [Clocks.access, length_append]
  exact Nat.lt_add_right _ (h i hi)

theorem WellNumbered.learn (h : s.WellNumbered) (hk : s.Numbers k) (t : τ) :
    (s.learn t k).WellNumbered := by
  have hmono : ∀ t', s.known t' ⊆ (s.learn t k).known t' := fun t' ↦ by
    by_cases ht : t' = t
    · rw [ht, known_learn_self]
      exact Finset.subset_union_left
    · rw [known_learn_of_ne ht]
  refine ⟨fun t' ↦ ?_, h.carried, fun i a ha ↦ hmono _ (h.own i a ha), h.before⟩
  by_cases ht : t' = t
  · rw [ht, known_learn_self]
    exact (h.known t).union hk
  · rw [known_learn_of_ne ht]
    exact h.known t'

theorem WellNumbered.access (h : s.WellNumbered) (t : τ) (o : ρ) (w : Bool) :
    (s.access t o w).WellNumbered := by
  refine ⟨fun t' ↦ ?_, fun l ↦ (h.carried l).access t o w, fun i a ha ↦ ?_,
    fun i j a b ha hb hij hthread ↦ ?_⟩
  · by_cases ht : t' = t
    · rw [ht, known_access_self]
      intro i hi
      rcases Finset.mem_insert.mp hi with rfl | hi
      · simp [Clocks.access]
      · exact (h.known t).access t o w i hi
    · rw [known_access_of_ne ht]
      exact (h.known t').access t o w
  · rcases getElem?_log_access.mp ha with ha | ⟨rfl, rfl⟩
    · by_cases ht : a.thread = t
      · rw [ht, known_access_self, ← ht]
        exact Finset.mem_insert_of_mem (h.own i a ha)
      · rw [known_access_of_ne ht]
        exact h.own i a ha
    · rw [known_access_self]
      exact Finset.mem_insert_self _ _
  · rcases getElem?_log_access.mp hb with hb | ⟨rfl, rfl⟩
    · rcases getElem?_log_access.mp ha with ha | ⟨rfl, -⟩
      · exact h.before i j a b ha hb hij hthread
      · obtain ⟨hlt, -⟩ := List.getElem?_eq_some_iff.mp hb
        exact absurd hij hlt.not_gt
    · rcases getElem?_log_access.mp ha with ha | ⟨rfl, -⟩
      · have hown := h.own i a ha
        rwa [hthread] at hown
      · exact absurd hij (lt_irrefl _)

theorem Excludes.access (h : s.Excludes P k) (hk : s.Numbers k) (t : τ) (o : ρ) (w : Bool) :
    (s.access t o w).Excludes P k := by
  intro i hi a ha
  rcases getElem?_log_access.mp ha with ha | ⟨rfl, -⟩
  · exact h i hi a ha
  · exact absurd (hk _ hi) (lt_irrefl _)

theorem Excludes.insert_access (h : s.Excludes P k) (hk : s.Numbers k) {t : τ} {o : ρ} {w : Bool}
    (hP : ¬P ⟨t, o, w, s.known t⟩) : (s.access t o w).Excludes P (insert s.log.length k) := by
  intro i hi a ha
  rcases Finset.mem_insert.mp hi with rfl | hi
  · rcases getElem?_log_access.mp ha with ha | ⟨-, rfl⟩
    · rw [getElem?_eq_none le_rfl] at ha
      cases ha
    · exact hP
  · exact h.access hk t o w i hi a ha

theorem Hidden.learn {insider : τ → Prop} (h : s.Hidden P insider) {t : τ}
    (ht : insider t ∨ s.Excludes P k) : (s.learn t k).Hidden P insider := by
  refine ⟨fun t' ht' ↦ ?_, h.carried⟩
  by_cases heq : t' = t
  · subst heq
    rw [known_learn_self]
    exact (h.known t' ht').union (ht.resolve_left ht')
  · rw [known_learn_of_ne heq]
    exact h.known t' ht'

theorem Hidden.access {insider : τ → Prop} (h : s.Hidden P insider) (hs : s.WellNumbered) {t : τ}
    {o : ρ} {w : Bool} (ht : insider t ∨ ¬P ⟨t, o, w, s.known t⟩) :
    (s.access t o w).Hidden P insider := by
  refine ⟨fun t' ht' ↦ ?_, fun l ↦ (h.carried l).access (hs.carried l) t o w⟩
  by_cases heq : t' = t
  · subst heq
    rw [known_access_self]
    exact (h.known t' ht').insert_access (hs.known t') (ht.resolve_left ht')
  · rw [known_access_of_ne heq]
    exact (h.known t' ht').access (hs.known t') t o w

/-- An access by a thread that knows of no conflicting one of another thread. -/
theorem Unordered.access (h : s.Unordered) {t : τ} {o : ρ} {w : Bool}
    (hconflict : s.Excludes (fun a ↦ a.object = o ∧ (a.isWrite = true ∨ w = true) ∧ a.thread ≠ t)
      (s.known t)) : (s.access t o w).Unordered := by
  intro i j a b ha hb hij hobject hwrite hthread
  rcases getElem?_log_access.mp hb with hb | ⟨rfl, rfl⟩
  · rcases getElem?_log_access.mp ha with ha | ⟨rfl, -⟩
    · exact h i j a b ha hb hij hobject hwrite hthread
    · obtain ⟨hlt, -⟩ := List.getElem?_eq_some_iff.mp hb
      exact absurd hij hlt.not_gt
  · rcases getElem?_log_access.mp ha with ha | ⟨rfl, -⟩
    · exact fun hi ↦ hconflict i hi a ha ⟨hobject, hwrite, hthread⟩
    · exact absurd hij (lt_irrefl _)

end Access

/-! ## Races -/

/-- Where no conflict of two threads is ordered, the accesses are ordered exactly if every conflict
is one of a thread with itself. -/
theorem ordered_iff_of_unordered (h : s.Unordered) (hs : s.WellNumbered) :
    s.Ordered ↔ ∀ (i j : ℕ) (a b : Access τ ρ), s.log[i]? = some a → s.log[j]? = some b → i < j →
      a.object = b.object → a.isWrite = true ∨ b.isWrite = true → a.thread = b.thread := by
  constructor
  · intro hordered i j a b ha hb hij hobject hwrite
    by_contra hthread
    exact h i j a b ha hb hij hobject hwrite hthread
      (hordered i j a b ha hb hij hobject hwrite)
  · intro hsame i j a b ha hb hij hobject hwrite
    exact hs.before i j a b ha hb hij (hsame i j a b ha hb hij hobject hwrite)

end Clocks

end OtaPlatform
