import Mathlib.Data.List.Basic

/-!
# Batches and pages

Two ways to cut a list into pieces of at most a given size. `batches` walks over the list itself;
`pages` asks a sorted collection again and again for what comes after the last element it was
given, and stops at a short page. On a strictly sorted list the two agree (`pages_eq_batches`), so
what holds of batches holds of pages.
-/

namespace OtaPlatform

open List

namespace Batches

variable {α : Type*}

/-! ## Batches -/

/-- Cuts off pieces of `size` elements, at most `fuel` of them. -/
def cut (size : ℕ) : ℕ → List α → List (List α)
  | 0, _ => []
  | _ + 1, [] => []
  | fuel + 1, a :: l => (a :: l).take size :: cut size fuel ((a :: l).drop size)

def batches (size : ℕ) (l : List α) : List (List α) := cut size l.length l

variable {size : ℕ} {l : List α}

variable (hsize : 0 < size)

include hsize

private theorem length_drop_cons_le (a : α) (l : List α) {fuel : ℕ}
    (hfuel : (a :: l).length ≤ fuel + 1) : ((a :: l).drop size).length ≤ fuel := by
  rw [length_drop]
  rw [length_cons] at hfuel ⊢
  omega

theorem flatten_cut {fuel : ℕ} (hfuel : l.length ≤ fuel) : (cut size fuel l).flatten = l := by
  induction fuel generalizing l with
  | zero =>
    rw [length_eq_zero_iff.mp (Nat.le_zero.mp hfuel)]
    rfl
  | succ fuel ih =>
    rcases l with _ | ⟨a, l⟩
    · rfl
    · rw [cut, flatten_cons, ih (length_drop_cons_le hsize a l hfuel), take_append_drop]

theorem flatten_batches (l : List α) : (batches size l).flatten = l :=
  flatten_cut hsize (Nat.le_refl _)

theorem cut_eq_batches {fuel : ℕ} (hfuel : l.length ≤ fuel) : cut size fuel l = batches size l := by
  have hsame : ∀ (fuel fuel' : ℕ) (l : List α), l.length ≤ fuel → l.length ≤ fuel' →
      cut size fuel l = cut size fuel' l := by
    intro fuel
    induction fuel with
    | zero =>
      intro fuel' l hl _
      rw [length_eq_zero_iff.mp (Nat.le_zero.mp hl)]
      cases fuel' <;> rfl
    | succ fuel ih =>
      intro fuel' l hl hl'
      rcases l with _ | ⟨a, l⟩
      · cases fuel' <;> rfl
      · rcases fuel' with _ | fuel'
        · exact absurd hl' (by simp)
        · rw [cut, cut, ih fuel' _ (length_drop_cons_le hsize a l hl)
            (length_drop_cons_le hsize a l hl')]
  exact hsame fuel l.length l hfuel (Nat.le_refl _)

theorem batches_cons (a : α) (l : List α) :
    batches size (a :: l) = (a :: l).take size :: batches size ((a :: l).drop size) := by
  rw [batches, length_cons, cut,
    cut_eq_batches hsize (length_drop_cons_le hsize a l (Nat.le_refl _))]

omit hsize in
@[simp] theorem batches_nil : batches size ([] : List α) = [] := rfl

omit hsize in
theorem batches_eq_nil_iff : batches size l = [] ↔ l = [] := by
  rcases l with _ | ⟨a, l⟩
  · exact ⟨fun _ ↦ rfl, fun _ ↦ rfl⟩
  · rw [batches, length_cons, cut]
    constructor
    · intro h
      cases h
    · intro h
      cases h

omit hsize in
theorem exists_of_mem_cut {fuel : ℕ} {batch : List α} (h : batch ∈ cut size fuel l) :
    ∃ a l', batch = (a :: l').take size := by
  induction fuel generalizing l with
  | zero => cases h
  | succ fuel ih =>
    rcases l with _ | ⟨a, l⟩
    · cases h
    · rcases mem_cons.mp h with rfl | h
      · exact ⟨a, l, rfl⟩
      · exact ih h

theorem ne_nil_of_mem_batches {batch : List α} (h : batch ∈ batches size l) : batch ≠ [] := by
  obtain ⟨a, l', rfl⟩ := exists_of_mem_cut h
  rw [ne_eq, take_eq_nil_iff]
  rintro (hzero | hnil)
  · omega
  · cases hnil

omit hsize in
theorem length_le_of_mem_batches {batch : List α} (h : batch ∈ batches size l) :
    batch.length ≤ size := by
  obtain ⟨a, l', rfl⟩ := exists_of_mem_cut h
  exact length_take_le _ _

theorem length_of_mem_dropLast_batches {batch : List α}
    (h : batch ∈ (batches size l).dropLast) : batch.length = size := by
  induction hn : l.length using Nat.strongRecOn generalizing l with
  | ind n ih =>
    rcases l with _ | ⟨a, l⟩
    · cases h
    · subst hn
      rw [batches_cons hsize] at h
      by_cases hrest : batches size ((a :: l).drop size) = []
      · rw [hrest, dropLast_singleton] at h
        cases h
      · rw [dropLast_cons_of_ne_nil hrest] at h
        rcases mem_cons.mp h with rfl | h
        · -- something is left, so the first piece is full
          have hlength := length_pos_iff.mpr fun hnil ↦ hrest (batches_eq_nil_iff.mpr hnil)
          rw [length_drop] at hlength
          rw [length_take]
          omega
        · refine ih _ ?_ h rfl
          have := length_drop_cons_le hsize a l (Nat.le_refl _)
          rw [length_cons]
          omega

omit hsize

/-! ## Pages -/

section Pages

variable {r : α → α → Prop} [DecidableRel r]

/-- What comes after the last element given out. -/
def rest (r : α → α → Prop) [DecidableRel r] (l : List α) : Option α → List α
  | none => l
  | some y => l.filter fun x ↦ r y x

/-- Asks for pages until one is short, at most `fuel` times. -/
def pages (r : α → α → Prop) [DecidableRel r] (size : ℕ) (l : List α) :
    ℕ → Option α → List (List α)
  | 0, _ => []
  | fuel + 1, last =>
    let page := (rest r l last).take size
    if page.isEmpty then []
    else if page.length < size then [page]
    else page :: pages r size l fuel page.getLast?

/-- Of a strictly sorted list, what comes after the last element of a first part is the second. -/
theorem rest_getLast? (hirrefl : ∀ a, ¬ r a a) (htrans : ∀ a b c, r a b → r b c → r a c)
    {done todo : List α} (hsorted : (done ++ todo).Pairwise r) :
    rest r (done ++ todo) done.getLast? = todo := by
  rcases eq_nil_or_concat done with rfl | ⟨init, y, rfl⟩
  · rfl
  · rw [concat_eq_append] at hsorted ⊢
    obtain ⟨hdone, htodo, hcross⟩ := pairwise_append.mp hsorted
    obtain ⟨-, -, hinit⟩ := pairwise_append.mp hdone
    rw [getLast?_append, getLast?_singleton, Option.some_or, rest, filter_append]
    have hnone : (init ++ [y]).filter (fun x ↦ decide (r y x)) = [] := by
      rw [filter_eq_nil_iff]
      intro x hx hyx
      have hyx := of_decide_eq_true hyx
      rcases mem_append.mp hx with hx | hx
      · exact hirrefl y (htrans y x y hyx (hinit x hx y mem_cons_self))
      · rw [mem_singleton.mp hx] at hyx
        exact hirrefl y hyx
    have hall : todo.filter (fun x ↦ decide (r y x)) = todo := by
      rw [filter_eq_self]
      intro x hx
      exact decide_eq_true (hcross y (mem_append_right init mem_cons_self) x hx)
    rw [hnone, hall, nil_append]

/-- **Pages are batches.** Paging through a strictly sorted list by its last element gives the same
pieces as cutting the list. -/
theorem pages_eq_batches (hsize : 0 < size) (hirrefl : ∀ a, ¬ r a a)
    (htrans : ∀ a b c, r a b → r b c → r a c) (hsorted : l.Pairwise r) {fuel : ℕ}
    (hfuel : l.length < fuel) : pages r size l fuel none = batches size l := by
  -- The induction is on the fuel, with the list split into what was given out and what was not.
  suffices hgen : ∀ (fuel : ℕ) (done todo : List α), (done ++ todo).Pairwise r →
      todo.length < fuel → pages r size (done ++ todo) fuel done.getLast? = batches size todo from
    hgen fuel [] l hsorted hfuel
  intro fuel
  induction fuel with
  | zero =>
    intro done todo _ hlt
    exact absurd hlt (Nat.not_lt_zero _)
  | succ fuel ih =>
    intro done todo hsorted hlt
    rw [pages, rest_getLast? hirrefl htrans hsorted]
    rcases todo with _ | ⟨a, todo⟩
    · rw [take_nil]
      rfl
    · have hne : ¬ ((a :: todo).take size).isEmpty = true := by
        rw [List.isEmpty_iff, take_eq_nil_iff]
        rintro (h | h)
        · omega
        · cases h
      simp only [hne]
      rw [if_neg Bool.false_ne_true, batches_cons hsize]
      split_ifs with hshort
      · -- A short page is the whole rest.
        have hdrop : (a :: todo).drop size = [] := by
          rw [drop_eq_nil_iff]
          rw [length_take] at hshort
          omega
        rw [hdrop, batches_nil]
      · congr 1
        have hsplit : done ++ (a :: todo)
            = (done ++ (a :: todo).take size) ++ (a :: todo).drop size := by
          rw [append_assoc, take_append_drop]
        have hlast : ((a :: todo).take size).getLast?
            = (done ++ (a :: todo).take size).getLast? := by
          rw [getLast?_append]
          rcases hpage : ((a :: todo).take size).getLast? with _ | y
          · rw [getLast?_eq_none_iff] at hpage
            exact absurd (List.isEmpty_iff.mpr hpage) hne
          · rfl
        rw [hlast, hsplit]
        refine ih _ _ (hsplit ▸ hsorted) ?_
        have := length_drop_cons_le hsize a todo (Nat.le_refl _)
        rw [length_cons] at hlt
        omega

end Pages

end Batches

end OtaPlatform
