import Mathlib.Data.List.Basic

/-!
# Guarded transition systems

A machine has states, actions, a predicate saying when an action may be taken and a function giving
the state after it. Nondeterminism is in the choice of the action: whatever the environment decides
is part of the action, so the step itself is a function and a run is a list of actions.

A run may additionally be asked to meet a guard at every step. The guard is kept apart from
`Enabled` because the two say different things: `Enabled` is what can happen, the guard is a
condition under which a property of the runs is claimed.
-/

namespace OtaPlatform

open List

universe u v

/-- A transition system whose nondeterminism is in the action. -/
structure Machine (σ : Type u) (ι : Type v) where
  /-- The action can be taken in the state. -/
  Enabled : σ → ι → Prop
  next : σ → ι → σ

namespace Machine

variable {σ : Type u} {ι : Type v} (M : Machine σ ι)

/-- The state after a list of actions. -/
def after (s : σ) (acts : List ι) : σ := acts.foldl M.next s

@[simp] theorem after_nil (s : σ) : M.after s [] = s := rfl

@[simp] theorem after_cons (s : σ) (a : ι) (acts : List ι) :
    M.after s (a :: acts) = M.after (M.next s a) acts := rfl

theorem after_append (s : σ) (acts acts' : List ι) :
    M.after s (acts ++ acts') = M.after (M.after s acts) acts' :=
  foldl_append

/-- Every action of the list was enabled when it was taken, and met the guard there. -/
def RunsUnder (G : σ → ι → Prop) : σ → List ι → Prop
  | _, [] => True
  | s, a :: acts => (M.Enabled s a ∧ G s a) ∧ RunsUnder G (M.next s a) acts

/-- Every action of the list was enabled when it was taken. -/
def Runs (s : σ) (acts : List ι) : Prop := M.RunsUnder (fun _ _ ↦ True) s acts

variable {M}

theorem runsUnder_append {G : σ → ι → Prop} {s : σ} {acts acts' : List ι} :
    M.RunsUnder G s (acts ++ acts')
      ↔ M.RunsUnder G s acts ∧ M.RunsUnder G (M.after s acts) acts' := by
  induction acts generalizing s with
  | nil => simp [RunsUnder]
  | cons a acts ih => simp only [cons_append, RunsUnder, after_cons, ih, and_assoc]

theorem RunsUnder.mono {G G' : σ → ι → Prop} {s : σ} {acts : List ι} (h : M.RunsUnder G s acts)
    (hG : ∀ s a, M.Enabled s a → G s a → G' s a) : M.RunsUnder G' s acts := by
  induction acts generalizing s with
  | nil => trivial
  | cons a acts ih => exact ⟨⟨h.1.1, hG s a h.1.1 h.1.2⟩, ih h.2⟩

theorem RunsUnder.runs {G : σ → ι → Prop} {s : σ} {acts : List ι} (h : M.RunsUnder G s acts) :
    M.Runs s acts :=
  h.mono fun _ _ _ _ ↦ trivial

theorem RunsUnder.and_forall {G : σ → ι → Prop} {P : ι → Prop} {s : σ} {acts : List ι}
    (h : M.RunsUnder G s acts) (hacts : ∀ a ∈ acts, P a) :
    M.RunsUnder (fun s a ↦ G s a ∧ P a) s acts := by
  induction acts generalizing s with
  | nil => trivial
  | cons a acts ih =>
    refine ⟨⟨h.1.1, h.1.2, hacts a mem_cons_self⟩, ?_⟩
    exact ih h.2 fun b hb ↦ hacts b (mem_cons_of_mem _ hb)

/-- A run under a guard is a run whose steps each met the guard in the state they were taken in. -/
theorem runsUnder_iff_forall_split {G : σ → ι → Prop} {s : σ} {acts : List ι} :
    M.RunsUnder G s acts ↔ M.Runs s acts ∧
      ∀ before a after, acts = before ++ a :: after → G (M.after s before) a := by
  induction acts generalizing s with
  | nil => simp [Runs, RunsUnder]
  | cons b acts ih =>
    constructor
    · intro h
      refine ⟨h.runs, ?_⟩
      rintro (_ | ⟨c, before⟩) a after heq
      · obtain ⟨rfl, rfl⟩ := cons_eq_cons.mp heq
        exact h.1.2
      · obtain ⟨rfl, rfl⟩ := cons_eq_cons.mp heq
        exact (ih.mp h.2).2 before a after rfl
    · rintro ⟨hruns, hsteps⟩
      refine ⟨⟨hruns.1.1, hsteps [] b acts rfl⟩, ih.mpr ⟨hruns.2, fun before a after heq ↦ ?_⟩⟩
      exact hsteps (b :: before) a after (congrArg (b :: ·) heq)

/-- **The invariant rule.** What every enabled step under the guard preserves holds after every run
under the guard. -/
theorem RunsUnder.invariant {G : σ → ι → Prop} {I : σ → Prop} {s : σ} {acts : List ι}
    (h : M.RunsUnder G s acts) (hstep : ∀ s a, I s → M.Enabled s a → G s a → I (M.next s a))
    (hinit : I s) : I (M.after s acts) := by
  induction acts generalizing s with
  | nil => exact hinit
  | cons a acts ih => exact ih h.2 (hstep s a hinit h.1.1 h.1.2)

/-- The invariant rule for properties of the state and of the actions taken so far. -/
theorem RunsUnder.history_invariant {G : σ → ι → Prop} {I : List ι → σ → Prop} {s : σ}
    {acts : List ι} (h : M.RunsUnder G s acts)
    (hstep : ∀ past s a, I past s → M.Enabled s a → G s a → I (past ++ [a]) (M.next s a))
    (hinit : I [] s) : I acts (M.after s acts) := by
  have hpast : ∀ past, I past s → I (past ++ acts) (M.after s acts) := by
    clear hinit
    induction acts generalizing s with
    | nil =>
      intro past hs
      rwa [append_nil]
    | cons a acts ih =>
      intro past hs
      rw [append_cons]
      exact ih h.2 (past ++ [a]) (hstep past s a hs h.1.1 h.1.2)
  exact hpast [] hinit

/-- The run under the guard ends in the given state. -/
structure Reaches (M : Machine σ ι) (G : σ → ι → Prop) (s : σ) (acts : List ι) (t : σ) : Prop where
  runs : M.RunsUnder G s acts
  after_eq : M.after s acts = t

theorem Reaches.invariant {G : σ → ι → Prop} {I : σ → Prop} {s t : σ} {acts : List ι}
    (h : M.Reaches G s acts t)
    (hstep : ∀ s a, I s → M.Enabled s a → G s a → I (M.next s a)) (hinit : I s) : I t :=
  h.after_eq ▸ h.runs.invariant hstep hinit

/-- If the steps that keep the invariant are those that meet the guard, then the runs under the
guard are those along which the invariant holds. -/
theorem runsUnder_iff_forall_take {G : σ → ι → Prop} {I : σ → Prop} {s : σ} {acts : List ι}
    (hstep : ∀ s a, I s → M.Enabled s a → (I (M.next s a) ↔ G s a)) (hinit : I s)
    (hrun : M.Runs s acts) : M.RunsUnder G s acts ↔ ∀ n, I (M.after s (acts.take n)) := by
  induction acts generalizing s with
  | nil => exact ⟨fun _ n ↦ by rwa [take_nil], fun _ ↦ trivial⟩
  | cons a acts ih =>
    constructor
    · rintro h (_ | n)
      · exact hinit
      · exact (ih ((hstep s a hinit h.1.1).mpr h.1.2) hrun.2).mp h.2 n
    · intro h
      have hnext : I (M.next s a) := h 1
      exact ⟨⟨hrun.1.1, (hstep s a hinit hrun.1.1).mp hnext⟩,
        (ih hnext hrun.2).mpr fun n ↦ h (n + 1)⟩

instance decidableRunsUnder {G : σ → ι → Prop} [∀ s a, Decidable (M.Enabled s a)]
    [∀ s a, Decidable (G s a)] : ∀ s acts, Decidable (M.RunsUnder G s acts)
  | _, [] => isTrue trivial
  | s, a :: acts =>
    have := decidableRunsUnder (G := G) (M.next s a) acts
    inferInstanceAs (Decidable ((M.Enabled s a ∧ G s a) ∧ M.RunsUnder G (M.next s a) acts))

end Machine

end OtaPlatform
