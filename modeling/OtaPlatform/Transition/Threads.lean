import OtaPlatform.Transition.Machine
import OtaPlatform.Transition.Program

/-!
# Programs that run at the same time

Programs over one set of operations are started at any time and take turns: one step is one
operation of one of them, on a state that they share. Between two operations of a program the others
may do anything, and so may the environment.

## What a program may still do

Properties of interleavings are carried by what is left of the programs in flight. `May` says that a
program can come to an operation of some kind, as long as the operations in between are answered in
an allowed way; what is not allowed is what the shared state rules out. When an operation is
answered in an allowed way, what the program may do afterwards it could do before
(`not_may_of_call`), so "no program in flight may do this" is kept by every step.
-/

namespace OtaPlatform

open List

namespace Program

variable {E : Signature} {α β : Type}

abbrev Allowed (E : Signature) : Type := (o : E.Op) → E.Answer o → Prop

/-- The program comes to an operation of the given kind, for some allowed answers before it. -/
inductive May (ok : Allowed E) (target : E.Op → Prop) : Program E α → Prop
  | now {o : E.Op} {k : E.Answer o → Program E α} (h : target o) : May ok target (call o k)
  | later {o : E.Op} {k : E.Answer o → Program E α} (a : E.Answer o) (ha : ok o a)
      (h : May ok target (k a)) : May ok target (call o k)

/-- The program returns the value, for some allowed answers. -/
inductive MayReturn (ok : Allowed E) : Program E α → α → Prop
  | done (v : α) : MayReturn ok (ret v) v
  | later {o : E.Op} {k : E.Answer o → Program E α} {v : α} (a : E.Answer o) (ha : ok o a)
      (h : MayReturn ok (k a) v) : MayReturn ok (call o k) v

/-- A property of the operation and the rest of the program holds at every call. -/
def Everywhere (P : (o : E.Op) → (E.Answer o → Program E α) → Prop) : Program E α → Prop
  | ret _ => True
  | call o k => P o k ∧ ∀ a, Everywhere P (k a)

/-- All operations that the program can come to have the property. -/
def Only (P : E.Op → Prop) : Program E α → Prop := Everywhere fun o _ ↦ P o

section May

variable {ok : Allowed E} {target : E.Op → Prop}

@[simp] theorem not_may_pure (a : α) : ¬ May ok target (pure a : Program E α) := by
  intro h
  cases h

theorem not_may_call {o : E.Op} {k : E.Answer o → Program E α} :
    ¬ May ok target (call o k) ↔ ¬ target o ∧ ∀ a, ok o a → ¬ May ok target (k a) := by
  constructor
  · intro h
    exact ⟨fun ho ↦ h (.now ho), fun a ha hk ↦ h (.later a ha hk)⟩
  · rintro ⟨ho, hk⟩ (h | ⟨a, ha, h⟩)
    · exact ho h
    · exact hk a ha h

theorem not_may_of_call {o : E.Op} {k : E.Answer o → Program E α}
    (h : ¬ May ok target (call o k)) {a : E.Answer o} (ha : ok o a) : ¬ May ok target (k a) :=
  (not_may_call.mp h).2 a ha

/-- A sequence may not do what neither part may do, the second for what the first may return. -/
theorem not_may_bind {p : Program E α} {f : α → Program E β} (hp : ¬ May ok target p)
    (hf : ∀ v, MayReturn ok p v → ¬ May ok target (f v)) : ¬ May ok target (p >>= f) := by
  induction p with
  | ret v => exact hf v (.done v)
  | call o k ih =>
    obtain ⟨ho, hk⟩ := not_may_call.mp hp
    exact not_may_call.mpr ⟨ho, fun a ha ↦ ih a (hk a ha) fun v hv ↦ hf v (.later a ha hv)⟩

theorem mayReturn_pure {v w : α} (h : MayReturn ok (pure v : Program E α) w) : w = v := by
  cases h
  rfl

theorem mayReturn_call {o : E.Op} {k : E.Answer o → Program E α} {v : α}
    (h : MayReturn ok (call o k) v) : ∃ a, ok o a ∧ MayReturn ok (k a) v := by
  cases h with
  | later a ha h => exact ⟨a, ha, h⟩

theorem MayReturn.mono {ok' : Allowed E} {p : Program E α} {v : α} (h : MayReturn ok p v)
    (hok : ∀ o a, ok o a → ok' o a) : MayReturn ok' p v := by
  induction h with
  | done v => exact .done v
  | later a ha _ ih => exact .later a (hok _ a ha) ih

theorem mayReturn_bind {p : Program E α} {f : α → Program E β} {w : β}
    (h : MayReturn ok (p >>= f) w) : ∃ v, MayReturn ok p v ∧ MayReturn ok (f v) w := by
  induction p with
  | ret v => exact ⟨v, .done v, h⟩
  | call o k ih =>
    obtain ⟨a, ha, hk⟩ := mayReturn_call h
    obtain ⟨v, hv, hw⟩ := ih a hk
    exact ⟨v, .later a ha hv, hw⟩

end May

section Everywhere

variable {P : (o : E.Op) → (E.Answer o → Program E α) → Prop}

@[simp] theorem everywhere_pure (a : α) : Everywhere P (pure a : Program E α) := trivial

theorem Everywhere.mono {Q : (o : E.Op) → (E.Answer o → Program E α) → Prop} {p : Program E α}
    (h : Everywhere P p) (hPQ : ∀ o k, P o k → Q o k) : Everywhere Q p := by
  induction p with
  | ret v => trivial
  | call o k ih => exact ⟨hPQ o k h.1, fun a ↦ ih a (h.2 a)⟩

end Everywhere

section Only

variable {P : E.Op → Prop}

theorem only_pure (v : α) : Only P (pure v : Program E α) := trivial

theorem only_op_bind {o : E.Op} {f : E.Answer o → Program E α} (ho : P o)
    (hf : ∀ a, Only P (f a)) : Only P (op o >>= f) := ⟨ho, hf⟩

theorem only_bind {p : Program E α} {f : α → Program E β} (hp : Only P p)
    (hf : ∀ v, Only P (f v)) : Only P (p >>= f) := by
  induction p with
  | ret v => exact hf v
  | call o k ih => exact ⟨hp.1, fun a ↦ ih a (hp.2 a)⟩

theorem not_may_of_only {ok : Allowed E} {target : E.Op → Prop} {p : Program E α}
    (h : Only (fun o ↦ ¬ target o) p) : ¬ May ok target p := by
  induction p with
  | ret v => exact not_may_pure v
  | call o k ih => exact not_may_call.mpr ⟨h.1, fun a _ ↦ ih a (h.2 a)⟩

end Only

def isCall : Program E α → Bool
  | ret _ => false
  | call _ _ => true

end Program

/-! ## Threads -/

/-- Programs over a shared state. A thread keeps its place when it returns. -/
structure Threads (E : Signature) (α σ ω : Type) where
  shared : σ
  threads : List (Program E α)
  outputs : List (ℕ × ω)

inductive ThreadAction (ρ ε : Type)
  | spawn (r : ρ)
  | step (i : ℕ)
  /-- Something else happens to the shared state. -/
  | other (e : ε)
deriving DecidableEq

namespace Threads

variable {E : Signature} {α σ ω ρ ε : Type}

/-- The state after the next operation of a thread. -/
def stepAt (M : Semantics E σ ω) (t : Threads E α σ ω) (i : ℕ) : Threads E α σ ω :=
  match t.threads[i]? with
  | some (.call o k) =>
    { shared := M.next t.shared o
      threads := t.threads.set i (k (M.answer t.shared o))
      outputs := t.outputs ++ (M.output t.shared o).map fun out ↦ (i, out) }
  | _ => t

/-- Threads of the given codes over operations with the given meaning, in an environment. -/
def machine (M : Semantics E σ ω) (code : ρ → Program E α) (env : Machine σ ε) :
    Machine (Threads E α σ ω) (ThreadAction ρ ε) where
  Enabled t
    | .spawn _ => True
    | .step i => (t.threads[i]?).any Program.isCall = true
    | .other e => env.Enabled t.shared e
  next t
    | .spawn r => { t with threads := t.threads ++ [code r] }
    | .step i => t.stepAt M i
    | .other e => { t with shared := env.next t.shared e }

instance (M : Semantics E σ ω) (code : ρ → Program E α) (env : Machine σ ε)
    [∀ s e, Decidable (env.Enabled s e)] (t : Threads E α σ ω) :
    (a : ThreadAction ρ ε) → Decidable ((machine M code env).Enabled t a)
  | .spawn _ => isTrue trivial
  | .step i => inferInstanceAs (Decidable ((t.threads[i]?).any Program.isCall = true))
  | .other e => inferInstanceAs (Decidable (env.Enabled t.shared e))

variable {M : Semantics E σ ω} {t : Threads E α σ ω} {i : ℕ}

theorem exists_call (h : (t.threads[i]?).any Program.isCall = true) :
    ∃ o k, t.threads[i]? = some (.call o k) := by
  cases hthread : t.threads[i]? with
  | none =>
    rw [hthread] at h
    cases h
  | some p =>
    cases p with
    | ret a =>
      rw [hthread] at h
      cases h
    | call o k => exact ⟨o, k, rfl⟩

theorem stepAt_eq {o : E.Op} {k : E.Answer o → Program E α} (h : t.threads[i]? = some (.call o k)) :
    t.stepAt M i = ⟨M.next t.shared o, t.threads.set i (k (M.answer t.shared o)),
      t.outputs ++ (M.output t.shared o).map fun out ↦ (i, out)⟩ := by
  rw [stepAt, h]

theorem forall_threads_stepAt {o : E.Op} {k : E.Answer o → Program E α}
    (h : t.threads[i]? = some (.call o k)) {T : Program E α → Prop}
    (hself : T (k (M.answer t.shared o))) (hothers : ∀ j p, j ≠ i → t.threads[j]? = some p → T p) :
    ∀ p ∈ (t.stepAt M i).threads, T p := by
  intro p hp
  rw [stepAt_eq h] at hp
  obtain ⟨j, hj⟩ := getElem?_of_mem hp
  by_cases hij : j = i
  · subst hij
    obtain ⟨hlt, -⟩ := List.getElem?_eq_some_iff.mp h
    rw [getElem?_set_self hlt, Option.some.injEq] at hj
    exact hj ▸ hself
  · rw [getElem?_set_ne (Ne.symm hij)] at hj
    exact hothers j p hij hj

theorem outputs_lt_next {code : ρ → Program E α} {env : Machine σ ε} {a : ThreadAction ρ ε}
    (henabled : (machine M code env).Enabled t a)
    (h : ∀ out ∈ t.outputs, out.1 < t.threads.length) :
    ∀ out ∈ ((machine M code env).next t a).outputs,
      out.1 < ((machine M code env).next t a).threads.length := by
  cases a with
  | spawn r =>
    intro out hout
    have hlength : (t.threads ++ [code r]).length = t.threads.length + 1 := length_append
    exact hlength ▸ Nat.lt_succ_of_lt (h out hout)
  | step i =>
    obtain ⟨o, k, hthread⟩ := exists_call henabled
    change ∀ out ∈ (t.stepAt M i).outputs, out.1 < (t.stepAt M i).threads.length
    rw [stepAt_eq hthread]
    intro out hout
    rw [length_set]
    rcases mem_append.mp hout with hout | hout
    · exact h out hout
    · obtain ⟨_, -, rfl⟩ := mem_map.mp hout
      exact (List.getElem?_eq_some_iff.mp hthread).1
  | other e => exact h

end Threads

end OtaPlatform
