import Mathlib.Data.List.Basic

/-!
# Programs over a set of operations

A program is a tree: it returns a value, or calls an operation and goes on with the answer. What the
operations do is given separately, as a function on a state that also says what is sent to the
outside. The same program can therefore be run in one go, or one operation at a time with other
programs in between.
-/

namespace OtaPlatform

/-- Operations with the types of their answers. -/
structure Signature where
  Op : Type
  Answer : Op → Type

/-- A program that calls operations and returns a value. -/
inductive Program (E : Signature) (α : Type) : Type
  | ret (a : α)
  | call (o : E.Op) (k : E.Answer o → Program E α)

/-- What the operations do to a state, and what they send out. -/
structure Semantics (E : Signature) (σ ω : Type) where
  answer : σ → (o : E.Op) → E.Answer o
  next : σ → E.Op → σ
  output : σ → E.Op → List ω

structure Outcome (α σ ω : Type) where
  value : α
  state : σ
  outputs : List ω

namespace Program

variable {E : Signature} {α β : Type} {σ ω : Type}

def bind : Program E α → (α → Program E β) → Program E β
  | ret a, f => f a
  | call o k, f => call o fun ans ↦ (k ans).bind f

instance : Monad (Program E) where
  pure := ret
  bind := bind

def op (o : E.Op) : Program E (E.Answer o) := call o ret

def run (M : Semantics E σ ω) : Program E α → σ → Outcome α σ ω
  | ret a, s => ⟨a, s, []⟩
  | call o k, s =>
    let rest := (k (M.answer s o)).run M (M.next s o)
    ⟨rest.value, rest.state, M.output s o ++ rest.outputs⟩

/-- The operations that a run calls, in order. -/
def calls (M : Semantics E σ ω) : Program E α → σ → List E.Op
  | ret _, _ => []
  | call o k, s => o :: (k (M.answer s o)).calls M (M.next s o)

variable (M : Semantics E σ ω)

@[simp] theorem run_ret (a : α) (s : σ) : (ret a : Program E α).run M s = ⟨a, s, []⟩ := rfl

@[simp] theorem run_pure (a : α) (s : σ) : (pure a : Program E α).run M s = ⟨a, s, []⟩ := rfl

@[simp] theorem run_op (o : E.Op) (s : σ) :
    (op o).run M s = ⟨M.answer s o, M.next s o, M.output s o⟩ := by
  rw [op, run, run_ret, List.append_nil]

@[simp] theorem run_bind (p : Program E α) (f : α → Program E β) (s : σ) : (p >>= f).run M s
      = ⟨((f (p.run M s).value).run M (p.run M s).state).value,
          ((f (p.run M s).value).run M (p.run M s).state).state,
          (p.run M s).outputs ++ ((f (p.run M s).value).run M (p.run M s).state).outputs⟩ := by
  induction p generalizing s with
  | ret a => rfl
  | call o k ih =>
    have hrest := ih (M.answer s o) (M.next s o)
    change (call o fun ans ↦ (k ans) >>= f).run M s = _
    rw [run, hrest, run, List.append_assoc]

@[simp] theorem calls_bind (p : Program E α) (f : α → Program E β) (s : σ) : (p >>= f).calls M s
      = p.calls M s ++ (f (p.run M s).value).calls M (p.run M s).state := by
  induction p generalizing s with
  | ret a => rfl
  | call o k ih =>
    have hrest := ih (M.answer s o) (M.next s o)
    change (call o fun ans ↦ (k ans) >>= f).calls M s = _
    rw [calls, hrest, calls, run, List.cons_append]

/-! ## Relations that compose -/

/-- The relation holds of every run of the program: of the state before it, the state after it and
the outputs. -/
def Respects (R : σ → σ → List ω → Prop) (p : Program E α) : Prop :=
  ∀ s, R s (p.run M s).state (p.run M s).outputs

variable {M} {R R₁ R₂ : σ → σ → List ω → Prop}

theorem respects_pure (hrefl : ∀ s, R s s []) (a : α) : (pure a : Program E α).Respects M R :=
  fun s ↦ hrefl s

theorem respects_op {o : E.Op} (h : ∀ s, R s (M.next s o) (M.output s o)) :
    (op o).Respects M R := by
  intro s
  rw [run_op]
  exact h s

theorem Respects.mono {p : Program E α} (h : p.Respects M R₁)
    (hR : ∀ s s' outs, R₁ s s' outs → R s s' outs) : p.Respects M R :=
  fun s ↦ hR _ _ _ (h s)

/-- **The rule for sequences**, for relations that compose. -/
theorem Respects.bind {p : Program E α} {f : α → Program E β} (hp : p.Respects M R₁)
    (hf : ∀ a, (f a).Respects M R₂)
    (hcomp : ∀ s s' s'' outs outs', R₁ s s' outs → R₂ s' s'' outs' → R s s'' (outs ++ outs')) :
    (p >>= f).Respects M R := by
  intro s
  rw [run_bind]
  exact hcomp _ _ _ _ _ (hp s) (hf _ _)

theorem Respects.then_pure {p : Program E α} (h : p.Respects M R) (b : β) :
    (p >>= fun _ ↦ pure b).Respects M R := by
  intro s
  rw [run_bind, run_pure, List.append_nil]
  exact h s

end Program

/-! ## Computations that may fail -/

section Fallible

variable {ε ε' α β : Type}

theorem bind_eq_ok {x : Except ε α} {f : α → Except ε β} {b : β} :
    (x >>= f) = .ok b ↔ ∃ a, x = .ok a ∧ f a = .ok b := by
  cases x with
  | error e =>
    constructor
    · intro h
      cases h
    · rintro ⟨a, ha, -⟩
      cases ha
  | ok a =>
    constructor
    · intro h
      exact ⟨a, rfl, h⟩
    · rintro ⟨a', ha, hf⟩
      cases ha
      exact hf

/-- A check that fails with an error is passed when its condition does not hold. -/
theorem guard_eq_ok {c : Prop} [Decidable c] {e : ε} {rest : Except ε α} {a : α} :
    (if c then (Except.error e >>= fun _ : PUnit ↦ rest) else rest) = .ok a ↔
      ¬c ∧ rest = .ok a := by
  split_ifs with hc
  · constructor
    · intro h
      cases h
    · intro h
      exact absurd hc h.1
  · exact (and_iff_right hc).symm

theorem mapError_eq_ok {x : Except ε α} {f : ε → ε'} {a : α} :
    x.mapError f = .ok a ↔ x = .ok a := by
  cases x <;> simp [Except.mapError]

end Fallible

end OtaPlatform
