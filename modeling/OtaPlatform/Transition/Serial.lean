import Mathlib.Data.List.Nodup
import Mathlib.Data.List.Perm.Basic
import OtaPlatform.Transition.Threads

/-!
# Interleavings that are as good as one program after the other

Programs take turns on a shared state. A program *begins* with its first step, and is *inside* from
then on until it can no longer touch the shared state. An interleaving is orderly if

* a step changes the shared state only while no other program is inside, and
* no program begins while another that has changed something is still inside.

So programs that only read may overlap as they like, and what they send may come at any time. The
outputs of an orderly interleaving are those of the programs run one after the other
(`serializable_of_orderly`).

## The invariant

The order is the one in which the programs are done with the shared state. `Serial` keeps the state
`base` that the programs done so far leave when run in that order. A program that is inside and has
changed nothing would, run from `base`, send what it has sent and go on as it will; a program that
has changed something has left `base` behind, but then it is alone inside.
-/

namespace OtaPlatform

open List

namespace Program

variable {E : Signature} {α σ ω : Type}

/-- Runs programs one after the other: the state they leave, and all they send. -/
def sequential (M : Semantics E σ ω) : σ → List (Program E α) → σ × List ω
  | s, [] => (s, [])
  | s, p :: ps =>
    ((sequential M (p.run M s).state ps).1,
      (p.run M s).outputs ++ (sequential M (p.run M s).state ps).2)

theorem sequential_append_singleton (M : Semantics E σ ω) (s : σ) (ps : List (Program E α))
    (p : Program E α) : sequential M s (ps ++ [p]) = ((p.run M (sequential M s ps).1).state,
          (sequential M s ps).2 ++ (p.run M (sequential M s ps).1).outputs) := by
  induction ps generalizing s with
  | nil => simp [sequential]
  | cons q ps ih => rw [cons_append, sequential, ih, sequential, append_assoc]

end Program

def Outcome.sentBefore {α σ ω : Type} (o : Outcome α σ ω) (sent : List ω) : Outcome α σ ω :=
  { o with outputs := sent ++ o.outputs }

/-- What the operations of a semantics touch and change. -/
structure Footprint {E : Signature} {σ ω : Type} (M : Semantics E σ ω) where
  /-- The operation reads or writes the shared state. -/
  touches : E.Op → Bool
  /-- The operation changes the state it is called in. -/
  changes : σ → E.Op → Bool
  next_eq : ∀ s o, changes s o = false → M.next s o = s
  changes_eq : ∀ s o, touches o = false → changes s o = false
  answer_eq : ∀ s s' o, touches o = false → M.answer s o = M.answer s' o
  output_eq : ∀ s s' o, touches o = false → M.output s o = M.output s' o

namespace Footprint

variable {E : Signature} {α σ ω : Type} {M : Semantics E σ ω} (F : Footprint M)

/-- The program does not touch the shared state any more. -/
def Quiet (p : Program E α) : Prop := p.Only fun o ↦ F.touches o = false

variable {F}

/-- A quiet program leaves the state, and sends the same whatever the state is. -/
theorem Quiet.run_eq {p : Program E α} (h : F.Quiet p) (s s' : σ) :
    (p.run M s).state = s ∧ (p.run M s).outputs = (p.run M s').outputs := by
  induction p with
  | ret a => exact ⟨rfl, rfl⟩
  | call o k ih =>
    have hnext : ∀ s, M.next s o = s := fun s ↦ F.next_eq s o (F.changes_eq s o h.1)
    obtain ⟨hstate, houtputs⟩ := ih (M.answer s o) (h.2 _)
    simp only [Program.run, hnext, F.output_eq s s' o h.1, ← F.answer_eq s s' o h.1]
    exact ⟨hstate, by rw [houtputs]⟩

theorem Quiet.of_call {o : E.Op} {k : E.Answer o → Program E α} (h : F.Quiet (.call o k))
    (a : E.Answer o) : F.Quiet (k a) := h.2 a

end Footprint

/-! ## Interleavings -/

/-- Threads, with a record of which have begun and which have changed the shared state. -/
structure Traced (E : Signature) (α σ ω : Type) extends Threads E α σ ω where
  /-- The threads that have taken a step. -/
  begun : List ℕ
  /-- The threads that have changed the shared state. -/
  wrote : List ℕ

namespace Traced

variable {E : Signature} {α σ ω : Type} {M : Semantics E σ ω} (F : Footprint M)

/-- The programs before their first steps. -/
def start (s : σ) (codes : List (Program E α)) : Traced E α σ ω := ⟨⟨s, codes, []⟩, [], []⟩

/-- A thread calls its next operation. -/
def next (t : Traced E α σ ω) (i : ℕ) : Traced E α σ ω :=
  match t.threads[i]? with
  | some (.call o _) =>
    ⟨t.stepAt M i, i :: t.begun, if F.changes t.shared o then i :: t.wrote else t.wrote⟩
  | _ => t

/-- One step of a thread at a time, in any order. -/
def interleaving : Machine (Traced E α σ ω) ℕ where
  Enabled t i := (t.threads[i]?).any Program.isCall = true
  next := next F

instance (t : Traced E α σ ω) (i : ℕ) : Decidable ((interleaving F).Enabled t i) :=
  inferInstanceAs (Decidable ((t.threads[i]?).any Program.isCall = true))

/-- The thread has begun and may still touch the shared state. -/
def Inside (t : Traced E α σ ω) (j : ℕ) : Prop :=
  j ∈ t.begun ∧ ∃ p, t.threads[j]? = some p ∧ ¬F.Quiet p

/-- The thread is inside and has changed the shared state. -/
def Writing (t : Traced E α σ ω) (j : ℕ) : Prop :=
  j ∈ t.wrote ∧ ∃ p, t.threads[j]? = some p ∧ ¬F.Quiet p

/-- The step of a thread keeps to the order: it changes the shared state only with no other thread
inside, and begins only with no other thread writing. -/
structure Orderly (t : Traced E α σ ω) (i : ℕ) : Prop where
  change : ∀ o k, t.threads[i]? = some (.call o k) → F.changes t.shared o = true →
    ∀ j, j ≠ i → ¬Inside F t j
  entry : i ∉ t.begun → ∀ j, j ≠ i → ¬Writing F t j

/-- Nothing has been changed, and the next operation of the thread changes nothing. -/
def onlyReads (t : Traced E α σ ω) (i : ℕ) : Bool :=
  match t.threads[i]? with
  | some (.call o _) => t.wrote.isEmpty && !F.changes t.shared o
  | _ => t.wrote.isEmpty

theorem orderly_of_onlyReads {t : Traced E α σ ω} {i : ℕ}
    (henabled : (interleaving F).Enabled t i) (h : t.onlyReads F i = true) : Orderly F t i := by
  obtain ⟨o, k, hthread⟩ := Threads.exists_call henabled
  rw [onlyReads, hthread] at h
  obtain ⟨hwrote, hreads⟩ := Bool.and_eq_true_iff.mp h
  refine ⟨fun o' k' hthread' hchanges ↦ ?_, fun _ j _ hwriting ↦ ?_⟩
  · obtain ⟨rfl, -⟩ := Program.call.inj (Option.some.inj (hthread.symm.trans hthread'))
    rw [hchanges] at hreads
    cases hreads
  · rw [Writing, isEmpty_iff.mp hwrote] at hwriting
    exact not_mem_nil hwriting.1

def sent (t : Traced E α σ ω) (j : ℕ) : List ω :=
  (t.outputs.filter fun out ↦ out.1 = j).map Prod.snd

def Finished (t : Traced E α σ ω) : Prop := ∀ p ∈ t.threads, p.isCall = false

/-- What a thread will have sent if it is left alone from now on. -/
def total (M : Semantics E σ ω) (t : Traced E α σ ω) (j : ℕ) : List ω :=
  t.sent j ++ (t.threads[j]?).elim [] fun p ↦ (p.run M t.shared).outputs

/-! ## One step -/

section Step

variable {F} {t : Traced E α σ ω} {i j : ℕ} {o : E.Op} {k : E.Answer o → Program E α}
  (h : t.threads[i]? = some (.call o k))

include h

theorem next_eq : t.next F i = ⟨⟨M.next t.shared o, t.threads.set i (k (M.answer t.shared o)),
      t.outputs ++ (M.output t.shared o).map fun out ↦ (i, out)⟩, i :: t.begun,
      if F.changes t.shared o then i :: t.wrote else t.wrote⟩ := by
  rw [next, h, ← Threads.stepAt_eq h]

theorem threads_next_self : (t.next F i).threads[i]? = some (k (M.answer t.shared o)) := by
  rw [next_eq h]
  exact getElem?_set_self (List.getElem?_eq_some_iff.mp h).1

theorem threads_next_of_ne (hj : j ≠ i) : (t.next F i).threads[j]? = t.threads[j]? := by
  rw [next_eq h]
  exact getElem?_set_ne hj.symm

theorem sent_next_self : (t.next F i).sent i = t.sent i ++ M.output t.shared o := by
  have hall : ((M.output t.shared o).map fun out ↦ (i, out)).filter (fun out ↦ out.1 = i)
      = (M.output t.shared o).map fun out ↦ (i, out) := by
    refine filter_eq_self.mpr fun out hout ↦ ?_
    obtain ⟨_, -, rfl⟩ := mem_map.mp hout
    exact decide_eq_true rfl
  rw [next_eq h, sent, filter_append, map_append, hall, map_map]
  exact congrArg _ (map_id _)

theorem sent_next_of_ne (hj : j ≠ i) : (t.next F i).sent j = t.sent j := by
  have hnone : ((M.output t.shared o).map fun out ↦ (i, out)).filter (fun out ↦ out.1 = j)
      = [] := by
    refine filter_eq_nil_iff.mpr fun out hout ↦ ?_
    obtain ⟨_, -, rfl⟩ := mem_map.mp hout
    exact fun heq ↦ hj (of_decide_eq_true heq).symm
  rw [next_eq h, sent, filter_append, map_append, hnone, map_nil, append_nil, sent]

theorem total_next_self : (t.next F i).total M i = t.total M i := by
  rw [total, total, sent_next_self h, threads_next_self h, h, Option.elim_some, Option.elim_some,
    append_assoc, next_eq h]
  rfl

/-- What a quiet thread will have sent does not depend on the steps of the others. -/
theorem total_next_of_ne (hj : j ≠ i) (hquiet : ∃ p, t.threads[j]? = some p ∧ F.Quiet p) :
    (t.next F i).total M j = t.total M j := by
  obtain ⟨p, hp, hquiet⟩ := hquiet
  rw [total, total, sent_next_of_ne h hj, threads_next_of_ne h hj, hp, Option.elim_some,
    Option.elim_some, (hquiet.run_eq (t.next F i).shared t.shared).2]

theorem shared_next : (t.next F i).shared = M.next t.shared o := by
  rw [next_eq h]

theorem shared_next_of_not_changes
    (hchanges : F.changes t.shared o = false) : (t.next F i).shared = t.shared := by
  rw [shared_next h, F.next_eq _ _ hchanges]

theorem mem_begun_next : j ∈ (t.next F i).begun ↔ j = i ∨ j ∈ t.begun := by
  rw [next_eq h]
  exact mem_cons

theorem mem_wrote_next :
    j ∈ (t.next F i).wrote ↔ j = i ∧ F.changes t.shared o = true ∨ j ∈ t.wrote := by
  rw [next_eq h]
  cases F.changes t.shared o with
  | false | true => simp

theorem inside_next_of_ne (hj : j ≠ i) : Inside F (t.next F i) j ↔ Inside F t j := by
  rw [Inside, Inside, mem_begun_next h, threads_next_of_ne h hj, or_iff_right hj]

theorem writing_next_of_ne (hj : j ≠ i) : Writing F (t.next F i) j ↔ Writing F t j := by
  rw [Writing, Writing, mem_wrote_next h, threads_next_of_ne h hj, or_iff_right fun heq ↦ hj heq.1]

end Step

/-! ## The invariant -/

/-- The record is about the threads: those not begun are as they were given. -/
structure Recorded (codes : List (Program E α)) (t : Traced E α σ ω) : Prop where
  length_eq : t.threads.length = codes.length
  tags : ∀ out ∈ t.outputs, out.1 < codes.length
  fresh : ∀ j, j ∉ t.begun → t.threads[j]? = codes[j]? ∧ t.sent j = []
  wrote_begun : ∀ j ∈ t.wrote, j ∈ t.begun

/-- The thread has begun and is done with the shared state. -/
def Done (t : Traced E α σ ω) (j : ℕ) : Prop :=
  j ∈ t.begun ∧ ∃ p, t.threads[j]? = some p ∧ F.Quiet p

/-- The threads in `order` are done with the shared state, and run in that order they leave `base`
and send what they will have sent. -/
structure Serial (s : σ) (codes : List (Program E α)) (t : Traced E α σ ω) (order : List ℕ)
    (base : σ) : Prop extends Recorded codes t where
  nodup : order.Nodup
  mem_order : ∀ j, j ∈ order ↔ Done F t j
  alone : ∀ i j, Writing F t i → j ≠ i → ¬Inside F t j
  shared_eq : (∀ j, ¬Writing F t j) → t.shared = base
  inside : ∀ j code p, codes[j]? = some code → t.threads[j]? = some p → j ∈ t.begun →
    ¬F.Quiet p → code.run M base = (p.run M t.shared).sentBefore (t.sent j)
  done : Program.sequential M s (order.filterMap fun j ↦ codes[j]?)
    = (base, order.flatMap fun j ↦ t.total M j)

section Invariant

variable {F} {s base : σ} {codes : List (Program E α)} {t : Traced E α σ ω} {order : List ℕ}
  {i : ℕ} {o : E.Op} {k : E.Answer o → Program E α}

theorem serial_start (s : σ) (codes : List (Program E α)) :
    Serial F s codes (start s codes) [] s where
  length_eq := rfl
  tags _ h := absurd h not_mem_nil
  fresh _ _ := ⟨rfl, rfl⟩
  wrote_begun _ h := absurd h not_mem_nil
  nodup := nodup_nil
  mem_order _ := iff_of_false not_mem_nil fun h ↦ not_mem_nil h.1
  alone _ _ h := absurd h.1 not_mem_nil
  shared_eq _ := rfl
  inside _ _ _ _ _ h := absurd h not_mem_nil
  done := rfl

section Thread

variable (hthread : t.threads[i]? = some (.call o k))

include hthread

private theorem Recorded.next (h : Recorded codes t) : Recorded codes (t.next F i) where
  length_eq := by
    rw [next_eq hthread]
    exact length_set.trans h.length_eq
  tags := by
    intro out hout
    rw [next_eq hthread] at hout
    rcases mem_append.mp hout with hout | hout
    · exact h.tags out hout
    · obtain ⟨_, -, rfl⟩ := mem_map.mp hout
      exact h.length_eq ▸ (List.getElem?_eq_some_iff.mp hthread).1
  fresh := by
    intro j hj
    rw [mem_begun_next hthread, not_or] at hj
    rw [threads_next_of_ne hthread hj.1, sent_next_of_ne hthread hj.1]
    exact h.fresh j hj.2
  wrote_begun := by
    intro j hj
    rw [mem_begun_next hthread]
    rcases (mem_wrote_next hthread).mp hj with hj | hj
    · exact .inl hj.1
    · exact .inr (h.wrote_begun j hj)

private theorem done_next_of_ne {j : ℕ} (hj : j ≠ i) : Done F (t.next F i) j ↔ Done F t j := by
  rw [Done, Done, mem_begun_next hthread, threads_next_of_ne hthread hj, or_iff_right hj]

private theorem ne_of_not_quiet (hquiet : F.Quiet (k (M.answer t.shared o))) {j : ℕ}
    {q : Program E α} (hq : (t.next F i).threads[j]? = some q) (hnot : ¬F.Quiet q) : j ≠ i := by
  rintro rfl
  obtain rfl := Option.some.inj ((threads_next_self hthread).symm.trans hq)
  exact hnot hquiet

variable (h : Serial F s codes t order base)

include h

private theorem Serial.flatMap_total :
    (order.flatMap fun j ↦ (t.next F i).total M j) = order.flatMap fun j ↦ t.total M j := by
  refine flatMap_congr fun j hj ↦ ?_
  by_cases hji : j = i
  · rw [hji, total_next_self hthread]
  · exact total_next_of_ne hthread hji ((h.mem_order j).mp hj).2

/-- A thread that takes a step and is not done is inside, unless this is its first step. -/
private theorem Serial.inside_of_not_mem (hi : i ∉ order) (hbegun : i ∈ t.begun) : Inside F t i :=
  ⟨hbegun, _, hthread, fun hquiet ↦ hi ((h.mem_order i).mpr ⟨hbegun, _, hthread, hquiet⟩)⟩

private theorem Serial.not_writing (horderly : Orderly F t i) (hi : i ∉ order) {j : ℕ}
    (hj : j ≠ i) : ¬Writing F t j := by
  intro hwriting
  by_cases hbegun : i ∈ t.begun
  · exact h.alone j i hwriting hj.symm (h.inside_of_not_mem hthread hi hbegun)
  · exact horderly.entry hbegun j hj hwriting

private theorem Serial.run_eq (horderly : Orderly F t i) (hi : i ∉ order) {code : Program E α}
    (hcode : codes[i]? = some code) :
    code.run M base = ((Program.call o k).run M t.shared).sentBefore (t.sent i) := by
  by_cases hbegun : i ∈ t.begun
  · obtain ⟨-, p, hp, hquiet⟩ := h.inside_of_not_mem hthread hi hbegun
    obtain rfl := Option.some.inj (hthread.symm.trans hp)
    exact h.inside i code _ hcode hthread hbegun hquiet
  · obtain ⟨hsame, hsent⟩ := h.fresh i hbegun
    obtain rfl := Option.some.inj (hthread.symm.trans (hsame.trans hcode))
    have hshared : t.shared = base := by
      refine h.shared_eq fun j hwriting ↦ ?_
      by_cases hj : j = i
      · exact hbegun (hj ▸ h.wrote_begun j hwriting.1)
      · exact horderly.entry hbegun j hj hwriting
    rw [hshared, hsent]
    rfl

private theorem Serial.next_of_mem (hi : i ∈ order) : Serial F s codes (t.next F i) order base := by
  obtain ⟨hbegun, p, hp, hquiet⟩ := (h.mem_order i).mp hi
  obtain rfl := Option.some.inj (hthread.symm.trans hp)
  have hchanges : F.changes t.shared o = false := F.changes_eq _ _ hquiet.1
  have hshared := shared_next_of_not_changes hthread hchanges
  -- the thread is not inside, and nothing changes for the others
  refine ⟨h.toRecorded.next hthread, h.nodup, fun j ↦ ?_, fun a j ha hj hinside ↦ ?_,
    fun hnone ↦ ?_, fun j code q hcode hq hj hnot ↦ ?_, ?_⟩
  · by_cases hji : j = i
    · subst hji
      refine iff_of_true hi ⟨(mem_begun_next hthread).mpr (.inl rfl), _,
        threads_next_self hthread, hquiet.of_call _⟩
    · rw [h.mem_order, done_next_of_ne hthread hji]
  · have ⟨_, q, hq, hnot⟩ := hinside
    have ⟨_, r, hr, hnotr⟩ := ha
    have hji := ne_of_not_quiet hthread (hquiet.of_call _) hq hnot
    have hai := ne_of_not_quiet hthread (hquiet.of_call _) hr hnotr
    exact h.alone a j ((writing_next_of_ne hthread hai).mp ha) hj
      ((inside_next_of_ne hthread hji).mp hinside)
  · rw [hshared]
    refine h.shared_eq fun j hj ↦ ?_
    have hji : j ≠ i := by
      rintro rfl
      obtain ⟨-, q, hq, hnot⟩ := hj
      obtain rfl := Option.some.inj (hthread.symm.trans hq)
      exact hnot hquiet
    exact hnone j ((writing_next_of_ne hthread hji).mpr hj)
  · have hji := ne_of_not_quiet hthread (hquiet.of_call _) hq hnot
    rw [threads_next_of_ne hthread hji] at hq
    rw [mem_begun_next hthread, or_iff_right hji] at hj
    rw [hshared, sent_next_of_ne hthread hji]
    exact h.inside j code q hcode hq hj hnot
  · rw [h.done, h.flatMap_total hthread]

/-- The last step of a thread on the shared state: it is the next in the order. -/
private theorem Serial.next_done (horderly : Orderly F t i) (hi : i ∉ order)
    (hquiet : F.Quiet (k (M.answer t.shared o))) :
    Serial F s codes (t.next F i) (order ++ [i]) (t.next F i).shared := by
  refine ⟨h.toRecorded.next hthread, ?_, fun j ↦ ?_, fun a j ha hj hinside ↦ ?_, fun _ ↦ rfl,
    fun j code q hcode hq hj hnot ↦ ?_, ?_⟩
  · exact nodup_append.mpr ⟨h.nodup, nodup_singleton i, fun a ha b hb hab ↦
      hi (mem_singleton.mp hb ▸ hab ▸ ha)⟩
  · rw [mem_append, mem_singleton]
    by_cases hji : j = i
    · subst hji
      exact iff_of_true (.inr rfl) ⟨(mem_begun_next hthread).mpr (.inl rfl), _,
        threads_next_self hthread, hquiet⟩
    · rw [or_iff_left hji, h.mem_order, done_next_of_ne hthread hji]
  · have ⟨_, q, hq, hnot⟩ := ha
    have hai := ne_of_not_quiet hthread hquiet hq hnot
    exact h.not_writing hthread horderly hi hai ((writing_next_of_ne hthread hai).mp ha)
  · -- a thread that is inside with this one has changed nothing, and neither has this one
    have hji := ne_of_not_quiet hthread hquiet hq hnot
    rw [threads_next_of_ne hthread hji] at hq
    rw [mem_begun_next hthread, or_iff_right hji] at hj
    have hinside : Inside F t j := ⟨hj, q, hq, hnot⟩
    have hchanges : F.changes t.shared o = false := by
      rw [← Bool.not_eq_true]
      exact fun hc ↦ horderly.change o k hthread hc j hji hinside
    have hbase : t.shared = base := by
      refine h.shared_eq fun a ha ↦ ?_
      by_cases hai : a = i
      · exact h.alone a j ha (hai ▸ hji) hinside
      · exact h.not_writing hthread horderly hi hai ha
    rw [shared_next_of_not_changes hthread hchanges, sent_next_of_ne hthread hji]
    have hrun := h.inside j code q hcode hq hj hnot
    rwa [← hbase] at hrun
  · obtain ⟨code, hcode⟩ : ∃ code, codes[i]? = some code := by
      have hlt := (List.getElem?_eq_some_iff.mp hthread).1
      rw [h.length_eq] at hlt
      exact ⟨_, getElem?_eq_getElem hlt⟩
    have hrun := h.run_eq hthread horderly hi hcode
    have hsingle : [i].filterMap (fun j ↦ codes[j]?) = [code] := by
      rw [filterMap_cons_some hcode, filterMap_nil]
    have hstate : (code.run M base).state = (t.next F i).shared := by
      rw [hrun, shared_next hthread]
      exact (hquiet.run_eq (M.next t.shared o) (M.next t.shared o)).1
    have houtputs : (code.run M base).outputs = (t.next F i).total M i := by
      rw [hrun, total_next_self hthread, total, hthread]
      rfl
    rw [filterMap_append, hsingle, Program.sequential_append_singleton, h.done, hstate,
      houtputs, flatMap_append, h.flatMap_total hthread, flatMap_singleton]

private theorem Serial.next_inside (horderly : Orderly F t i) (hi : i ∉ order)
    (hnot : ¬F.Quiet (k (M.answer t.shared o))) : Serial F s codes (t.next F i) order base := by
  have hself : Inside F (t.next F i) i :=
    ⟨(mem_begun_next hthread).mpr (.inl rfl), _, threads_next_self hthread, hnot⟩
  refine ⟨h.toRecorded.next hthread, h.nodup, fun j ↦ ?_, fun a j ha hj ↦ ?_, fun hnone ↦ ?_,
    fun j code q hcode hq hj hqnot ↦ ?_, ?_⟩
  · by_cases hji : j = i
    · subst hji
      refine iff_of_false hi ?_
      rintro ⟨-, q, hq, hquiet⟩
      obtain rfl := Option.some.inj ((threads_next_self hthread).symm.trans hq)
      exact hnot hquiet
    · rw [h.mem_order, done_next_of_ne hthread hji]
  · by_cases hai : a = i
    · subst hai
      rw [inside_next_of_ne hthread hj]
      rcases (mem_wrote_next hthread).mp ha.1 with hchanges | hwrote
      · exact horderly.change o k hthread hchanges.2 j hj
      · have hinside := h.inside_of_not_mem hthread hi (h.wrote_begun a hwrote)
        exact h.alone a j ⟨hwrote, hinside.2⟩ hj
    · exact absurd ((writing_next_of_ne hthread hai).mp ha) (h.not_writing hthread horderly hi hai)
  · have hchanges : F.changes t.shared o = false := by
      rw [← Bool.not_eq_true]
      exact fun hc ↦ hnone i ⟨(mem_wrote_next hthread).mpr (.inl ⟨rfl, hc⟩), hself.2⟩
    rw [shared_next_of_not_changes hthread hchanges]
    refine h.shared_eq fun j hj ↦ ?_
    by_cases hji : j = i
    · subst hji
      exact hnone j ⟨(mem_wrote_next hthread).mpr (.inr hj.1), hself.2⟩
    · exact hnone j ((writing_next_of_ne hthread hji).mpr hj)
  · by_cases hji : j = i
    · subst hji
      obtain rfl := Option.some.inj ((threads_next_self hthread).symm.trans hq)
      rw [h.run_eq hthread horderly hi hcode, sent_next_self hthread, shared_next hthread]
      simp only [Outcome.sentBefore, Program.run, append_assoc]
    · rw [threads_next_of_ne hthread hji] at hq
      rw [mem_begun_next hthread, or_iff_right hji] at hj
      have hchanges : F.changes t.shared o = false := by
        rw [← Bool.not_eq_true]
        exact fun hc ↦ horderly.change o k hthread hc j hji ⟨hj, q, hq, hqnot⟩
      rw [shared_next_of_not_changes hthread hchanges, sent_next_of_ne hthread hji]
      exact h.inside j code q hcode hq hj hqnot
  · rw [h.done, h.flatMap_total hthread]

end Thread

/-- **Every orderly step keeps the invariant.** -/
theorem Serial.next (h : Serial F s codes t order base)
    (henabled : (interleaving F).Enabled t i) (horderly : Orderly F t i) :
    ∃ order base, Serial F s codes ((interleaving F).next t i) order base := by
  obtain ⟨o, k, hthread⟩ := Threads.exists_call henabled
  by_cases hi : i ∈ order
  · exact ⟨order, base, h.next_of_mem hthread hi⟩
  · by_cases hquiet : F.Quiet (k (M.answer t.shared o))
    · exact ⟨order ++ [i], _, h.next_done hthread horderly hi hquiet⟩
    · exact ⟨order, base, h.next_inside hthread horderly hi hquiet⟩

end Invariant

/-! ## Whole runs -/

private theorem perm_flatMap_filter {keys : List ℕ} (hnodup : keys.Nodup) {outs : List (ℕ × ω)}
    (h : ∀ out ∈ outs, out.1 ∈ keys) :
    (keys.flatMap fun j ↦ outs.filter fun out ↦ out.1 = j).Perm outs := by
  induction keys generalizing outs with
  | nil =>
    rw [eq_nil_iff_forall_not_mem.mpr fun out hout ↦ not_mem_nil (h out hout)]
    exact .refl _
  | cons j keys ih =>
    obtain ⟨hj, hnodup⟩ := nodup_cons.mp hnodup
    have hrest : (keys.flatMap fun j' ↦ outs.filter fun out ↦ out.1 = j')
        = keys.flatMap fun j' ↦ (outs.filter fun out ↦ !decide (out.1 = j)).filter
            fun out ↦ out.1 = j' := by
      refine flatMap_congr fun j' hj' ↦ ?_
      rw [filter_filter]
      refine filter_congr fun out _ ↦ ?_
      by_cases hout : out.1 = j'
      · have hne : out.1 ≠ j := fun heq ↦ hj (heq ▸ hout ▸ hj')
        simp [hout, hout ▸ hne]
      · simp [hout]
    rw [flatMap_cons, hrest]
    refine ((ih hnodup fun out hout ↦ ?_).append_left _).trans
      (filter_append_perm (fun out ↦ decide (out.1 = j)) outs)
    obtain ⟨hout, hne⟩ := mem_filter.mp hout
    rcases mem_cons.mp (h out hout) with heq | hmem
    · simp [heq] at hne
    · exact hmem

private theorem filterMap_getElem?_range {ρ : Type} (rs : List ρ) :
    ((range rs.length).filterMap fun j ↦ rs[j]?) = rs := by
  induction rs with
  | nil => rfl
  | cons r rs ih =>
    have hhead : (r :: rs)[0]? = some r := rfl
    rw [length_cons, range_succ_eq_map, filterMap_cons_some hhead, filterMap_map]
    exact congrArg (r :: ·) ih

variable {F}

private theorem Serial.perm_range {s base : σ} {codes : List (Program E α)} {t : Traced E α σ ω}
    {order : List ℕ} (h : Serial F s codes t order base) (hcalls : ∀ p ∈ codes, p.isCall = true)
    (hfinished : t.Finished) : order.Perm (range codes.length) := by
  refine (perm_ext_iff_of_nodup h.nodup nodup_range).mpr fun j ↦ ?_
  rw [h.mem_order, mem_range, ← h.length_eq]
  constructor
  · rintro ⟨-, p, hp, -⟩
    exact (List.getElem?_eq_some_iff.mp hp).1
  · intro hj
    have hthread := getElem?_eq_getElem hj
    have hreturned := hfinished _ (getElem_mem hj)
    refine ⟨?_, _, hthread, ?_⟩
    · -- a thread that has not begun still has its first call
      by_contra hbegun
      have hcode := (h.fresh j hbegun).1.symm.trans hthread
      exact absurd ((hcalls _ (mem_of_getElem? hcode)).symm.trans hreturned)
        Bool.true_eq_false.mp
    · cases hp : t.threads[j] with
      | ret a => trivial
      | call o k =>
        rw [hp] at hreturned
        cases hreturned

private theorem Serial.flatMap_sent {s base : σ} {codes : List (Program E α)} {t : Traced E α σ ω}
    {order : List ℕ} (h : Serial F s codes t order base) (hfinished : t.Finished) :
    (order.flatMap fun j ↦ t.total M j) = order.flatMap fun j ↦ t.sent j := by
  refine flatMap_congr fun j hj ↦ ?_
  obtain ⟨-, p, hp, -⟩ := (h.mem_order j).mp hj
  have hreturned := hfinished p (mem_of_getElem? hp)
  cases p with
  | ret a =>
    rw [total, hp]
    exact append_nil _
  | call o k => cases hreturned

/-- **Orderly interleavings are serialisable.** When all programs have returned, what they have sent
is what they send when run one after the other, in some order, from the same state. -/
theorem serializable_of_orderly {ρ : Type} {code : ρ → Program E α} {s : σ} {rs : List ρ}
    (hcalls : ∀ r ∈ rs, (code r).isCall = true) {schedule : List ℕ} {t : Traced E α σ ω}
    (h : (interleaving F).Reaches (Orderly F) (start s (rs.map code)) schedule t)
    (hfinished : t.Finished) : ∃ order : List ρ, order.Perm rs ∧
      (t.outputs.map Prod.snd).Perm (Program.sequential M s (order.map code)).2 := by
  obtain ⟨order, base, hserial⟩ : ∃ order base, Serial F s (rs.map code) t order base := by
    refine h.invariant (I := fun t ↦ ∃ order base, Serial F s (rs.map code) t order base) ?_
      ⟨[], s, serial_start s (rs.map code)⟩
    rintro t i ⟨order, base, hserial⟩ henabled horderly
    exact hserial.next henabled horderly
  have hperm : order.Perm (range (rs.map code).length) := by
    refine hserial.perm_range (fun p hp ↦ ?_) hfinished
    obtain ⟨r, hr, rfl⟩ := mem_map.mp hp
    exact hcalls r hr
  refine ⟨order.filterMap fun j ↦ rs[j]?, ?_, ?_⟩
  · have hentries := hperm.filterMap fun j ↦ rs[j]?
    rwa [length_map, filterMap_getElem?_range] at hentries
  · have hcodes : (order.filterMap fun j ↦ rs[j]?).map code
        = order.filterMap fun j ↦ (rs.map code)[j]? := by
      rw [map_filterMap]
      refine filterMap_congr fun j _ ↦ ?_
      rw [getElem?_map]
    have htags : ∀ out ∈ t.outputs, out.1 ∈ order := by
      intro out hout
      exact hperm.mem_iff.mpr (mem_range.mpr (hserial.tags out hout))
    have hsent := (perm_flatMap_filter hserial.nodup htags).map Prod.snd
    rw [map_flatMap] at hsent
    rw [hcodes, hserial.done, hserial.flatMap_sent hfinished]
    exact hsent.symm

end Traced

end OtaPlatform
