import OtaPlatform.Pgstore.WriterPool

/-!
# Stopping the card state writers

The engine is stopped by cancelling one context. The state writers see it, flush what they have and
return; but the flush makes its database calls with the context that was cancelled, and those fail.
What is still in the channel is not looked at again, and `run` does not wait for the writers.

## Calls

What counts here is which statements were handed to a call whose context was live. Whether such a
call succeeded is data, so no table is needed: `Shutdown.issued` lists the statements, and
`Shutdown.Kept` compares them with the transitions that were accepted before the context was
cancelled.

`kept_of_runs` is the result: nothing is lost if the writers have nothing to do at the moment the
context is cancelled, and no insertion of rows failed before.
-/

namespace OtaPlatform

open List

/-! ## Database calls -/

inductive CallResult
  | ok
  | failed
  /-- There is no connection to be had for it. -/
  | refused
deriving DecidableEq, Repr

/-- The flush returns: `COPY` needs a connection, and an error of the bulk insertion is passed on.
An error of a counter update is only logged. -/
def Statement.endsFlush : Statement → CallResult → Bool
  | .copy _, .refused | .insert _, .failed | .insert _, .refused => true
  | _, _ => false

/-- What is executed in place of the statement. -/
def Statement.replacement : Statement → CallResult → List Statement
  | .copy rows, .failed => flushCardStatesFallback rows
  | _, _ => []

/-- The statement got as far as a call. -/
def Statement.isCalled : Statement → CallResult → Bool
  | .copy _, .refused => false
  | _, _ => true

/-! ## The system -/

/-- The state writers with the channel they read, and the context they share. -/
structure Shutdown (ι : Type) where
  cancelled : Bool
  /-- The transitions accepted before the context was cancelled. -/
  accepted : List CardStateChange
  channel : List CardStateChange
  writers : ι → StateWriter
  /-- The writer has seen that the context is cancelled, and returns when its flush is over. -/
  leaving : ι → Bool
  /-- The statements handed to a call with a live context. -/
  issued : List Statement

inductive ShutdownAction (ι : Type)
  /-- `WriteCardState` returns without an error. -/
  | write (ev : CardStateChange)
  | receive (w : ι)
  /-- A writer flushes, because its batch is full or its ticker fires. -/
  | flush (w : ι) (rows : List ExecutionRow) (updates : List (UUID × StatsDelta))
  | call (w : ι) (result : CallResult)
  | cancel
  /-- A writer sees it and flushes for the last time. -/
  | leave (w : ι) (rows : List ExecutionRow) (updates : List (UUID × StatsDelta))

namespace Shutdown

variable {ι : Type}

/-- What can happen. A call with a cancelled context fails. -/
def Enabled (capacity : ℕ) (maxBatch : ℤ) (s : Shutdown ι) : ShutdownAction ι → Prop
  | .write _ => s.channel.length < capacity
  | .receive w => s.leaving w = false ∧ s.channel ≠ [] ∧ (s.writers w).inflight = [] ∧
      ((s.writers w).batch = [] ∨ ((s.writers w).batch.length : ℤ) < maxBatch)
  | .flush w rows updates => s.leaving w = false ∧ (s.writers w).inflight = [] ∧
      (s.writers w).batch ≠ [] ∧ rows.Perm (copyRows (s.writers w).batch) ∧
      updates.Perm (statsUpdates (s.writers w).batch)
  | .call w result => (s.writers w).inflight ≠ [] ∧ (s.cancelled = true → result ≠ .ok)
  | .cancel => s.cancelled = false
  | .leave w rows updates => s.cancelled = true ∧ s.leaving w = false ∧
      (s.writers w).inflight = [] ∧ rows.Perm (copyRows (s.writers w).batch) ∧
      updates.Perm (statsUpdates (s.writers w).batch)

variable [DecidableEq ι]

/-- The step. What is accepted after the context was cancelled is not noted. -/
def next (s : Shutdown ι) : ShutdownAction ι → Shutdown ι
  | .write ev => { s with
      channel := s.channel ++ [ev]
      accepted := if s.cancelled then s.accepted else s.accepted ++ [ev] }
  | .receive w =>
    match s.channel with
    | [] => s
    | ev :: channel => { s with
        channel := channel
        writers := Function.update s.writers w
          ⟨(s.writers w).batch ++ [ev], (s.writers w).inflight⟩ }
  | .flush w rows updates => { s with
      writers := Function.update s.writers w ⟨[], statementsOf rows updates⟩ }
  | .call w result =>
    match (s.writers w).inflight with
    | [] => s
    | statement :: rest => { s with
        issued := if !s.cancelled && statement.isCalled result then s.issued ++ [statement]
          else s.issued
        writers := Function.update s.writers w ⟨(s.writers w).batch,
          if statement.endsFlush result then [] else statement.replacement result ++ rest⟩ }
  | .cancel => { s with cancelled := true }
  | .leave w rows updates => { s with
      leaving := Function.update s.leaving w true
      writers := Function.update s.writers w ⟨[], statementsOf rows updates⟩ }

def start : Shutdown ι where
  cancelled := false
  accepted := []
  channel := []
  writers := fun _ ↦ ⟨[], []⟩
  leaving := fun _ ↦ false
  issued := []

end Shutdown

/-- The state writers and the cancellation as a transition system. -/
def shutdown (ι : Type) [DecidableEq ι] (capacity : ℕ) (maxBatch : ℤ) :
    Machine (Shutdown ι) (ShutdownAction ι) where
  Enabled := Shutdown.Enabled capacity maxBatch
  next := Shutdown.next

namespace Shutdown

variable {ι : Type}

def Returned (s : Shutdown ι) : Prop :=
  s.cancelled = true ∧ ∀ w, s.leaving w = true ∧ (s.writers w).inflight = []

/-- The rows of the statements that were handed to a live call. -/
def issuedRows (s : Shutdown ι) : List ExecutionRow := s.issued.flatMap Statement.rows

/-- What was accepted was handed to live calls: for every transition a row of its card and campaign
that is at least as new, and for every campaign the changes of its counters. -/
structure Kept (s : Shutdown ι) : Prop where
  rows : ∀ ev ∈ s.accepted, Covers s.issuedRows ev
  counters : ∀ c, statementsDelta s.issued c = campaignDelta s.accepted c

/-- There is nothing in the channel and nothing with the writers. -/
def Idle (s : Shutdown ι) : Prop :=
  s.channel = [] ∧ ∀ w, (s.writers w).batch = [] ∧ (s.writers w).inflight = []

/-- The context is cancelled when there is nothing to do, and until then no call ends a flush. -/
def Orderly (s : Shutdown ι) : ShutdownAction ι → Prop
  | .cancel => s.Idle
  | .call w result => s.cancelled = false →
      ∀ statement ∈ (s.writers w).inflight.head?, statement.endsFlush result = false
  | _ => True

/-! ## While the context is live -/

section Live

variable [Fintype ι]

/-- **The invariant.** What was accepted is in the channel, with a writer or in a live call, its row
and its counters apart. -/
structure Live (s : Shutdown ι) : Prop where
  rows : ∀ ev ∈ s.accepted, ev ∈ s.channel ∨ (∃ w, (s.writers w).Holds ev) ∨
    Covers s.issuedRows ev
  counters : ∀ c, statementsDelta s.issued c + campaignDelta s.channel c
    + ∑ w, (s.writers w).outstanding c = campaignDelta s.accepted c

variable {s : Shutdown ι}

theorem live_start : (start : Shutdown ι).Live where
  rows _ h := absurd h not_mem_nil
  counters c := by simp [start, StateWriter.outstanding, statementsDelta]

/-- When there is nothing left to do, everything went into live calls. -/
theorem Live.kept (h : s.Live) (hidle : s.Idle) : s.Kept where
  rows ev hev := by
    rcases h.rows ev hev with hev | ⟨w, hev | ⟨statement, hstatement, -⟩⟩ | hev
    · rw [hidle.1] at hev
      exact absurd hev not_mem_nil
    · rw [(hidle.2 w).1] at hev
      exact absurd hev not_mem_nil
    · rw [(hidle.2 w).2] at hstatement
      exact absurd hstatement not_mem_nil
    · exact hev
  counters c := by
    have hnone : ∑ w, (s.writers w).outstanding c = 0 := by
      refine Finset.sum_eq_zero fun w _ ↦ ?_
      rw [StateWriter.outstanding, (hidle.2 w).1, (hidle.2 w).2, campaignDelta_nil, zero_add]
      rfl
    rw [← h.counters c, hnone, hidle.1, campaignDelta_nil, add_zero, add_zero]

theorem Live.write (h : s.Live) (ev : CardStateChange) :
    ({ s with channel := s.channel ++ [ev], accepted := s.accepted ++ [ev] } :
      Shutdown ι).Live where
  rows e he := by
    rcases mem_append.mp he with he | he
    · exact (h.rows e he).imp_left (mem_append_left _)
    · exact Or.inl (mem_append_right _ he)
  counters c := by
    rw [campaignDelta_append, campaignDelta_append, ← h.counters c]
    abel

variable [DecidableEq ι]

/-- **The step lemma for one writer.** The writer passes on what it answered for, and what it took
from the channel. -/
theorem Live.update (h : s.Live) (w : ι) (x : StateWriter) {channel : List CardStateChange}
    {issued : List Statement} (hchannel : ∀ ev ∈ s.channel, ev ∈ channel ∨ x.Holds ev)
    (hholds : ∀ ev, (s.writers w).Holds ev → x.Holds ev ∨ Covers (issued.flatMap Statement.rows) ev)
    (hgrow : ∀ statement ∈ s.issued, statement ∈ issued)
    (hbalance : ∀ c, statementsDelta issued c + campaignDelta channel c + x.outstanding c
      = statementsDelta s.issued c + campaignDelta s.channel c + (s.writers w).outstanding c) :
    ({ s with channel, issued, writers := Function.update s.writers w x } : Shutdown ι).Live where
  rows ev hev := by
    have hself : x.Holds ev → ∃ v, (Function.update s.writers w x v).Holds ev := by
      intro hx
      exact ⟨w, by rwa [Function.update_self]⟩
    rcases h.rows ev hev with hev | ⟨v, hv⟩ | hcovers
    · exact (hchannel ev hev).imp_right fun hx ↦ Or.inl (hself hx)
    · by_cases hvw : v = w
      · subst hvw
        exact Or.inr ((hholds ev hv).imp_left hself)
      · have hother : (Function.update s.writers w x v).Holds ev := by
          rwa [Function.update_of_ne hvw]
        exact Or.inr (Or.inl ⟨v, hother⟩)
    · refine Or.inr (Or.inr (hcovers.mono fun row hrow ↦ ?_))
      obtain ⟨statement, hstatement, hrow⟩ := mem_flatMap.mp hrow
      exact mem_flatMap.mpr ⟨statement, hgrow statement hstatement, hrow⟩
  counters c := by
    rw [← h.counters c]
    exact balance_update (hbalance c)

theorem Live.receive (h : s.Live) (w : ι) : (s.next (.receive w)).Live := by
  rw [next]
  cases hchannel : s.channel with
  | nil => exact h
  | cons ev channel =>
    refine h.update w _ (fun e he ↦ ?_) (fun e he ↦ ?_) (fun _ h ↦ h) fun c ↦ ?_
    · rw [hchannel] at he
      rcases mem_cons.mp he with rfl | he
      · exact Or.inr (Or.inl (mem_append_right _ mem_cons_self))
      · exact Or.inl he
    · exact Or.inl (he.imp_left (mem_append_left _))
    · rw [hchannel, add_assoc, StateWriter.outstanding_receive, ← add_assoc]

theorem Live.flush (h : s.Live) (w : ι) {rows : List ExecutionRow}
    {updates : List (UUID × StatsDelta)} (hready : (s.writers w).inflight = [])
    (hrows : rows.Perm (copyRows (s.writers w).batch))
    (hupdates : updates.Perm (statsUpdates (s.writers w).batch)) :
    (s.next (.flush w rows updates)).Live := by
  refine h.update w _ (fun _ he ↦ Or.inl he) (fun ev hev ↦ Or.inl (hev.flush hready hrows))
    (fun _ h ↦ h) fun c ↦ ?_
  rw [StateWriter.outstanding_flush hready hupdates]

theorem statementsDelta_replacement_append (statement : Statement) (result : CallResult)
    (rest : List Statement) (c : UUID) :
    statementsDelta (statement.replacement result ++ rest) c = statementsDelta rest c := by
  unfold Statement.replacement
  split
  · exact statementsDelta_fallback_append _ rest c
  · rfl

omit [Fintype ι] in
theorem next_call (hlive : s.cancelled = false) {w : ι} {statement : Statement}
    {rest : List Statement} (hinflight : (s.writers w).inflight = statement :: rest)
    {result : CallResult} (hends : statement.endsFlush result = false) :
    s.next (.call w result) = { s with
      issued := s.issued ++ [statement]
      writers := Function.update s.writers w
        ⟨(s.writers w).batch, statement.replacement result ++ rest⟩ } := by
  have hcalled : statement.isCalled result = true := by
    cases statement <;> cases result <;> first | rfl | cases hends
  simp [next, hinflight, hlive, hends, hcalled]

theorem Live.call (h : s.Live) (hlive : s.cancelled = false) (w : ι) {result : CallResult}
    (hgoes : ∀ statement ∈ (s.writers w).inflight.head?, statement.endsFlush result = false) :
    (s.next (.call w result)).Live := by
  cases hinflight : (s.writers w).inflight with
  | nil =>
    rw [next, hinflight]
    exact h
  | cons statement rest =>
    rw [hinflight] at hgoes
    rw [next_call hlive hinflight (hgoes statement rfl)]
    refine h.update w _ (fun _ he ↦ Or.inl he) (fun ev hev ↦ ?_)
      (fun _ h ↦ mem_append_left _ h) fun c ↦ ?_
    · rcases hev with hev | ⟨statement', hstatement', hcovers⟩
      · exact Or.inl (Or.inl hev)
      · rw [hinflight] at hstatement'
        rcases mem_cons.mp hstatement' with rfl | hrest
        · refine Or.inr (hcovers.mono fun row hrow ↦ mem_flatMap.mpr ⟨statement', ?_, hrow⟩)
          exact mem_append_right _ mem_cons_self
        · exact Or.inl (Or.inr ⟨statement', mem_append_right _ hrest, hcovers⟩)
    · have hissued : statementsDelta (s.issued ++ [statement]) c
          = statementsDelta s.issued c + statement.delta c := by
        simp [statementsDelta]
      rw [hissued, StateWriter.outstanding, StateWriter.outstanding, hinflight,
        statementsDelta_replacement_append, statementsDelta_cons]
      abel

/-- **The step lemma**, up to the cancellation. -/
theorem Live.next (h : s.Live) (hlive : s.cancelled = false) {capacity : ℕ} {maxBatch : ℤ}
    {a : ShutdownAction ι} (henabled : s.Enabled capacity maxBatch a) (horderly : s.Orderly a)
    (hne : a ≠ .cancel) : (s.next a).Live := by
  cases a with
  | write ev =>
    have heq : s.next (.write ev)
        = { s with channel := s.channel ++ [ev], accepted := s.accepted ++ [ev] } := by
      simp [Shutdown.next, hlive]
    rw [heq]
    exact h.write ev
  | receive w => exact h.receive w
  | flush w rows updates => exact h.flush w henabled.2.1 henabled.2.2.2.1 henabled.2.2.2.2
  | call w result => exact h.call hlive w (horderly hlive)
  | cancel => exact absurd rfl hne
  | leave w rows updates => exact absurd (hlive.symm.trans henabled.1) Bool.false_ne_true

end Live

/-! ## From the cancellation on -/

section Cancelled

variable {s : Shutdown ι} [DecidableEq ι]

theorem cancelled_next {a : ShutdownAction ι} (hne : a ≠ .cancel) :
    (s.next a).cancelled = s.cancelled := by
  cases a with
  | receive _ | call _ _ =>
    rw [next]
    split <;> rfl
  | cancel => exact absurd rfl hne
  | write _ | flush _ _ _ | leave _ _ _ => rfl

theorem next_of_cancelled (hcancelled : s.cancelled = true) (a : ShutdownAction ι) :
    (s.next a).accepted = s.accepted ∧ (s.next a).issued = s.issued := by
  cases a with
  | write ev => simp [next, hcancelled]
  | receive w =>
    rw [next]
    split <;> exact ⟨rfl, rfl⟩
  | call w result =>
    rw [next]
    split
    · exact ⟨rfl, rfl⟩
    · simp [hcancelled]
  | flush _ _ _ | cancel | leave _ _ _ => exact ⟨rfl, rfl⟩

theorem Kept.next (h : s.Kept) (hcancelled : s.cancelled = true) (a : ShutdownAction ι) :
    (s.next a).Kept := by
  obtain ⟨haccepted, hissued⟩ := next_of_cancelled hcancelled a
  refine ⟨fun ev hev ↦ ?_, fun c ↦ ?_⟩
  · rw [haccepted] at hev
    rw [issuedRows, hissued]
    exact h.rows ev hev
  · rw [hissued, haccepted]
    exact h.counters c

end Cancelled

/-- The invariant of the whole run. -/
def Sound [Fintype ι] (s : Shutdown ι) : Prop :=
  s.cancelled = false ∧ s.Live ∨ s.cancelled = true ∧ s.Kept

theorem Sound.next [Fintype ι] [DecidableEq ι] {s : Shutdown ι} (h : s.Sound) {capacity : ℕ}
    {maxBatch : ℤ} {a : ShutdownAction ι} (henabled : s.Enabled capacity maxBatch a)
    (horderly : s.Orderly a) : (s.next a).Sound := by
  by_cases hcancel : a = .cancel
  · subst hcancel
    rcases h with ⟨-, hlive⟩ | ⟨hcancelled, -⟩
    · have hkept := hlive.kept horderly
      exact Or.inr ⟨rfl, hkept.rows, hkept.counters⟩
    · cases hcancelled.symm.trans henabled
  · rw [Sound, cancelled_next hcancel]
    rcases h with ⟨hlive, h⟩ | ⟨hcancelled, h⟩
    · exact Or.inl ⟨hlive, h.next hlive henabled horderly hcancel⟩
    · exact Or.inr ⟨hcancelled, h.next hcancelled a⟩

end Shutdown

/-- **A quiet engine stops without loss.** If the context is cancelled while there is nothing in the
channel and nothing with the writers, and no call ended a flush before, then when the writers have
returned every transition accepted before the cancellation was handed to live calls. -/
theorem kept_of_runs {ι : Type} [Fintype ι] [DecidableEq ι] {capacity : ℕ} {maxBatch : ℤ}
    {acts : List (ShutdownAction ι)}
    (h : (shutdown ι capacity maxBatch).RunsUnder Shutdown.Orderly Shutdown.start acts)
    (hreturned : ((shutdown ι capacity maxBatch).after Shutdown.start acts).Returned) :
    ((shutdown ι capacity maxBatch).after Shutdown.start acts).Kept := by
  have hsound := h.invariant (I := Shutdown.Sound)
    (fun _ _ hs henabled horderly ↦ hs.next henabled horderly) (Or.inl ⟨rfl, Shutdown.live_start⟩)
  rcases hsound with ⟨hlive, -⟩ | ⟨-, hkept⟩
  · exact absurd (hlive.symm.trans hreturned.1) Bool.false_ne_true
  · exact hkept

namespace StoppedWriter

/-- The writer has flushed the transition before the engine is stopped. -/
def afterFlush : List (ShutdownAction Unit) :=
  [.write firstActivated, .receive (),
    .flush () (copyRows [firstActivated]) (statsUpdates [firstActivated]), .call () .failed,
    .call () .ok, .call () .ok, .cancel, .leave () [] []]

/-- The transition is in the batch when the engine is stopped. -/
def fromBatch : List (ShutdownAction Unit) :=
  [.write firstActivated, .receive (), .cancel,
    .leave () (copyRows [firstActivated]) (statsUpdates [firstActivated]), .call () .refused]

/-- The transition is in the channel when the engine is stopped. -/
def fromChannel : List (ShutdownAction Unit) := [.write firstActivated, .cancel, .leave () [] []]

end StoppedWriter

open StoppedWriter

theorem kept_of_runs_afterFlush :
    ((shutdown Unit 50000 10000).after Shutdown.start afterFlush).accepted = [firstActivated] ∧
      ((shutdown Unit 50000 10000).after Shutdown.start afterFlush).Kept := by
  refine ⟨rfl, kept_of_runs ?_ ⟨rfl, fun _ ↦ ⟨rfl, rfl⟩⟩⟩
  refine ⟨⟨Nat.succ_pos _, trivial⟩, ⟨⟨rfl, cons_ne_nil _ _, rfl, Or.inl rfl⟩, trivial⟩,
    ⟨⟨rfl, rfl, cons_ne_nil _ _, .refl _, .refl _⟩, trivial⟩, ?_, ?_, ?_,
    ⟨rfl, rfl, fun _ ↦ ⟨rfl, rfl⟩⟩, ⟨⟨rfl, rfl, rfl, .refl _, .refl _⟩, trivial⟩, trivial⟩
  · refine ⟨⟨cons_ne_nil _ _, fun h ↦ nomatch h⟩, ?_⟩
    rintro - _ ⟨⟩
    rfl
  · refine ⟨⟨cons_ne_nil _ _, fun h ↦ nomatch h⟩, ?_⟩
    rintro - _ ⟨⟩
    rfl
  · refine ⟨⟨cons_ne_nil _ _, fun h ↦ nomatch h⟩, ?_⟩
    rintro - _ ⟨⟩
    rfl

/-- **A stop loses transitions**, from a batch and from the channel. -/
theorem shutdown_loses :
    ((shutdown Unit 50000 10000).Runs Shutdown.start fromBatch ∧
      ((shutdown Unit 50000 10000).after Shutdown.start fromBatch).Returned ∧
      ¬ ((shutdown Unit 50000 10000).after Shutdown.start fromBatch).Kept) ∧
    ((shutdown Unit 50000 10000).Runs Shutdown.start fromChannel ∧
      ((shutdown Unit 50000 10000).after Shutdown.start fromChannel).Returned ∧
      ¬ ((shutdown Unit 50000 10000).after Shutdown.start fromChannel).Kept) := by
  refine ⟨⟨?_, ⟨rfl, fun _ ↦ ⟨rfl, rfl⟩⟩, fun h ↦ ?_⟩, ⟨?_, ⟨rfl, fun _ ↦ ⟨rfl, rfl⟩⟩, fun h ↦ ?_⟩⟩
  · exact ⟨⟨Nat.succ_pos _, trivial⟩, ⟨⟨rfl, cons_ne_nil _ _, rfl, Or.inl rfl⟩, trivial⟩,
      ⟨rfl, trivial⟩, ⟨⟨rfl, rfl, rfl, .refl _, .refl _⟩, trivial⟩,
      ⟨⟨cons_ne_nil _ _, fun _ ↦ by decide⟩, trivial⟩, trivial⟩
  · obtain ⟨row, hrow, -⟩ := h.rows firstActivated mem_cons_self
    exact absurd hrow not_mem_nil
  · exact ⟨⟨Nat.succ_pos _, trivial⟩, ⟨rfl, trivial⟩, ⟨⟨rfl, rfl, rfl, .refl _, .refl _⟩, trivial⟩,
      trivial⟩
  · obtain ⟨row, hrow, -⟩ := h.rows firstActivated mem_cons_self
    exact absurd hrow not_mem_nil

end OtaPlatform
