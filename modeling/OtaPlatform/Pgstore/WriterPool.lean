import Mathlib.Algebra.BigOperators.Fin
import Mathlib.Tactic.Abel
import OtaPlatform.Pgstore.CardStateWriter
import OtaPlatform.Transition.Machine

/-!
# The pool of card state writers

Several `RunCardStateWriter` goroutines take transitions from one channel. Each collects a batch of
its own and flushes it when it is full, when its ticker fires or when the channel closes. The result
must not depend on who received what, on where the flushes fell or on how the statements of
different batches interleave.

## Granularity

One step is the receipt of an event, the decision to flush, or one database statement of a flush.
A flush fixes the order in which the maps of the batch are ranged over; `COPY` may fail at any time
and is then replaced by its chunks, between which other writers run.
-/

namespace OtaPlatform

open List Machine

structure StateWriter where
  /-- The events received since the last flush. -/
  batch : List CardStateChange
  /-- The statements of the flush in progress that have not been executed. -/
  inflight : List Statement

structure WriterPool (ι : Type) where
  channel : List CardStateChange
  writers : ι → StateWriter
  tables : StateTables

open WriterPool

inductive WriterAction (ι : Type)
  | receive (w : ι)
  | flush (w : ι) (rows : List ExecutionRow) (updates : List (UUID × StatsDelta))
  | execute (w : ι) (copyWorks : Bool)

section Steps

variable {ι : Type}

/-- A writer is busy while its flush runs, and flushes a full batch before it receives again. -/
def WriterPool.Enabled (maxBatch : ℤ) (s : WriterPool ι) : WriterAction ι → Prop
  | .receive w => s.channel ≠ [] ∧ (s.writers w).inflight = [] ∧
      ((s.writers w).batch = [] ∨ ((s.writers w).batch.length : ℤ) < maxBatch)
  | .flush w rows updates => (s.writers w).inflight = [] ∧ (s.writers w).batch ≠ [] ∧
      rows.Perm (copyRows (s.writers w).batch) ∧ updates.Perm (statsUpdates (s.writers w).batch)
  | .execute w _ => (s.writers w).inflight ≠ []

variable [DecidableEq ι]

def WriterPool.next (s : WriterPool ι) : WriterAction ι → WriterPool ι
  | .receive w =>
    match s.channel with
    | [] => s
    | ev :: channel => { s with
        channel := channel
        writers := Function.update s.writers w
          { s.writers w with batch := (s.writers w).batch ++ [ev] } }
  | .flush w rows updates => { s with
      writers := Function.update s.writers w ⟨[], statementsOf rows updates⟩ }
  | .execute w copyWorks =>
    match (s.writers w).inflight with
    | [] => s
    | statement :: inflight => { s with
        tables := (s.tables.execute copyWorks statement).1
        writers := Function.update s.writers w
          ⟨(s.writers w).batch, (s.tables.execute copyWorks statement).2 ++ inflight⟩ }

/-- The writers as a transition system. -/
def writerPool (ι : Type) [DecidableEq ι] (maxBatch : ℤ) :
    Machine (WriterPool ι) (WriterAction ι) where
  Enabled := Enabled maxBatch
  next := next

end Steps

def WriterPool.start {ι : Type} (tables : StateTables) (stream : List CardStateChange) :
    WriterPool ι where
  channel := stream
  writers := fun _ ↦ ⟨[], []⟩
  tables := tables

/-- Everything has been received, flushed and executed. -/
def WriterPool.Quiescent {ι : Type} (s : WriterPool ι) : Prop :=
  s.channel = [] ∧ ∀ w, (s.writers w).batch = [] ∧ (s.writers w).inflight = []

/-! ## Tables that present a stream

What the run must establish about `card_execution_states`, apart from any schedule: the table only
grew by events of the stream, and no event is missing unless a newer one of its card and campaign is
there. -/

/-- Some row of the event's card and campaign is at least as new. -/
def Covers (rows : List ExecutionRow) (ev : CardStateChange) : Prop :=
  ∃ row ∈ rows, row.pair = ev.pair ∧ ev.transitionSeq ≤ row.transitionSeq

def RowOf (stream : List CardStateChange) (row : ExecutionRow) : Prop :=
  ∃ ev ∈ stream, row = ev.toRow

def Extends (initial : List ExecutionRow) (stream : List CardStateChange)
    (table : List ExecutionRow) : Prop :=
  ∃ added, table = initial ++ added ∧ ∀ row ∈ added, RowOf stream row

/-- The table is the initial one with every event of the stream represented. -/
def Presents (initial : List ExecutionRow) (stream : List CardStateChange)
    (table : List ExecutionRow) : Prop :=
  Extends initial stream table ∧ ∀ ev ∈ stream, Covers table ev

/-- The events of one card and campaign carry different sequence numbers. -/
def DistinctSeqs (stream : List CardStateChange) : Prop :=
  stream.Pairwise fun ev ev' ↦ ev.pair = ev'.pair → ev.transitionSeq ≠ ev'.transitionSeq

/-- The event has the highest sequence number of its card and campaign. -/
def Highest (stream : List CardStateChange) (ev : CardStateChange) : Prop :=
  ∀ e ∈ stream, e.pair = ev.pair → e.transitionSeq ≤ ev.transitionSeq

variable {rows : List ExecutionRow} {ev : CardStateChange}

theorem Covers.mono {rows' : List ExecutionRow} (h : Covers rows ev)
    (hsub : ∀ row ∈ rows, row ∈ rows') : Covers rows' ev := by
  obtain ⟨row, hrow, hkey⟩ := h
  exact ⟨row, hsub row hrow, hkey⟩

theorem covers_foldl_insertRow (h : Covers rows ev) (table : List ExecutionRow) :
    Covers (rows.foldl insertRow table) ev := by
  obtain ⟨row, hrow, hpair, hle⟩ := h
  obtain ⟨x, hx, hxpair, hxseq⟩ := exists_mem_foldl_insertRow table hrow
  exact ⟨x, hx, hxpair.trans hpair, hxseq ▸ hle⟩

variable {stream : List CardStateChange}

theorem Extends.foldl_insertRow {initial table : List ExecutionRow}
    (h : Extends initial stream table) (hrows : ∀ row ∈ rows, RowOf stream row) :
    Extends initial stream (rows.foldl insertRow table) := by
  obtain ⟨added, rfl, hadded⟩ := h
  obtain ⟨more, heq, hsub⟩ := exists_foldl_insertRow_eq (initial ++ added) rows
  refine ⟨added ++ more, by rw [heq, append_assoc], fun row hrow ↦ ?_⟩
  rcases mem_append.mp hrow with hrow | hrow
  · exact hadded row hrow
  · exact hrows row (hsub.subset hrow)

theorem DistinctSeqs.eq (h : DistinctSeqs stream)
    {ev' : CardStateChange} (hev : ev ∈ stream) (hev' : ev' ∈ stream)
    (hpair : ev.pair = ev'.pair) (hseq : ev.transitionSeq = ev'.transitionSeq) : ev = ev' := by
  by_contra hne
  have hsymm : Std.Symm fun e e' : CardStateChange ↦
      e.pair = e'.pair → e.transitionSeq ≠ e'.transitionSeq :=
    ⟨fun e e' hee' hp ↦ (hee' hp.symm).symm⟩
  exact h.forall hev hev' hne hpair hseq

section Latest

variable {initial table : List ExecutionRow} {stream : List CardStateChange}

variable (h : Presents initial stream table)

include h

theorem Presents.latestRow_eq (hdistinct : DistinctSeqs stream)
    (hev : ev ∈ stream) (hhighest : Highest stream ev)
    (hinitial : ∀ row ∈ initial, row.pair = ev.pair → row.transitionSeq < ev.transitionSeq) :
    latestRow table ev.pair = some ev.toRow := by
  obtain ⟨⟨added, rfl, hadded⟩, hcovers⟩ := h
  -- a row that reaches `ev` is not an initial one, and among the events only `ev` reaches it
  have honly : ∀ row ∈ initial ++ added, row.pair = ev.pair →
      ev.transitionSeq ≤ row.transitionSeq → row = ev.toRow := by
    intro row hrow hpair hle
    rcases mem_append.mp hrow with hrow | hrow
    · exact absurd (hinitial row hrow hpair) (not_lt.mpr hle)
    · obtain ⟨e, he, rfl⟩ := hadded row hrow
      rw [hdistinct.eq he hev hpair (le_antisymm (hhighest e he hpair) hle)]
  obtain ⟨row, hrow, hpair, hle⟩ := hcovers ev hev
  have hmem : ev.toRow ∈ initial ++ added := honly row hrow hpair hle ▸ hrow
  exact latestRow_eq_of_forall hmem honly

theorem Presents.latestRow_eq_initial {pair : UUID × UUID} (hbelow : ∀ ev ∈ stream, ev.pair = pair →
      ∃ row ∈ initial, row.pair = pair ∧ ev.transitionSeq ≤ row.transitionSeq) :
    latestRow table pair = latestRow initial pair := by
  obtain ⟨⟨added, rfl, hadded⟩, -⟩ := h
  cases hlatest : latestRow initial pair with
  | some row =>
    refine latestRow_append_of_forall_le hlatest fun x hx hxpair ↦ ?_
    obtain ⟨ev, hev, rfl⟩ := hadded x hx
    obtain ⟨row', hrow', hpair', hle⟩ := hbelow ev hev hxpair
    exact hle.trans (le_of_latestRow hlatest hrow' hpair')
  | none =>
    -- no stored row of the pair, hence no event of it and no row at all
    rw [latestRow, argmax_eq_none, filter_eq_nil_iff] at hlatest
    rw [latestRow, argmax_eq_none, filter_eq_nil_iff]
    intro x hx hxpair
    rcases mem_append.mp hx with hx | hx
    · exact hlatest x hx hxpair
    · obtain ⟨ev, hev, rfl⟩ := hadded x hx
      obtain ⟨row', hrow', hpair', -⟩ := hbelow ev hev (of_decide_eq_true hxpair)
      exact hlatest row' hrow' (decide_eq_true hpair')

theorem Presents.latestRow_congr {table' : List ExecutionRow}
    (h' : Presents initial stream table') (hdistinct : DistinctSeqs stream)
    (pair : UUID × UUID) : latestRow table pair = latestRow table' pair := by
  by_cases hbelow : ∀ ev ∈ stream, ev.pair = pair →
      ∃ row ∈ initial, row.pair = pair ∧ ev.transitionSeq ≤ row.transitionSeq
  · rw [h.latestRow_eq_initial hbelow, h'.latestRow_eq_initial hbelow]
  · push Not at hbelow
    obtain ⟨ev₀, hev₀, rfl, hinitial⟩ := hbelow
    cases htop : (stream.filter fun e ↦ e.pair = ev₀.pair).argmax CardStateChange.transitionSeq with
    | none =>
      rw [argmax_eq_none, filter_eq_nil_iff] at htop
      exact absurd (decide_eq_true rfl) (htop ev₀ hev₀)
    | some ev =>
      obtain ⟨hev, hpair⟩ := mem_filter.mp (argmax_mem htop)
      have hpair : ev.pair = ev₀.pair := of_decide_eq_true hpair
      have hhighest : Highest stream ev := fun e he hep ↦ le_of_mem_argmax
        (mem_filter.mpr ⟨he, decide_eq_true (hep.trans hpair)⟩) htop
      have hstored : ∀ row ∈ initial, row.pair = ev.pair →
          row.transitionSeq < ev.transitionSeq := fun row hrow hrp ↦
        (hinitial row hrow (hrp.trans hpair)).trans_le (hhighest ev₀ hev₀ hpair.symm)
      rw [← hpair, h.latestRow_eq hdistinct hev hhighest hstored,
        h'.latestRow_eq hdistinct hev hhighest hstored]

omit h

theorem presents_append_toRow (initial : List ExecutionRow) (stream : List CardStateChange) :
    Presents initial stream (initial ++ stream.map CardStateChange.toRow) := by
  refine ⟨⟨_, rfl, fun row hrow ↦ ?_⟩, fun ev hev ↦ ?_⟩
  · obtain ⟨ev, hev, rfl⟩ := mem_map.mp hrow
    exact ⟨ev, hev, rfl⟩
  · exact ⟨ev.toRow, mem_append_right _ (mem_map.mpr ⟨ev, hev, rfl⟩), rfl, le_rfl⟩

end Latest

/-! ## Nothing is lost on the way

An event travels from the channel through a batch and a statement into the tables. The invariant
follows its row and its counters separately: the row may be dropped for a newer one, the counters
may not. -/

/-- The writer still answers for the event: it is in the batch, or a statement covers it. -/
def StateWriter.Holds (x : StateWriter) (ev : CardStateChange) : Prop :=
  ev ∈ x.batch ∨ ∃ statement ∈ x.inflight, Covers statement.rows ev

/-- Everything the writer has comes from the stream. -/
def StateWriter.From (stream : List CardStateChange) (x : StateWriter) : Prop :=
  (∀ ev ∈ x.batch, ev ∈ stream) ∧
    ∀ statement ∈ x.inflight, ∀ row ∈ statement.rows, RowOf stream row

/-- What the writer has yet to add to the counters of a campaign. -/
def StateWriter.outstanding (x : StateWriter) (campaignID : UUID) : StatsDelta :=
  campaignDelta x.batch campaignID + statementsDelta x.inflight campaignID

theorem statementsDelta_cons (statement : Statement) (statements : List Statement)
    (campaignID : UUID) : statementsDelta (statement :: statements) campaignID
      = statement.delta campaignID + statementsDelta statements campaignID := by
  rw [statementsDelta, map_cons, sum_cons, statementsDelta]

theorem statementsDelta_fallback_append (rows : List ExecutionRow) (statements : List Statement)
    (campaignID : UUID) : statementsDelta (flushCardStatesFallback rows ++ statements) campaignID
      = statementsDelta statements campaignID := by
  have hzero : ((flushCardStatesFallback rows).map (Statement.delta campaignID)).sum = 0 := by
    refine sum_eq_zero fun d hd ↦ ?_
    obtain ⟨statement, hstatement, rfl⟩ := mem_map.mp hd
    obtain ⟨chunk, rfl⟩ := mem_flushCardStatesFallback hstatement
    rfl
  rw [statementsDelta, map_append, sum_append, hzero, zero_add, statementsDelta]

theorem exists_mem_flushCardStatesFallback (h : Covers rows ev) :
    ∃ statement ∈ flushCardStatesFallback rows, Covers statement.rows ev := by
  obtain ⟨row, hrow, hkey⟩ := h
  rw [← rows_flushCardStatesFallback rows] at hrow
  obtain ⟨statement, hstatement, hrow⟩ := mem_flatMap.mp hrow
  exact ⟨statement, hstatement, row, hrow, hkey⟩

section Invariant

variable {ι : Type} [Fintype ι]

/-- What is yet to be added to the counters of a campaign. -/
def WriterPool.outstanding (s : WriterPool ι) (campaignID : UUID) : StatsDelta :=
  campaignDelta s.channel campaignID + ∑ w, (s.writers w).outstanding campaignID

theorem sum_outstanding_update [DecidableEq ι] (writers : ι → StateWriter) (w : ι)
    (x : StateWriter) (campaignID : UUID) :
    ∑ v, (Function.update writers w x v).outstanding campaignID + (writers w).outstanding campaignID
      = ∑ v, (writers v).outstanding campaignID + x.outstanding campaignID := by
  have hrest : ∑ v ∈ Finset.univ.erase w, (Function.update writers w x v).outstanding campaignID
      = ∑ v ∈ Finset.univ.erase w, (writers v).outstanding campaignID := by
    refine Finset.sum_congr rfl fun v hv ↦ ?_
    rw [Function.update_of_ne (Finset.ne_of_mem_erase hv)]
  rw [← Finset.add_sum_erase _ _ (Finset.mem_univ w), hrest, Function.update_self,
    ← Finset.add_sum_erase Finset.univ (fun v ↦ (writers v).outstanding campaignID)
      (Finset.mem_univ w)]
  abel

/-- What balances the change of one writer balances the change of the pool. -/
theorem balance_update [DecidableEq ι] {writers : ι → StateWriter} {w : ι} {x : StateWriter}
    {c : UUID} {a b : StatsDelta} (h : a + x.outstanding c = b + (writers w).outstanding c) :
    a + ∑ v, (Function.update writers w x v).outstanding c
      = b + ∑ v, (writers v).outstanding c := by
  have hsum := sum_outstanding_update writers w x c
  calc a + ∑ v, (Function.update writers w x v).outstanding c
      = a + (∑ v, (writers v).outstanding c + x.outstanding c - (writers w).outstanding c) := by
        rw [← hsum]
        abel
    _ = a + x.outstanding c + (∑ v, (writers v).outstanding c - (writers w).outstanding c) := by
        abel
    _ = b + ∑ v, (writers v).outstanding c := by
        rw [h]
        abel

namespace StateWriter

variable {x : StateWriter} {rows : List ExecutionRow} {updates : List (UUID × StatsDelta)}

theorem outstanding_receive (x : StateWriter) (ev : CardStateChange)
    (channel : List CardStateChange) (c : UUID) :
    campaignDelta channel c + outstanding ⟨x.batch ++ [ev], x.inflight⟩ c
      = campaignDelta (ev :: channel) c + x.outstanding c := by
  have hsingle : campaignDelta (ev :: channel) c
      = campaignDelta [ev] c + campaignDelta channel c := by
    rw [← campaignDelta_append, singleton_append]
  rw [hsingle, outstanding, outstanding, campaignDelta_append]
  abel

variable (hidle : x.inflight = [])

include hidle

theorem Holds.flush {ev : CardStateChange} (h : x.Holds ev)
    (hrows : rows.Perm (copyRows x.batch)) : Holds ⟨[], statementsOf rows updates⟩ ev := by
  rcases h with hev | ⟨statement, hstatement, -⟩
  · obtain ⟨row, hrow, hkey⟩ := exists_mem_copyRows hev
    have hrow : row ∈ (statementsOf rows updates).flatMap Statement.rows := by
      rw [rows_statementsOf]
      exact hrows.mem_iff.mpr hrow
    obtain ⟨statement, hstatement, hrow⟩ := mem_flatMap.mp hrow
    exact Or.inr ⟨statement, hstatement, row, hrow, hkey⟩
  · rw [hidle] at hstatement
    exact absurd hstatement not_mem_nil

theorem outstanding_flush (hupdates : updates.Perm (statsUpdates x.batch)) (c : UUID) :
    outstanding ⟨[], statementsOf rows updates⟩ c = x.outstanding c := by
  have hnone : statementsDelta x.inflight c = 0 := by
    rw [hidle]
    rfl
  rw [outstanding, outstanding, campaignDelta_nil, statementsDelta_statementsOf _ hupdates, hnone]
  abel

end StateWriter

/-- The state of the pool on the way from the initial tables to those that have all of the
stream. -/
structure Projects (initial : StateTables) (stream : List CardStateChange)
    (s : WriterPool ι) : Prop where
  channel : ∀ ev ∈ s.channel, ev ∈ stream
  writers : ∀ w, (s.writers w).From stream
  table : Extends initial.executionStates stream s.tables.executionStates
  covered : ∀ ev ∈ stream, ev ∈ s.channel ∨ (∃ w, (s.writers w).Holds ev) ∨
    Covers s.tables.executionStates ev
  stats : ∀ c, ∃ applied, s.tables.campaignStats c = (initial.campaignStats c).map (·.add applied)
    ∧ applied + s.outstanding c = campaignDelta stream c

theorem projects_start (initial : StateTables) (stream : List CardStateChange) :
    Projects initial stream (start initial stream : WriterPool ι) where
  channel := fun _ h ↦ h
  writers := fun _ ↦ ⟨forall_mem_nil _, forall_mem_nil _⟩
  table := ⟨[], (append_nil _).symm, forall_mem_nil _⟩
  covered := fun _ h ↦ Or.inl h
  stats := fun c ↦ by
    refine ⟨0, ?_, ?_⟩
    · simp [start]
    · simp [start, outstanding, StateWriter.outstanding, statementsDelta]

theorem Projects.of_quiescent {initial : StateTables}
    {s : WriterPool ι} (h : Projects initial stream s) (hq : s.Quiescent) :
    Presents initial.executionStates stream s.tables.executionStates ∧ ∀ c, s.tables.campaignStats c
        = (initial.campaignStats c).map (·.add (campaignDelta stream c)) := by
  refine ⟨⟨h.table, fun ev hev ↦ ?_⟩, fun c ↦ ?_⟩
  · rcases h.covered ev hev with hev | ⟨w, hev | ⟨st, hst, -⟩⟩ | hev
    · rw [hq.1] at hev
      exact absurd hev not_mem_nil
    · rw [(hq.2 w).1] at hev
      exact absurd hev not_mem_nil
    · rw [(hq.2 w).2] at hst
      exact absurd hst not_mem_nil
    · exact hev
  · obtain ⟨applied, heq, hsum⟩ := h.stats c
    have hnone : s.outstanding c = 0 := by
      rw [outstanding, hq.1, campaignDelta_nil, zero_add]
      refine Finset.sum_eq_zero fun w _ ↦ ?_
      rw [StateWriter.outstanding, (hq.2 w).1, (hq.2 w).2, campaignDelta_nil, zero_add]
      rfl
    rw [heq, ← hsum, hnone, add_zero]

variable [DecidableEq ι]

section Step

variable {initial : StateTables} {stream : List CardStateChange} {s : WriterPool ι}

variable (h : Projects initial stream s)

include h

/-- **The step lemma for one writer.** Replacing a writer (and the channel and the tables with it)
keeps the invariant if the writer passes on what it answered for. -/
theorem Projects.update (w : ι) (x : StateWriter) {channel : List CardStateChange}
    {tables : StateTables} (hchannel : ∀ ev ∈ channel, ev ∈ s.channel) (hfrom : x.From stream)
    (htable : Extends initial.executionStates stream tables.executionStates)
    (hgrow : ∀ row ∈ s.tables.executionStates, row ∈ tables.executionStates)
    (hpass : ∀ ev, ev ∈ s.channel ∨ (s.writers w).Holds ev →
      ev ∈ channel ∨ x.Holds ev ∨ Covers tables.executionStates ev)
    (hstats : ∀ c, ∃ d, tables.campaignStats c = (s.tables.campaignStats c).map (·.add d) ∧
      d + campaignDelta channel c + x.outstanding c
        = campaignDelta s.channel c + (s.writers w).outstanding c) :
    Projects initial stream ⟨channel, Function.update s.writers w x, tables⟩ := by
  have hwriters : ∀ v, (Function.update s.writers w x v).From stream := by
    intro v
    by_cases hv : v = w
    · rw [hv, Function.update_self]
      exact hfrom
    · rw [Function.update_of_ne hv]
      exact h.writers v
  have hmoved : ∀ ev, ev ∈ s.channel ∨ (s.writers w).Holds ev → ev ∈ channel ∨
      (∃ v, (Function.update s.writers w x v).Holds ev) ∨ Covers tables.executionStates ev := by
    intro ev hold
    rcases hpass ev hold with hev | hev | hev
    · exact Or.inl hev
    · exact Or.inr (Or.inl ⟨w, by rwa [Function.update_self]⟩)
    · exact Or.inr (Or.inr hev)
  have hstays : ∀ v ev, v ≠ w → (s.writers v).Holds ev →
      (Function.update s.writers w x v).Holds ev := by
    intro v ev hvw hv
    rwa [Function.update_of_ne hvw]
  refine ⟨fun ev hev ↦ h.channel ev (hchannel ev hev), hwriters, htable, fun ev hev ↦ ?_,
    fun c ↦ ?_⟩
  · rcases h.covered ev hev with hev | ⟨v, hv⟩ | hev
    · exact hmoved ev (Or.inl hev)
    · by_cases hvw : v = w
      · exact hmoved ev (Or.inr (hvw ▸ hv))
      · exact Or.inr (Or.inl ⟨v, hstays v ev hvw hv⟩)
    · exact Or.inr (Or.inr (hev.mono hgrow))
  · obtain ⟨applied, heq, hsum⟩ := h.stats c
    obtain ⟨d, hd, hbalance⟩ := hstats c
    refine ⟨applied + d, ?_, ?_⟩
    · simp only [hd, heq, Option.map_map, Function.comp_def, CampaignStatsRow.add_add]
    · -- the writer's share moves to `d`, to the channel and to the new writer
      rw [← hsum, outstanding, outstanding, add_assoc, ← add_assoc d, balance_update hbalance]

theorem Projects.receive (w : ι) : Projects initial stream (s.next (.receive w)) := by
  rw [WriterPool.next]
  cases hchannel : s.channel with
  | nil => exact h
  | cons ev channel =>
    have hev : ev ∈ stream := h.channel ev (hchannel ▸ mem_cons_self)
    refine h.update w _ ?_ ?_ h.table (fun _ hrow ↦ hrow) ?_ fun c ↦ ⟨0, by simp, ?_⟩
    · rw [hchannel]
      exact fun e he ↦ mem_cons_of_mem _ he
    · refine ⟨fun e he ↦ ?_, (h.writers w).2⟩
      rcases mem_append.mp he with he | he
      · exact (h.writers w).1 e he
      · rwa [mem_singleton.mp he]
    · rintro e (he | he | he)
      · rw [hchannel] at he
        rcases mem_cons.mp he with rfl | he
        · exact Or.inr (Or.inl (Or.inl (by simp)))
        · exact Or.inl he
      · exact Or.inr (Or.inl (Or.inl (mem_append_left _ he)))
      · exact Or.inr (Or.inl (Or.inr he))
    · rw [hchannel, zero_add, StateWriter.outstanding_receive]

theorem Projects.flush (w : ι) {updates : List (UUID × StatsDelta)}
    (hidle : (s.writers w).inflight = []) (hrows : rows.Perm (copyRows (s.writers w).batch))
    (hupdates : updates.Perm (statsUpdates (s.writers w).batch)) :
    Projects initial stream (s.next (.flush w rows updates)) := by
  have hmem : ∀ statement ∈ statementsOf rows updates, ∀ row ∈ statement.rows, row ∈ rows := by
    intro statement hstatement row hrow
    rw [← rows_statementsOf rows updates]
    exact mem_flatMap.mpr ⟨statement, hstatement, hrow⟩
  refine h.update w _ (fun _ he ↦ he) ?_ h.table (fun _ hrow ↦ hrow) ?_ fun c ↦ ⟨0, by simp, ?_⟩
  · refine ⟨forall_mem_nil _, fun statement hstatement row hrow ↦ ?_⟩
    obtain ⟨ev, hev, rfl⟩ :=
      exists_of_mem_copyRows (hrows.mem_iff.mp (hmem statement hstatement row hrow))
    exact ⟨ev, (h.writers w).1 ev hev, rfl⟩
  · rintro ev (hev | hev)
    · exact Or.inl hev
    · exact Or.inr (Or.inl (hev.flush hidle hrows))
  · rw [zero_add, StateWriter.outstanding_flush hidle hupdates]

/-- The first statement of a writer is executed. What takes its place has its rows, what it covers
is passed on, and so is what it has for the counters. -/
theorem Projects.replace (w : ι) {statement : Statement}
    {inflight replaced : List Statement} {tables : StateTables}
    (hinflight : (s.writers w).inflight = statement :: inflight)
    (hrows : ∀ st ∈ replaced, ∀ row ∈ st.rows, row ∈ statement.rows)
    (htable : Extends initial.executionStates stream tables.executionStates)
    (hgrow : ∀ row ∈ s.tables.executionStates, row ∈ tables.executionStates)
    (hcovers : ∀ ev, Covers statement.rows ev →
      (∃ st ∈ replaced, Covers st.rows ev) ∨ Covers tables.executionStates ev)
    (hstats : ∀ c, ∃ d, tables.campaignStats c = (s.tables.campaignStats c).map (·.add d) ∧
      d + statementsDelta (replaced ++ inflight) c
        = statement.delta c + statementsDelta inflight c) : Projects initial stream
      ⟨s.channel, Function.update s.writers w ⟨(s.writers w).batch, replaced ++ inflight⟩,
        tables⟩ := by
  have hfrom := (h.writers w).2
  rw [hinflight] at hfrom
  refine h.update w _ (fun _ he ↦ he) ⟨(h.writers w).1, fun st hst row hrow ↦ ?_⟩ htable hgrow ?_
    fun c ↦ ?_
  · rcases mem_append.mp hst with hst | hst
    · exact hfrom statement mem_cons_self row (hrows st hst row hrow)
    · exact hfrom st (mem_cons_of_mem _ hst) row hrow
  · rintro ev (hev | hev | ⟨st, hst, hcov⟩)
    · exact Or.inl hev
    · exact Or.inr (Or.inl (Or.inl hev))
    · rw [hinflight] at hst
      rcases mem_cons.mp hst with rfl | hst
      · rcases hcovers ev hcov with ⟨st', hst', hcov'⟩ | hcov'
        · exact Or.inr (Or.inl (Or.inr ⟨st', mem_append_left _ hst', hcov'⟩))
        · exact Or.inr (Or.inr hcov')
      · exact Or.inr (Or.inl (Or.inr ⟨st, mem_append_right _ hst, hcov⟩))
  · obtain ⟨d, hd, hbalance⟩ := hstats c
    refine ⟨d, hd, ?_⟩
    rw [StateWriter.outstanding, StateWriter.outstanding, hinflight, statementsDelta_cons,
      ← hbalance]
    abel

theorem Projects.execute (w : ι) (copyWorks : Bool) :
    Projects initial stream (s.next (.execute w copyWorks)) := by
  rw [WriterPool.next]
  cases hinflight : (s.writers w).inflight with
  | nil => exact h
  | cons statement inflight =>
    have hfrom := (h.writers w).2
    rw [hinflight] at hfrom
    dsimp only
    rcases s.tables.execute_cases copyWorks statement with
      ⟨heq, hne⟩ | ⟨rows, rfl, heq⟩ | ⟨c₀, d, rfl, heq⟩
    · -- rows were inserted
      rw [heq]
      refine h.replace w hinflight (forall_mem_nil _)
        (h.table.foldl_insertRow (hfrom statement mem_cons_self)) (fun row hrow ↦ ?_)
        (fun ev hcov ↦ Or.inr (covers_foldl_insertRow hcov _)) fun c ↦ ⟨0, by simp, ?_⟩
      · obtain ⟨added, hadded, -⟩ :=
          exists_foldl_insertRow_eq s.tables.executionStates statement.rows
        rw [hadded]
        exact mem_append_left _ hrow
      · rw [Statement.delta_eq_zero hne, nil_append]
    · -- `COPY` failed and its chunks take its place
      rw [heq]
      refine h.replace w hinflight (fun st hst row hrow ↦ ?_) h.table (fun _ hrow ↦ hrow)
        (fun ev hcov ↦ Or.inl (exists_mem_flushCardStatesFallback hcov)) fun c ↦ ⟨0, by simp, ?_⟩
      · change row ∈ rows
        rw [← rows_flushCardStatesFallback rows]
        exact mem_flatMap.mpr ⟨st, hst, hrow⟩
      · rw [statementsDelta_fallback_append, Statement.delta_eq_zero (by simp)]
    · -- counters were added
      rw [heq]
      refine h.replace w hinflight (forall_mem_nil _) h.table (fun _ hrow ↦ hrow) ?_
        fun c ↦ ⟨(Statement.updateStats c₀ d).delta c, ?_, ?_⟩
      · rintro ev ⟨row, hrow, -⟩
        exact absurd hrow not_mem_nil
      · by_cases hc : c₀ = c
        · subst hc
          simp [Statement.delta]
        · simp [Statement.delta, hc, Function.update_of_ne (Ne.symm hc)]
      · rw [nil_append]

theorem Projects.next {maxBatch : ℤ} {a : WriterAction ι}
    (ha : s.Enabled maxBatch a) : Projects initial stream (s.next a) := by
  cases a with
  | receive w => exact h.receive w
  | flush w rows updates => exact h.flush w ha.1 ha.2.2.1 ha.2.2.2
  | execute w copyWorks => exact h.execute w copyWorks

end Step

theorem projects_after {maxBatch : ℤ} {initial : StateTables} {acts : List (WriterAction ι)}
    (h : (writerPool ι maxBatch).Runs (start initial stream) acts) : Projects initial stream
      ((writerPool ι maxBatch).after (start initial stream) acts) :=
  h.invariant (fun _ _ hs ha _ ↦ hs.next ha) (projects_start initial stream)

/-- **Batching is confluent.** Whatever the schedule, a pool that has worked off the stream leaves
the latest rows and the counters that appending and counting the events one by one would leave; the
latest row of a card and campaign is the event with the highest sequence number, provided that no
row stored before reaches it. -/
theorem writerPool_confluent (maxBatch : ℤ) (initial : StateTables)
    (stream : List CardStateChange) (hdistinct : DistinctSeqs stream) (acts : List (WriterAction ι))
    (hruns : (writerPool ι maxBatch).Runs (start initial stream) acts)
    (hquiescent :
      ((writerPool ι maxBatch).after (start initial stream) acts).Quiescent) :
    let final := ((writerPool ι maxBatch).after (start initial stream) acts).tables
    (∀ pair, latestRow final.executionStates pair
      = latestRow (initial.executionStates ++ stream.map CardStateChange.toRow) pair) ∧
    (∀ ev ∈ stream, Highest stream ev →
      (∀ row ∈ initial.executionStates, row.pair = ev.pair →
        row.transitionSeq < ev.transitionSeq) →
      latestRow final.executionStates ev.pair = some ev.toRow) ∧
    ∀ c, final.campaignStats c
      = (initial.campaignStats c).map (·.add (campaignDelta stream c)) := by
  obtain ⟨hpresents, hstats⟩ := (projects_after hruns).of_quiescent hquiescent
  refine ⟨fun pair ↦ ?_, fun ev hev hhighest hstored ↦ ?_, hstats⟩
  · exact hpresents.latestRow_congr (presents_append_toRow _ _) hdistinct pair
  · exact hpresents.latestRow_eq hdistinct hev hhighest hstored

end Invariant

/-! ## A batch that is overtaken -/

def firstActivated : CardStateChange where
  campaignID := .ofDigit 9
  cardID := .ofDigit 1
  status := .inProgress
  timestamp := 10
  transitionSeq := 1
  statsFrom := .pending
  statsTo := .inProgress

def firstCompleted : CardStateChange :=
  { firstActivated with
    status := .completed
    timestamp := 20
    transitionSeq := 2
    statsFrom := .inProgress
    statsTo := .completed }

def secondActivated : CardStateChange := { firstActivated with cardID := .ofDigit 2 }

/-- A campaign of two cards that has just been initialized. -/
def twoPendingCards : StateTables where
  executionStates := []
  campaignStats := fun c ↦ if c = .ofDigit 9 then
    some ⟨2, fun col ↦ if col = .pending then 2 else 0⟩ else none

/-- The second writer commits the last transition of the card before the first writer, whose `COPY`
fails, commits the one before. -/
def overtakingSchedule : List (WriterAction (Fin 2)) :=
  [.receive 0, .receive 1, .flush 1 (copyRows [firstCompleted]) (statsUpdates [firstCompleted]),
    .receive 0, .execute 1 true,
    .flush 0 (copyRows [firstActivated, secondActivated])
      (statsUpdates [firstActivated, secondActivated]),
    .execute 0 false, .execute 1 true, .execute 0 true, .execute 0 true]

theorem writerPool_confluent_overtaking :
    let final := ((writerPool (Fin 2) 10000).after
      (start twoPendingCards [firstActivated, firstCompleted, secondActivated])
        overtakingSchedule).tables
    latestRow final.executionStates (.ofDigit 1, .ofDigit 9) = some firstCompleted.toRow ∧
      (final.campaignStats (.ofDigit 9)).map (fun r ↦
        (r.counts .pending, r.counts .inProgress, r.counts .completed)) = some (0, 1, 1) := by
  have hdistinct : DistinctSeqs [firstActivated, firstCompleted, secondActivated] := by
    unfold DistinctSeqs
    decide
  have hruns : (writerPool (Fin 2) 10000).Runs
      (start twoPendingCards [firstActivated, firstCompleted, secondActivated])
      overtakingSchedule := by
    refine ⟨⟨⟨by simp [start], rfl, Or.inl rfl⟩, trivial⟩,
      ⟨⟨cons_ne_nil _ _, rfl, Or.inl rfl⟩, trivial⟩,
      ⟨⟨rfl, cons_ne_nil _ _, .refl _, .refl _⟩, trivial⟩,
      ⟨⟨cons_ne_nil _ _, rfl, Or.inr (by decide)⟩, trivial⟩,
      ⟨cons_ne_nil _ _, trivial⟩,
      ⟨⟨rfl, cons_ne_nil _ _, .refl _, .refl _⟩, trivial⟩,
      ⟨cons_ne_nil _ _, trivial⟩, ⟨cons_ne_nil _ _, trivial⟩,
      ⟨cons_ne_nil _ _, trivial⟩, ⟨cons_ne_nil _ _, trivial⟩, trivial⟩
  have hquiescent : ((writerPool (Fin 2) 10000).after
      (start twoPendingCards [firstActivated, firstCompleted, secondActivated])
      overtakingSchedule).Quiescent := by
    exact ⟨rfl, fun w ↦ match w with
      | 0 => ⟨rfl, rfl⟩
      | 1 => ⟨rfl, rfl⟩⟩
  obtain ⟨-, hlatest, hstats⟩ := writerPool_confluent 10000 twoPendingCards _
    hdistinct overtakingSchedule hruns hquiescent
  refine ⟨hlatest firstCompleted (by decide) ?_ ?_, ?_⟩
  · unfold Highest
    decide
  · simp [twoPendingCards]
  · rw [hstats]
    decide

end OtaPlatform
