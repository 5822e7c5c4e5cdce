import OtaPlatform.Pgstore.WriterPool

/-!
# Batches that fail part way

A batch is written by several statements that are not one transaction: a `COPY`, in its place the
chunks of a bulk insertion when it fails, and then one counter update per campaign. An error of the
rows ends the batch, with the chunks before it in place and no counters updated. An error of an
update is only logged. In every case the writer drops the batch.

So rows and counters move together exactly if what was missed would have changed nothing
(`flushCardStateBatch_together_iff`): rows that are in the table already, and counters of campaigns
without a statistics row.

## Failures

What the database refuses is data, `BatchFailures`: any set of chunks and of campaigns, with or
without the connection and the `COPY`. Every position at which a statement may fail is a case of it.
-/

namespace OtaPlatform

open List

/-! ## The statements of a batch, with errors -/

/-- What the database refuses while a batch is written. -/
structure BatchFailures where
  /-- There is no connection to be had. -/
  conn : Bool
  /-- `COPY` is unavailable, or fails for a reason of its own. -/
  copy : Bool
  /-- The chunks of the bulk insertion that fail, by number. -/
  chunk : ℕ → Bool
  update : UUID → Bool

/-- The loop of `flushCardStatesFallback` from a chunk on; it returns at the first error. -/
def insertChunks (fails : ℕ → Bool) : ℕ → StateTables → List Statement → StateTables × Bool
  | _, t, [] => (t, true)
  | k, t, chunk :: chunks =>
    if fails k then (t, false) else insertChunks fails (k + 1) (t.execute true chunk).1 chunks

/-- Writes the rows; the flag is false for an error. -/
def flushCardStatesCopy (f : BatchFailures) (t : StateTables) (rows : List ExecutionRow) :
    StateTables × Bool :=
  if f.conn then (t, false)
  else
    match if f.copy then none else copyFrom t.executionStates rows with
    | some table => ({ t with executionStates := table }, true)
    | none => insertChunks f.chunk 0 t (flushCardStatesFallback rows)

/-- Updates the counters; an error is logged and the loop goes on. -/
def updateCampaignStats (fails : UUID → Bool) (t : StateTables)
    (updates : List (UUID × StatsDelta)) : StateTables :=
  updates.foldl (fun t u ↦
    if fails u.1 then t else (t.execute true (.updateStats u.1 u.2)).1) t

/-- `writeCardStateBatch` over a database that refuses some statements, for a given order of the
rows and of the updates. -/
def writeCardStateBatchUnder (f : BatchFailures) (t : StateTables) (rows : List ExecutionRow)
    (updates : List (UUID × StatsDelta)) : StateTables × Bool :=
  let written := if rows.isEmpty then (t, true) else flushCardStatesCopy f t rows
  if written.2 then (updateCampaignStats f.update written.1 updates, true) else written

/-- The `flush` of `RunCardStateWriter`: the tables and the batch it goes on with. -/
def flushCardStateBatch (f : BatchFailures) (t : StateTables) (batch : List CardStateChange)
    (rows : List ExecutionRow) (updates : List (UUID × StatsDelta)) :
    StateTables × List CardStateChange :=
  if batch.isEmpty then (t, batch)
  -- the error is logged, and the batch is cut to length zero with or without one
  else ((writeCardStateBatchUnder f t rows updates).1, [])

/-! ## Rows that were missed -/

/-- The row is not inserted: there was no connection, or the bulk insertion failed at the chunk of
the row or at one before. -/
def BatchFailures.Misses (f : BatchFailures) (t : StateTables) (rows : List ExecutionRow)
    (row : ExecutionRow) : Prop :=
  f.conn = true ∧ row ∈ rows ∨
    (f.copy = true ∨ copyFrom t.executionStates rows = none) ∧
      ∃ k, f.chunk k = true ∧ row ∈ rows.drop (k * (65535 / 10))

private theorem insertChunks_eq (fails : ℕ → Bool) (fuel k : ℕ) (t : StateTables)
    (rows : List ExecutionRow) (hfuel : rows.length ≤ fuel) : ∃ done missed, rows = done ++ missed ∧
      insertChunks fails k t (fallbackLoop fuel rows)
        = ({ t with executionStates := done.foldl insertRow t.executionStates }, missed.isEmpty) ∧
      ∀ row, row ∈ missed ↔ ∃ j, fails (k + j) = true ∧ row ∈ rows.drop (j * (65535 / 10)) := by
  -- along the chunks; the number of the chunk goes up with the rows that are left
  induction fuel generalizing k t rows with
  | zero =>
    obtain rfl := eq_nil_of_length_eq_zero (Nat.le_zero.mp hfuel)
    exact ⟨[], [], rfl, rfl, by simp⟩
  | succ fuel ih =>
    cases rows with
    | nil => exact ⟨[], [], rfl, rfl, by simp⟩
    | cons first rest =>
      rw [fallbackLoop, if_neg (by simp), insertChunks]
      by_cases hk : fails k = true
      · refine ⟨[], first :: rest, rfl, by rw [if_pos hk]; rfl, fun row ↦ ⟨fun h ↦ ?_, ?_⟩⟩
        · exact ⟨0, hk, by rwa [Nat.zero_mul, drop_zero]⟩
        · rintro ⟨j, -, h⟩
          exact mem_of_mem_drop h
      · have hlen : ((first :: rest).drop (65535 / 10)).length ≤ fuel := by
          rw [length_drop]
          rw [length_cons] at *
          omega
        obtain ⟨done, missed, hrows, heq, hmem⟩ :=
          ih (k + 1) (t.execute true (.insert ((first :: rest).take (65535 / 10)))).1 _ hlen
        refine ⟨(first :: rest).take (65535 / 10) ++ done, missed, ?_, ?_, fun row ↦ ?_⟩
        · rw [append_assoc, ← hrows, take_append_drop]
        · rw [if_neg hk, heq, foldl_append]
          rfl
        · rw [hmem]
          constructor
          · rintro ⟨j, hj, h⟩
            rw [drop_drop] at h
            exact ⟨j + 1, by rwa [show k + (j + 1) = k + 1 + j by omega],
              by rwa [Nat.succ_mul, Nat.add_comm]⟩
          · rintro ⟨j, hj, h⟩
            cases j with
            | zero => exact absurd hj hk
            | succ j =>
              refine ⟨j, by rwa [show k + 1 + j = k + (j + 1) by omega], ?_⟩
              rwa [drop_drop, Nat.add_comm, ← Nat.succ_mul]

/-- **What an error of the rows leaves**: the rows split into those written and those missed, and
there is an error exactly if some were missed. -/
theorem flushCardStatesCopy_eq (f : BatchFailures) (t : StateTables) {rows : List ExecutionRow}
    (hrows : rows ≠ []) : ∃ done missed, rows = done ++ missed ∧ flushCardStatesCopy f t rows
        = ({ t with executionStates := done.foldl insertRow t.executionStates }, missed.isEmpty) ∧
      ∀ row, row ∈ missed ↔ f.Misses t rows row := by
  rw [flushCardStatesCopy]
  by_cases hconn : f.conn = true
  · refine ⟨[], rows, rfl, ?_, fun row ↦ ⟨fun h ↦ .inl ⟨hconn, h⟩, ?_⟩⟩
    · rw [if_pos hconn, isEmpty_eq_false_iff.mpr hrows]
      rfl
    · rintro (⟨-, h⟩ | ⟨-, k, -, h⟩)
      · exact h
      · exact mem_of_mem_drop h
  · rw [if_neg hconn]
    cases hcopy : (if f.copy then none else copyFrom t.executionStates rows) with
    | some table =>
      have hfalse : f.copy = false := by
        cases hf : f.copy with
        | false => rfl
        | true =>
          rw [hf] at hcopy
          cases hcopy
      rw [hfalse, if_neg Bool.false_ne_true] at hcopy
      refine ⟨rows, [], (append_nil _).symm, by rw [copyFrom_eq hcopy]; rfl, fun row ↦
        ⟨fun h ↦ absurd h not_mem_nil, ?_⟩⟩
      rintro (⟨h, -⟩ | ⟨h | h, -⟩)
      · exact absurd h hconn
      · exact absurd (hfalse.symm.trans h) Bool.false_ne_true
      · exact absurd (hcopy.symm.trans h) (Option.some_ne_none _)
    | none =>
      have hfails : f.copy = true ∨ copyFrom t.executionStates rows = none := by
        cases hf : f.copy with
        | true => exact .inl rfl
        | false =>
          rw [hf, if_neg Bool.false_ne_true] at hcopy
          exact .inr hcopy
      obtain ⟨done, missed, hsplit, heq, hmem⟩ :=
        insertChunks_eq f.chunk rows.length 0 t rows le_rfl
      refine ⟨done, missed, hsplit, heq, fun row ↦ ?_⟩
      rw [hmem]
      constructor
      · rintro ⟨k, hk, h⟩
        exact .inr ⟨hfails, k, by rwa [Nat.zero_add] at hk, h⟩
      · rintro (⟨h, -⟩ | ⟨-, k, hk, h⟩)
        · exact absurd h hconn
        · exact ⟨k, by rwa [Nat.zero_add], h⟩

theorem foldl_insertRow_eq_self_iff {table rows : List ExecutionRow} :
    rows.foldl insertRow table = table ↔
      ∀ row ∈ rows, ∃ x ∈ table, x.primaryKey = row.primaryKey := by
  constructor
  · intro heq row hrow
    obtain ⟨x, hx, hpair, hseq⟩ := exists_mem_foldl_insertRow table hrow
    rw [heq] at hx
    exact ⟨x, hx, Prod.ext hpair hseq⟩
  · intro h
    induction rows with
    | nil => rfl
    | cons row rows ih =>
      obtain ⟨x, hx, hkey⟩ := h row mem_cons_self
      have hconf : table.any row.conflicts = true :=
        any_eq_true.mpr ⟨x, hx, ExecutionRow.conflicts_iff.mpr hkey.symm⟩
      rw [foldl_cons, insertRow, if_pos hconf]
      exact ih fun r hr ↦ h r (mem_cons_of_mem _ hr)

/-- The rows written are all of them exactly if those missed were in the table before: none of them
can have been written by this batch, whose primary keys differ. -/
theorem foldl_insertRow_append_eq_iff {table done missed : List ExecutionRow}
    (hnodup : ((done ++ missed).map ExecutionRow.pair).Nodup) :
    done.foldl insertRow table = (done ++ missed).foldl insertRow table ↔
      ∀ row ∈ missed, ∃ x ∈ table, x.primaryKey = row.primaryKey := by
  rw [foldl_append, eq_comm, foldl_insertRow_eq_self_iff]
  obtain ⟨added, hadded, hsub⟩ := exists_foldl_insertRow_eq table done
  rw [hadded]
  refine forall₂_congr fun row hrow ↦ ⟨?_, ?_⟩
  · rintro ⟨x, hx, hkey⟩
    rcases mem_append.mp hx with hx | hx
    · exact ⟨x, hx, hkey⟩
    · have hdisjoint := (nodup_append.mp (map_append ▸ hnodup)).2.2
      exact absurd (congrArg Prod.fst hkey) (hdisjoint _
        (mem_map_of_mem (hsub.subset hx)) _ (mem_map_of_mem hrow))
  · rintro ⟨x, hx, hkey⟩
    exact ⟨x, mem_append_left _ hx, hkey⟩

/-! ## Counters that were missed -/

/-- What the updates add to the counters of a campaign. -/
def updatesDelta (updates : List (UUID × StatsDelta)) (campaignID : UUID) : StatsDelta :=
  (updates.map fun u ↦ if u.1 = campaignID then u.2 else 0).sum

section Updates

variable {updates : List (UUID × StatsDelta)} {campaignID : UUID}

theorem updatesDelta_cons (u : UUID × StatsDelta) (updates : List (UUID × StatsDelta))
    (campaignID : UUID) : updatesDelta (u :: updates) campaignID
      = (if u.1 = campaignID then u.2 else 0) + updatesDelta updates campaignID := by
  rw [updatesDelta, map_cons, sum_cons, ← updatesDelta]

theorem updatesDelta_eq_zero (h : ∀ u ∈ updates, u.1 ≠ campaignID) :
    updatesDelta updates campaignID = 0 := by
  induction updates with
  | nil => rfl
  | cons u updates ih =>
    rw [updatesDelta_cons, if_neg (h u mem_cons_self), zero_add]
    exact ih fun v hv ↦ h v (mem_cons_of_mem _ hv)

theorem updatesDelta_filter {p : UUID × StatsDelta → Bool}
    (h : ∀ u ∈ updates, p u = false → u.1 ≠ campaignID) :
    updatesDelta (updates.filter p) campaignID = updatesDelta updates campaignID := by
  induction updates with
  | nil => rfl
  | cons u updates ih =>
    have ih := ih fun v hv ↦ h v (mem_cons_of_mem _ hv)
    cases hp : p u with
    | true => rw [filter_cons_of_pos hp, updatesDelta_cons, updatesDelta_cons, ih]
    | false =>
      rw [filter_cons_of_neg (Bool.not_eq_true _ ▸ hp), updatesDelta_cons,
        if_neg (h u mem_cons_self hp), zero_add, ih]

theorem updatesDelta_of_mem (hnodup : (updates.map Prod.fst).Nodup) {u : UUID × StatsDelta}
    (h : u ∈ updates) : updatesDelta updates u.1 = u.2 := by
  induction updates with
  | nil => exact absurd h not_mem_nil
  | cons v updates ih =>
    rw [map_cons, nodup_cons] at hnodup
    rw [updatesDelta_cons]
    rcases mem_cons.mp h with rfl | h
    · rw [if_pos rfl, updatesDelta_eq_zero, add_zero]
      intro w hw heq
      exact hnodup.1 (heq ▸ mem_map_of_mem hw)
    · rw [if_neg, zero_add]
      · exact ih hnodup.2 h
      · intro heq
        exact hnodup.1 (heq ▸ mem_map_of_mem h)

theorem updatesDelta_of_perm {events : List CardStateChange}
    (h : updates.Perm (statsUpdates events)) (campaignID : UUID) :
    updatesDelta updates campaignID = campaignDelta events campaignID := by
  have hstatements : statementsDelta (statementsOf [] updates) campaignID
      = campaignDelta events campaignID := statementsDelta_statementsOf events h campaignID
  rw [← hstatements, statementsDelta, statementsOf, if_pos isEmpty_nil, nil_append, map_map]
  rfl

theorem updateCampaignStats_eq (fails : UUID → Bool) (t : StateTables)
    (updates : List (UUID × StatsDelta)) : updateCampaignStats fails t updates
      = ⟨t.executionStates, fun c ↦ (t.campaignStats c).map
          (·.add (updatesDelta (updates.filter fun u ↦ !fails u.1) c))⟩ := by
  induction updates generalizing t with
  | nil => simp [updateCampaignStats, updatesDelta]
  | cons u updates ih =>
    rw [updateCampaignStats, foldl_cons, ← updateCampaignStats, ih]
    cases hu : fails u.1 with
    | true => rw [if_pos rfl, filter_cons_of_neg (by simp [hu])]
    | false =>
      rw [if_neg Bool.false_ne_true, filter_cons_of_pos (by simp [hu])]
      simp only [StateTables.execute, StateTables.mk.injEq, true_and]
      refine funext fun c ↦ ?_
      rw [updatesDelta_cons]
      by_cases hc : c = u.1
      · subst hc
        rw [Function.update_self, Option.map_map, if_pos rfl]
        exact congrArg (Option.map · _) (funext fun r ↦ CampaignStatsRow.add_add r _ _)
      · rw [Function.update_of_ne hc, if_neg (Ne.symm hc), zero_add]

/-- The counters are those of all updates exactly if every campaign that was left out has no
counters: an update that finds a row changes it. -/
theorem updatesDelta_filter_eq_iff (stats : UUID → Option CampaignStatsRow)
    (hnodup : (updates.map Prod.fst).Nodup) (hne : ∀ u ∈ updates, u.2 ≠ 0)
    (left : UUID × StatsDelta → Bool) :
    (∀ c, (stats c).map (·.add (updatesDelta (updates.filter fun u ↦ !left u) c))
        = (stats c).map (·.add (updatesDelta updates c))) ↔
      ∀ u ∈ updates, left u = true → stats u.1 = none := by
  constructor
  · intro h u hu hleft
    cases hstats : stats u.1 with
    | none => rfl
    | some r =>
      have hc := h u.1
      have hzero : updatesDelta (updates.filter fun u ↦ !left u) u.1 = 0 := by
        refine updatesDelta_eq_zero fun v hv heq ↦ ?_
        obtain ⟨hv, hkept⟩ := mem_filter.mp hv
        obtain rfl := inj_on_of_nodup_map hnodup hv hu heq
        rw [hleft] at hkept
        cases hkept
      rw [hstats, hzero, updatesDelta_of_mem hnodup hu, Option.map_some, Option.map_some,
        Option.some.injEq, CampaignStatsRow.add_zero] at hc
      have hcounts : r.counts + 0 = r.counts + u.2 := by
        rw [add_zero]
        exact congrArg CampaignStatsRow.counts hc
      exact absurd (add_left_cancel hcounts).symm (hne u hu)
  · intro h c
    cases hstats : stats c with
    | none => rfl
    | some r =>
      rw [updatesDelta_filter fun u hu hleft heq ↦ ?_]
      rw [Bool.not_eq_false'] at hleft
      have hnone := h u hu hleft
      rw [heq, hstats] at hnone
      cases hnone

end Updates

/-! ## The batch as a whole -/

/-- The tables with all rows of a batch and all that its transitions add to the counters. -/
def StateTables.withBatch (t : StateTables) (rows : List ExecutionRow)
    (batch : List CardStateChange) : StateTables :=
  ⟨rows.foldl insertRow t.executionStates,
    fun c ↦ (t.campaignStats c).map (·.add (campaignDelta batch c))⟩

/-- What a flush of a batch should do: apply all of it or nothing, and keep what is not applied. -/
structure MovesTogether (t t' : StateTables) (rows : List ExecutionRow)
    (batch batch' : List CardStateChange) : Prop where
  together : t' = t.withBatch rows batch ∨ t' = t
  kept : t' ≠ t.withBatch rows batch → batch' = batch

section Batch

variable {f : BatchFailures} {t : StateTables} {batch : List CardStateChange}
  {rows : List ExecutionRow} {updates : List (UUID × StatsDelta)}

/-- The tables after a batch: the rows that were not missed, and, if none were, the updates that did
not fail. -/
theorem writeCardStateBatchUnder_eq (f : BatchFailures) (t : StateTables) (hrows : rows ≠ [])
    (updates : List (UUID × StatsDelta)) :
    ∃ done missed, rows = done ++ missed ∧ (∀ row, row ∈ missed ↔ f.Misses t rows row) ∧
      (writeCardStateBatchUnder f t rows updates).1
        = ⟨done.foldl insertRow t.executionStates, fun c ↦ (t.campaignStats c).map (·.add
            (updatesDelta (updates.filter fun u ↦ !(f.update u.1 || !missed.isEmpty)) c))⟩ := by
  obtain ⟨done, missed, hsplit, heq, hmem⟩ := flushCardStatesCopy_eq f t hrows
  refine ⟨done, missed, hsplit, hmem, ?_⟩
  have hne : ¬rows.isEmpty = true := fun h ↦ hrows (isEmpty_iff.mp h)
  simp only [writeCardStateBatchUnder, if_neg hne, heq]
  cases missed with
  | nil => simp [updateCampaignStats_eq]
  | cons row missed => simp [updatesDelta]

/-- The batch is applied exactly if nothing was missed that would have changed a table. -/
theorem writeCardStateBatchUnder_eq_withBatch_iff (hbatch : batch ≠ [])
    (hrows : rows.Perm (copyRows batch)) (hupdates : updates.Perm (statsUpdates batch)) :
    (writeCardStateBatchUnder f t rows updates).1 = t.withBatch rows batch ↔
      (∀ row, f.Misses t rows row → ∃ x ∈ t.executionStates, x.primaryKey = row.primaryKey) ∧
      ∀ u ∈ updates, (f.update u.1 = true ∨ ∃ row, f.Misses t rows row) →
        t.campaignStats u.1 = none := by
  have hne : rows ≠ [] := by
    rintro rfl
    obtain ⟨ev, hev⟩ := exists_mem_of_ne_nil _ hbatch
    obtain ⟨row, hrow, -⟩ := exists_mem_copyRows hev
    exact absurd (hrows.mem_iff.mpr hrow) not_mem_nil
  have hpairs : (rows.map ExecutionRow.pair).Nodup :=
    (hrows.map _).nodup_iff.mpr (nodup_pair_copyRows batch)
  have hcampaigns : (updates.map Prod.fst).Nodup :=
    (hupdates.map _).nodup_iff.mpr (nodup_campaignID_statsUpdates batch)
  obtain ⟨done, missed, hsplit, hmem, heq⟩ := writeCardStateBatchUnder_eq f t hne updates
  have hmissed : ∀ u : UUID × StatsDelta, (f.update u.1 || !missed.isEmpty) = true ↔
      f.update u.1 = true ∨ ∃ row, f.Misses t rows row := by
    intro u
    rw [Bool.or_eq_true, Bool.not_eq_true', isEmpty_eq_false_iff_exists_mem]
    simp only [hmem]
  have hstats := updatesDelta_filter_eq_iff t.campaignStats hcampaigns
    (fun u hu ↦ ne_zero_of_mem_statsUpdates (hupdates.mem_iff.mp hu))
    fun u ↦ f.update u.1 || !missed.isEmpty
  simp only [updatesDelta_of_perm hupdates, hmissed] at hstats
  rw [heq, StateTables.withBatch, StateTables.mk.injEq, funext_iff, hstats]
  refine and_congr_left fun _ ↦ ?_
  rw [← forall_congr' fun row ↦ imp_congr_left (hmem row), hsplit]
  exact foldl_insertRow_append_eq_iff (hsplit ▸ hpairs)

end Batch

/-- **Rows and counters move together** exactly if the batch is empty or nothing that was missed
would have changed a table: every row at or after a failed chunk, or without a connection, has its
primary key in the table already, and every campaign whose update failed or was not reached has no
statistics row. -/
theorem flushCardStateBatch_together_iff (f : BatchFailures) (t : StateTables)
    (batch : List CardStateChange) (rows : List ExecutionRow) (updates : List (UUID × StatsDelta))
    (hrows : rows.Perm (copyRows batch)) (hupdates : updates.Perm (statsUpdates batch)) :
    MovesTogether t (flushCardStateBatch f t batch rows updates).1 rows batch
        (flushCardStateBatch f t batch rows updates).2 ↔
      batch = [] ∨
        (∀ row, f.Misses t rows row →
          ∃ x ∈ t.executionStates, x.primaryKey = row.primaryKey) ∧
        ∀ u ∈ updates, (f.update u.1 = true ∨ ∃ row, f.Misses t rows row) →
          t.campaignStats u.1 = none := by
  by_cases hbatch : batch = []
  · subst hbatch
    exact iff_of_true ⟨.inr rfl, fun _ ↦ rfl⟩ (.inl rfl)
  · have hempty : ¬batch.isEmpty = true := fun h ↦ hbatch (isEmpty_iff.mp h)
    rw [flushCardStateBatch, if_neg hempty, or_iff_right hbatch,
      ← writeCardStateBatchUnder_eq_withBatch_iff hbatch hrows hupdates]
    constructor
    · intro h
      by_contra hnot
      -- a batch that was not applied would have to be kept, but none is
      exact hbatch (h.kept hnot).symm
    · intro heq
      exact ⟨.inl heq, fun hnot ↦ absurd heq hnot⟩

/-- A `COPY` that fails is made up for by the bulk insertion. -/
theorem flushCardStateBatch_together_iff_fallback :
    MovesTogether twoPendingCards
      (flushCardStateBatch ⟨false, true, fun _ ↦ false, fun _ ↦ false⟩ twoPendingCards
        [firstActivated] (copyRows [firstActivated]) (statsUpdates [firstActivated])).1
      (copyRows [firstActivated]) [firstActivated] [] := by
  refine (flushCardStateBatch_together_iff ⟨false, true, fun _ ↦ false, fun _ ↦ false⟩
    twoPendingCards [firstActivated] _ _ (.refl _) (.refl _)).mpr (.inr ?_)
  have hnone : ∀ row, ¬BatchFailures.Misses ⟨false, true, fun _ ↦ false, fun _ ↦ false⟩
      twoPendingCards (copyRows [firstActivated]) row := by
    rintro row (⟨h, -⟩ | ⟨-, k, h, -⟩)
    · cases h
    · cases h
  refine ⟨fun row h ↦ absurd h (hnone row), ?_⟩
  rintro u - (h | ⟨row, h⟩)
  · cases h
  · exact absurd h (hnone row)

/-- A flush in which the update of the only campaign fails. -/
def flushedWithoutCounters : StateTables × List CardStateChange :=
  flushCardStateBatch ⟨false, false, fun _ ↦ false, fun _ ↦ true⟩ twoPendingCards
    [firstActivated] (copyRows [firstActivated]) (statsUpdates [firstActivated])

/-- Its row is there, its counters stay, and the batch is gone. -/
theorem flushCardStateBatch_row_without_counters :
    flushedWithoutCounters.1.executionStates = [firstActivated.toRow] ∧
      (flushedWithoutCounters.1.campaignStats (.ofDigit 9)).map (fun r ↦ r.counts .inProgress)
        = some 0 ∧
      flushedWithoutCounters.2 = [] ∧
      ¬MovesTogether twoPendingCards flushedWithoutCounters.1 (copyRows [firstActivated])
        [firstActivated] flushedWithoutCounters.2 := by
  have hrow : flushedWithoutCounters.1.executionStates = [firstActivated.toRow] := by
    decide +kernel
  have hcount : (flushedWithoutCounters.1.campaignStats (.ofDigit 9)).map
      (fun r ↦ r.counts .inProgress) = some 0 := by
    decide +kernel
  refine ⟨hrow, hcount, rfl, fun h ↦ ?_⟩
  rcases h.together with heq | heq
  · rw [heq] at hcount
    exact absurd hcount (by decide +kernel)
  · rw [heq] at hrow
    exact absurd hrow (by decide)

end OtaPlatform
