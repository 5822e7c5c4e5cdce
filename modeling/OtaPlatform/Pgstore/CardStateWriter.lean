import Mathlib.Algebra.BigOperators.Group.List.Basic
import Mathlib.Data.List.Dedup
import Mathlib.Data.List.MinMax
import OtaPlatform.Pipeline.Types

/-!
# The batched card state writer

Transitions reach the database in batches. A batch keeps only the newest transition of each card and
campaign as a row, but counts the statistics of all of them; the rows are appended to
`card_execution_states` and the counters added to `campaign_stats`.

## Statements

`statementsOf` lists the database statements a batch issues, in order: one `COPY`, then one counter
update per campaign. Executing the list is `writeCardStateBatch`; keeping the list apart from its
execution lets other writers run between two statements of one batch.

## Go maps

The source collects rows and counters in maps and ranges over them, so their order is not fixed.
`copyRows` and `statsUpdates` fix one order; what must hold for every order is stated for every
permutation of them.
-/

namespace OtaPlatform

open List Function

/-! ## Tables -/

/-- A row of `card_execution_states`; the primary key is card, campaign and sequence number. -/
structure ExecutionRow where
  cardID : UUID
  campaignID : UUID
  status : CardStatus
  currentStep : ℤ
  retryCount : ℤ
  lastMsgID : Option UUID
  lastSMPPID : String
  lastError : String
  transitionSeq : ℤ
  updatedAt : ℤ
deriving DecidableEq, Repr

/-- The counter columns of `campaign_stats`. -/
inductive StatsColumn
  | pending
  | inProgress
  | completed
  | failed
  | skipped
deriving DecidableEq, Repr

/-- Counter adjustments, one per column. -/
abbrev StatsDelta := StatsColumn → ℤ

structure CampaignStatsRow where
  total : ℤ
  counts : StatsColumn → ℤ

/-- `UPDATE campaign_stats SET col = col + d, ...`. -/
def CampaignStatsRow.add (r : CampaignStatsRow) (d : StatsDelta) : CampaignStatsRow :=
  ⟨r.total, r.counts + d⟩

@[simp] theorem CampaignStatsRow.add_zero (r : CampaignStatsRow) : r.add 0 = r := by
  rw [add]
  exact congrArg _ (AddMonoid.add_zero r.counts)

theorem CampaignStatsRow.add_add (r : CampaignStatsRow) (d e : StatsDelta) :
    (r.add d).add e = r.add (d + e) := by
  rw [add, add, add, add_assoc]

structure StateTables where
  /-- `card_execution_states`, in the order the rows were inserted. -/
  executionStates : List ExecutionRow
  /-- `campaign_stats`, by campaign. -/
  campaignStats : UUID → Option CampaignStatsRow

/-! ## Counting -/

/-- Normalizes a card status to its counter column. -/
def statusColumn : CardStatus → Option StatsColumn
  | .pending | .activating => some .pending
  | .inProgress | .awaitingDlr | .awaitingMo => some .inProgress
  | .completed => some .completed
  | .failed => some .failed
  | .skipped => some .skipped
  | .other _ => none

/-- Adjusts the delta for a normalized status column. -/
def applyDelta (d : StatsDelta) (status : CardStatus) (adj : ℤ) : StatsDelta :=
  match statusColumn status with
  | some col => update d col (d col + adj)
  | none => d

def columnUnit (status : CardStatus) : StatsDelta := fun col ↦
  if statusColumn status = some col then 1 else 0

theorem applyDelta_eq (d : StatsDelta) (status : CardStatus) (adj : ℤ) :
    applyDelta d status adj = d + fun col ↦ adj * columnUnit status col := by
  refine funext fun col ↦ ?_
  rw [applyDelta, Pi.add_apply, columnUnit]
  cases hs : statusColumn status with
  | none => simp
  | some c =>
    by_cases hc : col = c
    · subst hc
      simp
    · have hne : ¬ (some c = some col) := fun h ↦ hc (Option.some.inj h).symm
      rw [if_neg hne]
      simp [hc]

/-- What one transition adds to the counters of its campaign. -/
def CardStateChange.delta (ev : CardStateChange) : StatsDelta :=
  columnUnit ev.statsTo - columnUnit ev.statsFrom

/-- What a list of transitions adds to the counters of a campaign. -/
def campaignDelta (events : List CardStateChange) (campaignID : UUID) : StatsDelta :=
  ((events.filter fun ev ↦ ev.campaignID = campaignID).map CardStateChange.delta).sum

@[simp] theorem campaignDelta_nil (campaignID : UUID) : campaignDelta [] campaignID = 0 := rfl

theorem campaignDelta_cons (ev : CardStateChange) (events : List CardStateChange)
    (campaignID : UUID) : campaignDelta (ev :: events) campaignID
      = (if ev.campaignID = campaignID then ev.delta else 0) + campaignDelta events campaignID := by
  by_cases h : ev.campaignID = campaignID
  · rw [campaignDelta, filter_cons_of_pos (by simpa using h), map_cons, sum_cons,
      if_pos h, campaignDelta]
  · rw [campaignDelta, filter_cons_of_neg (by simpa using h), if_neg h, zero_add, campaignDelta]

variable (events : List CardStateChange)

theorem campaignDelta_append (events' : List CardStateChange) (campaignID : UUID) :
    campaignDelta (events ++ events') campaignID
      = campaignDelta events campaignID + campaignDelta events' campaignID := by
  rw [campaignDelta, filter_append, map_append, sum_append, campaignDelta, campaignDelta]

theorem campaignDelta_diff {batch events : List CardStateChange} (h : batch.Subperm events)
    (campaignID : UUID) :
    campaignDelta batch campaignID + campaignDelta (events.diff batch) campaignID
      = campaignDelta events campaignID := by
  have hperm : (batch ++ events.diff batch).Perm events :=
    subperm_append_diff_self_of_count_le (subperm_ext_iff.mp h)
  rw [← campaignDelta_append]
  exact ((hperm.filter _).map _).sum_eq

theorem campaignDelta_eq_zero {events : List CardStateChange} {campaignID : UUID}
    (h : ∀ ev ∈ events, ev.campaignID ≠ campaignID) : campaignDelta events campaignID = 0 := by
  rw [campaignDelta, filter_eq_nil_iff.mpr fun ev hev ↦ by simpa using h ev hev]
  rfl

/-- The loop that aggregates the deltas of all events of a batch by campaign. -/
def addCounterDelta (deltas : UUID → Option StatsDelta) (ev : CardStateChange) :
    UUID → Option StatsDelta :=
  if ev.statsFrom = .blank ∧ ev.statsTo = .blank then deltas
  else
    let d := (deltas ev.campaignID).getD 0
    update deltas ev.campaignID
      (some (applyDelta (applyDelta d ev.statsFrom (-1)) ev.statsTo 1))

/-- The aggregated deltas of a batch. -/
def counterDeltas (events : List CardStateChange) : UUID → Option StatsDelta :=
  events.foldl addCounterDelta fun _ ↦ none

private theorem addCounterDelta_getD (deltas : UUID → Option StatsDelta) (ev : CardStateChange)
    (campaignID : UUID) : (addCounterDelta deltas ev campaignID).getD 0
      = (deltas campaignID).getD 0 + if ev.campaignID = campaignID then ev.delta else 0 := by
  rw [addCounterDelta]
  by_cases hempty : ev.statsFrom = .blank ∧ ev.statsTo = .blank
  · have hzero : ev.delta = 0 := by rw [CardStateChange.delta, hempty.1, hempty.2, sub_self]
    rw [if_pos hempty, hzero, ite_self, add_zero]
  · rw [if_neg hempty]
    by_cases hc : ev.campaignID = campaignID
    · subst hc
      rw [update_self, Option.getD_some, if_pos rfl, applyDelta_eq, applyDelta_eq,
        CardStateChange.delta, add_assoc]
      congr 1
      refine funext fun col ↦ ?_
      simp only [Pi.add_apply, Pi.sub_apply]
      ring
    · rw [update_of_ne (Ne.symm hc), if_neg hc, add_zero]

/-- The map entry of a campaign is the sum of what its transitions add; a missing entry is zero. -/
theorem counterDeltas_getD (campaignID : UUID) :
    (counterDeltas events campaignID).getD 0 = campaignDelta events campaignID := by
  have hgen : ∀ deltas : UUID → Option StatsDelta,
      (events.foldl addCounterDelta deltas campaignID).getD 0
        = (deltas campaignID).getD 0 + campaignDelta events campaignID := by
    induction events with
    | nil =>
      intro deltas
      rw [foldl_nil, campaignDelta_nil, add_zero]
    | cons ev events ih =>
      intro deltas
      rw [foldl_cons, ih, addCounterDelta_getD, campaignDelta_cons, add_assoc]
  rw [counterDeltas, hgen, Option.getD_none, zero_add]

/-! ## Rows -/

def CardStateChange.pair (ev : CardStateChange) : UUID × UUID := (ev.cardID, ev.campaignID)

def ExecutionRow.pair (row : ExecutionRow) : UUID × UUID := (row.cardID, row.campaignID)

/-- The row a transition is stored as. -/
def CardStateChange.toRow (ev : CardStateChange) : ExecutionRow where
  cardID := ev.cardID
  campaignID := ev.campaignID
  status := ev.status
  currentStep := ev.currentStep
  retryCount := ev.retryCount
  lastMsgID := ev.lastMsgID
  lastSMPPID := ev.lastSMPPID
  lastError := ev.lastError
  transitionSeq := ev.transitionSeq
  updatedAt := ev.timestamp

@[simp] theorem CardStateChange.pair_toRow (ev : CardStateChange) : ev.toRow.pair = ev.pair := rfl

@[simp] theorem CardStateChange.transitionSeq_toRow (ev : CardStateChange) :
    ev.toRow.transitionSeq = ev.transitionSeq := rfl

/-- The loop that keeps the latest event of each card and campaign. -/
def keepLatest (latest : UUID × UUID → Option CardStateChange) (ev : CardStateChange) :
    UUID × UUID → Option CardStateChange :=
  match latest ev.pair with
  | none => update latest ev.pair (some ev)
  | some existing =>
    if existing.transitionSeq < ev.transitionSeq ∨
        (ev.transitionSeq = existing.transitionSeq ∧ existing.timestamp < ev.timestamp) then
      update latest ev.pair (some ev)
    else latest

/-- The latest event of each card and campaign of a batch. -/
def latestOf (events : List CardStateChange) : UUID × UUID → Option CardStateChange :=
  events.foldl keepLatest fun _ ↦ none

def copyRows (events : List CardStateChange) : List ExecutionRow :=
  (events.map CardStateChange.pair).dedup.filterMap fun k ↦
    (latestOf events k).map CardStateChange.toRow

/-- What the map of latest events knows about the events it has seen. -/
private structure LatestSpec (latest : UUID × UUID → Option CardStateChange)
    (seen : List CardStateChange) : Prop where
  mem : ∀ k e, latest k = some e → e ∈ seen ∧ e.pair = k
  /-- Every event is matched by an entry that is not older. -/
  le : ∀ ev ∈ seen, ∃ e, latest ev.pair = some e ∧ ev.transitionSeq ≤ e.transitionSeq

theorem LatestSpec.keepLatest {latest : UUID × UUID → Option CardStateChange}
    {seen : List CardStateChange} (h : LatestSpec latest seen) (ev : CardStateChange) :
    LatestSpec (keepLatest latest ev) (seen ++ [ev]) := by
  -- in every branch the entry of `ev.pair` is some `e` at least as new as `ev` and its predecessor
  have hupdate : (∀ e, latest ev.pair = some e → e.transitionSeq ≤ ev.transitionSeq) →
      LatestSpec (update latest ev.pair (some ev)) (seen ++ [ev]) := by
    intro hnew
    refine ⟨fun k e hk ↦ ?_, fun x hx ↦ ?_⟩
    · by_cases hkp : k = ev.pair
      · subst hkp
        rw [update_self, Option.some.injEq] at hk
        subst hk
        exact ⟨by simp, rfl⟩
      · rw [update_of_ne hkp] at hk
        exact ⟨mem_append_left _ (h.mem k e hk).1, (h.mem k e hk).2⟩
    · by_cases hxp : x.pair = ev.pair
      · rw [hxp, update_self]
        refine ⟨ev, rfl, ?_⟩
        rcases mem_append.mp hx with hx | hx
        · obtain ⟨e, he, hle⟩ := h.le x hx
          rw [hxp] at he
          exact hle.trans (hnew e he)
        · rw [mem_singleton.mp hx]
      · rw [update_of_ne hxp]
        rcases mem_append.mp hx with hx | hx
        · exact h.le x hx
        · exact absurd (by rw [mem_singleton.mp hx]) hxp
  unfold OtaPlatform.keepLatest
  cases hcur : latest ev.pair with
  | none => exact hupdate fun e he ↦ absurd (hcur.symm.trans he) (by simp)
  | some existing =>
    by_cases hcond : existing.transitionSeq < ev.transitionSeq ∨
        (ev.transitionSeq = existing.transitionSeq ∧ existing.timestamp < ev.timestamp)
    · simp only [if_pos hcond]
      refine hupdate fun e he ↦ ?_
      obtain rfl := Option.some.inj (hcur.symm.trans he)
      omega
    · simp only [if_neg hcond]
      refine ⟨fun k e hk ↦ ⟨mem_append_left _ (h.mem k e hk).1, (h.mem k e hk).2⟩,
        fun x hx ↦ ?_⟩
      rcases mem_append.mp hx with hx | hx
      · exact h.le x hx
      · rw [mem_singleton.mp hx]
        exact ⟨existing, hcur, by omega⟩

private theorem latestOf_spec : LatestSpec (latestOf events) events := by
  induction events using reverseRecOn with
  | nil => exact ⟨fun k e h ↦ by simp [latestOf] at h, fun ev h ↦ by simp at h⟩
  | append_singleton events ev ih =>
    rw [latestOf, foldl_append, foldl_cons, foldl_nil]
    exact ih.keepLatest ev

variable {row : ExecutionRow}

theorem exists_of_mem_copyRows {events : List CardStateChange}
    (h : row ∈ copyRows events) : ∃ ev ∈ events, row = ev.toRow := by
  obtain ⟨k, -, hk⟩ := mem_filterMap.mp h
  obtain ⟨ev, hev, rfl⟩ := Option.map_eq_some_iff.mp hk
  exact ⟨ev, ((latestOf_spec events).mem k ev hev).1, rfl⟩

/-- Every event of a batch is represented by a row of its card and campaign that is not older. -/
theorem exists_mem_copyRows {events : List CardStateChange} {ev : CardStateChange}
    (h : ev ∈ events) :
    ∃ row ∈ copyRows events, row.pair = ev.pair ∧ ev.transitionSeq ≤ row.transitionSeq := by
  obtain ⟨e, he, hle⟩ := (latestOf_spec events).le ev h
  refine ⟨e.toRow, mem_filterMap.mpr ⟨ev.pair, ?_, by rw [he, Option.map_some]⟩, ?_, hle⟩
  · exact mem_dedup.mpr (mem_map.mpr ⟨ev, h, rfl⟩)
  · exact ((latestOf_spec events).mem _ e he).2

/-- Entries made from different keys, each carrying its own, have different keys. -/
private theorem nodup_map_filterMap {κ β : Type} {ks : List κ} (hks : ks.Nodup) {f : κ → Option β}
    {key : β → κ} (h : ∀ k b, f k = some b → key b = k) : ((ks.filterMap f).map key).Nodup := by
  rw [map_filterMap]
  refine hks.filterMap fun k k' c hk hk' ↦ ?_
  obtain ⟨b, hb, rfl⟩ := Option.map_eq_some_iff.mp hk
  obtain ⟨b', hb', hkey⟩ := Option.map_eq_some_iff.mp hk'
  rw [← h k b hb, ← hkey, h k' b' hb']

theorem nodup_pair_copyRows : ((copyRows events).map ExecutionRow.pair).Nodup := by
  refine nodup_map_filterMap (nodup_dedup _) fun k row hrow ↦ ?_
  obtain ⟨ev, hev, rfl⟩ := Option.map_eq_some_iff.mp hrow
  exact ((latestOf_spec events).mem k ev hev).2

/-! ## Writing -/

/-- Two rows with the same primary key. -/
def ExecutionRow.conflicts (row row' : ExecutionRow) : Bool :=
  row.pair == row'.pair && row.transitionSeq == row'.transitionSeq

def ExecutionRow.primaryKey (row : ExecutionRow) : (UUID × UUID) × ℤ :=
  (row.pair, row.transitionSeq)

theorem ExecutionRow.conflicts_iff {row' : ExecutionRow} :
    row.conflicts row' = true ↔ row.primaryKey = row'.primaryKey := by
  rw [conflicts, Bool.and_eq_true, beq_iff_eq, beq_iff_eq]
  exact Prod.mk_inj.symm

/-- `INSERT ... ON CONFLICT (card_id, campaign_id, transition_seq) DO NOTHING`, one row. -/
def insertRow (table : List ExecutionRow) (row : ExecutionRow) : List ExecutionRow :=
  if table.any row.conflicts then table else table ++ [row]

/-- `COPY`: all rows, or an error when a primary key is taken. -/
def copyFrom (table : List ExecutionRow) : List ExecutionRow → Option (List ExecutionRow)
  | [] => some table
  | row :: rows =>
    if table.any row.conflicts then none else copyFrom (table ++ [row]) rows

inductive Statement
  | copy (rows : List ExecutionRow)
  | insert (chunk : List ExecutionRow)
  | updateStats (campaignID : UUID) (d : StatsDelta)

/-- The loop of `flushCardStatesFallback`; a chunk stays under the limit of 65535 parameters. -/
def fallbackLoop : ℕ → List ExecutionRow → List Statement
  | 0, _ => []
  | fuel + 1, rows =>
    if rows.isEmpty then []
    else .insert (rows.take (65535 / 10)) :: fallbackLoop fuel (rows.drop (65535 / 10))

/-- Bulk insertion in chunks, for when `COPY` is unavailable or failed. -/
def flushCardStatesFallback (rows : List ExecutionRow) : List Statement :=
  fallbackLoop rows.length rows

/-- Executes one statement; the result lists the statements to execute in its place.
`copyWorks` is false when the connection does not support `COPY` or the attempt failed for a reason
of its own. -/
def StateTables.execute (copyWorks : Bool) (t : StateTables) :
    Statement → StateTables × List Statement
  | .copy rows =>
    match if copyWorks then copyFrom t.executionStates rows else none with
    | some table => ({ t with executionStates := table }, [])
    | none => (t, flushCardStatesFallback rows)
  | .insert chunk =>
    ({ t with executionStates := chunk.foldl insertRow t.executionStates }, [])
  | .updateStats c d =>
    ({ t with campaignStats :=
        update t.campaignStats c ((t.campaignStats c).map (·.add d)) }, [])

/-- Executes a list of statements, each with the statements it is replaced by. -/
def StateTables.executeAll (copyWorks : Bool) (t : StateTables) (statements : List Statement) :
    StateTables :=
  statements.foldl (fun t s ↦ (t.execute copyWorks s).2.foldl
    (fun t s ↦ (t.execute copyWorks s).1) (t.execute copyWorks s).1) t

/-- The update with only the non-zero columns; nothing when all are zero. -/
def buildStatsUpdateSQL (d : StatsDelta) : Option StatsDelta :=
  if d .pending = 0 ∧ d .inProgress = 0 ∧ d .completed = 0 ∧ d .failed = 0 ∧ d .skipped = 0 then
    none
  else some d

/-- The counter updates of a batch. -/
def statsUpdates (events : List CardStateChange) : List (UUID × StatsDelta) :=
  (events.map CardStateChange.campaignID).dedup.filterMap fun c ↦
    ((counterDeltas events c).bind buildStatsUpdateSQL).map fun d ↦ (c, d)

theorem nodup_campaignID_statsUpdates : ((statsUpdates events).map Prod.fst).Nodup := by
  refine nodup_map_filterMap (nodup_dedup _) fun c u hu ↦ ?_
  obtain ⟨d, -, rfl⟩ := Option.map_eq_some_iff.mp hu
  rfl

theorem ne_zero_of_mem_statsUpdates {events : List CardStateChange} {u : UUID × StatsDelta}
    (h : u ∈ statsUpdates events) : u.2 ≠ 0 := by
  obtain ⟨c, -, hc⟩ := mem_filterMap.mp h
  obtain ⟨d, hd, rfl⟩ := Option.map_eq_some_iff.mp hc
  obtain ⟨d', -, hsql⟩ := Option.bind_eq_some_iff.mp hd
  rw [buildStatsUpdateSQL] at hsql
  split_ifs at hsql with hzero
  obtain rfl := Option.some.inj hsql
  rintro rfl
  exact hzero ⟨rfl, rfl, rfl, rfl, rfl⟩

/-- The statements of a batch, for a given order of the rows and of the updates. -/
def statementsOf (rows : List ExecutionRow) (updates : List (UUID × StatsDelta)) :
    List Statement :=
  (if rows.isEmpty then [] else [.copy rows]) ++ updates.map fun u ↦ .updateStats u.1 u.2

/-- Writes a batch, with nothing in between and no database error. -/
def writeCardStateBatch (copyWorks : Bool) (t : StateTables) (events : List CardStateChange) :
    StateTables :=
  t.executeAll copyWorks (statementsOf (copyRows events) (statsUpdates events))

/-! ## What an insertion leaves -/

/-- The rows a statement asks to be present. -/
def Statement.rows : Statement → List ExecutionRow
  | copy rows => rows
  | insert chunk => chunk
  | updateStats _ _ => []

private theorem rows_fallbackLoop (fuel : ℕ) (rows : List ExecutionRow) (h : rows.length ≤ fuel) :
    (fallbackLoop fuel rows).flatMap Statement.rows = rows := by
  induction fuel generalizing rows with
  | zero => rw [eq_nil_of_length_eq_zero (Nat.le_zero.mp h), fallbackLoop, flatMap_nil]
  | succ fuel ih =>
    rw [fallbackLoop]
    cases rows with
    | nil => rfl
    | cons row rows =>
      rw [if_neg (by simp), flatMap_cons, ih _ (by rw [length_drop]; rw [length_cons] at *; omega)]
      exact take_append_drop _ _

theorem rows_flushCardStatesFallback (rows : List ExecutionRow) :
    (flushCardStatesFallback rows).flatMap Statement.rows = rows :=
  rows_fallbackLoop _ _ le_rfl

variable {rows : List ExecutionRow}

private theorem mem_fallbackLoop {fuel : ℕ} {s : Statement}
    (h : s ∈ fallbackLoop fuel rows) : ∃ chunk, s = .insert chunk := by
  induction fuel generalizing rows with
  | zero => exact absurd h not_mem_nil
  | succ fuel ih =>
    rw [fallbackLoop] at h
    split_ifs at h
    · exact absurd h not_mem_nil
    · rcases mem_cons.mp h with rfl | h
      · exact ⟨_, rfl⟩
      · exact ih h

theorem mem_flushCardStatesFallback {s : Statement}
    (h : s ∈ flushCardStatesFallback rows) : ∃ chunk, s = .insert chunk :=
  mem_fallbackLoop h

variable {table : List ExecutionRow}

/-- `COPY` only succeeds when nothing conflicts, and then it does what insertion would. -/
theorem copyFrom_eq {result : List ExecutionRow}
    (h : copyFrom table rows = some result) : result = rows.foldl insertRow table := by
  induction rows generalizing table with
  | nil => exact (Option.some.inj h).symm
  | cons row rows ih =>
    rw [copyFrom] at h
    split_ifs at h with hconf
    rw [ih h, foldl_cons, insertRow, if_neg hconf]

variable (copyWorks : Bool) (t : StateTables)

/-- **What one statement does.** It inserts some rows, adds some counters, and what it leaves to be
done is exactly what it has not done. -/
theorem StateTables.execute_cases (s : Statement) : (t.execute copyWorks s
        = ({ t with executionStates := s.rows.foldl insertRow t.executionStates }, [])
      ∧ ∀ c d, s ≠ .updateStats c d) ∨
    (∃ rows, s = .copy rows ∧ t.execute copyWorks s = (t, flushCardStatesFallback rows)) ∨
    (∃ c d, s = .updateStats c d ∧ t.execute copyWorks s = ({ t with
        campaignStats := update t.campaignStats c ((t.campaignStats c).map (·.add d)) }, [])) := by
  cases s with
  | copy rows =>
    rw [execute]
    cases hcopy : (if copyWorks then copyFrom t.executionStates rows else none) with
    | none => exact Or.inr (Or.inl ⟨rows, rfl, rfl⟩)
    | some table =>
      have hfrom : copyFrom t.executionStates rows = some table := by
        cases copyWorks with
        | false => simp at hcopy
        | true => simpa using hcopy
      refine Or.inl ⟨?_, by simp⟩
      rw [copyFrom_eq hfrom, Statement.rows]
  | insert chunk => exact Or.inl ⟨rfl, by simp⟩
  | updateStats c d => exact Or.inr (Or.inr ⟨c, d, rfl, rfl⟩)

theorem exists_mem_insertRow (table : List ExecutionRow) (row : ExecutionRow) :
    ∃ x ∈ insertRow table row, x.pair = row.pair ∧ x.transitionSeq = row.transitionSeq := by
  rw [insertRow]
  split_ifs with hconf
  · obtain ⟨x, hx, hc⟩ := any_eq_true.mp hconf
    rw [ExecutionRow.conflicts, Bool.and_eq_true, beq_iff_eq, beq_iff_eq] at hc
    exact ⟨x, hx, hc.1.symm, hc.2.symm⟩
  · exact ⟨row, by simp, rfl, rfl⟩

theorem nodup_foldl_insertRow
    (h : (table.map ExecutionRow.primaryKey).Nodup) (rows : List ExecutionRow) :
    ((rows.foldl insertRow table).map ExecutionRow.primaryKey).Nodup := by
  induction rows generalizing table with
  | nil => exact h
  | cons row rows ih =>
    refine ih ?_
    rw [insertRow]
    split_ifs with hconf
    · exact h
    · rw [map_append, map_singleton, nodup_append]
      refine ⟨h, nodup_singleton _, ?_⟩
      rintro k hk k' hk' rfl
      obtain ⟨x, hx, hkey⟩ := mem_map.mp hk
      rw [mem_singleton.mp hk'] at hkey
      exact hconf (any_eq_true.mpr ⟨x, hx, ExecutionRow.conflicts_iff.mpr hkey.symm⟩)

theorem exists_foldl_insertRow_eq (table rows : List ExecutionRow) :
    ∃ added, rows.foldl insertRow table = table ++ added ∧ added.Sublist rows := by
  induction rows generalizing table with
  | nil => exact ⟨[], by rw [foldl_nil, append_nil], Sublist.refl _⟩
  | cons row rows ih =>
    rw [foldl_cons, insertRow]
    split_ifs
    · obtain ⟨added, heq, hsub⟩ := ih table
      exact ⟨added, heq, hsub.cons row⟩
    · obtain ⟨added, heq, hsub⟩ := ih (table ++ [row])
      exact ⟨row :: added, by rw [heq, append_assoc, singleton_append],
        hsub.cons_cons row⟩

theorem nodup_of_foldl_insertRow {added : List ExecutionRow}
    (h : rows.foldl insertRow table = table ++ added) : (added.map ExecutionRow.primaryKey).Nodup ∧
      ∀ row ∈ added, ∀ x ∈ table, x.primaryKey ≠ row.primaryKey := by
  induction rows generalizing table added with
  | nil =>
    rw [foldl_nil, self_eq_append_right] at h
    subst h
    exact ⟨nodup_nil, forall_mem_nil _⟩
  | cons row rows ih =>
    rw [foldl_cons, insertRow] at h
    split_ifs at h with hconf
    · exact ih h
    · obtain ⟨rest, heq, -⟩ := exists_foldl_insertRow_eq (table ++ [row]) rows
      obtain rfl : row :: rest = added := by
        rw [heq, append_assoc, singleton_append] at h
        exact append_cancel_left h
      obtain ⟨hnodup, hfresh⟩ := ih heq
      refine ⟨?_, fun r hr x hx ↦ ?_⟩
      · rw [map_cons, nodup_cons]
        refine ⟨fun hmem ↦ ?_, hnodup⟩
        obtain ⟨r, hr, hkey⟩ := mem_map.mp hmem
        exact hfresh r hr row (mem_append_right _ mem_cons_self) hkey.symm
      · rcases mem_cons.mp hr with rfl | hr
        · intro hkey
          exact hconf (any_eq_true.mpr ⟨x, hx, ExecutionRow.conflicts_iff.mpr hkey.symm⟩)
        · exact hfresh r hr x (mem_append_left _ hx)

theorem foldl_insertRow_eq_append (hnodup : (rows.map ExecutionRow.primaryKey).Nodup)
    (hfresh : ∀ row ∈ rows, ∀ x ∈ table, x.primaryKey ≠ row.primaryKey) :
    rows.foldl insertRow table = table ++ rows := by
  induction rows generalizing table with
  | nil => exact (append_nil table).symm
  | cons row rows ih =>
    rw [map_cons, nodup_cons] at hnodup
    have hconf : ¬ table.any row.conflicts = true := by
      intro hany
      obtain ⟨x, hx, hc⟩ := any_eq_true.mp hany
      exact hfresh row mem_cons_self x hx (ExecutionRow.conflicts_iff.mp hc).symm
    rw [foldl_cons, insertRow, if_neg hconf, ih hnodup.2, append_assoc, singleton_append]
    intro r hr x hx
    rcases mem_append.mp hx with hx | hx
    · exact hfresh r (mem_cons_of_mem _ hr) x hx
    · rw [mem_singleton.mp hx]
      intro hkey
      exact hnodup.1 (hkey ▸ mem_map_of_mem hr)

theorem exists_mem_foldl_insertRow (table : List ExecutionRow) (h : row ∈ rows) :
    ∃ x ∈ rows.foldl insertRow table, x.pair = row.pair ∧ x.transitionSeq = row.transitionSeq := by
  induction rows generalizing table with
  | nil => exact absurd h not_mem_nil
  | cons r rows ih =>
    rw [foldl_cons]
    rcases mem_cons.mp h with rfl | h
    · obtain ⟨x, hx, hkey⟩ := exists_mem_insertRow table row
      obtain ⟨added, heq, -⟩ := exists_foldl_insertRow_eq (insertRow table row) rows
      exact ⟨x, by rw [heq]; exact mem_append_left _ hx, hkey⟩
    · exact ih (insertRow table r) h

/-! ## What the counter updates add up to -/

/-- What a statement adds to the counters of a campaign. -/
def Statement.delta (campaignID : UUID) : Statement → StatsDelta
  | updateStats c d => if c = campaignID then d else 0
  | _ => 0

theorem Statement.delta_eq_zero {s : Statement} (h : ∀ c d, s ≠ .updateStats c d)
    (campaignID : UUID) : s.delta campaignID = 0 := by
  cases s with
  | copy _ | insert _ => rfl
  | updateStats c d => exact absurd rfl (h c d)

/-- What a list of statements adds to the counters of a campaign. -/
def statementsDelta (statements : List Statement) (campaignID : UUID) : StatsDelta :=
  (statements.map (Statement.delta campaignID)).sum

private theorem getD_buildStatsUpdateSQL (d : Option StatsDelta) :
    (d.bind buildStatsUpdateSQL).getD 0 = d.getD 0 := by
  cases d with
  | none => rfl
  | some d =>
    rw [Option.bind_some, buildStatsUpdateSQL]
    split_ifs with hzero
    · obtain ⟨h1, h2, h3, h4, h5⟩ := hzero
      refine funext fun col ↦ ?_
      cases col <;> simp [*]
    · rfl

private theorem sum_delta_filterMap (ks : List UUID) (hnodup : ks.Nodup)
    (f : UUID → Option StatsDelta) (campaignID : UUID) :
    (((ks.filterMap fun c ↦ (f c).map fun d ↦ (c, d)).map
        fun u ↦ Statement.updateStats u.1 u.2).map (Statement.delta campaignID)).sum
      = if campaignID ∈ ks then (f campaignID).getD 0 else 0 := by
  induction ks with
  | nil => rfl
  | cons k ks ih =>
    obtain ⟨hk, hnodup⟩ := nodup_cons.mp hnodup
    have hhead : (((([k].filterMap fun c ↦ (f c).map fun d ↦ (c, d)).map
        fun u ↦ Statement.updateStats u.1 u.2).map (Statement.delta campaignID)).sum
          = if k = campaignID then (f k).getD 0 else 0) := by
      cases hf : f k with
      | none => simp [hf]
      | some d => simp [hf, Statement.delta]
    rw [← singleton_append, filterMap_append, map_append, map_append, sum_append, hhead, ih hnodup]
    by_cases hkc : k = campaignID
    · subst hkc
      simp [hk]
    · simp [hkc, Ne.symm hkc]

/-- The updates of a batch add what its transitions add: leaving out a campaign whose deltas cancel
out loses nothing, and no campaign is updated twice. -/
theorem statementsDelta_statementsOf {updates : List (UUID × StatsDelta)}
    (hupdates : updates.Perm (statsUpdates events)) (campaignID : UUID) :
    statementsDelta (statementsOf rows updates) campaignID = campaignDelta events campaignID := by
  have hrows : statementsDelta (statementsOf rows updates) campaignID
      = ((updates.map fun u ↦ Statement.updateStats u.1 u.2).map
          (Statement.delta campaignID)).sum := by
    rw [statementsDelta, statementsOf, map_append, sum_append]
    split_ifs <;> simp [Statement.delta]
  rw [hrows, ((hupdates.map _).map _).sum_eq, statsUpdates,
    sum_delta_filterMap _ (nodup_dedup _) (fun c ↦ (counterDeltas events c).bind
      buildStatsUpdateSQL), getD_buildStatsUpdateSQL, counterDeltas_getD]
  split_ifs with hmem
  · rfl
  · have hnone : events.filter (fun ev ↦ ev.campaignID = campaignID) = [] := by
      rw [filter_eq_nil_iff]
      intro ev hev hc
      apply hmem
      rw [mem_dedup]
      exact mem_map.mpr ⟨ev, hev, of_decide_eq_true hc⟩
    rw [campaignDelta, hnone, map_nil, sum_nil]

/-! ## The specification of a batch -/

theorem rows_statementsOf (rows : List ExecutionRow) (updates : List (UUID × StatsDelta)) :
    (statementsOf rows updates).flatMap Statement.rows = rows := by
  have hupdates : (updates.map fun u ↦ Statement.updateStats u.1 u.2).flatMap Statement.rows
      = [] := by
    rw [flatMap_eq_nil_iff]
    intro s hs
    obtain ⟨u, -, rfl⟩ := mem_map.mp hs
    rfl
  rw [statementsOf, flatMap_append, hupdates, append_nil]
  cases rows with
  | nil => rfl
  | cons row rows => simp [Statement.rows]

private theorem execute_foldl (s : Statement) :
    (t.execute copyWorks s).2.foldl (fun t s ↦ (t.execute copyWorks s).1) (t.execute copyWorks s).1
      = ⟨s.rows.foldl insertRow t.executionStates,
          fun c ↦ (t.campaignStats c).map (·.add (s.delta c))⟩ := by
  have hinserts : ∀ (chunks : List Statement), (∀ s ∈ chunks, ∃ chunk, s = .insert chunk) →
      ∀ t : StateTables, chunks.foldl (fun t s ↦ (t.execute copyWorks s).1) t
        = ⟨(chunks.flatMap Statement.rows).foldl insertRow t.executionStates,
            t.campaignStats⟩ := by
    intro chunks hchunks
    induction chunks with
    | nil => exact fun t ↦ rfl
    | cons s chunks ih =>
      intro t
      obtain ⟨chunk, rfl⟩ := hchunks s mem_cons_self
      rw [foldl_cons, ih fun s hs ↦ hchunks s (mem_cons_of_mem _ hs), flatMap_cons, foldl_append]
      rfl
  rcases t.execute_cases copyWorks s with ⟨heq, hne⟩ | ⟨rows, rfl, heq⟩ | ⟨c, d, rfl, heq⟩
  · rw [heq]
    simp [Statement.delta_eq_zero hne]
  · rw [heq, hinserts _ (fun s hs ↦ mem_flushCardStatesFallback hs), rows_flushCardStatesFallback]
    simp [Statement.rows, Statement.delta]
  · rw [heq]
    simp only [foldl_nil, Statement.rows, Statement.delta]
    congr 1
    refine funext fun c' ↦ ?_
    by_cases hc : c = c'
    · subst hc
      rw [update_self, if_pos rfl]
    · rw [update_of_ne (Ne.symm hc), if_neg hc]
      simp

private theorem executeAll_eq (statements : List Statement) : t.executeAll copyWorks statements
      = ⟨(statements.flatMap Statement.rows).foldl insertRow t.executionStates,
          fun c ↦ (t.campaignStats c).map (·.add (statementsDelta statements c))⟩ := by
  induction statements generalizing t with
  | nil => simp [StateTables.executeAll, statementsDelta]
  | cons s statements ih =>
    have hstep : t.executeAll copyWorks (s :: statements)
        = ((t.execute copyWorks s).2.foldl (fun t s ↦ (t.execute copyWorks s).1)
            (t.execute copyWorks s).1).executeAll copyWorks statements := rfl
    rw [hstep, execute_foldl, ih, flatMap_cons, foldl_append]
    congr 1
    refine funext fun c ↦ ?_
    rw [Option.map_map]
    congr 1
    refine funext fun r ↦ ?_
    rw [comp_apply, CampaignStatsRow.add_add, statementsDelta, statementsDelta, map_cons, sum_cons]

/-- **A batch inserts its rows** that are not there yet. -/
theorem executionStates_writeCardStateBatch (events : List CardStateChange) :
    (writeCardStateBatch copyWorks t events).executionStates
      = (copyRows events).foldl insertRow t.executionStates := by
  rw [writeCardStateBatch, executeAll_eq, rows_statementsOf]

theorem exists_executionStates_writeCardStateBatch (events : List CardStateChange) :
    ∃ added, (writeCardStateBatch copyWorks t events).executionStates
        = t.executionStates ++ added ∧ ∀ row ∈ added, ∃ ev ∈ events, row = ev.toRow := by
  rw [executionStates_writeCardStateBatch]
  obtain ⟨added, heq, hsub⟩ := exists_foldl_insertRow_eq t.executionStates (copyRows events)
  exact ⟨added, heq, fun row hrow ↦ exists_of_mem_copyRows (hsub.subset hrow)⟩

/-- **A batch counts all its events**, those that lost their row to a newer one included. -/
theorem campaignStats_writeCardStateBatch (events : List CardStateChange) (campaignID : UUID) :
    (writeCardStateBatch copyWorks t events).campaignStats campaignID
      = (t.campaignStats campaignID).map (·.add (campaignDelta events campaignID)) := by
  rw [writeCardStateBatch, executeAll_eq]
  simp only [statementsDelta_statementsOf events (Perm.refl _)]

/-! ## Reading back -/

/-- `DISTINCT ON (card_id) ... ORDER BY card_id, transition_seq DESC`: the row with the highest
sequence number of a card in a campaign. -/
def latestRow (table : List ExecutionRow) (pair : UUID × UUID) : Option ExecutionRow :=
  -- the order of `ℤ` is named because other instances of it do not compute
  @argmax _ _ Int.instLinearOrder.toPartialOrder.toPreorder Int.instLinearOrder.toDecidableLT
    ExecutionRow.transitionSeq (table.filter fun row ↦ row.pair = pair)

theorem mem_of_latestRow {pair : UUID × UUID}
    (h : latestRow table pair = some row) : row ∈ table ∧ row.pair = pair := by
  have hmem := mem_filter.mp (argmax_mem h)
  exact ⟨hmem.1, of_decide_eq_true hmem.2⟩

theorem le_of_latestRow {pair : UUID × UUID}
    (h : latestRow table pair = some row) {x : ExecutionRow} (hx : x ∈ table)
    (hpair : x.pair = pair) : x.transitionSeq ≤ row.transitionSeq :=
  le_of_mem_argmax (mem_filter.mpr ⟨hx, decide_eq_true hpair⟩) h

theorem latestRow_eq_of_forall (hmem : row ∈ table)
    (hmax : ∀ x ∈ table, x.pair = row.pair → row.transitionSeq ≤ x.transitionSeq → x = row) :
    latestRow table row.pair = some row := by
  cases hlatest : latestRow table row.pair with
  | none =>
    rw [latestRow, argmax_eq_none, filter_eq_nil_iff] at hlatest
    exact absurd (decide_eq_true rfl) (hlatest row hmem)
  | some x =>
    obtain ⟨hx, hpair⟩ := mem_of_latestRow hlatest
    rw [hmax x hx hpair (le_of_latestRow hlatest hmem rfl)]

theorem latestRow_append_of_forall_le {added : List ExecutionRow} {pair : UUID × UUID}
    (hrow : latestRow table pair = some row)
    (hle : ∀ x ∈ added, x.pair = pair → x.transitionSeq ≤ row.transitionSeq) :
    latestRow (table ++ added) pair = some row := by
  induction added using reverseRecOn with
  | nil => rw [append_nil, hrow]
  | append_singleton added x ih =>
    have ih := ih fun y hy ↦ hle y (mem_append_left _ hy)
    rw [latestRow] at ih ⊢
    rw [← append_assoc, filter_append]
    by_cases hx : x.pair = pair
    · have hxle := hle x (by simp) hx
      rw [filter_cons_of_pos (by simpa using hx), filter_nil, argmax_concat, ih]
      exact if_neg (not_lt.mpr hxle)
    · rw [filter_cons_of_neg (by simpa using hx), filter_nil, append_nil, ih]

end OtaPlatform
