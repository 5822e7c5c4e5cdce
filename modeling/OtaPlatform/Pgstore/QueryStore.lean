import OtaPlatform.Pgstore.CardStateWriter
import OtaPlatform.Sql.BulkInsert

/-!
# The control-plane statements on card states

`InitializeCampaign`, `ResetFailedCards` and `AbortCampaign` rewrite the same two tables as the
batched writer, each in one transaction. They append rows and never change one.
-/

namespace OtaPlatform

open List Function

/-- The rows of a campaign, whatever their card. -/
def campaignRows (table : List ExecutionRow) (campaignID : UUID) : List ExecutionRow :=
  table.filter fun row ↦ row.campaignID = campaignID

def campaignCards (table : List ExecutionRow) (campaignID : UUID) : List UUID :=
  ((campaignRows table campaignID).map ExecutionRow.cardID).dedup

theorem mem_campaignCards {table : List ExecutionRow} {campaignID cardID : UUID} :
    cardID ∈ campaignCards table campaignID ↔ ∃ row ∈ table, row.pair = (cardID, campaignID) := by
  simp only [campaignCards, campaignRows, mem_dedup, mem_map, mem_filter,
    decide_eq_true_eq, ExecutionRow.pair, Prod.mk.injEq]
  constructor
  · rintro ⟨row, ⟨hrow, hc⟩, hcard⟩
    exact ⟨row, hrow, hcard, hc⟩
  · rintro ⟨row, hrow, hcard, hc⟩
    exact ⟨row, ⟨hrow, hc⟩, hcard⟩

/-- The row `InitializeCampaign` inserts for a card. -/
def initialRow (campaignID : UUID) (initialStep updatedAt : ℤ) (cardID : UUID) : ExecutionRow where
  cardID := cardID
  campaignID := campaignID
  status := .pending
  currentStep := initialStep
  retryCount := 0
  lastMsgID := none
  lastSMPPID := ""
  lastError := ""
  transitionSeq := 0
  updatedAt := updatedAt

/-- `SELECT COUNT(*) ... WHERE campaign_id = ? AND transition_seq = 0`. -/
def initialCount (table : List ExecutionRow) (campaignID : UUID) : ℤ :=
  ((campaignRows table campaignID).filter fun row ↦ row.transitionSeq = 0).length

/-- `INSERT ... ON CONFLICT (campaign_id) DO UPDATE SET total, pending`. -/
def upsertPending (n : ℤ) : Option CampaignStatsRow → CampaignStatsRow
  | none => ⟨n, fun col ↦ if col = .pending then n else 0⟩
  | some r => ⟨n, update r.counts .pending n⟩

/-- Inserts the initial rows and sets `total` and `pending` to their number. -/
def initializeCampaign (t : StateTables) (campaignID : UUID) (cardIDs : List UUID)
    (initialStep updatedAt : ℤ) : StateTables :=
  if cardIDs.isEmpty then t
  else
    let table := (cardIDs.map (initialRow campaignID initialStep updatedAt)).foldl insertRow
      t.executionStates
    { executionStates := table
      campaignStats := update t.campaignStats campaignID
        (some (upsertPending (initialCount table campaignID) (t.campaignStats campaignID))) }

/-- The row `ResetFailedCards` appends after the latest row of a card. -/
def resetRow (step updatedAt : ℤ) (latest : ExecutionRow) : ExecutionRow where
  cardID := latest.cardID
  campaignID := latest.campaignID
  status := .pending
  currentStep := step
  retryCount := 0
  lastMsgID := none
  lastSMPPID := ""
  lastError := ""
  transitionSeq := latest.transitionSeq + 1
  updatedAt := updatedAt

/-- The rows `ResetFailedCards` appends: one for each listed card with a row in the campaign,
whatever the status of that row. -/
def resetRows (table : List ExecutionRow) (campaignID : UUID) (cardIDs : List UUID)
    (step updatedAt : ℤ) : List ExecutionRow :=
  cardIDs.dedup.filterMap fun cardID ↦
    (latestRow table (cardID, campaignID)).map (resetRow step updatedAt)

/-- What `ResetFailedCards` commits: `pending` rows are appended, and as many cards move from
`failed` to `pending`. -/
def resetTransaction (t : StateTables) (campaignID : UUID) (cardIDs : List UUID)
    (step updatedAt : ℤ) : StateTables :=
  let rows := resetRows t.executionStates campaignID cardIDs step updatedAt
  if rows.isEmpty then t
  else
    { executionStates := t.executionStates ++ rows
      campaignStats := update t.campaignStats campaignID
        ((t.campaignStats campaignID).map (·.add fun col ↦
          if col = .failed then -rows.length else if col = .pending then rows.length else 0)) }

/-- The cards are parameters of the `INSERT`, next to three others. With too many of them it is
refused, and the transaction is rolled back. -/
def resetFailedCards (t : StateTables) (campaignID : UUID) (cardIDs : List UUID)
    (step updatedAt : ℤ) : Option StateTables :=
  if BulkInsert.maxParameters < cardIDs.length + 3 then none
  else some (resetTransaction t campaignID cardIDs step updatedAt)

/-- The row `AbortCampaign` appends after the latest row of a card. -/
def skippedRow (updatedAt : ℤ) (latest : ExecutionRow) : ExecutionRow where
  cardID := latest.cardID
  campaignID := latest.campaignID
  status := .skipped
  currentStep := latest.currentStep
  retryCount := latest.retryCount
  lastMsgID := none
  lastSMPPID := ""
  lastError := ""
  transitionSeq := latest.transitionSeq + 1
  updatedAt := updatedAt

/-- The rows `AbortCampaign` appends: one for each card whose latest row is not terminal. -/
def abortRows (table : List ExecutionRow) (campaignID : UUID) (updatedAt : ℤ) :
    List ExecutionRow :=
  (campaignCards table campaignID).filterMap fun cardID ↦
    ((latestRow table (cardID, campaignID)).filter fun row ↦ !row.status.isTerminal).map
      (skippedRow updatedAt)

/-- `SET skipped = skipped + pending + in_progress, pending = 0, in_progress = 0`. -/
def CampaignStatsRow.skipOpen (r : CampaignStatsRow) : CampaignStatsRow where
  total := r.total
  counts
    | .pending | .inProgress => 0
    | .skipped => r.counts .skipped + r.counts .pending + r.counts .inProgress
    | col => r.counts col

/-- Appends `skipped` rows; `pending` and `in_progress` move to `skipped` as they stand. -/
def abortCampaign (t : StateTables) (campaignID : UUID) (updatedAt : ℤ) : StateTables :=
  let rows := abortRows t.executionStates campaignID updatedAt
  if rows.isEmpty then t
  else
    { executionStates := t.executionStates ++ rows
      campaignStats := update t.campaignStats campaignID
        ((t.campaignStats campaignID).map CampaignStatsRow.skipOpen) }

/-! ## The rows they append -/

section Rows

variable {t : StateTables} {table : List ExecutionRow} {campaignID : UUID} {cardIDs : List UUID}
  {step updatedAt : ℤ} {row : ExecutionRow}

theorem exists_executionStates_initializeCampaign (t : StateTables) (campaignID : UUID)
    (cardIDs : List UUID) (step updatedAt : ℤ) :
    ∃ added, (initializeCampaign t campaignID cardIDs step updatedAt).executionStates
        = t.executionStates ++ added ∧
      added.Sublist (cardIDs.map (initialRow campaignID step updatedAt)) := by
  rw [initializeCampaign]
  split_ifs
  · exact ⟨[], (append_nil _).symm, nil_sublist _⟩
  · exact exists_foldl_insertRow_eq _ _

theorem pairs_initializeCampaign {added : List ExecutionRow}
    (h : (initializeCampaign t campaignID cardIDs step updatedAt).executionStates
      = t.executionStates ++ added) :
    (added.map ExecutionRow.pair).Nodup ∧ ∀ row ∈ added, row.transitionSeq = 0 ∧
      (∃ cardID ∈ cardIDs, row.pair = (cardID, campaignID)) ∧
      ∀ x ∈ t.executionStates, x.primaryKey ≠ row.primaryKey := by
  have hrows : ∀ row ∈ added, ∃ cardID ∈ cardIDs,
      initialRow campaignID step updatedAt cardID = row := by
    obtain ⟨added', heq, hsub⟩ := exists_executionStates_initializeCampaign t campaignID cardIDs
      step updatedAt
    obtain rfl := append_cancel_left (heq.symm.trans h)
    exact fun row hrow ↦ mem_map.mp (hsub.subset hrow)
  have hkeys : (added.map ExecutionRow.primaryKey).Nodup ∧
      ∀ row ∈ added, ∀ x ∈ t.executionStates, x.primaryKey ≠ row.primaryKey := by
    rw [initializeCampaign] at h
    split_ifs at h
    · obtain rfl := self_eq_append_right.mp h
      exact ⟨nodup_nil, forall_mem_nil _⟩
    · exact nodup_of_foldl_insertRow h
  constructor
  · refine Nodup.of_map (fun pair : UUID × UUID ↦ (pair, (0 : ℤ))) ?_
    rw [map_map]
    refine (congrArg Nodup (map_congr_left fun row hrow ↦ ?_)).mpr hkeys.1
    obtain ⟨cardID, -, rfl⟩ := hrows row hrow
    rfl
  · intro row hrow
    refine ⟨?_, ?_, hkeys.2 row hrow⟩
    · obtain ⟨cardID, -, rfl⟩ := hrows row hrow
      rfl
    · obtain ⟨cardID, hcard, rfl⟩ := hrows row hrow
      exact ⟨cardID, hcard, rfl⟩

theorem nodup_initializeCampaign (h : (t.executionStates.map ExecutionRow.primaryKey).Nodup) :
    ((initializeCampaign t campaignID cardIDs step updatedAt).executionStates.map
      ExecutionRow.primaryKey).Nodup := by
  rw [initializeCampaign]
  split_ifs
  · exact h
  · exact nodup_foldl_insertRow h _

theorem campaignStats_initializeCampaign (c : UUID) :
    (initializeCampaign t campaignID cardIDs step updatedAt).campaignStats c
      = if c = campaignID ∧ cardIDs ≠ [] then
          some (upsertPending (initialCount
            (initializeCampaign t campaignID cardIDs step updatedAt).executionStates campaignID)
            (t.campaignStats c)) else t.campaignStats c := by
  by_cases hempty : cardIDs = []
  · rw [if_neg fun hand ↦ hand.2 hempty, initializeCampaign, if_pos (isEmpty_iff.mpr hempty)]
  · rw [initializeCampaign, if_neg fun h ↦ hempty (isEmpty_iff.mp h)]
    by_cases hc : c = campaignID
    · subst hc
      rw [if_pos ⟨rfl, hempty⟩]
      exact update_self _ _ _
    · rw [if_neg fun hand ↦ hc hand.1]
      exact update_of_ne hc _ _

theorem executionStates_resetTransaction :
    (resetTransaction t campaignID cardIDs step updatedAt).executionStates
      = t.executionStates ++ resetRows t.executionStates campaignID cardIDs step updatedAt := by
  rw [resetTransaction]
  split_ifs with hempty
  · rw [isEmpty_iff.mp hempty, append_nil]
  · rfl

theorem campaignStats_resetTransaction (c : UUID) :
    (resetTransaction t campaignID cardIDs step updatedAt).campaignStats c = if c = campaignID then
          let n : ℤ := (resetRows t.executionStates campaignID cardIDs step updatedAt).length
          (t.campaignStats c).map (·.add fun col ↦
            if col = .failed then -n else if col = .pending then n else 0)
        else t.campaignStats c := by
  rw [resetTransaction]
  by_cases hc : c = campaignID
  · subst hc
    rw [if_pos rfl]
    split_ifs with hempty
    · have hid : (fun r : CampaignStatsRow ↦ r.add fun _ ↦ 0) = id :=
        funext fun r ↦ r.add_zero
      simp [isEmpty_iff.mp hempty, hid]
    · exact update_self _ _ _
  · rw [if_neg hc]
    split_ifs
    · rfl
    · exact update_of_ne hc _ _

/-- A reset that is refused leaves what a reset of no card leaves. -/
theorem exists_resetTransaction (t : StateTables) (campaignID : UUID) (cardIDs : List UUID)
    (step updatedAt : ℤ) : ∃ listed ⊆ cardIDs,
      (resetFailedCards t campaignID cardIDs step updatedAt).getD t
        = resetTransaction t campaignID listed step updatedAt := by
  rw [resetFailedCards]
  split_ifs
  · exact ⟨[], nil_subset _, rfl⟩
  · exact ⟨cardIDs, Subset.refl _, rfl⟩

theorem executionStates_abortCampaign : (abortCampaign t campaignID updatedAt).executionStates
      = t.executionStates ++ abortRows t.executionStates campaignID updatedAt := by
  rw [abortCampaign]
  split_ifs with hempty
  · rw [isEmpty_iff.mp hempty, append_nil]
  · rfl

theorem campaignStats_abortCampaign (c : UUID) :
    (abortCampaign t campaignID updatedAt).campaignStats c
      = if c = campaignID ∧ abortRows t.executionStates campaignID updatedAt ≠ [] then
          (t.campaignStats c).map CampaignStatsRow.skipOpen else t.campaignStats c := by
  rw [abortCampaign]
  by_cases hempty : abortRows t.executionStates campaignID updatedAt = []
  · rw [if_pos (isEmpty_iff.mpr hempty), if_neg fun hand ↦ hand.2 hempty]
  · rw [if_neg fun h ↦ hempty (isEmpty_iff.mp h)]
    by_cases hc : c = campaignID
    · subst hc
      rw [if_pos ⟨rfl, hempty⟩]
      exact update_self _ _ _
    · rw [if_neg fun hand ↦ hc hand.1]
      exact update_of_ne hc _ _

theorem mem_resetRows : row ∈ resetRows table campaignID cardIDs step updatedAt ↔
    ∃ cardID ∈ cardIDs, ∃ latest, latestRow table (cardID, campaignID) = some latest ∧
      resetRow step updatedAt latest = row := by
  simp only [resetRows, mem_filterMap, mem_dedup, Option.map_eq_some_iff]

theorem mem_abortRows : row ∈ abortRows table campaignID updatedAt ↔
    ∃ cardID latest, latestRow table (cardID, campaignID) = some latest ∧
      latest.status.isTerminal = false ∧ skippedRow updatedAt latest = row := by
  simp only [abortRows, mem_filterMap, Option.map_eq_some_iff, Option.filter_eq_some_iff,
    Bool.not_eq_true']
  constructor
  · rintro ⟨cardID, -, latest, ⟨hlatest, hstatus⟩, hrow⟩
    exact ⟨cardID, latest, hlatest, hstatus, hrow⟩
  · rintro ⟨cardID, latest, hlatest, hstatus, hrow⟩
    exact ⟨cardID, mem_campaignCards.mpr ⟨latest, mem_of_latestRow hlatest⟩, latest,
      ⟨hlatest, hstatus⟩, hrow⟩

private theorem nodup_pairs_filterMap (campaignID : UUID) {cards : List UUID}
    (hnodup : cards.Nodup) (f : UUID → Option ExecutionRow)
    (hf : ∀ cardID row, f cardID = some row → row.pair = (cardID, campaignID)) :
    ((cards.filterMap f).map ExecutionRow.pair).Nodup := by
  have hcards : (cards.filterMap f).Pairwise fun row row' ↦ row.pair ≠ row'.pair := by
    refine pairwise_filterMap.mpr (hnodup.imp ?_)
    intro card card' hne row hrow row' hrow' heq
    rw [hf card row hrow, hf card' row' hrow'] at heq
    exact hne (Prod.mk.inj heq).1
  exact pairwise_map.mpr hcards

theorem nodup_pairs_resetRows :
    ((resetRows table campaignID cardIDs step updatedAt).map ExecutionRow.pair).Nodup := by
  refine nodup_pairs_filterMap campaignID (nodup_dedup _) _ fun cardID row hrow ↦ ?_
  obtain ⟨latest, hlatest, rfl⟩ := Option.map_eq_some_iff.mp hrow
  exact (mem_of_latestRow hlatest).2

theorem nodup_pairs_abortRows :
    ((abortRows table campaignID updatedAt).map ExecutionRow.pair).Nodup := by
  refine nodup_pairs_filterMap campaignID (nodup_dedup _) _ fun cardID row hrow ↦ ?_
  obtain ⟨latest, hlatest, rfl⟩ := Option.map_eq_some_iff.mp hrow
  exact (mem_of_latestRow (Option.filter_eq_some_iff.mp hlatest).1).2

end Rows

/-- The status `runCompletionChecker` gives a running campaign with these counters; `none` when it
leaves the campaign alone. -/
def completionStatus (stats : CampaignStatsRow) : Option CampaignStatus :=
  if stats.counts .pending > 0 ∨ stats.counts .inProgress > 0 then none
  else if stats.counts .completed = 0 ∧ stats.counts .failed > 0 then some .failed
  else some .completed

end OtaPlatform
