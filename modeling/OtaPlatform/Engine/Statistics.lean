import Mathlib.Algebra.BigOperators.Pi
import Mathlib.Algebra.BigOperators.Ring.Finset
import OtaPlatform.Engine.Emissions

/-!
# Campaign statistics

`campaign_stats` counts the cards of a campaign by the column their status belongs to. No statement
counts the cards: the emitting sites send the column they think the card leaves, and the control
plane moves whole columns. When every transition has been applied, the counters should agree with
the last transitions of the cards.

The sites do not look at what the card was counted under. An activation always leaves `pending`,
also for a second command and for a retry, so the counters drift apart as soon as a card is
activated twice. They agree in the runs in which each transition leaves the column of the one before
it and the control plane moves cards whose transitions have been applied.

## Accounting

`Ledger.tally` of the transitions is what the counters should be. A row of `campaign_stats` plus
what is still on its way to it is that tally, and every step changes both by the same amount.
-/

namespace OtaPlatform

open Engine List

namespace Engine

variable (s : Engine) (campaignID : UUID)

/-- The column of the last transition of a card in a campaign. -/
def column (pair : UUID × UUID) : Option StatsColumn :=
  (s.last pair).bind fun row ↦ statusColumn row.status

def campaignPairs : Finset (UUID × UUID) := s.pairs.filter fun pair ↦ pair.2 = campaignID

/-- The cards of a campaign whose last transition belongs to the column. -/
def cardsIn (col : StatsColumn) : Finset (UUID × UUID) :=
  s.pairs.filter fun pair ↦ pair.2 = campaignID ∧ s.column pair = some col

/-- Every transition of the campaign has been applied. -/
def Settled : Prop := ∀ ch ∈ s.stateCh, ch.campaignID ≠ campaignID

/-- The transition of a call leaves the column of the one before it. -/
def LeavesLast (ev : CardEvent) (ans : Answers) : Prop :=
  ∀ c ∈ s.moves ev ans, s.column (ev.cardID, c) = statusColumn (ev.movesFrom ans)

def ResetsFailed (cardIDs : List UUID) : Prop :=
  ∀ cardID ∈ cardIDs, (latestRow s.tables.executionStates (cardID, campaignID)).isSome →
    s.column (cardID, campaignID) = some .failed

/-- The table shows which cards of the campaign are done. -/
def ShowsDone : Prop :=
  ∀ pair ∈ s.campaignPairs campaignID,
    (latestRow s.tables.executionStates pair).map (fun row ↦ row.status.isTerminal)
      = (s.last pair).map fun row ↦ row.status.isTerminal

end Engine

/-- **The condition.** Each transition leaves the column of the one before it; a campaign is
initialized before its cards are activated; cards that are reset have failed; and a campaign is
aborted when its transitions have been applied and the table shows which cards are done. -/
def StatsGuard (s : Engine) : EngineAction → Prop
  | .handle ev ans _ => s.LeavesLast ev ans
  | .initCampaign campaignID _ _ _ => s.Settled campaignID ∧
      ∀ pair ∈ s.campaignPairs campaignID, s.column pair = some .pending
  | .reset campaignID cardIDs _ _ => s.ResetsFailed campaignID cardIDs
  | .abort campaignID _ => s.Settled campaignID ∧ s.ShowsDone campaignID
  | _ => True

instance (s : Engine) (campaignID : UUID) : Decidable (s.Settled campaignID) := by
  unfold Settled
  infer_instance

instance (s : Engine) (ev : CardEvent) (ans : Answers) : Decidable (s.LeavesLast ev ans) := by
  unfold LeavesLast
  infer_instance

instance (s : Engine) (campaignID : UUID) (cardIDs : List UUID) :
    Decidable (s.ResetsFailed campaignID cardIDs) := by
  unfold Engine.ResetsFailed
  infer_instance

instance (s : Engine) (campaignID : UUID) : Decidable (s.ShowsDone campaignID) := by
  unfold ShowsDone
  infer_instance

instance (s : Engine) : (a : EngineAction) → Decidable (StatsGuard s a)
  | .handle ev ans _ => inferInstanceAs (Decidable (s.LeavesLast ev ans))
  | .initCampaign campaignID _ _ _ => inferInstanceAs (Decidable (s.Settled campaignID ∧
      ∀ pair ∈ s.campaignPairs campaignID, s.column pair = some .pending))
  | .reset campaignID cardIDs _ _ => inferInstanceAs (Decidable (s.ResetsFailed campaignID cardIDs))
  | .abort campaignID _ =>
    inferInstanceAs (Decidable (s.Settled campaignID ∧ s.ShowsDone campaignID))
  | .plan _ | .release _ | .lookup _ _ | .flush _ _ | .preloadShard _ _ _ _ | .check _ =>
    isTrue trivial

/-! ## Columns and tallies -/

/-- What a transition counts for in a campaign. -/
def weight (campaignID : UUID) (row : ExecutionRow) : StatsDelta :=
  if row.campaignID = campaignID then columnUnit row.status else 0

/-- What the counters of a campaign should be. -/
def Engine.tally (s : Engine) (campaignID : UUID) : StatsDelta :=
  Ledger.tally ExecutionRow.pair (weight campaignID) s.transitions

variable {pair : UUID × UUID} {rows : List ExecutionRow}

section Tally

variable {s s' : Engine} {campaignID : UUID} {col : StatsColumn}

theorem Engine.campaignID_of_last {row : ExecutionRow}
    (h : s.last pair = some row) : row.campaignID = pair.2 := by
  rw [← (Ledger.mem_of_lastOf h).2]
  rfl

private theorem tally_eq_sum (s : Engine) (campaignID : UUID) (col : StatsColumn) :
    s.tally campaignID col = ∑ pair ∈ s.pairs,
      if pair.2 = campaignID ∧ s.column pair = some col then (1 : ℤ) else 0 := by
  rw [tally, Ledger.tally, Finset.sum_apply]
  refine Finset.sum_congr rfl fun pair hpair ↦ ?_
  obtain ⟨row, hrow⟩ := Ledger.exists_lastOf hpair
  have hlast : s.last pair = some row := hrow
  rw [hrow, Option.elim_some, weight, campaignID_of_last hlast, column, hlast, Option.bind_some]
  by_cases hc : pair.2 = campaignID
  · simp only [hc, if_true, true_and, columnUnit]
  · simp only [hc, if_false, false_and, Pi.zero_apply]

theorem Engine.tally_eq (s : Engine) (campaignID : UUID) (col : StatsColumn) :
    s.tally campaignID col = (s.cardsIn campaignID col).card := by
  rw [tally_eq_sum, Finset.sum_boole, cardsIn]

theorem Engine.sum_tally (campaignID : UUID)
    (hnormal : ∀ pair ∈ s.pairs, ∃ col, s.column pair = some col) :
    s.tally campaignID .pending + s.tally campaignID .inProgress + s.tally campaignID .completed
      + s.tally campaignID .failed + s.tally campaignID .skipped
      = (s.campaignPairs campaignID).card := by
  simp only [tally_eq_sum, ← Finset.sum_add_distrib]
  rw [campaignPairs, Finset.natCast_card_filter]
  refine Finset.sum_congr rfl fun pair hpair ↦ ?_
  obtain ⟨col, hcol⟩ := hnormal pair hpair
  by_cases hc : pair.2 = campaignID
  · cases col <;> simp [hc, hcol]
  · simp [hc]

theorem Engine.tally_append
    (hrows : s'.transitions = s.transitions ++ rows) (hnodup : (rows.map ExecutionRow.pair).Nodup) :
    s'.tally campaignID = s.tally campaignID + (rows.map fun row ↦
      weight campaignID row - (s.last row.pair).elim 0 (weight campaignID)).sum := by
  rw [tally, hrows, Ledger.tally_append _ hnodup]
  rfl

theorem Engine.tally_append_of_ne
    (hrows : s'.transitions = s.transitions ++ rows) (hnodup : (rows.map ExecutionRow.pair).Nodup)
    (hne : ∀ row ∈ rows, row.campaignID ≠ campaignID) :
    s'.tally campaignID = s.tally campaignID := by
  have hzero : ∀ d ∈ rows.map (fun row ↦
      weight campaignID row - (s.last row.pair).elim 0 (weight campaignID)), d = 0 := by
    intro d hd
    obtain ⟨row, hrow, rfl⟩ := mem_map.mp hd
    rw [weight, if_neg (hne row hrow), zero_sub, neg_eq_zero]
    cases hlast : s.last row.pair with
    | none => rfl
    | some old =>
      have hold : old.campaignID ≠ campaignID := by
        rw [campaignID_of_last hlast]
        exact hne row hrow
      rw [Option.elim_some, weight, if_neg hold]
  rw [tally_append hrows hnodup, sum_eq_zero hzero, add_zero]

end Tally

/-! ## The invariant -/

/-- The tables and the transitions are about the same cards, each of which has an initial row. -/
structure Recorded (s : Engine) : Prop where
  numbered : Numbered s
  keyed : (s.tables.executionStates.map ExecutionRow.primaryKey).Nodup
  stored : ∀ row ∈ s.tables.executionStates, row.pair ∈ s.pairs
  waiting : ∀ ch ∈ s.stateCh, ch.pair ∈ s.pairs
  initial : ∀ pair ∈ s.pairs,
    ∃ row ∈ s.tables.executionStates, row.pair = pair ∧ row.transitionSeq = 0
  normal : ∀ pair ∈ s.pairs, ∃ col, s.column pair = some col

/-- The statistics of a campaign, with what is on its way to them, are the tally of its cards. -/
structure Engine.Agrees (s : Engine) (campaignID : UUID) : Prop where
  /-- Without statistics there are no cards. -/
  unknown : s.tables.campaignStats campaignID = none → s.campaignPairs campaignID = ∅
  total : ∀ r, s.tables.campaignStats campaignID = some r →
    r.total = (s.campaignPairs campaignID).card
  counts : ∀ r, s.tables.campaignStats campaignID = some r →
    r.counts + campaignDelta s.stateCh campaignID = s.tally campaignID

structure Counted (s : Engine) : Prop where
  recorded : Recorded s
  agrees : ∀ campaignID, s.Agrees campaignID

/-! ### The tables -/

section Recorded

variable {s s' : Engine} {rows added : List ExecutionRow}

private theorem nodup_primaryKey_append {table : List ExecutionRow}
    (hkeyed : (table.map ExecutionRow.primaryKey).Nodup)
    (hnodup : (rows.map ExecutionRow.pair).Nodup)
    (hnew : ∀ row ∈ rows, ∀ x ∈ table, x.pair = row.pair → x.transitionSeq < row.transitionSeq) :
    ((table ++ rows).map ExecutionRow.primaryKey).Nodup := by
  rw [map_append, nodup_append]
  refine ⟨hkeyed, ?_, ?_⟩
  · have hkeys : (rows.map ExecutionRow.primaryKey).map Prod.fst = rows.map ExecutionRow.pair :=
      map_map
    exact Nodup.of_map Prod.fst (hkeys ▸ hnodup)
  · rintro k hk k' hk' rfl
    obtain ⟨x, hx, hxkey⟩ := mem_map.mp hk
    obtain ⟨row, hrow, hrowkey⟩ := mem_map.mp hk'
    obtain ⟨hpair, hseq⟩ := Prod.mk.inj (hxkey.trans hrowkey.symm)
    exact absurd hseq (hnew row hrow x hx hpair).ne

variable (hrows : s'.transitions = s.transitions ++ rows)

include hrows

theorem Engine.column_append (hnodup : (rows.map ExecutionRow.pair).Nodup) {row : ExecutionRow}
    (hrow : row ∈ rows) : s'.column row.pair = statusColumn row.status := by
  have hlast : s'.last row.pair = some row := by
    rw [last, hrows]
    exact Ledger.lastOf_append_of_mem hnodup hrow
  rw [column, hlast, Option.bind_some]

theorem Engine.last_append_of_notMem (hpair : ∀ row ∈ rows, row.pair ≠ pair) :
    s'.last pair = s.last pair := by
  rw [last, hrows]
  exact Ledger.lastOf_append_of_notMem hpair

theorem Engine.column_append_of_notMem (hpair : ∀ row ∈ rows, row.pair ≠ pair) :
    s'.column pair = s.column pair := by
  rw [column, last_append_of_notMem hrows hpair, column]

theorem Engine.pairs_append : s'.pairs = s.pairs ∪ Ledger.keysOf ExecutionRow.pair rows := by
  rw [pairs, hrows, Ledger.keysOf_append, pairs]

theorem Engine.pairs_append_of_subset
    (hknown : ∀ row ∈ rows, row.pair ∈ s.pairs) : s'.pairs = s.pairs := by
  rw [pairs, hrows]
  exact Ledger.keysOf_append_of_subset hknown

omit hrows

/-- **The rule for the tables.** A step may append transitions of cards that were initialized, or
initial rows; and rows of such transitions to the table. -/
theorem Recorded.step (h : Recorded s) (hnumbered : Numbered s')
    (htransitions : s'.transitions = s.transitions ++ rows)
    (hnodup : (rows.map ExecutionRow.pair).Nodup)
    (hcolumns : ∀ row ∈ rows, ∃ col, statusColumn row.status = some col)
    (htable : s'.tables.executionStates = s.tables.executionStates ++ added)
    (hkeyed : (s'.tables.executionStates.map ExecutionRow.primaryKey).Nodup)
    (hinitial : ∀ row ∈ rows, row.pair ∈ s.pairs ∨ row ∈ added ∧ row.transitionSeq = 0)
    (hadded : ∀ row ∈ added, row.pair ∈ s.pairs ∨ row ∈ rows)
    (hwaiting : ∀ ch ∈ s'.stateCh, ch.pair ∈ s.pairs) : Recorded s' := by
  have hpairs : ∀ pair, pair ∈ s'.pairs ↔ pair ∈ s.pairs ∨ ∃ row ∈ rows, row.pair = pair := by
    intro pair
    rw [pairs_append htransitions, Finset.mem_union, Ledger.mem_keysOf]
  refine ⟨hnumbered, hkeyed, fun row hrow ↦ ?_, fun ch hch ↦ ?_, fun pair hpair ↦ ?_,
    fun pair hpair ↦ ?_⟩
  · rw [htable] at hrow
    rcases mem_append.mp hrow with hrow | hrow
    · exact (hpairs _).mpr (Or.inl (h.stored row hrow))
    · exact (hpairs _).mpr ((hadded row hrow).imp_right fun hmem ↦ ⟨row, hmem, rfl⟩)
  · exact (hpairs _).mpr (Or.inl (hwaiting ch hch))
  · rw [htable]
    have hold : pair ∈ s.pairs →
        ∃ row ∈ s.tables.executionStates ++ added, row.pair = pair ∧ row.transitionSeq = 0 := by
      intro hmem
      obtain ⟨row, hrow, hkey⟩ := h.initial pair hmem
      exact ⟨row, mem_append_left _ hrow, hkey⟩
    rcases (hpairs pair).mp hpair with hmem | ⟨row, hrow, rfl⟩
    · exact hold hmem
    · rcases hinitial row hrow with hmem | ⟨hmem, hseq⟩
      · exact hold hmem
      · exact ⟨row, mem_append_right _ hmem, rfl, hseq⟩
  · by_cases hnew : ∃ row ∈ rows, row.pair = pair
    · obtain ⟨row, hrow, rfl⟩ := hnew
      rw [column_append htransitions hnodup hrow]
      exact hcolumns row hrow
    · rw [column_append_of_notMem htransitions fun row hrow hrp ↦ hnew ⟨row, hrow, hrp⟩]
      exact h.normal pair (((hpairs pair).mp hpair).resolve_right hnew)

end Recorded

/-! ### Handler calls and batches -/

section Steps

variable {cfg : EngineConfig} {s s' : Engine} {campaignID : UUID}

theorem Engine.mem_pairs_of_column {col : StatsColumn}
    (h : s.column pair = some col) : pair ∈ s.pairs := by
  obtain ⟨row, hrow, -⟩ := Option.bind_eq_some_iff.mp h
  exact Ledger.mem_keysOf_of_lastOf hrow

/-- What the last transition of a card counts for depends on its column only. -/
theorem Engine.weight_last {status : CardStatus} {col : StatsColumn}
    (hcolumn : s.column pair = some col) (hstatus : statusColumn status = some col) :
    (s.last pair).elim 0 (weight pair.2) = columnUnit status := by
  obtain ⟨row, hrow, hrowcol⟩ := Option.bind_eq_some_iff.mp hcolumn
  rw [hrow, Option.elim_some, weight, if_pos (campaignID_of_last hrow)]
  refine funext fun col' ↦ ?_
  rw [columnUnit, hrowcol, columnUnit, hstatus]

/-- The cards stay the same and the tally changes by what is sent to the counters. -/
theorem Engine.Agrees.step (h : s.Agrees campaignID)
    (hstats : s'.tables.campaignStats campaignID = s.tables.campaignStats campaignID)
    (hcards : s'.campaignPairs campaignID = s.campaignPairs campaignID)
    (htally : s'.tally campaignID - s.tally campaignID
      = campaignDelta s'.stateCh campaignID - campaignDelta s.stateCh campaignID) :
    s'.Agrees campaignID := by
  refine ⟨?_, fun r hr ↦ ?_, fun r hr ↦ ?_⟩
  · rw [hstats, hcards]
    exact h.unknown
  · rw [hcards]
    exact h.total r (hstats ▸ hr)
  · rw [← sub_add_cancel (campaignDelta s'.stateCh campaignID) (campaignDelta s.stateCh campaignID),
      ← htally, add_left_comm, h.counts r (hstats ▸ hr), sub_add_cancel]

theorem Engine.campaignPairs_congr (h : s'.pairs = s.pairs) :
    s'.campaignPairs campaignID = s.campaignPairs campaignID := by
  rw [campaignPairs, h, campaignPairs]

theorem Engine.campaignPairs_append_of_ne (hrows : s'.transitions = s.transitions ++ rows)
    (hne : ∀ row ∈ rows, row.campaignID ≠ campaignID) :
    s'.campaignPairs campaignID = s.campaignPairs campaignID := by
  have hnew : (Ledger.keysOf ExecutionRow.pair rows).filter (fun pair ↦ pair.2 = campaignID)
      = ∅ := by
    refine Finset.filter_eq_empty_iff.mpr fun pair hpair hc ↦ ?_
    obtain ⟨row, hrow, rfl⟩ := Ledger.mem_keysOf.mp hpair
    exact hne row hrow hc
  rw [campaignPairs, pairs_append hrows, Finset.filter_union, hnew, Finset.union_empty,
    campaignPairs]

theorem Engine.Agrees.of_ne (h : s.Agrees campaignID)
    (hrows : s'.transitions = s.transitions ++ rows) (hnodup : (rows.map ExecutionRow.pair).Nodup)
    (hne : ∀ row ∈ rows, row.campaignID ≠ campaignID) (hstateCh : s'.stateCh = s.stateCh)
    (hstats : s'.tables.campaignStats campaignID = s.tables.campaignStats campaignID) :
    s'.Agrees campaignID := by
  refine h.step hstats (campaignPairs_append_of_ne hrows hne) ?_
  rw [tally_append_of_ne hrows hnodup hne, hstateCh, sub_self, sub_self]

/-- The same cards, with the counters changed as the tally is. -/
theorem Engine.Agrees.map (h : s.Agrees campaignID) {f : CampaignStatsRow → CampaignStatsRow}
    (hcards : s'.campaignPairs campaignID = s.campaignPairs campaignID)
    (hstats : s'.tables.campaignStats campaignID = (s.tables.campaignStats campaignID).map f)
    (htotal : ∀ r, (f r).total = r.total)
    (hcounts : ∀ r, r.counts + campaignDelta s.stateCh campaignID = s.tally campaignID →
      (f r).counts + campaignDelta s'.stateCh campaignID = s'.tally campaignID) :
    s'.Agrees campaignID := by
  refine ⟨fun hnone ↦ hcards ▸ h.unknown ?_, fun r hr ↦ ?_, fun r hr ↦ ?_⟩
  · exact Option.map_eq_none_iff.mp (hstats.symm.trans hnone)
  · obtain ⟨r₀, hr₀, rfl⟩ := Option.map_eq_some_iff.mp (hstats.symm.trans hr)
    rw [htotal, hcards]
    exact h.total r₀ hr₀
  · obtain ⟨r₀, hr₀, rfl⟩ := Option.map_eq_some_iff.mp (hstats.symm.trans hr)
    exact hcounts r₀ (h.counts r₀ hr₀)

/-- The card of an emitted transition had one before, in the column that is left. -/
theorem Emission.exists_column {ev : CardEvent} {ans : Answers} {ch : CardStateChange}
    (h : Emission s ev ans ch) (hleaves : s.LeavesLast ev ans) :
    ∃ col, s.column ch.pair = some col ∧ statusColumn ch.statsFrom = some col := by
  have hcol : ∃ col, statusColumn (ev.movesFrom ans) = some col := by
    rcases ev.movesFrom_cases ans with hfrom | hfrom <;> rw [hfrom] <;> exact ⟨_, rfl⟩
  obtain ⟨col, hcol⟩ := hcol
  rw [CardStateChange.pair, h.cardID_eq, h.statsFrom_eq]
  exact ⟨col, (hleaves ch.campaignID h.moves_eq).trans hcol, hcol⟩

theorem Engine.Agrees.handle (h : s.Agrees campaignID) {ev : CardEvent} {ans : Answers}
    {ch : CardStateChange} (hemission : Emission s ev ans ch)
    (hleaves : s.LeavesLast ev ans) (htables : s'.tables = s.tables)
    (hpairs : s'.pairs = s.pairs) (hstateCh : s'.stateCh = s.stateCh ++ [ch])
    (htransitions : s'.transitions = s.transitions ++ [ch.toRow]) : s'.Agrees campaignID := by
  refine h.step (by rw [htables]) (campaignPairs_congr hpairs) ?_
  have hnodup : ([ch.toRow].map ExecutionRow.pair).Nodup := nodup_singleton _
  rw [hstateCh, campaignDelta_append, add_sub_cancel_left, campaignDelta_cons, campaignDelta_nil,
    add_zero]
  by_cases hc : ch.campaignID = campaignID
  · subst hc
    obtain ⟨col, hcolumn, hfrom⟩ := hemission.exists_column hleaves
    have hold : (s.last ch.pair).elim 0 (weight ch.campaignID) = columnUnit ch.statsFrom :=
      weight_last hcolumn hfrom
    have hnew : weight ch.campaignID ch.toRow = columnUnit ch.statsTo := by
      rw [hemission.statsTo_eq]
      exact if_pos rfl
    rw [tally_append htransitions hnodup, add_sub_cancel_left, map_singleton,
      sum_singleton, hnew, CardStateChange.pair_toRow, hold, if_pos rfl, CardStateChange.delta]
  · rw [tally_append_of_ne htransitions hnodup, sub_self, if_neg hc]
    intro row hrow
    rw [mem_singleton.mp hrow]
    exact hc

theorem Counted.handle (h : Counted s) {ev : CardEvent} {ans : Answers}
    {answered : Option UUID} (hnumbered : Numbered (s.handle cfg ev ans answered))
    (hleaves : s.LeavesLast ev ans) : Counted (s.handle cfg ev ans answered) := by
  obtain ⟨after, outs, counters, hout, hh⟩ := s.handle_cases cfg ev ans answered
  have htransitions := hh.transitions_eq
  have hstateCh := hh.stateCh
  have htable : (s.handle cfg ev ans answered).tables.executionStates
      = s.tables.executionStates ++ [] := by
    rw [hh.tables, append_nil]
  have hkeyed : ((s.handle cfg ev ans answered).tables.executionStates.map
      ExecutionRow.primaryKey).Nodup := by
    rw [hh.tables]
    exact h.recorded.keyed
  rcases hout.effect.emission with hnone | ⟨ch, hone, hemission⟩
  · rw [hnone, map_nil, append_nil] at htransitions
    rw [hnone, append_nil] at hstateCh
    have htransitions := htransitions.trans (append_nil _).symm
    refine ⟨h.recorded.step hnumbered htransitions nodup_nil
      (forall_mem_nil _)
      htable hkeyed (forall_mem_nil _)
      (forall_mem_nil _) (hstateCh ▸ h.recorded.waiting),
      fun campaignID ↦ ?_⟩
    exact (h.agrees campaignID).of_ne htransitions nodup_nil
      (forall_mem_nil _) hstateCh (by rw [hh.tables])
  · rw [hone, map_singleton] at htransitions
    rw [hone] at hstateCh
    obtain ⟨col, hcolumn, -⟩ := hemission.exists_column hleaves
    have hmem : ch.toRow.pair ∈ s.pairs := mem_pairs_of_column hcolumn
    have hknown : ∀ row ∈ [ch.toRow], row.pair ∈ s.pairs := fun row hrow ↦ by
      rw [mem_singleton.mp hrow]
      exact hmem
    refine ⟨h.recorded.step hnumbered htransitions (nodup_singleton _) (fun row hrow ↦ ?_)
      htable hkeyed (fun row hrow ↦ Or.inl (hknown row hrow))
      (forall_mem_nil _) (fun ch' hch' ↦ ?_), fun campaignID ↦ ?_⟩
    · rw [mem_singleton.mp hrow]
      have hstatus : ch.toRow.status = .inProgress ∨ ch.toRow.status = .completed ∨
        ch.toRow.status = .failed := hemission.status_mem
      rcases hstatus with hst | hst | hst <;> rw [hst] <;> exact ⟨_, rfl⟩
    · rw [hstateCh] at hch'
      rcases mem_append.mp hch' with hch' | hch'
      · exact h.recorded.waiting ch' hch'
      · rw [mem_singleton.mp hch']
        exact hmem
    · exact (h.agrees campaignID).handle hemission hleaves hh.tables
        (pairs_append_of_subset htransitions hknown) hstateCh htransitions

theorem Counted.flush (h : Counted s) {batch : List CardStateChange} {copyWorks : Bool}
    (hnumbered : Numbered (s.next cfg (.flush batch copyWorks)))
    (hbatch : batch.Subperm s.stateCh) : Counted (s.next cfg (.flush batch copyWorks)) := by
  obtain ⟨added, htable, hadded⟩ :=
    exists_executionStates_writeCardStateBatch copyWorks s.tables batch
  refine ⟨h.recorded.step hnumbered (append_nil _).symm nodup_nil
    (forall_mem_nil _) htable ?_
    (forall_mem_nil _) (fun row hrow ↦ ?_) fun ch hch ↦ ?_,
    fun campaignID ↦ ?_⟩
  · change ((writeCardStateBatch copyWorks s.tables batch).executionStates.map _).Nodup
    rw [executionStates_writeCardStateBatch]
    exact nodup_foldl_insertRow h.recorded.keyed _
  · obtain ⟨ch, hch, rfl⟩ := hadded row hrow
    exact Or.inl (h.recorded.waiting ch (hbatch.subset hch))
  · exact h.recorded.waiting ch (diff_subset _ _ hch)
  · have hstats : (s.next cfg (.flush batch copyWorks)).tables.campaignStats campaignID
        = (s.tables.campaignStats campaignID).map (·.add (campaignDelta batch campaignID)) :=
      campaignStats_writeCardStateBatch copyWorks s.tables batch campaignID
    refine (h.agrees campaignID).map rfl hstats (fun _ ↦ rfl) fun r hr ↦ ?_
    -- what the batch adds is no longer on its way
    change r.counts + campaignDelta batch campaignID
      + campaignDelta (s.stateCh.diff batch) campaignID = s.tally campaignID
    rw [add_assoc, campaignDelta_diff hbatch, hr]

/-! ### The control plane -/

/-- A control-plane statement appends rows of one campaign, and those are its transitions. -/
theorem Counted.control (h : Counted s) (campaignID : UUID) {tables : StateTables}
    (hnumbered : Numbered (s.control tables))
    (htable : tables.executionStates = s.tables.executionStates ++ rows)
    (hnodup : (rows.map ExecutionRow.pair).Nodup)
    (hkeyed : (tables.executionStates.map ExecutionRow.primaryKey).Nodup)
    (hcolumns : ∀ row ∈ rows, ∃ col, statusColumn row.status = some col)
    (hinitial : ∀ row ∈ rows, row.pair ∈ s.pairs ∨ row.transitionSeq = 0)
    (hcampaign : ∀ row ∈ rows, row.campaignID = campaignID)
    (hstats : ∀ c, c ≠ campaignID → tables.campaignStats c = s.tables.campaignStats c)
    (hagrees : Recorded (s.control tables) → (s.control tables).Agrees campaignID) :
    Counted (s.control tables) := by
  have htransitions := s.transitions_control htable
  have hrecorded : Recorded (s.control tables) :=
    h.recorded.step hnumbered htransitions hnodup hcolumns htable hkeyed
      (fun row hrow ↦ (hinitial row hrow).imp_right fun hseq ↦ ⟨hrow, hseq⟩)
      (fun row hrow ↦ Or.inr hrow) h.recorded.waiting
  refine ⟨hrecorded, fun c ↦ ?_⟩
  by_cases hc : c = campaignID
  · exact hc ▸ hagrees hrecorded
  · exact (h.agrees c).of_ne htransitions hnodup (fun row hrow ↦ hcampaign row hrow ▸ Ne.symm hc)
      rfl (hstats c hc)

private theorem mem_pairs_of_latestRow (h : Recorded s) {latest : ExecutionRow}
    (hlatest : latestRow s.tables.executionStates pair = some latest) : pair ∈ s.pairs := by
  obtain ⟨hmem, rfl⟩ := mem_of_latestRow hlatest
  exact h.stored latest hmem

section Reset

variable {cardIDs : List UUID} {step updatedAt : ℤ} {row : ExecutionRow}

theorem Engine.ResetsFailed.exists_latest (hfailed : s.ResetsFailed campaignID cardIDs)
    (hrow : row ∈ resetRows s.tables.executionStates campaignID cardIDs step updatedAt) :
    ∃ latest, latestRow s.tables.executionStates row.pair = some latest ∧
      resetRow step updatedAt latest = row ∧ row.campaignID = campaignID ∧
      s.column row.pair = some .failed := by
  obtain ⟨cardID, hcard, latest, hlatest, rfl⟩ := mem_resetRows.mp hrow
  have hpair : latest.pair = (cardID, campaignID) := (mem_of_latestRow hlatest).2
  have hreset : (resetRow step updatedAt latest).pair = (cardID, campaignID) := hpair
  rw [hreset]
  exact ⟨latest, hlatest, rfl, (Prod.mk.inj hpair).2,
    hfailed cardID hcard (Option.isSome_of_eq_some hlatest)⟩

theorem Engine.ResetsFailed.tally_eq (hfailed : s.ResetsFailed campaignID cardIDs)
    (htransitions : s'.transitions = s.transitions
      ++ resetRows s.tables.executionStates campaignID cardIDs step updatedAt) :
    s'.tally campaignID = s.tally campaignID + fun col ↦
      let n : ℤ := (resetRows s.tables.executionStates campaignID cardIDs step updatedAt).length
      if col = .failed then -n else if col = .pending then n else 0 := by
  have hterm : (resetRows s.tables.executionStates campaignID cardIDs step updatedAt).map
      (fun row ↦ weight campaignID row - (s.last row.pair).elim 0 (weight campaignID))
      = (resetRows s.tables.executionStates campaignID cardIDs step updatedAt).map
          fun _ ↦ columnUnit .pending - columnUnit .failed := by
    refine map_congr_left fun row hrow ↦ ?_
    obtain ⟨latest, -, hreset, rfl, hcolumn⟩ := hfailed.exists_latest hrow
    have hold : (s.last row.pair).elim 0 (weight row.campaignID) = columnUnit .failed :=
      weight_last hcolumn rfl
    rw [weight, if_pos rfl, hold, ← hreset]
    rfl
  rw [tally_append htransitions nodup_pairs_resetRows, hterm, map_const', sum_replicate]
  refine congrArg _ (funext fun col ↦ ?_)
  cases col <;> simp [columnUnit, statusColumn]

theorem Counted.reset (h : Counted s)
    (hnumbered : Numbered
      (s.control (resetTransaction s.tables campaignID cardIDs step updatedAt)))
    (hfailed : s.ResetsFailed campaignID cardIDs) :
    Counted (s.control (resetTransaction s.tables campaignID cardIDs step updatedAt)) := by
  let s' := s.control (resetTransaction s.tables campaignID cardIDs step updatedAt)
  have htransitions : s'.transitions = s.transitions
      ++ resetRows s.tables.executionStates campaignID cardIDs step updatedAt :=
    s.transitions_control executionStates_resetTransaction
  have hknown : ∀ row ∈ resetRows s.tables.executionStates campaignID cardIDs step updatedAt,
      row.pair ∈ s.pairs := fun row hrow ↦ by
    obtain ⟨latest, hlatest, -⟩ := hfailed.exists_latest hrow
    exact mem_pairs_of_latestRow h.recorded hlatest
  refine h.control campaignID hnumbered executionStates_resetTransaction nodup_pairs_resetRows ?_
    (fun row hrow ↦ ?_) (fun row hrow ↦ Or.inl (hknown row hrow)) (fun row hrow ↦ ?_)
    (fun c hc ↦ ?_) fun _ ↦ ?_
  · rw [executionStates_resetTransaction]
    refine nodup_primaryKey_append h.recorded.keyed nodup_pairs_resetRows ?_
    intro row hrow x hx hpair
    obtain ⟨latest, hlatest, hreset, -⟩ := hfailed.exists_latest hrow
    rw [← hreset]
    exact Int.lt_add_one_of_le (le_of_latestRow hlatest hx hpair)
  · obtain ⟨latest, -, rfl, -⟩ := hfailed.exists_latest hrow
    exact ⟨.pending, rfl⟩
  · obtain ⟨latest, -, -, hc, -⟩ := hfailed.exists_latest hrow
    exact hc
  · rw [campaignStats_resetTransaction, if_neg hc]
  · have hcards : s'.campaignPairs campaignID = s.campaignPairs campaignID :=
      campaignPairs_congr (pairs_append_of_subset htransitions hknown)
    have hstats : s'.tables.campaignStats campaignID = _ :=
      campaignStats_resetTransaction campaignID
    rw [if_pos rfl] at hstats
    refine (h.agrees campaignID).map hcards hstats (fun _ ↦ rfl) fun r hr ↦ ?_
    rw [hfailed.tally_eq htransitions, ← hr]
    exact add_right_comm _ _ _

end Reset

section Abort

variable {updatedAt : ℤ} {row : ExecutionRow} {pair : UUID × UUID}

variable (h : Recorded s)

include h

theorem Recorded.isTerminal_eq_false_iff (hpair : pair ∈ s.pairs)
    {last : ExecutionRow} (hlast : s.last pair = some last) : last.status.isTerminal = false
      ↔ s.column pair = some .pending ∨ s.column pair = some .inProgress := by
  obtain ⟨col, hcol⟩ := h.normal pair hpair
  have hcolumn : s.column pair = statusColumn last.status := by
    rw [column, hlast, Option.bind_some]
  rw [hcolumn] at hcol ⊢
  cases hstatus : last.status with
  | other text =>
    rw [hstatus] at hcol
    exact absurd hcol.symm (Option.some_ne_none col)
  | _ => simp [statusColumn, CardStatus.isTerminal]

theorem Recorded.latest_isTerminal_eq_false_iff
    (hshows : s.ShowsDone campaignID) (hpair : pair ∈ s.campaignPairs campaignID)
    {latest : ExecutionRow} (hlatest : latestRow s.tables.executionStates pair = some latest) :
    latest.status.isTerminal = false
      ↔ s.column pair = some .pending ∨ s.column pair = some .inProgress := by
  have hmem : pair ∈ s.pairs := (Finset.mem_filter.mp hpair).1
  obtain ⟨last, hlast⟩ := Ledger.exists_lastOf hmem
  have hlast : s.last pair = some last := hlast
  have hsame := hshows pair hpair
  rw [hlatest, hlast, Option.map_some, Option.map_some, Option.some.injEq] at hsame
  rw [hsame]
  exact h.isTerminal_eq_false_iff hmem hlast

theorem Recorded.exists_latest_abortRows
    (hrow : row ∈ abortRows s.tables.executionStates campaignID updatedAt) :
    ∃ latest, latestRow s.tables.executionStates row.pair = some latest ∧
      skippedRow updatedAt latest = row ∧ latest.status.isTerminal = false ∧
      row.pair ∈ s.campaignPairs campaignID := by
  obtain ⟨cardID, latest, hlatest, hopen, rfl⟩ := mem_abortRows.mp hrow
  have hpair : (skippedRow updatedAt latest).pair = (cardID, campaignID) :=
    (mem_of_latestRow hlatest).2
  rw [hpair]
  exact ⟨latest, hlatest, rfl, hopen,
    Finset.mem_filter.mpr ⟨mem_pairs_of_latestRow h hlatest, rfl⟩⟩

theorem Recorded.column_abort (hshows : s.ShowsDone campaignID)
    (htransitions : s'.transitions = s.transitions
      ++ abortRows s.tables.executionStates campaignID updatedAt)
    (hpair : pair ∈ s.campaignPairs campaignID) :
    s'.column pair = if s.column pair = some .pending ∨ s.column pair = some .inProgress then
      some .skipped else s.column pair := by
  have hmem : pair ∈ s.pairs := (Finset.mem_filter.mp hpair).1
  by_cases hnew : ∃ row ∈ abortRows s.tables.executionStates campaignID updatedAt, row.pair = pair
  · obtain ⟨row, hrow, rfl⟩ := hnew
    obtain ⟨latest, hlatest, hskipped, hopen, -⟩ := h.exists_latest_abortRows hrow
    rw [if_pos ((h.latest_isTerminal_eq_false_iff hshows hpair hlatest).mp hopen),
      column_append htransitions nodup_pairs_abortRows hrow, ← hskipped]
    rfl
  · -- the initial row is there, so there is a latest one, and it is terminal
    obtain ⟨initial, hinitial, rfl, -⟩ := h.initial pair hmem
    cases hlatest : latestRow s.tables.executionStates initial.pair with
    | none =>
      rw [latestRow, argmax_eq_none, filter_eq_nil_iff] at hlatest
      exact absurd (decide_eq_true rfl) (hlatest initial hinitial)
    | some latest =>
      have hclosed : ¬ latest.status.isTerminal = false := by
        intro hopen
        have hcampaign : initial.pair = (initial.cardID, campaignID) :=
          Prod.ext rfl (Finset.mem_filter.mp hpair).2
        refine hnew ⟨skippedRow updatedAt latest, mem_abortRows.mpr
          ⟨initial.cardID, latest, hcampaign ▸ hlatest, hopen, rfl⟩, ?_⟩
        exact (mem_of_latestRow hlatest).2
      rw [if_neg fun hcol ↦ hclosed ((h.latest_isTerminal_eq_false_iff hshows hpair hlatest).mpr
        hcol), column_append_of_notMem htransitions fun row hrow hrp ↦ hnew ⟨row, hrow, hrp⟩]

theorem Recorded.pairs_abort (htransitions : s'.transitions = s.transitions
      ++ abortRows s.tables.executionStates campaignID updatedAt) : s'.pairs = s.pairs := by
  refine pairs_append_of_subset htransitions fun row hrow ↦ ?_
  obtain ⟨latest, -, -, -, hpair⟩ := h.exists_latest_abortRows hrow
  exact (Finset.mem_filter.mp hpair).1

theorem Recorded.tally_abort (h' : Recorded s')
    (hshows : s.ShowsDone campaignID) (htransitions : s'.transitions = s.transitions
      ++ abortRows s.tables.executionStates campaignID updatedAt) (total : ℤ) : s'.tally campaignID
      = (CampaignStatsRow.mk total (s.tally campaignID)).skipOpen.counts := by
  have hpairs := h.pairs_abort htransitions
  have hcard : ∀ col, s'.cardsIn campaignID col
      = (s.campaignPairs campaignID).filter fun pair ↦
        (if s.column pair = some .pending ∨ s.column pair = some .inProgress then
          some .skipped else s.column pair) = some col := by
    intro col
    rw [cardsIn, hpairs, campaignPairs, Finset.filter_filter]
    refine Finset.filter_congr fun pair hpair ↦ and_congr_right fun hc ↦ ?_
    rw [h.column_abort hshows htransitions (Finset.mem_filter.mpr ⟨hpair, hc⟩)]
  have hopen : ∀ col, col = .pending ∨ col = .inProgress → s'.tally campaignID col = 0 := by
    intro col hcol
    rw [tally_eq, hcard, Finset.filter_eq_empty_iff.mpr, Finset.card_empty, Nat.cast_zero]
    intro pair _ heq
    split_ifs at heq with hpending
    · rcases hcol with rfl | rfl <;> exact StatsColumn.noConfusion (Option.some.inj heq)
    · rcases hcol with rfl | rfl
      · exact hpending (Or.inl heq)
      · exact hpending (Or.inr heq)
  have hdone : ∀ col, col = .completed ∨ col = .failed →
      s'.tally campaignID col = s.tally campaignID col := by
    intro col hcol
    rw [tally_eq, hcard, tally_eq, cardsIn, campaignPairs, Finset.filter_filter]
    refine congrArg _ (congrArg Finset.card (Finset.filter_congr fun pair _ ↦
      and_congr_right fun _ ↦ ?_))
    split_ifs with hpending
    · rcases hcol with rfl | rfl <;> rcases hpending with hp | hp <;> simp [hp]
    · exact Iff.rfl
  -- the cards that were skipped are those that are in no other column
  have hskipped : s'.tally campaignID .skipped
      = s.tally campaignID .skipped + s.tally campaignID .pending
        + s.tally campaignID .inProgress := by
    have hsum := sum_tally campaignID h.normal
    have hsum' := sum_tally campaignID h'.normal
    rw [campaignPairs_congr hpairs, hopen _ (Or.inl rfl), hopen _ (Or.inr rfl),
      hdone _ (Or.inl rfl), hdone _ (Or.inr rfl)] at hsum'
    omega
  refine funext fun col ↦ ?_
  cases col with
  | pending => exact hopen _ (Or.inl rfl)
  | inProgress => exact hopen _ (Or.inr rfl)
  | completed => exact hdone _ (Or.inl rfl)
  | failed => exact hdone _ (Or.inr rfl)
  | skipped => exact hskipped

omit h

theorem Counted.abort (h : Counted s)
    (hnumbered : Numbered (s.next cfg (.abort campaignID updatedAt)))
    (hsettled : s.Settled campaignID) (hshows : s.ShowsDone campaignID) :
    Counted (s.next cfg (.abort campaignID updatedAt)) := by
  let s' := s.control (abortCampaign s.tables campaignID updatedAt)
  have htransitions : s'.transitions = s.transitions
      ++ abortRows s.tables.executionStates campaignID updatedAt :=
    s.transitions_control executionStates_abortCampaign
  refine h.control campaignID hnumbered executionStates_abortCampaign nodup_pairs_abortRows ?_
    (fun row hrow ↦ ?_) (fun row hrow ↦ Or.inl ?_) (fun row hrow ↦ ?_) (fun c hc ↦ ?_)
    fun hrecorded ↦ ?_
  · rw [executionStates_abortCampaign]
    refine nodup_primaryKey_append h.recorded.keyed nodup_pairs_abortRows ?_
    intro row hrow x hx hpair
    obtain ⟨latest, hlatest, hskipped, -⟩ := h.recorded.exists_latest_abortRows hrow
    rw [← hskipped]
    exact Int.lt_add_one_of_le (le_of_latestRow hlatest hx hpair)
  · obtain ⟨latest, -, rfl, -⟩ := h.recorded.exists_latest_abortRows hrow
    exact ⟨.skipped, rfl⟩
  · obtain ⟨latest, -, -, -, hpair⟩ := h.recorded.exists_latest_abortRows hrow
    exact (Finset.mem_filter.mp hpair).1
  · obtain ⟨latest, -, -, -, hpair⟩ := h.recorded.exists_latest_abortRows hrow
    exact (Finset.mem_filter.mp hpair).2
  · rw [campaignStats_abortCampaign, if_neg fun hand ↦ hc hand.1]
  · have hcards : s'.campaignPairs campaignID = s.campaignPairs campaignID :=
      campaignPairs_congr (h.recorded.pairs_abort htransitions)
    have hstats : s'.tables.campaignStats campaignID = _ := campaignStats_abortCampaign campaignID
    have hzero : campaignDelta s.stateCh campaignID = 0 := campaignDelta_eq_zero hsettled
    by_cases hempty : abortRows s.tables.executionStates campaignID updatedAt = []
    · rw [if_neg fun hand ↦ hand.2 hempty] at hstats
      rw [hempty] at htransitions
      exact (h.agrees campaignID).of_ne htransitions nodup_nil
        (forall_mem_nil _) rfl hstats
    · rw [if_pos ⟨rfl, hempty⟩] at hstats
      refine (h.agrees campaignID).map hcards hstats (fun _ ↦ rfl) fun r hr ↦ ?_
      rw [hzero, add_zero] at hr
      change r.skipOpen.counts + campaignDelta s.stateCh campaignID = s'.tally campaignID
      rw [hzero, add_zero, h.recorded.tally_abort hrecorded hshows htransitions r.total, ← hr]

end Abort

section Init

variable {cardIDs : List UUID} {step updatedAt : ℤ} {rows : List ExecutionRow}

private theorem nodup_pair_of_initial (hkeyed : (rows.map ExecutionRow.primaryKey).Nodup)
    (hinitial : ∀ row ∈ rows, row.transitionSeq = 0) : (rows.map ExecutionRow.pair).Nodup := by
  have hkeys : rows.map ExecutionRow.primaryKey
      = (rows.map ExecutionRow.pair).map fun pair ↦ (pair, (0 : ℤ)) := by
    rw [map_map]
    refine map_congr_left fun row hrow ↦ ?_
    rw [ExecutionRow.primaryKey, hinitial row hrow]
    rfl
  exact Nodup.of_map _ (hkeys ▸ hkeyed)

theorem Recorded.initialCount_eq (h : Recorded s) (campaignID : UUID) :
    initialCount s.tables.executionStates campaignID = (s.campaignPairs campaignID).card := by
  let rows := (campaignRows s.tables.executionStates campaignID).filter
    fun row ↦ row.transitionSeq = 0
  have hsub : rows.Sublist s.tables.executionStates :=
    filter_sublist.trans filter_sublist
  have hnodup : (rows.map ExecutionRow.pair).Nodup := by
    refine nodup_pair_of_initial ((hsub.map _).nodup h.keyed) fun row hrow ↦ ?_
    exact of_decide_eq_true (mem_filter.mp hrow).2
  have hpairs : (rows.map ExecutionRow.pair).toFinset = s.campaignPairs campaignID := by
    ext pair
    rw [mem_toFinset, campaignPairs, Finset.mem_filter, mem_map]
    constructor
    · rintro ⟨row, hrow, rfl⟩
      have hc : row.campaignID = campaignID :=
        of_decide_eq_true (mem_filter.mp (mem_filter.mp hrow).1).2
      exact ⟨h.stored row (hsub.subset hrow), hc⟩
    · rintro ⟨hpair, hc⟩
      obtain ⟨row, hrow, rfl, hseq⟩ := h.initial pair hpair
      exact ⟨row, mem_filter.mpr ⟨mem_filter.mpr ⟨hrow, decide_eq_true hc⟩,
        decide_eq_true hseq⟩, rfl⟩
  rw [← hpairs, toFinset_card_of_nodup hnodup, length_map]
  rfl

theorem Engine.tally_of_pending
    (hpending : ∀ pair ∈ s.campaignPairs campaignID, s.column pair = some .pending)
    (col : StatsColumn) :
    s.tally campaignID col = if col = .pending then ((s.campaignPairs campaignID).card : ℤ)
      else 0 := by
  have hcards : s.cardsIn campaignID col
      = (s.campaignPairs campaignID).filter fun _ ↦ col = .pending := by
    rw [cardsIn, campaignPairs, Finset.filter_filter]
    refine Finset.filter_congr fun pair hpair ↦ and_congr_right fun hc ↦ ?_
    rw [hpending pair (Finset.mem_filter.mpr ⟨hpair, hc⟩), Option.some.injEq, eq_comm]
  rw [tally_eq, hcards]
  split_ifs with hcol
  · rw [Finset.filter_true_of_mem fun _ _ ↦ hcol]
  · rw [Finset.filter_false_of_mem fun _ _ ↦ hcol, Finset.card_empty, Nat.cast_zero]

theorem Engine.column_init
    (hpending : ∀ pair ∈ s.campaignPairs campaignID, s.column pair = some .pending)
    (htransitions : s'.transitions = s.transitions ++ rows)
    (hnodup : (rows.map ExecutionRow.pair).Nodup)
    (hrows : ∀ row ∈ rows, statusColumn row.status = some .pending) (pair : UUID × UUID)
    (hpair : pair ∈ s'.campaignPairs campaignID) : s'.column pair = some .pending := by
  obtain ⟨hmem, hc⟩ := Finset.mem_filter.mp hpair
  by_cases hnew : ∃ row ∈ rows, row.pair = pair
  · obtain ⟨row, hrow, rfl⟩ := hnew
    rw [column_append htransitions hnodup hrow, hrows row hrow]
  · rw [column_append_of_notMem htransitions fun row hrow hrp ↦ hnew ⟨row, hrow, hrp⟩]
    rw [pairs_append htransitions, Finset.mem_union, Ledger.mem_keysOf] at hmem
    exact hpending pair (Finset.mem_filter.mpr ⟨hmem.resolve_right hnew, hc⟩)

/-- Counting the initial rows is right as long as all cards are pending. -/
theorem Engine.Agrees.of_pending (h : s.Agrees campaignID)
    (hzero : campaignDelta s.stateCh campaignID = 0)
    (hpending : ∀ pair ∈ s.campaignPairs campaignID, s.column pair = some .pending)
    (hpending' : ∀ pair ∈ s'.campaignPairs campaignID, s'.column pair = some .pending)
    (hstateCh : s'.stateCh = s.stateCh) (hstats : s'.tables.campaignStats campaignID
      = some (upsertPending ((s'.campaignPairs campaignID).card : ℤ)
          (s.tables.campaignStats campaignID))) : s'.Agrees campaignID := by
  refine ⟨fun hnone ↦ absurd (hstats.symm.trans hnone) (Option.some_ne_none _), fun r hr ↦ ?_,
    fun r hr ↦ ?_⟩
  · obtain rfl := Option.some.inj (hstats.symm.trans hr)
    cases s.tables.campaignStats campaignID <;> rfl
  · obtain rfl := Option.some.inj (hstats.symm.trans hr)
    rw [hstateCh, hzero, add_zero]
    refine funext fun col ↦ ?_
    rw [tally_of_pending hpending' col]
    cases hold : s.tables.campaignStats campaignID with
    | none => rfl
    | some r =>
      -- the other columns were empty before
      have hcounts := congrFun (h.counts r hold) col
      rw [hzero, add_zero, tally_of_pending hpending col] at hcounts
      change Function.update r.counts .pending _ col = _
      rw [Function.update_apply]
      split_ifs with hcol
      · rfl
      · rw [hcounts, if_neg hcol]

theorem Counted.initCampaign (h : Counted s)
    (hnumbered : Numbered (s.next cfg (.initCampaign campaignID cardIDs step updatedAt)))
    (hsettled : s.Settled campaignID)
    (hpending : ∀ pair ∈ s.campaignPairs campaignID, s.column pair = some .pending) :
    Counted (s.next cfg (.initCampaign campaignID cardIDs step updatedAt)) := by
  let s' := s.control (initializeCampaign s.tables campaignID cardIDs step updatedAt)
  obtain ⟨rows, htable, hsub⟩ :=
    exists_executionStates_initializeCampaign s.tables campaignID cardIDs step updatedAt
  have htransitions : s'.transitions = s.transitions ++ rows := s.transitions_control htable
  have hrows : ∀ row ∈ rows, ∃ cardID, initialRow campaignID step updatedAt cardID = row := by
    intro row hrow
    obtain ⟨cardID, -, hinitial⟩ := mem_map.mp (hsub.subset hrow)
    exact ⟨cardID, hinitial⟩
  have hzero : ∀ row ∈ rows, row.transitionSeq = 0 := by
    intro row hrow
    obtain ⟨cardID, rfl⟩ := hrows row hrow
    rfl
  have hkeyed : (s'.tables.executionStates.map ExecutionRow.primaryKey).Nodup :=
    nodup_initializeCampaign h.recorded.keyed
  have hnodup : (rows.map ExecutionRow.pair).Nodup := by
    refine nodup_pair_of_initial (Nodup.sublist ?_ hkeyed) hzero
    rw [show s'.tables.executionStates = _ from htable, map_append]
    exact sublist_append_right _ _
  refine h.control campaignID hnumbered htable hnodup hkeyed (fun row hrow ↦ ?_)
    (fun row hrow ↦ Or.inr (hzero row hrow)) (fun row hrow ↦ ?_) (fun c hc ↦ ?_) fun hrecorded ↦ ?_
  · obtain ⟨cardID, rfl⟩ := hrows row hrow
    exact ⟨.pending, rfl⟩
  · obtain ⟨cardID, rfl⟩ := hrows row hrow
    rfl
  · rw [campaignStats_initializeCampaign, if_neg fun hand ↦ hc hand.1]
  · have hstats : s'.tables.campaignStats campaignID = _ :=
      campaignStats_initializeCampaign campaignID
    by_cases hempty : cardIDs = []
    · subst hempty
      rw [if_neg fun hand ↦ hand.2 rfl] at hstats
      obtain rfl : rows = [] := sublist_nil.mp hsub
      exact (h.agrees campaignID).of_ne htransitions nodup_nil
        (forall_mem_nil _) rfl hstats
    · have hcount : initialCount (initializeCampaign s.tables campaignID cardIDs step
          updatedAt).executionStates campaignID = (s'.campaignPairs campaignID).card :=
        hrecorded.initialCount_eq campaignID
      rw [if_pos ⟨rfl, hempty⟩, hcount] at hstats
      exact (h.agrees campaignID).of_pending (campaignDelta_eq_zero hsettled) hpending
        (column_init hpending htransitions hnodup fun row hrow ↦ by
          obtain ⟨cardID, rfl⟩ := hrows row hrow
          rfl) rfl hstats

end Init

/-! ### All steps -/

theorem Counted.of_same (h : Counted s) (hsame : s.Same s') : Counted s' := by
  have htransitions := hsame.transitions.trans (append_nil _).symm
  have htable : s'.tables.executionStates = s.tables.executionStates ++ [] := by
    rw [hsame.tables, append_nil]
  refine ⟨h.recorded.step (h.recorded.numbered.of_same hsame) htransitions nodup_nil
    (forall_mem_nil _) htable ?_ (forall_mem_nil _) (forall_mem_nil _) ?_,
    fun campaignID ↦ ?_⟩
  · rw [hsame.tables]
    exact h.recorded.keyed
  · rw [hsame.stateCh]
    exact h.recorded.waiting
  · exact (h.agrees campaignID).of_ne htransitions nodup_nil (forall_mem_nil _)
      hsame.stateCh (by rw [hsame.tables])

theorem Counted.next (h : Counted s) {a : EngineAction} (henabled : s.Enabled cfg a)
    (hguard : StatsGuard s a) : Counted (s.next cfg a) := by
  have hnumbered := h.recorded.numbered.next henabled
  cases a with
  | plan _ | release _ | preloadShard _ _ _ _ | check _ =>
    exact h.of_same (s.same_next cfg trivial)
  | handle ev ans answered => exact h.handle hnumbered hguard
  | lookup cardID row =>
    -- the cache plays no part in the counting
    refine ⟨⟨hnumbered, h.recorded.keyed, h.recorded.stored, h.recorded.waiting,
      h.recorded.initial, h.recorded.normal⟩, fun campaignID ↦ ?_⟩
    exact ⟨(h.agrees campaignID).unknown, (h.agrees campaignID).total,
      (h.agrees campaignID).counts⟩
  | flush batch copyWorks => exact h.flush hnumbered henabled
  | initCampaign campaignID cardIDs step updatedAt =>
    exact h.initCampaign hnumbered hguard.1 hguard.2
  | reset campaignID cardIDs step updatedAt =>
    obtain ⟨listed, hlisted, hreset⟩ :=
      exists_resetTransaction s.tables campaignID cardIDs step updatedAt
    rw [Engine.next, hreset] at hnumbered ⊢
    exact h.reset hnumbered fun cardID hcard ↦ hguard cardID (hlisted hcard)
  | abort campaignID updatedAt => exact h.abort hnumbered hguard.1 hguard.2

end Steps

theorem counted_new (campaignStatus : UUID → Option CampaignStatus) :
    Counted (new campaignStatus) where
  recorded := ⟨numbered_new campaignStatus, nodup_nil, forall_mem_nil _,
    forall_mem_nil _, fun _ h ↦ absurd h (Finset.notMem_empty _),
    fun _ h ↦ absurd h (Finset.notMem_empty _)⟩
  agrees _ := ⟨fun _ ↦ rfl, fun _ h ↦ absurd h.symm (Option.some_ne_none _),
    fun _ h ↦ absurd h.symm (Option.some_ne_none _)⟩

/-- **The statistics agree with the cards** in every run whose steps meet the condition, for every
campaign whose transitions have been applied. -/
theorem campaignStats_agree (cfg : EngineConfig) (campaignStatus : UUID → Option CampaignStatus)
    (acts : List EngineAction)
    (hruns : (engine cfg).RunsUnder StatsGuard (.new campaignStatus) acts) (campaignID : UUID)
    (r : CampaignStatsRow)
    (hstats : ((engine cfg).after (.new campaignStatus) acts).tables.campaignStats campaignID
      = some r)
    (happlied : ((engine cfg).after (.new campaignStatus) acts).Settled campaignID) :
    let s := (engine cfg).after (.new campaignStatus) acts
    (∀ col, r.counts col = (s.cardsIn campaignID col).card) ∧
    (∀ col, 0 ≤ r.counts col) ∧
    r.counts .pending + r.counts .inProgress + r.counts .completed + r.counts .failed
      + r.counts .skipped = r.total ∧
    ((∀ pair ∈ s.campaignPairs campaignID, ∀ row ∈ s.last pair, row.status.isTerminal) →
      r.counts .pending = 0 ∧ r.counts .inProgress = 0) := by
  intro s
  have hcounted : Counted s :=
    hruns.invariant (fun s a hs henabled hguard ↦ hs.next henabled hguard)
      (counted_new campaignStatus)
  have hcounts : r.counts = s.tally campaignID := by
    rw [← (hcounted.agrees campaignID).counts r hstats, campaignDelta_eq_zero happlied, add_zero]
  have hcards : ∀ col, r.counts col = (s.cardsIn campaignID col).card := fun col ↦ by
    rw [hcounts, tally_eq]
  refine ⟨hcards, fun col ↦ ?_, ?_, fun hdone ↦ ?_⟩
  · rw [hcards]
    exact Int.natCast_nonneg _
  · rw [(hcounted.agrees campaignID).total r hstats,
      ← sum_tally campaignID hcounted.recorded.normal, hcounts]
  · have hempty : ∀ col, col = .pending ∨ col = .inProgress → r.counts col = 0 := by
      intro col hcol
      rw [hcards, Finset.card_eq_zero.mpr, Nat.cast_zero]
      refine Finset.filter_eq_empty_iff.mpr fun pair hpair hand ↦ ?_
      obtain ⟨row, hrow⟩ := Ledger.exists_lastOf hpair
      have hlast : s.last pair = some row := hrow
      have hterminal := hdone pair (Finset.mem_filter.mpr ⟨hpair, hand.1⟩) row hlast
      refine absurd ((hcounted.recorded.isTerminal_eq_false_iff hpair hlast).mpr ?_)
        (Bool.not_eq_false _ ▸ hterminal)
      rcases hcol with rfl | rfl
      · exact Or.inl hand.2
      · exact Or.inr hand.2
    exact ⟨hempty _ (Or.inl rfl), hempty _ (Or.inr rfl)⟩

/-! ## A second command

The card of a campaign with two commands is activated twice, and taken out of `pending` both
times. -/

namespace SecondCommand

/-- Commands that expect a response, without retries. -/
def ctx (steps : List ℤ) : CampaignContext := plainContext steps 1

def cfg (steps : List ℤ) : EngineConfig := plainConfig (ctx steps)

def activate (cardID : UUID) : CardEvent := plainActivate cardID (.ofDigit 3)

def response (cardID : UUID) : CardEvent := plainResponse cardID (.ofDigit 3)

def undelivered (cardID msgID : UUID) : CardEvent :=
  plainReport cardID (.ofDigit 3) msgID .undeliv

def start : Engine := .new fun _ ↦ some .running

/-- The table still has the initial rows only. -/
def answers (steps : List ℤ) (cardID msgID : UUID) : Answers :=
  .plain (ctx steps) msgID (some (initialRow (.ofDigit 3) 1 0 cardID))

/-- All transitions on their way are applied. -/
def applied (steps : List ℤ) (acts : List EngineAction) : List EngineAction :=
  acts ++ [.flush ((engine (cfg steps)).after start acts).stateCh true]

/-- Two commands, both answered. -/
def twice : List EngineAction :=
  let ans := answers [1, 2] (.ofDigit 1)
  applied [1, 2] [.initCampaign (.ofDigit 3) [.ofDigit 1] 1 0, .plan (activate (.ofDigit 1)),
    .handle (activate (.ofDigit 1)) (ans (.ofDigit 6)) none,
    .handle (response (.ofDigit 1)) (ans (.ofDigit 7)) (some (.ofDigit 6)),
    .handle (activation (ans (.ofDigit 7)) (.ofDigit 1) (.ofDigit 3) 2 0) (ans (.ofDigit 7)) none,
    .handle (response (.ofDigit 1)) (ans (.ofDigit 8)) (some (.ofDigit 7))]

/-- One command for two cards: the first answers, the second fails, is reset, and the campaign is
aborted. -/
def once : List EngineAction :=
  let ans := answers [1]
  applied [1] [.initCampaign (.ofDigit 3) [.ofDigit 1, .ofDigit 2] 1 0,
    .plan (activate (.ofDigit 1)), .plan (activate (.ofDigit 2)),
    .handle (activate (.ofDigit 1)) (ans (.ofDigit 1) (.ofDigit 6)) none,
    .handle (activate (.ofDigit 2)) (ans (.ofDigit 2) (.ofDigit 7)) none,
    .handle (response (.ofDigit 1)) (ans (.ofDigit 1) (.ofDigit 8)) (some (.ofDigit 6)),
    .handle (undelivered (.ofDigit 2) (.ofDigit 7)) (ans (.ofDigit 2) (.ofDigit 8)) none] ++
  [.reset (.ofDigit 3) [.ofDigit 2] 1 0, .abort (.ofDigit 3) 0]

end SecondCommand

open SecondCommand in
/-- One card completed, one skipped. -/
theorem campaignStats_agree_once :
    (engine (cfg [1])).RunsUnder StatsGuard start once ∧
      ((engine (cfg [1])).after start once).Settled (.ofDigit 3) ∧
      ∃ r, ((engine (cfg [1])).after start once).tables.campaignStats (.ofDigit 3) = some r ∧
        r.counts .completed = 1 ∧ r.counts .skipped = 1 ∧ r.counts .pending = 0 ∧
        r.counts .inProgress = 0 := by
  have hruns : (engine (cfg [1])).RunsUnder StatsGuard start once := by decide +kernel
  have happlied : ((engine (cfg [1])).after start once).Settled (.ofDigit 3) := by decide +kernel
  have hsome :
      (((engine (cfg [1])).after start once).tables.campaignStats (.ofDigit 3)).isSome := by
    decide +kernel
  obtain ⟨r, hr⟩ := Option.isSome_iff_exists.mp hsome
  obtain ⟨hcards, -, -, hdone⟩ :=
    campaignStats_agree (cfg [1]) _ once hruns (.ofDigit 3) r hr happlied
  refine ⟨hruns, happlied, r, hr, ?_, ?_, hdone (by decide +kernel)⟩
  · rw [hcards]
    decide +kernel
  · rw [hcards]
    decide +kernel

open SecondCommand in
/-- The card is completed and everything applied, but `pending` is `-1` and `in_progress` is `1`. -/
theorem campaignStats_drifted :
    (engine (cfg [1, 2])).Runs start twice ∧
      ((engine (cfg [1, 2])).after start twice).Settled (.ofDigit 3) ∧
      (((engine (cfg [1, 2])).after start twice).last (.ofDigit 1, .ofDigit 3)).map
        (fun row ↦ row.status) = some .completed ∧
      (((engine (cfg [1, 2])).after start twice).tables.campaignStats (.ofDigit 3)).map
        (fun r ↦ (r.total, r.counts .pending, r.counts .inProgress)) = some (1, -1, 1) ∧
      ¬ ∀ r, ((engine (cfg [1, 2])).after start twice).tables.campaignStats (.ofDigit 3) = some r →
        ∀ col, r.counts col
          = (((engine (cfg [1, 2])).after start twice).cardsIn (.ofDigit 3) col).card := by
  have hcounts : (((engine (cfg [1, 2])).after start twice).tables.campaignStats (.ofDigit 3)).map
      (fun r ↦ (r.total, r.counts .pending, r.counts .inProgress)) = some (1, -1, 1) := by
    decide +kernel
  refine ⟨?_, by decide +kernel, by decide +kernel, hcounts, fun hagree ↦ ?_⟩
  · unfold Machine.Runs
    decide +kernel
  · obtain ⟨r, hr, hvalues⟩ := Option.map_eq_some_iff.mp hcounts
    have hpending : r.counts .pending = -1 := (Prod.mk.inj (Prod.mk.inj hvalues).2).1
    have hcard := hagree r hr .pending
    omega

end OtaPlatform
