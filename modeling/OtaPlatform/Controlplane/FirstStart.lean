import OtaPlatform.Controlplane.RetryFailed

/-!
# The first start of a campaign

A start pages through the target cards twice: once to insert their rows, batch by batch, and once to
create a shard for each batch. The statistics are counted again after every batch. With the pages in
the order of the cards both passes see the same batches, whatever their size, so that together they
hold every card once.
-/

namespace OtaPlatform

open List

/-! ## The rows -/

section Rows

variable {campaignID : UUID} {firstStep now : ℤ} {base : List ExecutionRow}

theorem nodup_primaryKey_initialRow {cardIDs : List UUID} (h : cardIDs.Nodup) :
    ((cardIDs.map (initialRow campaignID firstStep now)).map ExecutionRow.primaryKey).Nodup := by
  rw [map_map]
  refine h.map fun a b hab ↦ ?_
  exact congrArg (fun key : (UUID × UUID) × ℤ ↦ key.1.1) hab

variable (hbase : ∀ row ∈ base, row.campaignID ≠ campaignID)

include hbase

theorem executionStates_foldl_initializeCampaign {batches : List (List UUID)} {done : List UUID}
    {t : StateTables}
    (ht : t.executionStates = base ++ done.map (initialRow campaignID firstStep now))
    (hnodup : (done ++ batches.flatten).Nodup) :
    (batches.foldl (fun t batch ↦ initializeCampaign t campaignID batch firstStep now)
        t).executionStates
      = base ++ (done ++ batches.flatten).map (initialRow campaignID firstStep now) := by
  induction batches generalizing t done with
  | nil => rw [foldl_nil, ht, flatten_nil, append_nil]
  | cons batch batches ih =>
    rw [flatten_cons, ← append_assoc] at hnodup ⊢
    rw [foldl_cons]
    refine ih ?_ hnodup
    rw [initializeCampaign]
    split_ifs with hempty
    · rw [isEmpty_iff.mp hempty, append_nil, ht]
    · have hbatch := hnodup.of_append_left
      rw [map_append, ← append_assoc, ← ht]
      refine foldl_insertRow_eq_append (nodup_primaryKey_initialRow hbatch.of_append_right) ?_
      intro row hrow x hx hkey
      obtain ⟨cardID, hcard, rfl⟩ := mem_map.mp hrow
      have hpair : x.pair = (cardID, campaignID) := congrArg Prod.fst hkey
      rw [ht] at hx
      rcases mem_append.mp hx with hx | hx
      · exact hbase x hx (congrArg Prod.snd hpair)
      · obtain ⟨cardID', hcard', rfl⟩ := mem_map.mp hx
        obtain rfl : cardID' = cardID := congrArg Prod.fst hpair
        exact disjoint_of_nodup_append hbatch hcard' hcard

omit hbase in
theorem campaignStats_foldl_eq {batches : List (List UUID)} {t : StateTables}
    (hne : batches ≠ []) (hbatches : ∀ batch ∈ batches, batch ≠ []) :
    ∃ before, (batches.foldl (fun t batch ↦ initializeCampaign t campaignID batch firstStep now)
        t).campaignStats campaignID
      = some (upsertPending (initialCount (batches.foldl (fun t batch ↦
          initializeCampaign t campaignID batch firstStep now) t).executionStates campaignID)
          before) := by
  rcases eq_nil_or_concat batches with rfl | ⟨init, last, rfl⟩
  · exact absurd rfl hne
  · rw [concat_eq_append] at hbatches ⊢
    have hlast := hbatches last (mem_append_right _ (mem_singleton_self _))
    rw [foldl_append, foldl_cons, foldl_nil]
    exact ⟨_, (campaignStats_initializeCampaign campaignID).trans (if_pos ⟨rfl, hlast⟩)⟩

theorem campaignRows_initialRows (cardIDs : List UUID) :
    campaignRows (base ++ cardIDs.map (initialRow campaignID firstStep now)) campaignID
      = cardIDs.map (initialRow campaignID firstStep now) := by
  rw [campaignRows, filter_append]
  have hnone : base.filter (fun row ↦ row.campaignID = campaignID) = [] := by
    rw [filter_eq_nil_iff]
    exact fun row hrow h ↦ hbase row hrow (of_decide_eq_true h)
  have hall : (cardIDs.map (initialRow campaignID firstStep now)).filter
      (fun row ↦ row.campaignID = campaignID)
        = cardIDs.map (initialRow campaignID firstStep now) := by
    rw [filter_eq_self]
    intro row hrow
    obtain ⟨cardID, -, rfl⟩ := mem_map.mp hrow
    exact decide_eq_true rfl
  rw [hnone, hall, nil_append]

theorem initialCount_initialRows (cardIDs : List UUID) :
    initialCount (base ++ cardIDs.map (initialRow campaignID firstStep now)) campaignID
      = cardIDs.length := by
  rw [initialCount, campaignRows_initialRows hbase, filter_eq_self.mpr, length_map]
  intro row hrow
  obtain ⟨cardID, -, rfl⟩ := mem_map.mp hrow
  rfl

end Rows

/-! ## The start -/

/-- A pending campaign with commands and targets that was never started: nothing in the tables is
of this campaign, the backlog leaves room, and the identifiers drawn for the shards are new. -/
structure FirstStart (cfg : ControlConfig) (gen : Generated) (db : Database) (campaignID : UUID)
    (first : CampaignCommand) : Prop where
  status : db.campaigns campaignID = some .pending
  commands : (db.commands campaignID).head? = some first
  targets : (db.targets campaignID).cards ≠ []
  shards : ∀ shard ∈ db.shards.rows, shard.campaignID ≠ campaignID
  states : ∀ row ∈ db.tables.executionStates, row.campaignID ≠ campaignID
  room : ((db.shards.rows.filter CampaignShard.isOpen).length : ℤ) ≤ cfg.maxBacklog
  fresh : gen.Fresh db.shards 1
    (Batches.batches cfg.shardSize (db.targets campaignID).cards).length

/-- The created shards and the rows cover each target card once. -/
structure CoversTargets (cfg : ControlConfig) (db : Database) (campaignID : UUID)
    (first : CampaignCommand) (created : List CampaignShard) (r : Response) : Prop where
  ok : r.1 = .ok ()
  rows : r.2.shards.rows = db.shards.rows ++ created
  sequences : created.map CampaignShard.sequence
    = (range created.length).map fun i : ℕ ↦ (i : ℤ) + 1
  /-- The events name each target card once, in order. -/
  cards : (created.flatMap CampaignShard.events).map CardEvent.cardID
    = (db.targets campaignID).cards
  /-- These are activations of the first command. -/
  activations : ∀ shard ∈ created, ∀ ev ∈ shard.events, ev.type = .activate ∧
    ev.campaignID = some campaignID ∧ ev.step = first.sequence ∧ ev.retryCount = 0
  full : ∀ shard ∈ created.dropLast, shard.events.length = cfg.shardSize
  /-- The column `item_count` is the number of items. -/
  itemCount : ∀ shard ∈ created, shard.itemCount = shard.events.length
  states : (campaignRows r.2.tables.executionStates campaignID).map ExecutionRow.cardID
    = (db.targets campaignID).cards
  pending : ∀ row ∈ campaignRows r.2.tables.executionStates campaignID,
    row.status = .pending ∧ row.transitionSeq = 0
  stats : ∃ s, r.2.tables.campaignStats campaignID = some s ∧
    s.total = (db.targets campaignID).cards.length ∧
    s.counts .pending = (db.targets campaignID).cards.length

section Start

variable {cfg : ControlConfig} {gen : Generated} {db : Database} {campaignID : UUID}
  {first : CampaignCommand}

variable (h : FirstStart cfg gen db campaignID first)

include h

theorem FirstStart.executionStates_eq :
    (initializeTargets cfg gen db campaignID first.sequence).tables.executionStates
      = db.tables.executionStates ++
        (db.targets campaignID).cards.map (initialRow campaignID first.sequence gen.now) := by
  have hflatten : (targetBatches cfg db campaignID).flatten = (db.targets campaignID).cards := by
    rw [targetBatches_eq, Batches.flatten_batches cfg.shardSize_pos]
  have hnodup : ([] ++ (targetBatches cfg db campaignID).flatten).Nodup := by
    rw [hflatten, nil_append]
    exact (db.targets campaignID).nodup
  have hrows : (initializeTargets cfg gen db campaignID first.sequence).tables.executionStates
      = db.tables.executionStates ++ ([] ++ (targetBatches cfg db campaignID).flatten).map
          (initialRow campaignID first.sequence gen.now) :=
    executionStates_foldl_initializeCampaign h.states (append_nil _).symm hnodup
  rwa [hflatten, nil_append] at hrows

theorem FirstStart.stats_eq :
    ∃ s, (initializeTargets cfg gen db campaignID first.sequence).tables.campaignStats campaignID
        = some s ∧ s.total = (db.targets campaignID).cards.length ∧
      s.counts .pending = (db.targets campaignID).cards.length := by
  have hne : targetBatches cfg db campaignID ≠ [] := by
    rw [targetBatches_eq]
    exact fun hnil ↦ h.targets (Batches.batches_eq_nil_iff.mp hnil)
  have hbatches : ∀ batch ∈ targetBatches cfg db campaignID, batch ≠ [] := by
    rw [targetBatches_eq]
    exact fun batch hbatch ↦ Batches.ne_nil_of_mem_batches cfg.shardSize_pos hbatch
  obtain ⟨before, hstats⟩ : ∃ before, (initializeTargets cfg gen db campaignID
      first.sequence).tables.campaignStats campaignID = some (upsertPending (initialCount
        (initializeTargets cfg gen db campaignID first.sequence).tables.executionStates campaignID)
        before) := campaignStats_foldl_eq hne hbatches
  rw [h.executionStates_eq, initialCount_initialRows h.states] at hstats
  refine ⟨_, hstats, ?_⟩
  cases before with
  | none => exact ⟨rfl, rfl⟩
  | some r => exact ⟨rfl, by simp [upsertPending]⟩

theorem FirstStart.exists_insertAll :
    ∃ t, db.shards.insertAll (startShards cfg gen db campaignID first.sequence) = .ok t :=
  (exists_insertAll_startShards cfg db campaignID h.fresh first.sequence).mpr
    fun shard hshard hcampaign ↦ absurd hcampaign (h.shards shard hshard)

end Start

/-- **A first start covers each target once.** Whatever the number of targets and the size of a
shard. -/
theorem startCampaign_covers {cfg : ControlConfig} {gen : Generated} {db : Database}
    {campaignID : UUID} {first : CampaignCommand} (h : FirstStart cfg gen db campaignID first) :
    CoversTargets cfg db campaignID first (startShards cfg gen db campaignID first.sequence)
      (startCampaign cfg gen db campaignID) := by
  obtain ⟨rest, hcommands⟩ := head?_eq_some_iff.mp h.commands
  obtain ⟨shards, hinsert⟩ := h.exists_insertAll
  have hstart := startCampaign_eq gen db h.room h.status hcommands h.targets
  rw [hinsert] at hstart
  have hrows : campaignRows (startCampaign cfg gen db campaignID).2.tables.executionStates
      campaignID = (db.targets campaignID).cards.map
        (initialRow campaignID first.sequence gen.now) := by
    rw [hstart]
    change campaignRows (initializeTargets cfg gen db campaignID
      first.sequence).tables.executionStates campaignID = _
    rw [h.executionStates_eq, campaignRows_initialRows h.states]
  refine ⟨by rw [hstart], ?_, ?_, ?_, ?_, ?_, fun shard hshard ↦ (mem_generated hshard).2.2,
    ?_, ?_, ?_⟩
  · rw [hstart]
    exact rows_insertAll hinsert
  · have hsequence : ∀ n events, (gen.shard campaignID n events).sequence = id n := fun _ _ ↦ rfl
    have hnumbers := map_generated CampaignShard.sequence id hsequence 1
      ((targetBatches cfg db campaignID).map fun batch ↦
        batch.map (gen.activation campaignID first.sequence 0))
    have hlength := congrArg length hnumbers
    rw [length_map, length_map, length_range] at hlength
    rw [startShards, hlength]
    refine hnumbers.trans (map_congr_left fun i _ ↦ ?_)
    exact Int.add_comm 1 i
  · exact cardIDs_startShards
  · intro shard hshard ev hev
    exact activates_of_mem_startShards (mem_flatMap.mpr ⟨shard, hshard, hev⟩)
  · intro shard hshard
    have hbatch := mem_map_of_mem (f := CampaignShard.events) hshard
    rw [map_dropLast, startShards, map_events_generated, targetBatches_eq, ← map_dropLast] at hbatch
    obtain ⟨batch, hmem, hbatch⟩ := mem_map.mp hbatch
    rw [← hbatch, length_map, Batches.length_of_mem_dropLast_batches cfg.shardSize_pos hmem]
  · rw [hrows, map_map]
    exact map_id _
  · intro row hrow
    rw [hrows] at hrow
    obtain ⟨cardID, -, rfl⟩ := mem_map.mp hrow
    exact ⟨rfl, rfl⟩
  · rw [hstart]
    exact h.stats_eq

def threeTargets : Database where
  campaigns := fun _ ↦ some .pending
  commands := fun _ ↦
    [{ sequence := 1, applicationID := UUID.ofDigit 4, expectResponse := false }]
  targets := fun _ ↦ ⟨[UUID.ofDigit 1, UUID.ofDigit 2, UUID.ofDigit 3], by decide⟩
  shards := ShardTable.empty
  tables := ⟨[], fun _ ↦ none⟩

/-- Two cards to a shard. -/
theorem startCampaign_covers_three :
    CoversTargets { shardSize := 2 } threeTargets (.ofDigit 9)
      { sequence := 1, applicationID := UUID.ofDigit 4, expectResponse := false }
      (startShards { shardSize := 2 } plainGenerated threeTargets (.ofDigit 9) 1)
      (startCampaign { shardSize := 2 } plainGenerated threeTargets (.ofDigit 9)) :=
  startCampaign_covers ⟨rfl, rfl, cons_ne_nil _ _, by decide, by decide, by decide,
    by decide +kernel⟩

end OtaPlatform
