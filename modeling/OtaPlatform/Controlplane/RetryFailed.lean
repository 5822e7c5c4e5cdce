import OtaPlatform.Planner.Backlog

/-!
# Restarting failed cards

Retry-failed puts the failed cards of an ended campaign back to `pending` and the campaign with
them; starting it again is the ordinary start. That start was written for a campaign without a past:
it numbers its shards from one, takes all target cards, and sets the `pending` counter to the number
of cards.

`retryFailed_start_iff` says what the past must look like for the restart to be exact: the failed
cards are not too many for one statement, no old shard has one of the numbers that are given out
again, the failed cards are all the target cards, and the counters hold them and nothing else.
-/

namespace OtaPlatform

open List Function

/-! ## What a restart should do -/

def Database.Failed (db : Database) (campaignID cardID : UUID) : Prop :=
  ∃ row, latestRow db.tables.executionStates (cardID, campaignID) = some row ∧ row.status = .failed

/-- The five columns of `campaign_stats`, added up. -/
def CampaignStatsRow.sum (r : CampaignStatsRow) : ℤ :=
  r.counts .pending + r.counts .inProgress + r.counts .completed + r.counts .failed +
    r.counts .skipped

/-- The restart succeeded, its new shards hold one activation for each card that had failed and
nothing else, and the counters still add up. -/
structure RestartsFailed (db : Database) (campaignID : UUID) (r : Response) : Prop where
  ok : r.1 = .ok ()
  created : ∃ created, r.2.shards.rows = db.shards.rows ++ created ∧
    (∀ shard ∈ created, shard.campaignID = campaignID ∧ shard.status = .pending) ∧
    (∀ ev ∈ created.flatMap CampaignShard.events,
      ev.type = .activate ∧ ev.campaignID = some campaignID) ∧
    ((created.flatMap CampaignShard.events).map CardEvent.cardID).Nodup ∧
    ∀ cardID, cardID ∈ (created.flatMap CampaignShard.events).map CardEvent.cardID ↔
      db.Failed campaignID cardID
  stats : ∃ s, r.2.tables.campaignStats campaignID = some s ∧ s.sum = s.total

/-! ## Targets -/

section Targets

variable (cfg : ControlConfig) (db : Database) (campaignID : UUID)

theorem targetBatches_eq : targetBatches cfg db campaignID
    = Batches.batches cfg.shardSize (db.targets campaignID).cards :=
  Batches.pages_eq_batches cfg.shardSize_pos UUID.before_irrefl (fun _ _ _ ↦ lt_trans)
    (db.targets campaignID).sorted (Nat.lt_succ_self _)

theorem Targets.nodup (targets : Targets) : targets.cards.Nodup :=
  targets.sorted.imp fun {a b} h heq ↦ by
    subst heq
    exact UUID.before_irrefl a h

variable {cfg db campaignID} {gen : Generated} {firstStep : ℤ}

theorem events_startShards :
    (startShards cfg gen db campaignID firstStep).flatMap CampaignShard.events
      = (db.targets campaignID).cards.map (gen.activation campaignID firstStep 0) := by
  rw [startShards, events_generated, targetBatches_eq, ← map_flatten,
    Batches.flatten_batches cfg.shardSize_pos]

theorem cardIDs_startShards :
    ((startShards cfg gen db campaignID firstStep).flatMap CampaignShard.events).map
      CardEvent.cardID = (db.targets campaignID).cards := by
  rw [events_startShards, map_map]
  exact map_id _

theorem activates_of_mem_startShards {ev : CardEvent}
    (hev : ev ∈ (startShards cfg gen db campaignID firstStep).flatMap CampaignShard.events) :
    ev.type = .activate ∧ ev.campaignID = some campaignID ∧ ev.step = firstStep ∧
      ev.retryCount = 0 := by
  rw [events_startShards] at hev
  obtain ⟨cardID, -, rfl⟩ := mem_map.mp hev
  exact ⟨rfl, rfl, rfl, rfl⟩

end Targets

/-! ## Counters -/

section Counters

variable {t : StateTables} {campaignID : UUID} {firstStep now : ℤ}

theorem upsertPending_upsertPending (n m : ℤ) (r : Option CampaignStatsRow) :
    upsertPending n (some (upsertPending m r)) = upsertPending n r := by
  cases r with
  | none =>
    rw [upsertPending, upsertPending, upsertPending]
    congr 1
    funext col
    cases col <;> simp [update]
  | some r =>
    rw [upsertPending, upsertPending, upsertPending, update_idem]

theorem campaignStats_foldl_initializeCampaign {batches : List (List UUID)} (hne : batches ≠ [])
    (hbatches : ∀ batch ∈ batches, batch ≠ []) :
    ∃ n, (batches.foldl (fun t batch ↦ initializeCampaign t campaignID batch firstStep now)
      t).campaignStats campaignID = some (upsertPending n (t.campaignStats campaignID)) := by
  have hone : ∀ (t : StateTables) (batch : List UUID), batch ≠ [] →
      ∃ n, (initializeCampaign t campaignID batch firstStep now).campaignStats campaignID
        = some (upsertPending n (t.campaignStats campaignID)) := by
    intro t batch hbatch
    exact ⟨_, by rw [campaignStats_initializeCampaign, if_pos ⟨rfl, hbatch⟩]⟩
  induction batches generalizing t with
  | nil => exact absurd rfl hne
  | cons batch batches ih =>
    obtain ⟨n, hn⟩ := hone t batch (hbatches batch mem_cons_self)
    rw [foldl_cons]
    by_cases hrest : batches = []
    · rw [hrest]
      exact ⟨n, hn⟩
    · obtain ⟨m, hm⟩ := ih (t := initializeCampaign t campaignID batch firstStep now) hrest
        fun b hb ↦ hbatches b (mem_cons_of_mem _ hb)
      exact ⟨m, by rw [hm, hn, upsertPending_upsertPending]⟩

theorem sum_upsertPending_some (n : ℤ) (r : CampaignStatsRow) :
    (upsertPending n (some r)).sum = (upsertPending n (some r)).total ↔
      r.counts .inProgress + r.counts .completed + r.counts .failed + r.counts .skipped = 0 := by
  simp only [upsertPending, CampaignStatsRow.sum, update_apply, reduceCtorEq, if_true, if_false]
  omega

theorem sum_upsertPending_none (n : ℤ) :
    (upsertPending n none).sum = (upsertPending n none).total := by
  simp [upsertPending, CampaignStatsRow.sum]

theorem nodup_listFailedCardIDs (t : StateTables) (campaignID : UUID) :
    (listFailedCardIDs t campaignID).Nodup :=
  ((filter_sublist (p := fun row : ExecutionRow ↦ row.status = .failed)
    (l := latestRows t campaignID)).map ExecutionRow.cardID).nodup (nodup_latestRows t campaignID)

theorem length_resetRows_failed (t : StateTables) (campaignID : UUID) (step updatedAt : ℤ) :
    (resetRows t.executionStates campaignID (listFailedCardIDs t campaignID) step updatedAt).length
      = (listFailedCardIDs t campaignID).length := by
  rw [resetRows, (nodup_listFailedCardIDs t campaignID).dedup, filterMap_length_eq_length]
  intro cardID hcard
  obtain ⟨row, hlatest, -⟩ := mem_listFailedCardIDs.mp hcard
  rw [hlatest]
  rfl

end Counters

/-! ## The two requests -/

section Requests

variable {cfg : ControlConfig} {gen : Generated} {db : Database} {campaignID : UUID}
  {first : CampaignCommand} {rest : List CampaignCommand}

theorem startCampaign_eq (gen : Generated) (db : Database)
    (hroom : ((db.shards.rows.filter CampaignShard.isOpen).length : ℤ) ≤ cfg.maxBacklog)
    (hstatus : db.campaigns campaignID = some .pending)
    (hcommands : db.commands campaignID = first :: rest)
    (htargets : (db.targets campaignID).cards ≠ []) : startCampaign cfg gen db campaignID =
      match db.shards.insertAll (startShards cfg gen db campaignID first.sequence) with
      | .error e => (.error ("start campaign transaction: create campaign shard: " ++ e),
          initializeTargets cfg gen db campaignID first.sequence)
      | .ok shards => (.ok (), { (initializeTargets cfg gen db campaignID first.sequence).setStatus
          campaignID .running with shards }) := by
  have hnotEmpty : ¬ (db.targets campaignID).cards.isEmpty = true := by
    rw [List.isEmpty_iff]
    exact htargets
  rw [startCampaign, if_neg (not_lt.mpr hroom), hstatus, hcommands]
  simp only [ne_eq, not_true_eq_false, if_false]
  rw [show (initializeTargets cfg gen db campaignID first.sequence).shards = db.shards from rfl,
    show startShards cfg gen (initializeTargets cfg gen db campaignID first.sequence) campaignID
      first.sequence = startShards cfg gen db campaignID first.sequence from rfl,
    show (initializeTargets cfg gen db campaignID first.sequence).targets = db.targets from rfl]
  cases hinsert : db.shards.insertAll (startShards cfg gen db campaignID first.sequence) with
  | error e => rfl
  | ok shards => simp only [hnotEmpty, if_false, Bool.false_eq_true]

theorem retryFailedCards_eq (hstatus : db.campaigns campaignID = some .completed ∨
      db.campaigns campaignID = some .failed) (hcommands : db.commands campaignID = first :: rest)
    (hlimit : (listFailedCardIDs db.tables campaignID).length + 3 ≤ BulkInsert.maxParameters) :
    (retryFailedCards gen db campaignID).2 = ({ db with
      tables := resetTransaction db.tables campaignID (listFailedCardIDs db.tables campaignID)
        first.sequence gen.now } : Database).setStatus campaignID .pending := by
  rw [retryFailedCards, hcommands]
  simp only [resetFailedCards, if_neg (not_lt.mpr hlimit)]
  rcases hstatus with hstatus | hstatus
  · rw [hstatus]
    rfl
  · rw [hstatus]
    rfl

/-- With too many failed cards the reset is refused, and the campaign cannot be started. -/
theorem startCampaign_of_refused (cfg : ControlConfig) (gen gen' : Generated)
    (hstatus : db.campaigns campaignID = some .completed ∨ db.campaigns campaignID = some .failed)
    (hcommands : db.commands campaignID = first :: rest)
    (hlimit : BulkInsert.maxParameters < (listFailedCardIDs db.tables campaignID).length + 3) :
    (startCampaign cfg gen' (retryFailedCards gen db campaignID).2 campaignID).1 ≠ .ok () := by
  have hrefused : (retryFailedCards gen db campaignID).2 = db := by
    rw [retryFailedCards, hcommands]
    simp only [resetFailedCards, if_pos hlimit]
    split <;> rfl
  rw [hrefused, startCampaign]
  split_ifs
  · rintro ⟨⟩
  · rcases hstatus with hstatus | hstatus
    · rw [hstatus]
      rintro ⟨⟩
    · rw [hstatus]
      rintro ⟨⟩

theorem exists_insertAll_startShards (cfg : ControlConfig) (db : Database) (campaignID : UUID)
    (hfresh : gen.Fresh db.shards 1
      (Batches.batches cfg.shardSize (db.targets campaignID).cards).length) (firstStep : ℤ) :
    (∃ t, db.shards.insertAll (startShards cfg gen db campaignID firstStep) = .ok t) ↔
      ∀ shard ∈ db.shards.rows, shard.campaignID = campaignID →
        ¬ (1 ≤ shard.sequence ∧ shard.sequence
          ≤ (Batches.batches cfg.shardSize (db.targets campaignID).cards).length) := by
  rw [startShards, targetBatches_eq,
    exists_insertAll_generated (by rw [length_map]; exact hfresh), length_map]
  constructor
  · rintro hfree shard hshard hc ⟨hlow, hhigh⟩
    refine hfree (shard.sequence - 1).toNat (by omega) (mem_map.mpr ⟨shard, hshard, ?_⟩)
    rw [CampaignShard.key, hc, Prod.mk.injEq]
    exact ⟨rfl, by omega⟩
  · intro hfree i hi hmem
    obtain ⟨shard, hshard, hkey⟩ := mem_map.mp hmem
    rw [CampaignShard.key, Prod.mk.injEq] at hkey
    exact hfree shard hshard hkey.1 ⟨by omega, by omega⟩

theorem exists_stats_initializeTargets (cfg : ControlConfig) (gen : Generated) (db : Database)
    (htargets : (db.targets campaignID).cards ≠ []) (firstStep : ℤ) :
    ∃ n, (initializeTargets cfg gen db campaignID firstStep).tables.campaignStats campaignID
      = some (upsertPending n (db.tables.campaignStats campaignID)) := by
  have hne : targetBatches cfg db campaignID ≠ [] := by
    rw [targetBatches_eq]
    exact fun h ↦ htargets (Batches.batches_eq_nil_iff.mp h)
  refine campaignStats_foldl_initializeCampaign hne ?_
  rw [targetBatches_eq]
  exact fun batch hbatch ↦ Batches.ne_nil_of_mem_batches cfg.shardSize_pos hbatch

/-- Putting the failed cards back moves their number from `failed` to `pending`. -/
theorem sum_stats_restart {r : Option CampaignStatsRow} {n m : ℤ} :
    (upsertPending n (r.map (·.add fun col ↦
      if col = .failed then -m else if col = .pending then m else 0))).sum
        = (upsertPending n (r.map (·.add fun col ↦
          if col = .failed then -m else if col = .pending then m else 0))).total ↔
      ∀ s, r = some s → s.counts .inProgress + s.counts .completed + s.counts .failed +
        s.counts .skipped = m := by
  cases r with
  | none => exact iff_of_true (sum_upsertPending_none n) fun s hs ↦ nomatch hs
  | some s =>
    rw [Option.map_some, sum_upsertPending_some]
    simp only [CampaignStatsRow.add, Pi.add_apply, reduceCtorEq, if_true, if_false,
      Option.some.injEq, forall_eq']
    constructor
    · intro h
      omega
    · intro h
      omega

end Requests

/-! ## The restart -/

/-- What the past of a campaign must look like for a restart of its failed cards to be exact. -/
structure RestartClean (cfg : ControlConfig) (db : Database) (campaignID : UUID) : Prop where
  /-- The failed cards are not too many for a statement. -/
  accepted : (listFailedCardIDs db.tables campaignID).length + 3 ≤ BulkInsert.maxParameters
  /-- The numbers that are given out again are free. -/
  numbers : ∀ shard ∈ db.shards.rows, shard.campaignID = campaignID →
    ¬ (1 ≤ shard.sequence ∧ shard.sequence
      ≤ (Batches.batches cfg.shardSize (db.targets campaignID).cards).length)
  targets : ∀ cardID, cardID ∈ (db.targets campaignID).cards ↔ db.Failed campaignID cardID
  /-- Apart from the `pending` column, the counters hold the failed cards. -/
  counters : ∀ r, db.tables.campaignStats campaignID = some r →
    r.counts .inProgress + r.counts .completed + r.counts .failed + r.counts .skipped
      = (listFailedCardIDs db.tables campaignID).length

/-- **When a restart is exact.** For an ended campaign with commands and targets, room in the
backlog and new identifiers, retry-failed and a start restart exactly the failed cards if and only
if the past is clean. -/
theorem retryFailed_start_iff (cfg : ControlConfig) (gen gen' : Generated) (db : Database)
    (campaignID : UUID)
    (hstatus : db.campaigns campaignID = some .completed ∨
      db.campaigns campaignID = some .failed)
    (hcommands : db.commands campaignID ≠ []) (htargets : (db.targets campaignID).cards ≠ [])
    (hroom : ((db.shards.rows.filter CampaignShard.isOpen).length : ℤ) ≤ cfg.maxBacklog)
    (hfresh : gen'.Fresh db.shards 1
      (Batches.batches cfg.shardSize (db.targets campaignID).cards).length) :
    RestartsFailed db campaignID
        (startCampaign cfg gen' (retryFailedCards gen db campaignID).2 campaignID)
      ↔ RestartClean cfg db campaignID := by
  obtain ⟨first, rest, hfirst⟩ := exists_cons_of_ne_nil hcommands
  rcases lt_or_ge BulkInsert.maxParameters ((listFailedCardIDs db.tables campaignID).length + 3)
    with hrefused | hlimit
  · exact iff_of_false (fun h ↦ startCampaign_of_refused cfg gen gen' hstatus hfirst hrefused h.ok)
      fun h ↦ absurd h.accepted (not_le.mpr hrefused)
  rw [retryFailedCards_eq hstatus hfirst hlimit]
  set db₁ : Database := ({ db with
      tables := resetTransaction db.tables campaignID (listFailedCardIDs db.tables campaignID)
        first.sequence gen.now } : Database).setStatus campaignID .pending with hdb₁
  have hpending : db₁.campaigns campaignID = some .pending := update_self _ _ _
  obtain ⟨n, hstats⟩ := exists_stats_initializeTargets cfg gen' db₁ htargets first.sequence
  have hsum : (∃ s, (initializeTargets cfg gen' db₁ campaignID first.sequence).tables.campaignStats
      campaignID = some s ∧ s.sum = s.total) ↔ ∀ r, db.tables.campaignStats campaignID = some r →
        r.counts .inProgress + r.counts .completed + r.counts .failed + r.counts .skipped
          = (listFailedCardIDs db.tables campaignID).length := by
    have hreset : db₁.tables.campaignStats campaignID = _ :=
      campaignStats_resetTransaction campaignID
    rw [if_pos rfl, length_resetRows_failed] at hreset
    simp only [hstats, hreset, Option.some.injEq, exists_eq_left', sum_stats_restart]
  have hinsert := exists_insertAll_startShards cfg db₁ campaignID hfresh first.sequence
  rw [startCampaign_eq gen' db₁ hroom hpending hfirst htargets]
  constructor
  · rintro ⟨hok, ⟨created, hrows, -, -, -, hfailed⟩, hstatsSum⟩
    cases hresult : db₁.shards.insertAll (startShards cfg gen' db₁ campaignID first.sequence) with
    | error e =>
      rw [hresult] at hok
      cases hok
    | ok shards =>
      rw [hresult] at hrows hstatsSum
      have hsame : created = startShards cfg gen' db₁ campaignID first.sequence :=
        append_cancel_left (hrows.symm.trans (rows_insertAll hresult))
      rw [hsame, cardIDs_startShards] at hfailed
      exact ⟨hlimit, hinsert.mp ⟨shards, hresult⟩, hfailed, hsum.mp hstatsSum⟩
  · rintro ⟨-, hnumbers, hfailed, hcounters⟩
    obtain ⟨shards, hresult⟩ := hinsert.mpr hnumbers
    rw [hresult]
    refine ⟨rfl, ⟨_, rows_insertAll hresult, ?_, ?_, ?_, ?_⟩, hsum.mpr hcounters⟩
    · intro shard hshard
      exact ⟨(mem_generated hshard).1, (mem_generated hshard).2.1⟩
    · intro ev hev
      obtain ⟨htype, hcampaign, -⟩ := activates_of_mem_startShards hev
      exact ⟨htype, hcampaign⟩
    · rw [cardIDs_startShards]
      exact (db.targets campaignID).nodup
    · rw [cardIDs_startShards]
      exact hfailed

/-! ## A campaign whose only card failed -/

def laterGenerated : Generated :=
  { plainGenerated with shardID := fun sequence ↦ UUID.ofDigit (sequence.toNat + 6) }

def failingChange : CardStateChange where
  campaignID := UUID.ofDigit 1
  cardID := UUID.ofDigit 2
  status := .failed
  timestamp := 0
  transitionSeq := 1
  statsFrom := .pending
  statsTo := .failed

/-- A campaign of one card is created, started and published, the card fails, and the checker ends
the campaign. -/
def failedCampaign : List PlatformAction :=
  [.create (UUID.ofDigit 1)
      [{ sequence := 1, applicationID := UUID.ofDigit 4, expectResponse := false }]
      singleTarget,
    .start (UUID.ofDigit 1) plainGenerated,
    .publish { claimed := [plainGenerated.shard (UUID.ofDigit 1) 1
      [plainGenerated.activation (UUID.ofDigit 1) 1 0 (UUID.ofDigit 2)]] },
    .flush [failingChange] true,
    .check (UUID.ofDigit 1)]

/-- A database of a failed campaign whose only shard has the given number. -/
def failedDatabase (sequence : ℤ) : Database where
  campaigns := fun _ ↦ some .failed
  commands := fun _ ↦
    [{ sequence := 1, applicationID := UUID.ofDigit 4, expectResponse := false }]
  targets := fun _ ↦ singleTarget
  shards := ⟨[{ plainGenerated.shard (UUID.ofDigit 1) sequence [] with status := .published }],
    nodup_singleton _, nodup_singleton _⟩
  tables :=
    { executionStates := [initialRow (UUID.ofDigit 1) 1 0 (UUID.ofDigit 2), failingChange.toRow]
      campaignStats := fun _ ↦ some ⟨1, fun col ↦ if col = .failed then 1 else 0⟩ }

/-- A recovery has renumbered the shards: the only one left is the second. -/
theorem retryFailed_start_renumbered :
    RestartsFailed (failedDatabase 2) (UUID.ofDigit 1) (startCampaign {} laterGenerated
      (retryFailedCards plainGenerated (failedDatabase 2) (UUID.ofDigit 1)).2
      (UUID.ofDigit 1)) := by
  refine (retryFailed_start_iff {} plainGenerated laterGenerated (failedDatabase 2)
    (UUID.ofDigit 1) (Or.inr rfl) (by decide) (by decide) (by decide) (by decide +kernel)).mpr ?_
  refine ⟨by decide +kernel, by decide +kernel, ?_, ?_⟩
  · intro cardID
    constructor
    · intro hcard
      rw [mem_singleton.mp hcard]
      exact ⟨failingChange.toRow, by decide +kernel, rfl⟩
    · rintro ⟨row, hrow, -⟩
      obtain ⟨hmem, hpair⟩ := mem_of_latestRow hrow
      have hcard : row.cardID = UUID.ofDigit 2 := by
        rcases mem_pair.mp hmem with rfl | rfl <;> rfl
      rw [show cardID = row.cardID from (congrArg Prod.fst hpair).symm, hcard]
      exact mem_singleton_self _
  · intro r hr
    cases hr
    decide +kernel

/-- The number of the old shard is given out again, and the start fails. -/
theorem retryFailed_start_fails :
    (platform ⟨{}, {}⟩).Runs newDatabase failedCampaign ∧
      ((platform ⟨{}, {}⟩).after newDatabase failedCampaign).campaigns (UUID.ofDigit 1)
        = some .failed ∧
      (startCampaign {} laterGenerated (retryFailedCards plainGenerated
        ((platform ⟨{}, {}⟩).after newDatabase failedCampaign) (UUID.ofDigit 1)).2
        (UUID.ofDigit 1)).1 = .error ("start campaign transaction: create campaign shard: " ++
          "duplicate key value violates unique constraint " ++
          "\"campaign_shards_campaign_id_sequence_key\"") := by
  refine ⟨?_, by decide +kernel, by decide +kernel⟩
  unfold Machine.Runs
  decide +kernel

end OtaPlatform
