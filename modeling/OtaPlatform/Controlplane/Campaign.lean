import Mathlib.Data.List.Sort
import Mathlib.Data.String.Basic
import OtaPlatform.Executor.Worker
import OtaPlatform.Pgstore.QueryStore
import OtaPlatform.Planner.Shards
import OtaPlatform.Transition.Batches

/-!
# The campaign service

`StartCampaign`, `PauseCampaign`, `ResumeCampaign` and `AbortCampaign` of the control plane, and the
handler of retry-failed. Each of them is a function on the database that also says whether it
failed; a failed request may have changed the database before it failed, so the database is returned
in both cases.

## What is left out

Web-socket broadcasts, log lines, metrics, and the start and completion times of a campaign, which
nothing here reads. The commands are cached for the executor; the executor is modelled for whatever
commands a campaign has. A statement that the database itself refuses to run (an outage) is not
modelled here.
-/

namespace OtaPlatform

open List Function

/-! ## The database -/

/-- The order of the column type. -/
def UUID.before (a b : UUID) : Prop := a.text < b.text

instance : DecidableRel UUID.before := fun a b ↦ inferInstanceAs (Decidable (a.text < b.text))

theorem UUID.before_irrefl (a : UUID) : ¬ a.before a := lt_irrefl a.text

/-- The rows of `campaign_targets` for a campaign, in the order of the card. -/
structure Targets where
  cards : List UUID
  /-- They are different and in order. -/
  sorted : cards.Pairwise UUID.before

/-- The tables that campaigns are made of. -/
structure Database where
  campaigns : UUID → Option CampaignStatus
  /-- Their commands, in the order of the sequence. -/
  commands : UUID → List CampaignCommand
  targets : UUID → Targets
  shards : ShardTable
  tables : StateTables

structure ControlConfig where
  shardSize : ℕ := 1000
  /-- The setting is ignored unless positive. -/
  shardSize_pos : 0 < shardSize := by decide
  /-- The open shards above which no campaign is started. -/
  maxBacklog : ℤ := 1000

/-- The identifiers and times a request draws: for the event of a card, and for the shard of a
sequence number. -/
structure Generated where
  /-- The identifier of the event of a card. -/
  eventID : UUID → UUID
  shardID : ℤ → UUID
  createdAt : ℤ → ℤ
  now : ℤ

/-- What a request answers, and the database afterwards. -/
abbrev Response := Except String Unit × Database

def CampaignStatus.text : CampaignStatus → String
  | pending => "pending"
  | running => "running"
  | paused => "paused"
  | completed => "completed"
  | completedWithErrors => "completed_with_errors"
  | failed => "failed"
  | aborted => "aborted"

def Database.setStatus (db : Database) (campaignID : UUID) (status : CampaignStatus) : Database :=
  { db with campaigns := update db.campaigns campaignID (some status) }

/-! ## Shards of events -/

def Generated.activation (gen : Generated) (campaignID : UUID) (step retryCount : ℤ)
    (cardID : UUID) : CardEvent where
  type := .activate
  eventID := gen.eventID cardID
  cardID := cardID
  campaignID := some campaignID
  step := step
  retryCount := retryCount
  timestamp := gen.now

def Generated.shard (gen : Generated) (campaignID : UUID) (sequence : ℤ)
    (events : List CardEvent) : CampaignShard where
  id := gen.shardID sequence
  campaignID := campaignID
  sequence := sequence
  itemCount := events.length
  items := some events
  createdAt := gen.createdAt sequence

/-- One pending shard for each batch, numbered from `first` on. -/
def Generated.shards (gen : Generated) (campaignID : UUID) : ℤ → List (List CardEvent) →
    List CampaignShard
  | _, [] => []
  | first, events :: batches =>
    gen.shard campaignID first events :: gen.shards campaignID (first + 1) batches

/-- Inserts one row after the other. -/
def ShardTable.insertAll (t : ShardTable) : List CampaignShard → Except String ShardTable
  | [] => .ok t
  | shard :: shards => do
    let t ← t.insert shard
    t.insertAll shards

/-! ## Reading card states -/

/-- `DISTINCT ON (card_id) ... ORDER BY card_id, transition_seq DESC` over a campaign. -/
def latestRows (t : StateTables) (campaignID : UUID) : List ExecutionRow :=
  ((campaignCards t.executionStates campaignID).insertionSort fun a b ↦ ¬ b.before a).filterMap
    fun cardID ↦ latestRow t.executionStates (cardID, campaignID)

/-- The latest row of each card of a campaign, newest first. -/
def listCampaignCards (t : StateTables) (campaignID : UUID) : List ExecutionRow :=
  (latestRows t campaignID).insertionSort fun a b ↦ b.updatedAt ≤ a.updatedAt

def listFailedCardIDs (t : StateTables) (campaignID : UUID) : List UUID :=
  ((latestRows t campaignID).filter fun row ↦ row.status = .failed).map ExecutionRow.cardID

private theorem map_filterMap_sublist {α β : Type} {f : α → Option β} {g : β → α}
    (hfg : ∀ a b, f a = some b → g b = a) (l : List α) : ((l.filterMap f).map g).Sublist l := by
  induction l with
  | nil => exact Sublist.refl _
  | cons a l ih =>
    cases ha : f a with
    | none =>
      rw [filterMap_cons_none ha]
      exact ih.cons a
    | some b =>
      rw [filterMap_cons_some ha, map_cons, hfg a b ha]
      exact ih.cons_cons a

variable {campaignID : UUID}

theorem mem_latestRows {t : StateTables} {row : ExecutionRow} : row ∈ latestRows t campaignID
      ↔ latestRow t.executionStates (row.cardID, campaignID) = some row := by
  rw [latestRows, mem_filterMap]
  constructor
  · rintro ⟨cardID, -, hlatest⟩
    have hpair := (mem_of_latestRow hlatest).2
    rw [ExecutionRow.pair, Prod.mk.injEq] at hpair
    rw [hpair.1]
    exact hlatest
  · intro hlatest
    obtain ⟨hmem, hpair⟩ := mem_of_latestRow hlatest
    refine ⟨row.cardID, ?_, hlatest⟩
    rw [(perm_insertionSort _ _).mem_iff, mem_campaignCards]
    exact ⟨row, hmem, hpair⟩

theorem nodup_latestRows (t : StateTables) (campaignID : UUID) :
    ((latestRows t campaignID).map ExecutionRow.cardID).Nodup := by
  have hsub := map_filterMap_sublist (g := ExecutionRow.cardID)
    (f := fun cardID ↦ latestRow t.executionStates (cardID, campaignID)) (fun cardID row h ↦ by
      have hpair := (mem_of_latestRow h).2
      rw [ExecutionRow.pair, Prod.mk.injEq] at hpair
      exact hpair.1) ((campaignCards t.executionStates campaignID).insertionSort
        fun a b ↦ ¬ b.before a)
  refine hsub.nodup ?_
  rw [(perm_insertionSort _ _).nodup_iff]
  exact nodup_dedup _

theorem mem_listCampaignCards {t : StateTables} {row : ExecutionRow} :
    row ∈ listCampaignCards t campaignID
      ↔ latestRow t.executionStates (row.cardID, campaignID) = some row := by
  rw [listCampaignCards, (perm_insertionSort _ _).mem_iff, mem_latestRows]

theorem mem_listFailedCardIDs {t : StateTables} {cardID : UUID} :
    cardID ∈ listFailedCardIDs t campaignID
      ↔ ∃ row, latestRow t.executionStates (cardID, campaignID) = some row ∧
        row.status = .failed := by
  simp only [listFailedCardIDs, mem_map, mem_filter, mem_latestRows, decide_eq_true_eq]
  constructor
  · rintro ⟨row, ⟨hlatest, hstatus⟩, rfl⟩
    exact ⟨row, hlatest, hstatus⟩
  · rintro ⟨row, hlatest, hstatus⟩
    have hpair := (mem_of_latestRow hlatest).2
    rw [ExecutionRow.pair, Prod.mk.injEq] at hpair
    exact ⟨row, ⟨by rw [hpair.1]; exact hlatest, hstatus⟩, hpair.1⟩

/-! ## Shards and their events -/

def pendingEvents (t : ShardTable) (campaignID : UUID) : List CardEvent :=
  (t.rows.filter fun shard ↦ shard.campaignID = campaignID && shard.status = .pending).flatMap
    CampaignShard.events

section ShardRows

variable {t t' : ShardTable} {shards : List CampaignShard}

theorem rows_insert {shard : CampaignShard} (h : t.insert shard = .ok t') :
    t'.rows = t.rows ++ [shard] := by
  rw [ShardTable.insert] at h
  split_ifs at h
  cases h
  rfl

theorem rows_insertAll (h : t.insertAll shards = .ok t') : t'.rows = t.rows ++ shards := by
  induction shards generalizing t with
  | nil =>
    cases h
    exact (append_nil _).symm
  | cons shard shards ih =>
    obtain ⟨t₁, hinsert, hrest⟩ := bind_eq_ok.mp h
    rw [ih hrest, rows_insert hinsert, append_assoc, singleton_append]

theorem mem_generated {gen : Generated} {first : ℤ} {batches : List (List CardEvent)}
    {shard : CampaignShard} (h : shard ∈ gen.shards campaignID first batches) :
    shard.campaignID = campaignID ∧ shard.status = .pending ∧
      shard.itemCount = shard.events.length := by
  induction batches generalizing first with
  | nil => cases h
  | cons events batches ih =>
    rcases mem_cons.mp h with rfl | h
    · exact ⟨rfl, rfl, rfl⟩
    · exact ih h

theorem map_events_generated (gen : Generated) (campaignID : UUID) (first : ℤ)
    (batches : List (List CardEvent)) :
    (gen.shards campaignID first batches).map CampaignShard.events = batches := by
  induction batches generalizing first with
  | nil => rfl
  | cons events batches ih =>
    rw [Generated.shards, map_cons, ih]
    rfl

theorem events_generated (gen : Generated) (campaignID : UUID) (first : ℤ)
    (batches : List (List CardEvent)) :
    (gen.shards campaignID first batches).flatMap CampaignShard.events = batches.flatten := by
  rw [flatMap_def, map_events_generated]

theorem exists_insert_iff {shard : CampaignShard} : (∃ t', t.insert shard = .ok t') ↔
      shard.id ∉ t.rows.map CampaignShard.id ∧ shard.key ∉ t.rows.map CampaignShard.key := by
  rw [ShardTable.insert]
  split_ifs with hid hkey
  · simp [hid]
  · simp [hkey]
  · exact ⟨fun _ ↦ ⟨hid, hkey⟩, fun _ ↦ ⟨_, rfl⟩⟩

/-- Rows are accepted when they and those in the table keep to the constraints together. -/
theorem exists_insertAll_iff (t : ShardTable) (shards : List CampaignShard) :
    (∃ t', t.insertAll shards = .ok t') ↔ ((t.rows ++ shards).map CampaignShard.id).Nodup ∧
        ((t.rows ++ shards).map CampaignShard.key).Nodup := by
  induction shards generalizing t with
  | nil =>
    rw [append_nil]
    exact ⟨fun _ ↦ ⟨t.nodup_id, t.nodup_key⟩, fun _ ↦ ⟨t, rfl⟩⟩
  | cons shard shards ih =>
    have hassoc : t.rows ++ shard :: shards = (t.rows ++ [shard]) ++ shards := by
      rw [append_assoc, singleton_append]
    constructor
    · rintro ⟨t', h⟩
      obtain ⟨t₁, hinsert, hrest⟩ := bind_eq_ok.mp h
      rw [hassoc, ← rows_insert hinsert]
      exact (ih t₁).mp ⟨t', hrest⟩
    · intro h
      have hone : ∃ t₁, t.insert shard = .ok t₁ := by
        rw [exists_insert_iff]
        rw [hassoc, map_append, map_append, map_append, map_append] at h
        have hid := (nodup_append.mp (nodup_append.mp h.1).1).2.2
        have hkey := (nodup_append.mp (nodup_append.mp h.2).1).2.2
        exact ⟨fun hmem ↦ hid _ hmem _ mem_cons_self rfl,
          fun hmem ↦ hkey _ hmem _ mem_cons_self rfl⟩
      obtain ⟨t₁, hinsert⟩ := hone
      rw [hassoc, ← rows_insert hinsert] at h
      obtain ⟨t', hrest⟩ := (ih t₁).mpr h
      exact ⟨t', bind_eq_ok.mpr ⟨t₁, hinsert, hrest⟩⟩

theorem map_generated {β : Type} (f : CampaignShard → β) (g : ℤ → β) {gen : Generated}
    (hfg : ∀ first events, f (gen.shard campaignID first events) = g first)
    (first : ℤ) (batches : List (List CardEvent)) : (gen.shards campaignID first batches).map f
      = (range batches.length).map fun i : ℕ ↦ g (first + i) := by
  induction batches generalizing first with
  | nil => rfl
  | cons events batches ih =>
    rw [Generated.shards, map_cons, hfg, ih, length_cons, range_succ_eq_map,
      map_cons, map_map, Nat.cast_zero, add_zero]
    congr 1
    refine map_congr_left fun i _ ↦ ?_
    rw [comp, Nat.succ_eq_add_one, Nat.cast_add, Nat.cast_one]
    congr 1
    ring

/-- The identifiers drawn for `n` shards from the number `first` on are new and different. -/
def Generated.Fresh (gen : Generated) (t : ShardTable) (first : ℤ) (n : ℕ) : Prop :=
  (t.rows.map CampaignShard.id ++ (range n).map fun i : ℕ ↦ gen.shardID (first + i)).Nodup

instance (gen : Generated) (t : ShardTable) (first : ℤ) (n : ℕ) :
    Decidable (gen.Fresh t first n) := by
  unfold Generated.Fresh
  infer_instance

theorem exists_insertAll_generated {gen : Generated} {first : ℤ}
    {batches : List (List CardEvent)} (hfresh : gen.Fresh t first batches.length) :
    (∃ t', t.insertAll (gen.shards campaignID first batches) = .ok t') ↔
      ∀ i < batches.length, (campaignID, first + (i : ℤ)) ∉ t.rows.map CampaignShard.key := by
  have hinj : Injective fun i : ℕ ↦ (campaignID, first + (i : ℤ)) := by
    intro i j hij
    exact Int.ofNat.inj (add_left_cancel (Prod.mk.inj hij).2)
  rw [Generated.Fresh] at hfresh
  rw [exists_insertAll_iff, map_append, map_append, map_generated _ gen.shardID fun _ _ ↦ rfl,
    map_generated _ (fun n ↦ (campaignID, n)) fun _ _ ↦ rfl, and_iff_right hfresh, nodup_append]
  constructor
  · rintro ⟨-, -, hkeys⟩ i hi hmem
    exact hkeys _ hmem _ (mem_map.mpr ⟨i, mem_range.mpr hi, rfl⟩) rfl
  · intro hkeys
    refine ⟨t.nodup_key, nodup_range.map hinj, ?_⟩
    intro a ha b hb hab
    obtain ⟨i, hi, rfl⟩ := mem_map.mp hb
    exact hkeys i (mem_range.mp hi) (hab ▸ ha)

end ShardRows

/-! ## Requests -/

section Requests

variable (cfg : ControlConfig) (gen : Generated) (db : Database) (campaignID : UUID)

/-- `forEachCampaignTargetBatch`: the target cards, page by page. -/
def targetBatches : List (List UUID) :=
  Batches.pages UUID.before cfg.shardSize (db.targets campaignID).cards
    ((db.targets campaignID).cards.length + 1) none

def startShards (firstStep : ℤ) : List CampaignShard :=
  gen.shards campaignID 1 ((targetBatches cfg db campaignID).map fun batch ↦
    batch.map (gen.activation campaignID firstStep 0))

/-- The database after the rows of the target cards were initialized. -/
def initializeTargets (firstStep : ℤ) : Database :=
  { db with
    tables := (targetBatches cfg db campaignID).foldl
      (fun t batch ↦ initializeCampaign t campaignID batch firstStep gen.now) db.tables }

def startCampaign : Response :=
  let pendingShards := (db.shards.rows.filter CampaignShard.isOpen).length
  if cfg.maxBacklog < pendingShards then
    (.error ("shard backlog high: " ++ toString pendingShards ++
      " shards pending/publishing across campaigns (max " ++ toString cfg.maxBacklog ++
      ") — try again later"), db)
  else match db.campaigns campaignID with
    | none => (.error ("load campaign " ++ campaignID.text ++ ": record not found"), db)
    | some status =>
      if status ≠ .pending then
        (.error ("campaign " ++ campaignID.text ++ " is in status \"" ++ status.text ++
          "\", expected 'pending'"), db)
      else match db.commands campaignID with
        | [] => (.error ("campaign " ++ campaignID.text ++ " has no commands"), db)
        | first :: _ =>
          -- The card states are initialized outside the transaction and stay when it fails.
          let db := initializeTargets cfg gen db campaignID first.sequence
          match db.shards.insertAll (startShards cfg gen db campaignID first.sequence) with
          | .error e =>
            (.error ("start campaign transaction: create campaign shard: " ++ e), db)
          | .ok shards =>
            if (db.targets campaignID).cards.isEmpty then
              (.error ("start campaign transaction: campaign " ++ campaignID.text ++
                " has no target cards"), db)
            else (.ok (), { db.setStatus campaignID .running with shards })

def pauseCampaign : Response :=
  if db.campaigns campaignID = some .running then (.ok (), db.setStatus campaignID .paused)
  else (.error ("campaign " ++ campaignID.text ++ " is not in 'running' status"), db)

/-- The activations of a resumed campaign: the cards stored as `pending` or `activating`. -/
def resumeEvents (firstStep : ℤ) : List CardEvent :=
  ((listCampaignCards db.tables campaignID).filter fun row ↦
      row.status = .pending || row.status = .activating).map fun row ↦
    gen.activation campaignID (if row.currentStep = 0 then firstStep else row.currentStep)
      row.retryCount row.cardID

def resumeCampaign : Response :=
  if db.campaigns campaignID ≠ some .paused then
    (.error ("load paused campaign " ++ campaignID.text ++ ": record not found"), db)
  else match db.commands campaignID with
    | [] => (.error ("campaign " ++ campaignID.text ++ " has no commands"), db)
    | first :: _ =>
      let batches := Batches.batches cfg.shardSize (resumeEvents gen db campaignID first.sequence)
      match db.shards.insertAll
        (gen.shards campaignID (db.shards.maxSequence campaignID + 1) batches) with
      | .error e =>
        (.error ("resume campaign transaction: create resume campaign shards: " ++ e), db)
      | .ok shards => (.ok (), { db.setStatus campaignID .running with shards })

/-- Aborts a running or paused campaign. -/
def abortCampaignRequest : Response :=
  match db.campaigns campaignID with
  | none => (.error ("load campaign " ++ campaignID.text ++ ": record not found"), db)
  | some status =>
    if status ≠ .running ∧ status ≠ .paused then
      (.error ("campaign " ++ campaignID.text ++ " is in status \"" ++ status.text ++
        "\", cannot abort"), db)
    else (.ok (), { db.setStatus campaignID .aborted with
      tables := abortCampaign db.tables campaignID gen.now })

/-- Puts the failed cards of a campaign back to `pending`, and an ended campaign too. -/
def retryFailedCards : Response :=
  match db.campaigns campaignID with
  | none => (.error "campaign not found", db)
  | some status =>
    match db.commands campaignID with
    | [] => (.error "failed to find campaign commands", db)
    | first :: _ =>
      let failed := listFailedCardIDs db.tables campaignID
      match resetFailedCards db.tables campaignID failed first.sequence gen.now with
      | none => (.error "failed to reset failed cards", db)
      | some tables =>
        let db := { db with tables }
        if status = .completed ∨ status = .completedWithErrors ∨ status = .failed then
          (.ok (), db.setStatus campaignID .pending)
        else (.ok (), db)

/-- One campaign in a tick of the completion checker. -/
def checkCompletion : Database :=
  match db.campaigns campaignID, db.tables.campaignStats campaignID with
  | some .running, some stats =>
    match completionStatus stats with
    | none => db
    | some status => db.setStatus campaignID status
  | _, _ => db

end Requests

/-! ## What a request does to the database -/

inductive StartOutcome (cfg : ControlConfig) (gen : Generated) (db : Database) (campaignID : UUID) :
    Database → Prop
  | refused : StartOutcome cfg gen db campaignID db
  | failed {first : CampaignCommand} (hpending : db.campaigns campaignID = some .pending) :
    StartOutcome cfg gen db campaignID (initializeTargets cfg gen db campaignID first.sequence)
  | started {first : CampaignCommand} {rest : List CampaignCommand} {shards : ShardTable}
      (hpending : db.campaigns campaignID = some .pending)
      (hcommands : db.commands campaignID = first :: rest)
      (hinsert : db.shards.insertAll (startShards cfg gen db campaignID first.sequence)
        = .ok shards) :
    StartOutcome cfg gen db campaignID
      { (initializeTargets cfg gen db campaignID first.sequence).setStatus campaignID .running with
        shards }

inductive ResumeOutcome (cfg : ControlConfig) (gen : Generated) (db : Database)
    (campaignID : UUID) : Database → Prop
  | refused : ResumeOutcome cfg gen db campaignID db
  | resumed {first : CampaignCommand} {rest : List CampaignCommand} {shards : ShardTable}
      (hpaused : db.campaigns campaignID = some .paused)
      (hcommands : db.commands campaignID = first :: rest)
      (hinsert : db.shards.insertAll (gen.shards campaignID (db.shards.maxSequence campaignID + 1)
        (Batches.batches cfg.shardSize (resumeEvents gen db campaignID first.sequence)))
          = .ok shards) :
    ResumeOutcome cfg gen db campaignID { db.setStatus campaignID .running with shards }

section Outcomes

variable (cfg : ControlConfig) (gen : Generated) (db : Database) (campaignID : UUID)

theorem startCampaign_outcome :
    StartOutcome cfg gen db campaignID (startCampaign cfg gen db campaignID).2 := by
  rw [startCampaign]
  dsimp only
  split_ifs
  · exact .refused
  · split
    · exact .refused
    · rename_i status hstatus
      split_ifs with hpending
      · exact .refused
      · rw [ne_eq, not_not] at hpending
        subst hpending
        split
        · exact .refused
        · rename_i first rest hcommands
          split
          · exact .failed hstatus
          · rename_i shards hinsert
            split_ifs
            · exact .failed hstatus
            · exact .started hstatus hcommands hinsert

theorem resumeCampaign_outcome :
    ResumeOutcome cfg gen db campaignID (resumeCampaign cfg gen db campaignID).2 := by
  rw [resumeCampaign]
  dsimp only
  split_ifs with hpaused
  · exact .refused
  · rw [ne_eq, not_not] at hpaused
    split
    · exact .refused
    · rename_i first rest hcommands
      split
      · exact .refused
      · rename_i shards hinsert
        exact .resumed hpaused hcommands hinsert

theorem pauseCampaign_cases : (pauseCampaign db campaignID).2 = db ∨
    (pauseCampaign db campaignID).2 = db.setStatus campaignID .paused := by
  rw [pauseCampaign]
  split_ifs
  · exact Or.inr rfl
  · exact Or.inl rfl

theorem abortCampaignRequest_cases : (abortCampaignRequest gen db campaignID).2 = db ∨
    (abortCampaignRequest gen db campaignID).2 = { db.setStatus campaignID .aborted with
      tables := abortCampaign db.tables campaignID gen.now } := by
  rw [abortCampaignRequest]
  split
  · exact Or.inl rfl
  · split_ifs
    · exact Or.inl rfl
    · exact Or.inr rfl

/-- The failed cards are put back, and the campaign too unless it is under way. -/
theorem retryFailedCards_cases : (retryFailedCards gen db campaignID).2 = db ∨
    ∃ first : CampaignCommand, ∃ campaigns, (campaigns = db.campaigns ∨
        campaigns = update db.campaigns campaignID (some .pending)) ∧
      (retryFailedCards gen db campaignID).2 = { db with
        campaigns
        tables := resetTransaction db.tables campaignID (listFailedCardIDs db.tables campaignID)
          first.sequence gen.now } := by
  rw [retryFailedCards]
  split
  · exact Or.inl rfl
  · split
    · exact Or.inl rfl
    · rename_i first rest hcommands
      dsimp only
      by_cases hlimit :
        BulkInsert.maxParameters < (listFailedCardIDs db.tables campaignID).length + 3
      · rw [resetFailedCards, if_pos hlimit]
        exact Or.inl rfl
      · rw [resetFailedCards, if_neg hlimit]
        dsimp only
        split_ifs
        · exact Or.inr ⟨first, _, Or.inr rfl, rfl⟩
        · exact Or.inr ⟨first, _, Or.inl rfl, rfl⟩

theorem checkCompletion_cases : checkCompletion db campaignID = db ∨ ∃ status, status ≠ .running ∧
      checkCompletion db campaignID = db.setStatus campaignID status := by
  rw [checkCompletion]
  split
  · split
    · exact Or.inl rfl
    · rename_i status hstatus
      refine Or.inr ⟨status, ?_, rfl⟩
      rintro rfl
      exact absurd hstatus (by rw [completionStatus]; split_ifs <;> simp)
  · exact Or.inl rfl

end Outcomes

end OtaPlatform
