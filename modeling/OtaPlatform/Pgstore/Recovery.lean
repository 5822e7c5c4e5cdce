import OtaPlatform.Controlplane.Campaign

/-!
# Crash recovery

At startup the shards that were being published are put back, and for every running campaign the
open shards are replaced by new ones for the cards whose latest row is not terminal.

`recoverRunningCampaigns_covers_iff` says for which campaigns the pending shards afterwards are
exactly those of the open cards. A campaign without an open card is left alone, so its old shards
stay, whatever they hold.
-/

namespace OtaPlatform

open ShardTable List

/-! ## The recovery -/

section Recovery

variable (shardSize : ℕ) (gen : Generated) (db : Database) (campaignID : UUID)

/-- The step of a card to recover: a stored zero stands for the first command. -/
def recoveryStep (commands : List CampaignCommand) (row : ExecutionRow) : ℤ :=
  if row.currentStep = 0 then (commands.head?.map CampaignCommand.sequence).getD 0
  else row.currentStep

/-- The activations of the cards whose latest row is not terminal. -/
def recoveryEvents : List CardEvent :=
  ((latestRows db.tables campaignID).filter fun row ↦ !row.status.isTerminal).map fun row ↦
    gen.activation campaignID (recoveryStep (db.commands campaignID) row) row.retryCount row.cardID

/-- Inserts rows one after the other, each on its own, until one is refused. -/
def ShardTable.insertEach (t : ShardTable) : List CampaignShard → Except String Unit × ShardTable
  | [] => (.ok (), t)
  | shard :: shards =>
    match t.insert shard with
    | .error e => (.error ("create recovery shard " ++ toString shard.sequence ++ ": " ++ e), t)
    | .ok t => t.insertEach shards

/-- Rebuilds the shards of a campaign. -/
def recoverCampaign : Response :=
  let events := recoveryEvents gen db campaignID
  if events.isEmpty then (.ok (), db)
  else
    let stale := db.shards.delete fun shard ↦ shard.campaignID = campaignID && shard.isOpen
    let r := stale.insertEach (gen.shards campaignID (stale.maxSequence campaignID + 1)
      (Batches.batches shardSize events))
    (r.1, { db with shards := r.2 })

end Recovery

/-- Puts the shards that were being published back. -/
def resetPublishing (db : Database) : Database :=
  { db with
    shards := db.shards.update (fun shard ↦ shard.status = .publishing) .pending fun _ ↦ none }

/-- Rebuilds one campaign after the other; an error is noted and the next campaign taken. -/
def recoverEach (shardSize : ℕ) (gen : UUID → Generated) :
    List UUID → Database → List (UUID × String) × Database
  | [], db => ([], db)
  | campaignID :: running, db =>
    let r := recoverCampaign shardSize (gen campaignID) db campaignID
    let rest := recoverEach shardSize gen running r.2
    match r.1 with
    | .error e => ((campaignID, e) :: rest.1, rest.2)
    | .ok () => rest

/-- Rebuilds the shards of the running campaigns, which are those the database lists; also the
errors that were noted. -/
def recoverRunningCampaigns (shardSize : ℕ) (gen : UUID → Generated) (running : List UUID)
    (db : Database) : List (UUID × String) × Database :=
  recoverEach shardSize gen running (resetPublishing db)

/-! ## One campaign -/

def ShardTable.ofCampaign (t : ShardTable) (campaignID : UUID) : List CampaignShard :=
  t.rows.filter fun shard ↦ shard.campaignID = campaignID

theorem pendingEvents_eq (t : ShardTable) (campaignID : UUID) : pendingEvents t campaignID
      = ((t.ofCampaign campaignID).filter fun shard ↦ shard.status = .pending).flatMap
          CampaignShard.events := by
  rw [pendingEvents, ofCampaign, filter_filter]
  congr 2
  funext shard
  exact Bool.and_comm _ _

section Campaign

variable {shardSize : ℕ} {gen : Generated} {db : Database} {campaignID : UUID}

theorem rows_insertEach (t : ShardTable) (shards : List CampaignShard) :
    ∃ done rest, shards = done ++ rest ∧ (t.insertEach shards).2.rows = t.rows ++ done ∧
      ((t.insertEach shards).1 = .ok () → rest = []) := by
  induction shards generalizing t with
  | nil => exact ⟨[], [], rfl, (append_nil _).symm, fun _ ↦ rfl⟩
  | cons shard shards ih =>
    rw [insertEach]
    cases hinsert : t.insert shard with
    | error e =>
      refine ⟨[], shard :: shards, rfl, (append_nil _).symm, ?_⟩
      intro h
      cases h
    | ok t' =>
      obtain ⟨done, rest, rfl, hrows, hrest⟩ := ih t'
      refine ⟨shard :: done, rest, rfl, ?_, hrest⟩
      rw [hrows, rows_insert hinsert, append_assoc, singleton_append]

theorem recoverCampaign_frame (shardSize : ℕ) (gen : Generated) (db : Database)
    (campaignID : UUID) : (recoverCampaign shardSize gen db campaignID).2.tables = db.tables ∧
      (recoverCampaign shardSize gen db campaignID).2.commands = db.commands := by
  rw [recoverCampaign]
  split_ifs <;> exact ⟨rfl, rfl⟩

theorem ofCampaign_recoverCampaign_of_ne {other : UUID} (hne : other ≠ campaignID) :
    (recoverCampaign shardSize gen db campaignID).2.shards.ofCampaign other
      = db.shards.ofCampaign other := by
  rw [recoverCampaign]
  split_ifs
  · rfl
  · simp only
    set stale := db.shards.delete fun shard ↦ shard.campaignID = campaignID && shard.isOpen
    set new := gen.shards campaignID (stale.maxSequence campaignID + 1)
      (Batches.batches shardSize (recoveryEvents gen db campaignID)) with hnew
    obtain ⟨done, rest, hsplit, hrows, -⟩ := rows_insertEach stale new
    have hdone : done.filter (fun shard ↦ decide (shard.campaignID = other)) = [] := by
      rw [filter_eq_nil_iff]
      intro shard hshard hother
      have hmem : shard ∈ new := by
        rw [hsplit]
        exact mem_append_left rest hshard
      exact hne ((of_decide_eq_true hother).symm.trans (mem_generated hmem).1)
    have hkept : stale.rows = db.shards.rows.filter fun shard ↦
        !(shard.campaignID = campaignID && shard.isOpen) := rfl
    rw [ofCampaign, hrows, filter_append, hdone, append_nil, ofCampaign, hkept, filter_filter]
    refine filter_congr fun shard _ ↦ ?_
    by_cases hother : shard.campaignID = other
    · simp [hother, hne]
    · simp [hother]

/-- After a recovery without error the pending shards of a campaign hold the activations of its
open cards, if there are any. -/
theorem pendingEvents_recoverCampaign (hsize : 0 < shardSize)
    (hok : (recoverCampaign shardSize gen db campaignID).1 = .ok ())
    (hopen : recoveryEvents gen db campaignID ≠ []) :
    pendingEvents (recoverCampaign shardSize gen db campaignID).2.shards campaignID
      = recoveryEvents gen db campaignID := by
  have hne : ¬ (recoveryEvents gen db campaignID).isEmpty = true := by
    rw [List.isEmpty_iff]
    exact hopen
  rw [recoverCampaign, if_neg hne] at hok ⊢
  simp only at hok ⊢
  set stale := db.shards.delete fun shard ↦ shard.campaignID = campaignID && shard.isOpen
    with hstale
  set new := gen.shards campaignID (stale.maxSequence campaignID + 1)
    (Batches.batches shardSize (recoveryEvents gen db campaignID)) with hnew
  obtain ⟨done, rest, hsplit, hrows, hrest⟩ := rows_insertEach stale new
  rw [hrest hok, append_nil] at hsplit
  have hold : stale.rows.filter (fun shard ↦
      shard.campaignID = campaignID && shard.status = .pending) = [] := by
    rw [filter_eq_nil_iff]
    intro shard hshard hpending
    rw [Bool.and_eq_true, decide_eq_true_eq, decide_eq_true_eq] at hpending
    have hkept := (mem_filter.mp hshard).2
    simp [CampaignShard.isOpen, hpending.1, hpending.2] at hkept
  have hall : done.filter (fun shard ↦
      shard.campaignID = campaignID && shard.status = .pending) = done := by
    rw [filter_eq_self]
    intro shard hshard
    obtain ⟨hc, hstatus, -⟩ := mem_generated (show shard ∈ new by rw [hsplit]; exact hshard)
    simp [hc, hstatus]
  rw [pendingEvents, hrows, filter_append, hold, hall, nil_append, ← hsplit,
    events_generated, Batches.flatten_batches hsize]

theorem recoverCampaign_of_nil (hopen : recoveryEvents gen db campaignID = []) :
    recoverCampaign shardSize gen db campaignID = (.ok (), db) := by
  rw [recoverCampaign, hopen]
  rfl

end Campaign

/-! ## All campaigns -/

section All

variable {shardSize : ℕ} {gen : UUID → Generated} {running : List UUID} {db : Database}
  {campaignID : UUID}

/-- What one recovery finds of a campaign that another one went before it. -/
private theorem recoveryEvents_congr {db' : Database} {g : Generated}
    (htables : db'.tables = db.tables) (hcommands : db'.commands = db.commands) :
    recoveryEvents g db' campaignID = recoveryEvents g db campaignID := by
  rw [recoveryEvents, htables, hcommands, recoveryEvents]

theorem ofCampaign_recoverEach_of_notMem (hnotMem : campaignID ∉ running) :
    (recoverEach shardSize gen running db).2.shards.ofCampaign campaignID
      = db.shards.ofCampaign campaignID := by
  induction running generalizing db with
  | nil => rfl
  | cons c running ih =>
    rw [mem_cons, not_or] at hnotMem
    rw [recoverEach]
    split
    · exact (ih hnotMem.2).trans (ofCampaign_recoverCampaign_of_ne hnotMem.1)
    · exact (ih hnotMem.2).trans (ofCampaign_recoverCampaign_of_ne hnotMem.1)

/-- **What is recovered of a campaign.** After a recovery without error the pending shards of a
running campaign hold the activations of its open cards, or what they held before if there is no
open card. -/
theorem pendingEvents_recoverEach (hsize : 0 < shardSize) (hnodup : running.Nodup)
    (herrors : (recoverEach shardSize gen running db).1 = []) (hmem : campaignID ∈ running) :
    pendingEvents (recoverEach shardSize gen running db).2.shards campaignID
      = if recoveryEvents (gen campaignID) db campaignID = [] then
          pendingEvents db.shards campaignID
        else recoveryEvents (gen campaignID) db campaignID := by
  -- The campaign is recovered once; the induction carries the table past the campaigns before it.
  induction running generalizing db with
  | nil => cases hmem
  | cons c running ih =>
    obtain ⟨hc, hnodup⟩ := nodup_cons.mp hnodup
    rw [recoverEach] at herrors ⊢
    obtain ⟨htables, hcommands⟩ := recoverCampaign_frame shardSize (gen c) db c
    cases hresult : (recoverCampaign shardSize (gen c) db c).1 with
    | error e =>
      rw [hresult] at herrors
      cases herrors
    | ok u =>
      rw [hresult] at herrors
      simp only at herrors ⊢
      by_cases hsame : campaignID = c
      · subst hsame
        rw [pendingEvents_eq, ofCampaign_recoverEach_of_notMem hc, ← pendingEvents_eq]
        split_ifs with hopen
        · rw [recoverCampaign_of_nil hopen]
        · exact pendingEvents_recoverCampaign hsize hresult hopen
      · have hrest := ih hnodup herrors ((mem_cons.mp hmem).resolve_left hsame)
        rw [recoveryEvents_congr htables hcommands] at hrest
        rw [hrest, pendingEvents_eq, ofCampaign_recoverCampaign_of_ne hsame, ← pendingEvents_eq]

/-- Before the recovery every open shard counts: those being published are put back first. -/
theorem pendingEvents_resetPublishing (db : Database) (campaignID : UUID) :
    pendingEvents (resetPublishing db).shards campaignID = (db.shards.rows.filter fun shard ↦
          shard.campaignID = campaignID && shard.isOpen).flatMap CampaignShard.events := by
  have hstatus : ∀ shard : CampaignShard, (setStatus
      (fun shard ↦ shard.status = .publishing) .pending (fun _ ↦ none) shard).status = .pending ↔
        shard.isOpen = true := by
    intro shard
    rw [setStatus, CampaignShard.isOpen]
    cases hs : shard.status <;> simp [hs]
  have hkeep : ∀ shard : CampaignShard, (setStatus
      (fun shard ↦ shard.status = .publishing) .pending (fun _ ↦ none) shard).campaignID
        = shard.campaignID ∧ (setStatus
      (fun shard ↦ shard.status = .publishing) .pending (fun _ ↦ none) shard).events
        = shard.events := by
    intro shard
    rw [setStatus]
    split <;> exact ⟨rfl, rfl⟩
  rw [pendingEvents, show (resetPublishing db).shards.rows = db.shards.rows.map
    (setStatus (fun shard ↦ shard.status = .publishing) .pending fun _ ↦ none) from rfl,
    filter_map, flatMap_map]
  congr 1
  · funext shard
    exact (hkeep shard).2
  · refine filter_congr fun shard _ ↦ ?_
    rw [Function.comp, (hkeep shard).1]
    congr 1
    rw [Bool.eq_iff_iff, decide_eq_true_iff]
    exact hstatus shard

end All

/-! ## Coverage -/

/-- The pending shards of a campaign hold one activation for each card whose latest row is not
terminal, at its step and with its retries, and nothing else. -/
structure RecoveryCovers (db after : Database) (campaignID : UUID) : Prop where
  nodup : ((pendingEvents after.shards campaignID).map CardEvent.cardID).Nodup
  cards : ∀ cardID, cardID ∈ (pendingEvents after.shards campaignID).map CardEvent.cardID ↔
    ∃ row, latestRow db.tables.executionStates (cardID, campaignID) = some row ∧
      row.status.isTerminal = false
  data : ∀ ev ∈ pendingEvents after.shards campaignID,
    ∃ row, latestRow db.tables.executionStates (ev.cardID, campaignID) = some row ∧
      ev.type = .activate ∧ ev.campaignID = some campaignID ∧ ev.retryCount = row.retryCount ∧
      (row.currentStep ≠ 0 → ev.step = row.currentStep) ∧
      (row.currentStep = 0 → ∀ first, (db.commands campaignID).head? = some first →
        ev.step = first.sequence)
  noTerminal : ∀ ev ∈ pendingEvents after.shards campaignID, ∀ row,
    latestRow db.tables.executionStates (ev.cardID, campaignID) = some row →
      row.status.isTerminal = false
  unique : (after.shards.rows.map CampaignShard.key).Nodup

section Coverage

variable {gen : Generated} {db after : Database} {campaignID : UUID}

theorem mem_recoveryEvents {ev : CardEvent} : ev ∈ recoveryEvents gen db campaignID ↔
      ∃ row, latestRow db.tables.executionStates (row.cardID, campaignID) = some row ∧
        row.status.isTerminal = false ∧
        gen.activation campaignID (recoveryStep (db.commands campaignID) row) row.retryCount
          row.cardID = ev := by
  simp only [recoveryEvents, mem_map, mem_filter, mem_latestRows, Bool.not_eq_true']
  constructor
  · rintro ⟨row, ⟨hlatest, hopen⟩, rfl⟩
    exact ⟨row, hlatest, hopen, rfl⟩
  · rintro ⟨row, hlatest, hopen, rfl⟩
    exact ⟨row, ⟨hlatest, hopen⟩, rfl⟩

theorem recoveryEvents_eq_nil_iff : recoveryEvents gen db campaignID = [] ↔
      ¬ ∃ cardID row, latestRow db.tables.executionStates (cardID, campaignID) = some row ∧
        row.status.isTerminal = false := by
  rw [eq_nil_iff_forall_not_mem]
  constructor
  · rintro hnone ⟨cardID, row, hlatest, hopen⟩
    have hpair := (mem_of_latestRow hlatest).2
    rw [ExecutionRow.pair, Prod.mk.injEq] at hpair
    exact hnone _ (mem_recoveryEvents.mpr ⟨row, by rw [hpair.1]; exact hlatest, hopen, rfl⟩)
  · intro hnone ev hev
    obtain ⟨row, hlatest, hopen, -⟩ := mem_recoveryEvents.mp hev
    exact hnone ⟨row.cardID, row, hlatest, hopen⟩

theorem covers_of_recoveryEvents (gen : Generated)
    (hevents : pendingEvents after.shards campaignID = recoveryEvents gen db campaignID) :
    RecoveryCovers db after campaignID := by
  have hcard : ∀ {ev}, ev ∈ recoveryEvents gen db campaignID →
      ∃ row, latestRow db.tables.executionStates (ev.cardID, campaignID) = some row ∧
        row.status.isTerminal = false ∧ ev.type = .activate ∧ ev.campaignID = some campaignID ∧
        ev.retryCount = row.retryCount ∧
        (row.currentStep ≠ 0 → ev.step = row.currentStep) ∧
        (row.currentStep = 0 → ∀ first, (db.commands campaignID).head? = some first →
          ev.step = first.sequence) := by
    intro ev hev
    obtain ⟨row, hlatest, hopen, rfl⟩ := mem_recoveryEvents.mp hev
    refine ⟨row, hlatest, hopen, rfl, rfl, rfl, fun hstep ↦ if_neg hstep, ?_⟩
    intro hstep first hfirst
    change recoveryStep _ _ = _
    rw [recoveryStep, if_pos hstep, hfirst]
    rfl
  refine ⟨?_, ?_, ?_, ?_, after.shards.nodup_key⟩
  · rw [hevents, recoveryEvents, map_map]
    exact ((filter_sublist (p := fun row ↦ !row.status.isTerminal)
      (l := latestRows db.tables campaignID)).map ExecutionRow.cardID).nodup
        (nodup_latestRows db.tables campaignID)
  · intro cardID
    rw [hevents, mem_map]
    constructor
    · rintro ⟨ev, hev, rfl⟩
      obtain ⟨row, hlatest, hopen, -⟩ := hcard hev
      exact ⟨row, hlatest, hopen⟩
    · rintro ⟨row, hlatest, hopen⟩
      have hpair := (mem_of_latestRow hlatest).2
      rw [ExecutionRow.pair, Prod.mk.injEq] at hpair
      exact ⟨_, mem_recoveryEvents.mpr ⟨row, by rw [hpair.1]; exact hlatest, hopen, rfl⟩, hpair.1⟩
  · intro ev hev
    rw [hevents] at hev
    obtain ⟨row, hlatest, -, hdata⟩ := hcard hev
    exact ⟨row, hlatest, hdata⟩
  · intro ev hev row hrow
    rw [hevents] at hev
    obtain ⟨row', hlatest, hopen, -⟩ := hcard hev
    rw [Option.some.inj (hrow.symm.trans hlatest)]
    exact hopen

/-- **When recovery is exact.** After a recovery without error, the pending shards of a running
campaign are exactly those of its open cards if and only if there is an open card, or the shards
that were pending or being published held no event. -/
theorem recoverRunningCampaigns_covers_iff (shardSize : ℕ) (gen : UUID → Generated)
    (running : List UUID) (db : Database) (hsize : 0 < shardSize) (hnodup : running.Nodup)
    (hrunning : ∀ c, c ∈ running ↔ db.campaigns c = some .running)
    (herrors : (recoverRunningCampaigns shardSize gen running db).1 = []) (campaignID : UUID)
    (hstatus : db.campaigns campaignID = some .running) :
    RecoveryCovers db (recoverRunningCampaigns shardSize gen running db).2 campaignID ↔
      (∃ cardID row, latestRow db.tables.executionStates (cardID, campaignID) = some row ∧
        row.status.isTerminal = false) ∨
      ∀ shard ∈ db.shards.rows, shard.campaignID = campaignID → shard.isOpen = true →
        shard.events = [] := by
  have hevents := pendingEvents_recoverEach hsize hnodup herrors ((hrunning campaignID).mpr hstatus)
  have hsame : recoveryEvents (gen campaignID) (resetPublishing db) campaignID
      = recoveryEvents (gen campaignID) db campaignID := rfl
  rw [hsame] at hevents
  by_cases hopen : recoveryEvents (gen campaignID) db campaignID = []
  · rw [if_pos hopen, pendingEvents_resetPublishing] at hevents
    have hnone := recoveryEvents_eq_nil_iff.mp hopen
    rw [or_iff_right hnone]
    constructor
    · intro hcovers shard hshard hc hshardOpen
      rw [eq_nil_iff_forall_not_mem]
      intro ev hev
      have hmem : ev ∈ pendingEvents
          (recoverRunningCampaigns shardSize gen running db).2.shards campaignID := by
        rw [recoverRunningCampaigns, hevents, mem_flatMap]
        exact ⟨shard, mem_filter.mpr ⟨hshard, by simp [hc, hshardOpen]⟩, hev⟩
      obtain ⟨row, hlatest, hrow⟩ := (hcovers.cards ev.cardID).mp (mem_map_of_mem hmem)
      exact hnone ⟨ev.cardID, row, hlatest, hrow⟩
    · intro hempty
      refine covers_of_recoveryEvents (gen campaignID) ?_
      rw [hopen, recoverRunningCampaigns, hevents, flatMap_eq_nil_iff]
      intro shard hshard
      obtain ⟨hmem, hshard⟩ := mem_filter.mp hshard
      rw [Bool.and_eq_true, decide_eq_true_eq] at hshard
      exact hempty shard hmem hshard.1 hshard.2
  · rw [if_neg hopen] at hevents
    have hsome := fun h ↦ hopen (recoveryEvents_eq_nil_iff.mpr h)
    exact iff_of_true (covers_of_recoveryEvents (gen campaignID) hevents)
      (Or.inl (not_not.mp hsome))

end Coverage

/-! ## A crash while publishing -/

/-- Drawn identifiers and times of a concrete run. -/
def plainGenerated : Generated where
  eventID := fun _ ↦ UUID.ofDigit 8
  shardID := fun sequence ↦ UUID.ofDigit (sequence.toNat + 2)
  createdAt := fun _ ↦ 0
  now := 0

def singleTarget : Targets := ⟨[UUID.ofDigit 2], pairwise_singleton _ _⟩

/-- A running campaign of one command and one card of the given status, whose only shard was being
published. -/
def crashedDatabase (status : CardStatus) : Database where
  campaigns := Function.update (fun _ ↦ none) (UUID.ofDigit 1) (some .running)
  commands := fun _ ↦
    [{ sequence := 1, applicationID := UUID.ofDigit 3, expectResponse := false }]
  targets := fun _ ↦ singleTarget
  shards :=
    { rows := [{
        id := UUID.ofDigit 9
        campaignID := UUID.ofDigit 1
        sequence := 1
        status := .publishing
        itemCount := 1
        items := some [plainGenerated.activation (UUID.ofDigit 1) 1 0 (UUID.ofDigit 2)]
        claimedAt := some 0
        createdAt := 0 }]
      nodup_id := nodup_singleton _
      nodup_key := nodup_singleton _ }
  tables :=
    { executionStates := [initialRow (UUID.ofDigit 1) 1 0 (UUID.ofDigit 2),
        { initialRow (UUID.ofDigit 1) 1 0 (UUID.ofDigit 2) with status, transitionSeq := 1 }]
      campaignStats := fun _ ↦ none }

/-- A card that waits for its report is recovered. -/
theorem recoverRunningCampaigns_covers_waiting :
    RecoveryCovers (crashedDatabase .awaitingDlr)
      (recoverRunningCampaigns 5000 (fun _ ↦ plainGenerated) [UUID.ofDigit 1]
        (crashedDatabase .awaitingDlr)).2 (UUID.ofDigit 1) := by
  refine (recoverRunningCampaigns_covers_iff 5000 _ _ _ (by decide) (nodup_singleton _) ?_ ?_
    (UUID.ofDigit 1) (by decide +kernel)).mpr (Or.inl ⟨UUID.ofDigit 2, ?_⟩)
  · intro c
    rw [mem_singleton, crashedDatabase]
    by_cases hc : c = UUID.ofDigit 1
    · rw [hc]
      simp
    · simp [hc]
  · decide +kernel
  · exact ⟨_, rfl, rfl⟩

/-- The only card has completed, but its shard is pending again after the recovery. -/
theorem recovery_keeps_completed :
    (recoverRunningCampaigns 5000 (fun _ ↦ plainGenerated) [UUID.ofDigit 1]
        (crashedDatabase .completed)).1 = [] ∧
      (crashedDatabase .completed).campaigns (UUID.ofDigit 1) = some .running ∧
      (latestRow (crashedDatabase .completed).tables.executionStates
        (UUID.ofDigit 2, UUID.ofDigit 1)).map ExecutionRow.status = some .completed ∧
      (pendingEvents (recoverRunningCampaigns 5000 (fun _ ↦ plainGenerated) [UUID.ofDigit 1]
        (crashedDatabase .completed)).2.shards (UUID.ofDigit 1)).map CardEvent.cardID
          = [UUID.ofDigit 2] := by
  decide +kernel

end OtaPlatform
