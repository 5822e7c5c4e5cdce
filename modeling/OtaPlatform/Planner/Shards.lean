import Mathlib.Data.List.Nodup
import OtaPlatform.Pipeline.Types

/-!
# Campaign shards and the planner

A shard is a row of `campaign_shards`: a bundle of activations of one campaign. The control plane
and the recovery create shards; the planner claims the oldest pending ones, publishes their events
and marks them published.

## The table

`ShardTable` carries the two constraints of the table, so a value that violates one cannot be
built: `insert` refuses a row whose identifier, or whose campaign and sequence number, is there
already.

## What the environment decides

Which shards a claim returns, among several of the same age, and in which order; how many events
the channel takes before the publisher gives up; which database statement fails. All of these are
arguments.
-/

namespace OtaPlatform

open List

/-! ## The table -/

inductive ShardStatus
  | pending
  | publishing
  | published
deriving DecidableEq, Repr

structure CampaignShard where
  id : UUID
  campaignID : UUID
  sequence : ℤ
  status : ShardStatus := .pending
  itemCount : ℤ
  /-- What the stored items decode to; nothing when they do not decode. -/
  items : Option (List CardEvent)
  claimedAt : Option ℤ := none
  createdAt : ℤ
deriving DecidableEq, Repr

namespace CampaignShard

/-- `UNIQUE(campaign_id, sequence)`. -/
def key (shard : CampaignShard) : UUID × ℤ := (shard.campaignID, shard.sequence)

/-- `status IN ('pending', 'publishing')`. -/
def isOpen (shard : CampaignShard) : Bool :=
  shard.status = .pending || shard.status = .publishing

/-- `status = 'pending' AND claimed_at IS NULL`. -/
def claimable (shard : CampaignShard) : Bool :=
  shard.status = .pending && shard.claimedAt.isNone

def events (shard : CampaignShard) : List CardEvent := shard.items.getD []

end CampaignShard

/-- `campaign_shards`, with its constraints. -/
structure ShardTable where
  /-- The rows, in the order of their insertion. -/
  rows : List CampaignShard
  nodup_id : (rows.map CampaignShard.id).Nodup
  nodup_key : (rows.map CampaignShard.key).Nodup

namespace ShardTable

/-- The table of a new installation. -/
def empty : ShardTable := ⟨[], nodup_nil, nodup_nil⟩

private theorem nodup_map_concat {β : Type} (f : CampaignShard → β) {rows : List CampaignShard}
    (h : (rows.map f).Nodup) {shard : CampaignShard} (hnew : f shard ∉ rows.map f) :
    ((rows ++ [shard]).map f).Nodup := by
  rw [map_append, nodup_append]
  refine ⟨h, nodup_singleton _, ?_⟩
  intro a ha b hb hab
  rw [map_singleton, mem_singleton] at hb
  exact hnew (hb ▸ hab ▸ ha)

def insert (t : ShardTable) (shard : CampaignShard) : Except String ShardTable :=
  if hid : shard.id ∈ t.rows.map CampaignShard.id then
    .error "duplicate key value violates unique constraint \"campaign_shards_pkey\""
  else if hkey : shard.key ∈ t.rows.map CampaignShard.key then
    .error ("duplicate key value violates unique constraint " ++
      "\"campaign_shards_campaign_id_sequence_key\"")
  else .ok ⟨t.rows ++ [shard], nodup_map_concat _ t.nodup_id hid,
    nodup_map_concat _ t.nodup_key hkey⟩

/-- A row with a new status and claim. -/
def setStatus (p : CampaignShard → Bool) (status : ShardStatus)
    (claimedAt : CampaignShard → Option ℤ) (shard : CampaignShard) : CampaignShard :=
  if p shard then { shard with status, claimedAt := claimedAt shard } else shard

private theorem map_setStatus {β : Type} (f : CampaignShard → β)
    (hf : ∀ shard status claimedAt, f { shard with status, claimedAt } = f shard)
    (p : CampaignShard → Bool) (status : ShardStatus) (claimedAt : CampaignShard → Option ℤ)
    (rows : List CampaignShard) : (rows.map (setStatus p status claimedAt)).map f = rows.map f := by
  rw [map_map]
  refine map_congr_left fun shard _ ↦ ?_
  rw [Function.comp, setStatus]
  split
  · exact hf shard status _
  · rfl

/-- `UPDATE ... SET status, claimed_at` on the rows that satisfy the condition. -/
def update (t : ShardTable) (p : CampaignShard → Bool) (status : ShardStatus)
    (claimedAt : CampaignShard → Option ℤ) : ShardTable where
  rows := t.rows.map (setStatus p status claimedAt)
  nodup_id := by
    rw [map_setStatus _ fun _ _ _ ↦ rfl]
    exact t.nodup_id
  nodup_key := by
    rw [map_setStatus _ fun _ _ _ ↦ rfl]
    exact t.nodup_key

/-- `DELETE` of the rows that satisfy the condition. -/
def delete (t : ShardTable) (p : CampaignShard → Bool) : ShardTable where
  rows := t.rows.filter fun shard ↦ !p shard
  nodup_id := t.nodup_id.sublist (filter_sublist.map _)
  nodup_key := t.nodup_key.sublist (filter_sublist.map _)

/-- `COALESCE(MAX(sequence), 0)` over the rows of a campaign. -/
def maxSequence (t : ShardTable) (campaignID : UUID) : ℤ :=
  ((t.rows.filter fun shard ↦ shard.campaignID = campaignID).map CampaignShard.sequence).max?.getD 0

end ShardTable

/-! ## Claiming -/

structure PlannerConfig where
  /-- The number of shards a claim may take. -/
  batchSize : ℕ := 5000
  /-- The backlog above which a cycle is skipped. -/
  maxShardBacklog : ℕ := 500
  batchSize_pos : 0 < batchSize := by decide
  maxShardBacklog_pos : 0 < maxShardBacklog := by decide

def shardBacklog (campaigns : UUID → Option CampaignStatus) (t : ShardTable) : ℕ :=
  (t.rows.filter fun shard ↦ shard.isOpen && (campaigns shard.campaignID == some .running)).length

/-- The statement of a claim may return these rows: as many of the claimable ones as it may take,
and none that is younger than one it leaves. -/
structure IsClaim (t : ShardTable) (batchSize : ℕ) (claimed : List CampaignShard) : Prop where
  nodup : claimed.Nodup
  claimable : ∀ shard ∈ claimed, shard ∈ t.rows ∧ shard.claimable = true
  length : claimed.length = min batchSize (t.rows.filter CampaignShard.claimable).length
  oldest : ∀ shard ∈ claimed, ∀ other ∈ t.rows, other.claimable = true → other ∉ claimed →
    shard.createdAt ≤ other.createdAt

instance (t : ShardTable) (batchSize : ℕ) (claimed : List CampaignShard) :
    Decidable (IsClaim t batchSize claimed) :=
  decidable_of_iff (claimed.Nodup ∧ (∀ shard ∈ claimed, shard ∈ t.rows ∧ shard.claimable = true) ∧
      claimed.length = min batchSize (t.rows.filter CampaignShard.claimable).length ∧
      ∀ shard ∈ claimed, ∀ other ∈ t.rows, other.claimable = true → other ∉ claimed →
        shard.createdAt ≤ other.createdAt)
    ⟨fun ⟨h₁, h₂, h₃, h₄⟩ ↦ ⟨h₁, h₂, h₃, h₄⟩, fun ⟨h₁, h₂, h₃, h₄⟩ ↦ ⟨h₁, h₂, h₃, h₄⟩⟩

/-! ## Publishing -/

/-- What publishing the claimed shards comes to. -/
structure Publication where
  /-- The events the channel took, in order. -/
  events : List CardEvent := []
  publishedIDs : List UUID := []
  pendingResetIDs : List UUID := []
deriving DecidableEq, Repr

/-- The publishing loop. The channel takes `room` more events, any number if there is none. With a
batch publisher a shard goes out in one call; without, event by event, and a shard of which a part
went out is left as it is. -/
def publishLoop (batch : Bool) : List CampaignShard → Option ℕ → Publication
  | [], _ => {}
  | shard :: rest, room =>
    match shard.items with
    -- The loop ends without a word about the remaining shards.
    | none => { pendingResetIDs := [shard.id] }
    | some events =>
      match room with
      | none =>
        let p := publishLoop batch rest none
        { p with events := events ++ p.events, publishedIDs := shard.id :: p.publishedIDs }
      | some n =>
        if events.length ≤ n then
          let p := publishLoop batch rest (some (n - events.length))
          { p with events := events ++ p.events, publishedIDs := shard.id :: p.publishedIDs }
        else
          { events := events.take n
            pendingResetIDs := (if batch || n = 0 then [shard.id] else []) ++
              rest.map CampaignShard.id }

structure PlannerAnswers where
  now : ℤ := 0
  claimed : List CampaignShard
  claimFails : Bool := false
  batch : Bool := true
  /-- The events the channel takes; any number if there is no bound. -/
  room : Option ℕ := none
  resetFails : Bool := false
  markFails : Bool := false

def publishClaimedShards (t : ShardTable) (ans : PlannerAnswers) : ShardTable × List CardEvent :=
  let p := publishLoop ans.batch ans.claimed ans.room
  let t := if ans.resetFails then t
    else t.update (fun shard ↦ shard.id ∈ p.pendingResetIDs) .pending fun _ ↦ none
  let t := if ans.markFails then t
    else t.update (fun shard ↦ shard.id ∈ p.publishedIDs) .published CampaignShard.claimedAt
  (t, p.events)

/-- One planner cycle: the table afterwards and the events that went out. -/
def publishBatch (cfg : PlannerConfig) (campaigns : UUID → Option CampaignStatus) (t : ShardTable)
    (ans : PlannerAnswers) : ShardTable × List CardEvent :=
  if cfg.maxShardBacklog < shardBacklog campaigns t then (t, [])
  else if ans.claimFails || ans.claimed.isEmpty then (t, [])
  else
    publishClaimedShards (t.update (fun shard ↦ shard.id ∈ ans.claimed.map CampaignShard.id)
      .publishing fun _ ↦ some ans.now) ans

def pendingShards (t : ShardTable) : ℕ := (t.rows.filter fun shard ↦ shard.status = .pending).length

/-! ## What a cycle changes -/

section Cycle

variable {t : ShardTable} {P : CampaignShard → Prop}

theorem forall_update (hP : ∀ shard status claimedAt, P shard → P { shard with status, claimedAt })
    (h : ∀ shard ∈ t.rows, P shard) (p : CampaignShard → Bool) (status : ShardStatus)
    (claimedAt : CampaignShard → Option ℤ) :
    ∀ shard ∈ (t.update p status claimedAt).rows, P shard := by
  intro shard hshard
  obtain ⟨old, hold, rfl⟩ := mem_map.mp hshard
  rw [ShardTable.setStatus]
  split
  · exact hP old _ _ (h old hold)
  · exact h old hold

/-- A cycle changes the status and the claim of shards and nothing else. -/
theorem forall_publishBatch
    (hP : ∀ shard status claimedAt, P shard → P { shard with status, claimedAt })
    (h : ∀ shard ∈ t.rows, P shard) (cfg : PlannerConfig) (campaigns : UUID → Option CampaignStatus)
    (ans : PlannerAnswers) : ∀ shard ∈ (publishBatch cfg campaigns t ans).1.rows, P shard := by
  have hif : ∀ (fails : Bool) (t : ShardTable), (∀ shard ∈ t.rows, P shard) →
      ∀ p status claimedAt,
        ∀ shard ∈ (if fails then t else t.update p status claimedAt).rows, P shard := by
    intro fails t ht p status claimedAt
    cases fails
    · exact forall_update hP ht p status claimedAt
    · exact ht
  rw [publishBatch]
  split_ifs
  · exact h
  · exact h
  · exact hif _ _ (hif _ _ (forall_update hP h _ _ _) _ _ _) _ _ _

theorem publishBatch_of_lt {cfg : PlannerConfig} {campaigns : UUID → Option CampaignStatus}
    (h : cfg.maxShardBacklog < shardBacklog campaigns t) (ans : PlannerAnswers) :
    publishBatch cfg campaigns t ans = (t, []) := if_pos h

/-- Claimed shards that decode all go out when the channel takes everything. -/
theorem publishLoop_none {batch : Bool} {claimed : List CampaignShard}
    (hitems : ∀ shard ∈ claimed, shard.items.isSome = true) : publishLoop batch claimed none
      = { events := claimed.flatMap CampaignShard.events
          publishedIDs := claimed.map CampaignShard.id } := by
  induction claimed with
  | nil => rfl
  | cons shard rest ih =>
    obtain ⟨events, hevents⟩ := Option.isSome_iff_exists.mp (hitems shard mem_cons_self)
    have hrest := ih fun s hs ↦ hitems s (mem_cons_of_mem _ hs)
    rw [publishLoop, hevents]
    simp only [hrest, flatMap_cons, map_cons, CampaignShard.events, hevents, Option.getD_some]

theorem rows_publishBatch {cfg : PlannerConfig} {campaigns : UUID → Option CampaignStatus}
    {ans : PlannerAnswers} (hbacklog : shardBacklog campaigns t ≤ cfg.maxShardBacklog)
    (hitems : ∀ shard ∈ ans.claimed, shard.items.isSome = true) (hclaimed : ans.claimed ≠ [])
    (hclaim : ans.claimFails = false) (hroom : ans.room = none) (hmark : ans.markFails = false) :
    (publishBatch cfg campaigns t ans).1.rows = t.rows.map fun shard ↦
      if shard.id ∈ ans.claimed.map CampaignShard.id then
        { shard with status := .published, claimedAt := some ans.now } else shard := by
  have hempty : (ans.claimFails || ans.claimed.isEmpty) = false := by
    rw [hclaim, Bool.false_or, isEmpty_eq_false_iff]
    exact hclaimed
  have hnone : ∀ t : ShardTable, (if ans.resetFails then t
      else t.update (fun shard ↦ shard.id ∈ ([] : List UUID)) .pending fun _ ↦ none).rows
        = t.rows := by
    intro t
    split
    · rfl
    · refine (map_congr_left fun shard _ ↦ ?_).trans (map_id t.rows)
      exact if_neg (by simp)
  rw [publishBatch, if_neg (not_lt.mpr hbacklog), hempty, if_neg Bool.false_ne_true,
    publishClaimedShards, hroom, publishLoop_none hitems, hmark]
  refine (congrArg (map _) (hnone _)).trans ?_
  rw [ShardTable.update, map_map]
  refine map_congr_left fun shard _ ↦ ?_
  simp only [Function.comp, ShardTable.setStatus, decide_eq_true_eq]
  by_cases hmem : shard.id ∈ ans.claimed.map CampaignShard.id
  · simp only [hmem, if_true]
  · simp only [hmem, if_false]

theorem mem_events_publishLoop {batch : Bool} {claimed : List CampaignShard} {room : Option ℕ}
    {id : UUID} (h : id ∈ (publishLoop batch claimed room).publishedIDs) :
    ∃ shard ∈ claimed, shard.id = id ∧
      ∀ ev ∈ shard.events, ev ∈ (publishLoop batch claimed room).events := by
  induction claimed generalizing room with
  | nil => cases h
  | cons shard rest ih =>
    -- the shard goes out in full, and the rest of the loop adds to it
    have hfull : ∀ (events : List CardEvent) (room' : Option ℕ), shard.items = some events →
        id ∈ shard.id :: (publishLoop batch rest room').publishedIDs →
        ∃ shard' ∈ shard :: rest, shard'.id = id ∧
          ∀ ev ∈ shard'.events, ev ∈ events ++ (publishLoop batch rest room').events := by
      intro events room' hitems hid
      rcases mem_cons.mp hid with rfl | hid
      · refine ⟨shard, mem_cons_self, rfl, fun ev hev ↦ mem_append_left _ ?_⟩
        rw [CampaignShard.events, hitems] at hev
        exact hev
      · obtain ⟨shard', hmem, hid, hevents⟩ := ih hid
        exact ⟨shard', mem_cons_of_mem _ hmem, hid,
          fun ev hev ↦ mem_append_right _ (hevents ev hev)⟩
    rw [publishLoop] at h ⊢
    cases hitems : shard.items with
    | none =>
      rw [hitems] at h
      cases h
    | some events =>
      rw [hitems] at h
      cases room with
      | none => exact hfull events none hitems h
      | some n =>
        simp only at h ⊢
        split_ifs at h ⊢ with hlength hbatch
        · exact hfull events _ hitems h
        · cases h
        · cases h

private theorem setStatus_eq_or (p : CampaignShard → Bool) (status : ShardStatus)
    (claimedAt : CampaignShard → Option ℤ) (shard : CampaignShard) :
    ShardTable.setStatus p status claimedAt shard = shard ∨
      p shard = true ∧ ∃ claim, ShardTable.setStatus p status claimedAt shard
        = { shard with status, claimedAt := claim } := by
  rw [ShardTable.setStatus]
  split_ifs with hp
  · exact Or.inr ⟨hp, _, rfl⟩
  · exact Or.inl rfl

private theorem exists_open_update {shard : CampaignShard} (hshard : shard ∈ t.rows)
    (hopen : shard.isOpen = true) (p : CampaignShard → Bool) (status : ShardStatus)
    (claimedAt : CampaignShard → Option ℤ)
    (hstatus : p shard = true → status = .pending ∨ status = .publishing) :
    ∃ shard' ∈ (t.update p status claimedAt).rows,
      shard'.isOpen = true ∧ shard'.id = shard.id ∧ shard'.items = shard.items := by
  refine ⟨_, mem_map_of_mem hshard, ?_⟩
  rcases setStatus_eq_or p status claimedAt shard with heq | ⟨hp, claim, heq⟩
  · rw [heq]
    exact ⟨hopen, rfl, rfl⟩
  · rw [heq]
    refine ⟨?_, rfl, rfl⟩
    rcases hstatus hp with rfl | rfl <;> rfl

/-- **A cycle loses no event.** An event of an open shard is in an open shard afterwards, or went
out. -/
theorem publishBatch_keeps {cfg : PlannerConfig} (campaigns : UUID → Option CampaignStatus)
    {ans : PlannerAnswers} (hclaim : IsClaim t cfg.batchSize ans.claimed) {shard : CampaignShard}
    (hshard : shard ∈ t.rows) (hopen : shard.isOpen = true) :
    (∃ shard' ∈ (publishBatch cfg campaigns t ans).1.rows,
        shard'.isOpen = true ∧ shard'.items = shard.items) ∨
      ∀ ev ∈ shard.events, ev ∈ (publishBatch cfg campaigns t ans).2 := by
  have hif : ∀ (fails : Bool) {t : ShardTable} {old : CampaignShard}, old ∈ t.rows →
      old.isOpen = true → ∀ (p : CampaignShard → Bool) (status : ShardStatus)
      (claimedAt : CampaignShard → Option ℤ),
      (p old = true → status = .pending ∨ status = .publishing) →
      ∃ new ∈ (if fails then t else t.update p status claimedAt).rows,
        new.isOpen = true ∧ new.id = old.id ∧ new.items = old.items := by
    intro fails t old hold hopen p status claimedAt hstatus
    cases fails
    · exact exists_open_update hold hopen p status claimedAt hstatus
    · exact ⟨old, hold, hopen, rfl, rfl⟩
  rw [publishBatch]
  split_ifs with hlimit hempty
  · exact Or.inl ⟨shard, hshard, hopen, rfl⟩
  · exact Or.inl ⟨shard, hshard, hopen, rfl⟩
  · -- claimed, perhaps put back, perhaps marked
    obtain ⟨shard₁, hshard₁, hopen₁, hid₁, hitems₁⟩ := exists_open_update hshard hopen
      (fun shard ↦ shard.id ∈ ans.claimed.map CampaignShard.id) .publishing
      (fun _ ↦ some ans.now) fun _ ↦ Or.inr rfl
    obtain ⟨shard₂, hshard₂, hopen₂, hid₂, hitems₂⟩ := hif ans.resetFails hshard₁ hopen₁
      (fun shard ↦ shard.id ∈ (publishLoop ans.batch ans.claimed ans.room).pendingResetIDs)
      .pending (fun _ ↦ none) fun _ ↦ Or.inl rfl
    by_cases hpublished : shard.id ∈ (publishLoop ans.batch ans.claimed ans.room).publishedIDs
    · right
      obtain ⟨shard', hclaimed, hid, hevents⟩ := mem_events_publishLoop hpublished
      have hrow := (hclaim.claimable shard' hclaimed).1
      obtain rfl : shard' = shard :=
        inj_on_of_nodup_map t.nodup_id hrow hshard hid
      exact hevents
    · left
      obtain ⟨shard₃, hshard₃, hopen₃, -, hitems₃⟩ := hif ans.markFails hshard₂ hopen₂
        (fun shard ↦ shard.id ∈ (publishLoop ans.batch ans.claimed ans.room).publishedIDs)
        .published CampaignShard.claimedAt fun hmarked ↦ by
          rw [decide_eq_true_eq, hid₂, hid₁] at hmarked
          exact absurd hmarked hpublished
      exact ⟨shard₃, hshard₃, hopen₃, hitems₃.trans (hitems₂.trans hitems₁)⟩

end Cycle

end OtaPlatform
