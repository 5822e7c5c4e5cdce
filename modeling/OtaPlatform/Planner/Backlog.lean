import OtaPlatform.Pgstore.Recovery
import OtaPlatform.Transition.Machine

/-!
# Planner cycles and the backlog

The planner skips a cycle when too many shards of running campaigns are open. The shards it counts
are the ones it would publish itself, so above the limit nothing drains them any more: a cycle
leaves the table as it is, and with it the reason to skip the next one.

`publishBatch_progress_iff` says that this is the only obstacle. In every database state the
platform can reach, with a claimable shard of a running campaign, a cycle in which nothing fails
makes progress exactly when the backlog is within the limit.
-/

namespace OtaPlatform

open List Function

/-! ## The platform -/

structure PlatformConfig where
  control : ControlConfig
  planner : PlannerConfig

inductive PlatformAction
  | create (campaignID : UUID) (commands : List CampaignCommand) (targets : Targets)
  | start (campaignID : UUID) (gen : Generated)
  | pause (campaignID : UUID)
  | resume (campaignID : UUID) (gen : Generated)
  | abort (campaignID : UUID) (gen : Generated)
  /-- The failed cards of a campaign are put back. -/
  | retryFailed (campaignID : UUID) (gen : Generated)
  /-- The completion checker looks at a campaign. -/
  | check (campaignID : UUID)
  | flush (batch : List CardStateChange) (copyWorks : Bool)
  | publish (ans : PlannerAnswers)
  | recover (shardSize : ℕ) (gen : UUID → Generated) (running : List UUID)

namespace Database

variable (cfg : PlatformConfig)

def publish (db : Database) (ans : PlannerAnswers) : Database :=
  { db with shards := (publishBatch cfg.planner db.campaigns db.shards ans).1 }

def Enabled (db : Database) : PlatformAction → Prop
  | .create campaignID _ _ => db.campaigns campaignID = none
  | .publish ans => IsClaim db.shards cfg.planner.batchSize ans.claimed
  | .recover shardSize _ running => 0 < shardSize ∧ running.Nodup ∧
      ∀ c ∈ running, db.campaigns c = some .running
  | _ => True

def next (db : Database) : PlatformAction → Database
  | .create campaignID commands targets =>
    { db.setStatus campaignID .pending with
      commands := update db.commands campaignID commands
      targets := update db.targets campaignID targets }
  | .start campaignID gen => (startCampaign cfg.control gen db campaignID).2
  | .pause campaignID => (pauseCampaign db campaignID).2
  | .resume campaignID gen => (resumeCampaign cfg.control gen db campaignID).2
  | .abort campaignID gen => (abortCampaignRequest gen db campaignID).2
  | .retryFailed campaignID gen => (retryFailedCards gen db campaignID).2
  | .check campaignID => checkCompletion db campaignID
  | .flush batch copyWorks => { db with tables := writeCardStateBatch copyWorks db.tables batch }
  | .publish ans => db.publish cfg ans
  | .recover shardSize gen running => (recoverRunningCampaigns shardSize gen running db).2

end Database

/-- The database as a transition system. -/
def platform (cfg : PlatformConfig) : Machine Database PlatformAction where
  Enabled := Database.Enabled cfg
  next := Database.next cfg

instance (cfg : PlatformConfig) (db : Database) : (a : PlatformAction) →
    Decidable ((platform cfg).Enabled db a)
  | .create campaignID _ _ => inferInstanceAs (Decidable (db.campaigns campaignID = none))
  | .publish ans =>
    inferInstanceAs (Decidable (IsClaim db.shards cfg.planner.batchSize ans.claimed))
  | .recover shardSize _ running => inferInstanceAs (Decidable (0 < shardSize ∧ running.Nodup ∧
      ∀ c ∈ running, db.campaigns c = some .running))
  | .start _ _ | .pause _ | .resume _ _ | .abort _ _ | .retryFailed _ _ | .check _ | .flush _ _ =>
    isTrue trivial

/-! ## Shards that decode -/

def ShardTable.Decodes (t : ShardTable) : Prop := ∀ shard ∈ t.rows, shard.items.isSome = true

section Decodes

variable {t t' : ShardTable} {gen : Generated} {campaignID : UUID} {first : ℤ}
  {batches : List (List CardEvent)}

theorem isSome_items_generated :
    ∀ shard ∈ gen.shards campaignID first batches, shard.items.isSome = true := by
  induction batches generalizing first with
  | nil =>
    intro shard hshard
    cases hshard
  | cons events batches ih =>
    intro shard hshard
    rcases mem_cons.mp hshard with rfl | hshard
    · rfl
    · exact ih shard hshard

theorem ShardTable.Decodes.append (h : t.Decodes) {shards : List CampaignShard}
    (hrows : t'.rows = t.rows ++ shards) (hshards : ∀ shard ∈ shards, shard.items.isSome = true) :
    t'.Decodes := by
  intro shard hshard
  rw [hrows] at hshard
  exact (mem_append.mp hshard).elim (h shard) (hshards shard)

theorem ShardTable.Decodes.insertAll (h : t.Decodes)
    (hinsert : t.insertAll (gen.shards campaignID first batches) = .ok t') : t'.Decodes :=
  h.append (rows_insertAll hinsert) isSome_items_generated

/-- Recovery keeps the shards decodable: it deletes some and adds its own. -/
theorem ShardTable.Decodes.recoverCampaign {db : Database} (h : db.shards.Decodes)
    (shardSize : ℕ) (gen : Generated) (campaignID : UUID) :
    (recoverCampaign shardSize gen db campaignID).2.shards.Decodes := by
  rw [OtaPlatform.recoverCampaign]
  split_ifs
  · exact h
  · simp only
    obtain ⟨done, rest, hsplit, hrows, -⟩ := rows_insertEach
      (db.shards.delete fun shard ↦ shard.campaignID = campaignID && shard.isOpen) _
    refine ShardTable.Decodes.append (fun shard hshard ↦ h shard (mem_filter.mp hshard).1)
      hrows fun shard hshard ↦ ?_
    exact isSome_items_generated shard (hsplit ▸ mem_append_left rest hshard)

theorem ShardTable.Decodes.recoverEach {db : Database} (h : db.shards.Decodes) (shardSize : ℕ)
    (gen : UUID → Generated) (running : List UUID) :
    (recoverEach shardSize gen running db).2.shards.Decodes := by
  induction running generalizing db with
  | nil => exact h
  | cons c running ih =>
    rw [OtaPlatform.recoverEach]
    split
    · exact ih (h.recoverCampaign shardSize (gen c) c)
    · exact ih (h.recoverCampaign shardSize (gen c) c)

end Decodes

section Steps

variable {cfg : PlatformConfig} {db : Database} {campaignID : UUID} {gen : Generated}

theorem decodes_startCampaign (h : db.shards.Decodes) (cfg : ControlConfig) :
    (startCampaign cfg gen db campaignID).2.shards.Decodes := by
  have hout := startCampaign_outcome cfg gen db campaignID
  generalize (startCampaign cfg gen db campaignID).2 = db' at hout ⊢
  cases hout with
  | refused | failed _ => exact h
  | started hpending hcommands hinsert => exact h.insertAll hinsert

theorem decodes_resumeCampaign (h : db.shards.Decodes) (cfg : ControlConfig) :
    (resumeCampaign cfg gen db campaignID).2.shards.Decodes := by
  have hout := resumeCampaign_outcome cfg gen db campaignID
  generalize (resumeCampaign cfg gen db campaignID).2 = db' at hout ⊢
  cases hout with
  | refused => exact h
  | resumed hpaused hcommands hinsert => exact h.insertAll hinsert

theorem shards_pauseCampaign : (pauseCampaign db campaignID).2.shards = db.shards := by
  rw [pauseCampaign]
  split_ifs <;> rfl

theorem shards_abortCampaignRequest :
    (abortCampaignRequest gen db campaignID).2.shards = db.shards := by
  rw [abortCampaignRequest]
  split
  · rfl
  · split_ifs <;> rfl

theorem shards_retryFailedCards : (retryFailedCards gen db campaignID).2.shards = db.shards := by
  rcases retryFailedCards_cases gen db campaignID with heq | ⟨first, campaigns, -, heq⟩
  · rw [heq]
  · rw [heq]

theorem shards_checkCompletion : (checkCompletion db campaignID).shards = db.shards := by
  rw [checkCompletion]
  split
  · split <;> rfl
  · rfl

theorem decodes_next (h : db.shards.Decodes) (a : PlatformAction) :
    (db.next cfg a).shards.Decodes := by
  cases a with
  | create campaignID commands targets => exact h
  | start campaignID gen => exact decodes_startCampaign h cfg.control
  | pause campaignID =>
    rw [Database.next, shards_pauseCampaign]
    exact h
  | resume campaignID gen => exact decodes_resumeCampaign h cfg.control
  | abort campaignID gen =>
    rw [Database.next, shards_abortCampaignRequest]
    exact h
  | retryFailed campaignID gen =>
    rw [Database.next, shards_retryFailedCards]
    exact h
  | check campaignID =>
    rw [Database.next, shards_checkCompletion]
    exact h
  | flush batch copyWorks => exact h
  | publish ans =>
    exact forall_publishBatch (P := fun shard ↦ shard.items.isSome = true)
      (fun _ _ _ hshard ↦ hshard) h cfg.planner db.campaigns ans
  | recover shardSize gen running =>
    refine ShardTable.Decodes.recoverEach ?_ shardSize gen running
    exact forall_update (P := fun shard ↦ shard.items.isSome = true)
      (fun _ _ _ hshard ↦ hshard) h _ _ _

end Steps

/-! ## Progress -/

private theorem length_filter_map_lt {α : Type} {f : α → α} {p : α → Bool} {l : List α}
    (hf : ∀ a ∈ l, p (f a) = true → p a = true) (hlt : ∃ a ∈ l, p a = true ∧ p (f a) = false) :
    ((l.map f).filter p).length < (l.filter p).length := by
  have hsub : l.filter (p ∘ f) = (l.filter p).filter (p ∘ f) := by
    rw [filter_filter]
    refine filter_congr fun a ha ↦ ?_
    cases hpf : p (f a)
    · rw [comp, hpf, Bool.false_and]
    · rw [comp, hpf, hf a ha hpf, Bool.and_true]
  rw [filter_map, length_map, hsub, length_filter_lt_length_iff_exists]
  obtain ⟨a, ha, hpa, hpf⟩ := hlt
  exact ⟨a, mem_filter.mpr ⟨ha, hpa⟩, by rw [comp, hpf]; exact Bool.false_ne_true⟩

theorem IsClaim.ne_nil {t : ShardTable} {batchSize : ℕ} {claimed : List CampaignShard}
    (h : IsClaim t batchSize claimed) (hsize : 0 < batchSize)
    (hclaimable : ∃ shard ∈ t.rows, shard.claimable = true) : claimed ≠ [] := by
  obtain ⟨shard, hshard, hclaim⟩ := hclaimable
  have hpos : 0 < (t.rows.filter CampaignShard.claimable).length :=
    length_pos_of_mem (mem_filter.mpr ⟨hshard, hclaim⟩)
  have hlength := h.length
  intro hnil
  rw [hnil, length_nil] at hlength
  omega

/-- **When the planner makes progress.** In every database state that can be reached from one
without shards and that has a claimable shard of a running campaign, a cycle in which nothing fails
lowers the number of pending shards exactly when the backlog is within the limit. -/
theorem publishBatch_progress_iff (cfg : PlatformConfig) (db₀ : Database)
    (hempty : db₀.shards.rows = []) (acts : List PlatformAction)
    (hruns : (platform cfg).Runs db₀ acts) (db : Database)
    (hdb : db = (platform cfg).after db₀ acts)
    (hpending : ∃ shard ∈ db.shards.rows, shard.claimable = true ∧
      db.campaigns shard.campaignID = some .running)
    (ans : PlannerAnswers) (hclaimed : IsClaim db.shards cfg.planner.batchSize ans.claimed)
    (hclaim : ans.claimFails = false) (hroom : ans.room = none) (hmark : ans.markFails = false) :
    pendingShards (publishBatch cfg.planner db.campaigns db.shards ans).1 < pendingShards db.shards
      ↔ shardBacklog db.campaigns db.shards ≤ cfg.planner.maxShardBacklog := by
  have hdecodes : db.shards.Decodes := by
    rw [hdb]
    refine hruns.invariant (I := fun db ↦ db.shards.Decodes) (fun db a h _ _ ↦ decodes_next h a) ?_
    intro shard hshard
    rw [hempty] at hshard
    cases hshard
  constructor
  · intro hlt
    by_contra hover
    rw [publishBatch_of_lt (not_le.mp hover)] at hlt
    exact lt_irrefl _ hlt
  · intro hbacklog
    obtain ⟨shard, hshard, hshardClaim, -⟩ := hpending
    have hne := hclaimed.ne_nil cfg.planner.batchSize_pos ⟨shard, hshard, hshardClaim⟩
    rw [pendingShards, rows_publishBatch hbacklog
      (fun s hs ↦ hdecodes s (hclaimed.claimable s hs).1) hne hclaim hroom hmark]
    refine length_filter_map_lt (fun s _ hs ↦ ?_) ?_
    · -- no shard becomes pending
      split at hs
      · cases hs
      · exact hs
    · obtain ⟨taken, rest, hcons⟩ := exists_cons_of_ne_nil hne
      have htaken : taken ∈ ans.claimed := by
        rw [hcons]
        exact mem_cons_self
      obtain ⟨hrow, hclaimable⟩ := hclaimed.claimable taken htaken
      rw [CampaignShard.claimable, Bool.and_eq_true] at hclaimable
      refine ⟨taken, hrow, hclaimable.1, ?_⟩
      rw [if_pos (mem_map_of_mem htaken)]
      rfl

/-! ## A campaign of two shards -/

def newDatabase : Database where
  campaigns := fun _ ↦ none
  commands := fun _ ↦ []
  targets := fun _ ↦ ⟨[], Pairwise.nil⟩
  shards := ShardTable.empty
  tables := ⟨[], fun _ ↦ none⟩

/-- A campaign of one command and two cards is created and started. -/
def startOfTwo : List PlatformAction :=
  [.create (UUID.ofDigit 1)
      [{ sequence := 1, applicationID := UUID.ofDigit 4, expectResponse := false }]
      ⟨[UUID.ofDigit 2, UUID.ofDigit 3], by decide⟩,
    .start (UUID.ofDigit 1) plainGenerated]

/-- One card to a shard, and a planner with the given limit. -/
def smallPlatform (maxShardBacklog : ℕ) (h : 0 < maxShardBacklog) : PlatformConfig where
  control := { shardSize := 1 }
  planner := { maxShardBacklog, maxShardBacklog_pos := h }

/-- A backlog of two is drained when two are allowed. -/
theorem publishBatch_progress_two :
    let cfg := smallPlatform 2 (by decide)
    let db := (platform cfg).after newDatabase startOfTwo
    shardBacklog db.campaigns db.shards = 2 ∧
      pendingShards (publishBatch cfg.planner db.campaigns db.shards
        { claimed := db.shards.rows }).1 < pendingShards db.shards := by
  refine ⟨by decide +kernel, ?_⟩
  refine (publishBatch_progress_iff (smallPlatform 2 (by decide)) newDatabase rfl startOfTwo ?_ _
    rfl ?_ _ ?_ rfl rfl rfl).mpr ?_
  · unfold Machine.Runs
    decide +kernel
  · decide +kernel
  · decide +kernel
  · decide +kernel

/-- With a limit of one, the two shards of the only campaign stay pending in every later cycle. -/
theorem publishBatch_stalls :
    let cfg := smallPlatform 1 (by decide)
    let db := (platform cfg).after newDatabase startOfTwo
    (platform cfg).Runs newDatabase startOfTwo ∧
      (∃ shard ∈ db.shards.rows, shard.claimable = true ∧
        db.campaigns shard.campaignID = some .running) ∧
      ∀ ans, publishBatch cfg.planner db.campaigns db.shards ans = (db.shards, []) := by
  refine ⟨?_, by decide +kernel, ?_⟩
  · unfold Machine.Runs
    decide +kernel
  · intro ans
    exact publishBatch_of_lt (by decide +kernel) ans

end OtaPlatform
