import OtaPlatform.Engine.System
import OtaPlatform.Executor.Progress
import OtaPlatform.Planner.Backlog
import OtaPlatform.Transport.Gateway

/-!
# The pipeline

The engine together with what it is connected to: the control plane and the planner on one side,
the gateway on the other, and the channels in between. A card of a campaign goes round in it: from
a shard to `ActivateCh`, from there as a message to `SendSMSCh`, from the gateway back as a report
on `DLRCh` or a response on `MOCh`, and again to `ActivateCh` for the next step.

One step of the pipeline is one handler call, one message submitted, one receipt or response taken
in, one planner cycle, one request. The database that requests and cycles work on is not stored
twice: the card states and the campaign statuses are those of the engine.
-/

namespace OtaPlatform

open Option List Function

structure PipelineConfig where
  engine : EngineConfig
  platform : PlatformConfig

structure Pipeline where
  /-- The engine, with `ActivateCh` and the retry timers. -/
  engine : Engine
  commands : UUID → List CampaignCommand
  targets : UUID → Targets
  shards : ShardTable
  gateway : Gateway
  sendSMSCh : List SendSMSMessage
  dlrCh : List CardEvent
  moCh : List CardEvent

inductive PipelineAction
  /-- The control plane handles a request, or the completion checker looks at a campaign. -/
  | request (a : PlatformAction)
  | publish (ans : PlannerAnswers)
  | preloadShard (campaignID : UUID) (cardIDs : List UUID)
      (keys : Option (List (UUID × CardKeyMaterial))) (rows : Option (List (UUID × ℤ)))
  /-- A retry timer fires; publishing the activation may fail. -/
  | release (ev : CardEvent) (published : Bool)
  /-- A worker takes an event from its channel. -/
  | handle (ev : CardEvent) (ans : Answers) (answered : Option UUID)
  /-- The gateway takes a message and submits its parts. -/
  | submit (msg : SendSMSMessage) (results : ℕ → SubmitResult) (eventID : UUID) (now : ℤ)
  | receipt (receipt : Option DLRReceipt) (eventID : UUID) (now : ℤ)
  /-- The gateway gets a message from a card. -/
  | incoming (resolved : Except String (Option UUID)) (row : Except String (Option ExecutionRow))
      (sourceAddr : String) (payload : Bytes) (eventID : UUID) (now : ℤ)
  | cleanup (now : ℤ)
  | flush (batch : List CardStateChange) (copyWorks : Bool)

/-- The actions of the control plane and the completion checker. -/
def PlatformAction.isRequest : PlatformAction → Bool
  | .flush _ _ | .publish _ | .recover _ _ _ => false
  | _ => true

/-- The campaign a request is about. -/
def PlatformAction.campaignID : PlatformAction → Option UUID
  | .create c _ _ | .start c _ | .pause c | .resume c _ | .abort c _ | .retryFailed c _
  | .check c => some c
  | .flush _ _ | .publish _ | .recover _ _ _ => none

theorem PlatformAction.exists_campaignID {a : PlatformAction} (h : a.isRequest = true) :
    ∃ campaignID, a.campaignID = some campaignID := by
  cases a with
  | flush _ _ | publish _ | recover _ _ _ => cases h
  | _ => exact ⟨_, rfl⟩

/-- A campaign is created with the commands the executor loads for it. -/
def PlatformAction.Agrees (contexts : UUID → CampaignContext) : PlatformAction → Prop
  | .create c commands _ => commands = (contexts c).commands
  | _ => True

instance (contexts : UUID → CampaignContext) : (a : PlatformAction) → Decidable (a.Agrees contexts)
  | .create c commands _ => inferInstanceAs (Decidable (commands = (contexts c).commands))
  | .start _ _ | .pause _ | .resume _ _ | .abort _ _ | .retryFailed _ _ | .check _ | .flush _ _
  | .publish _ | .recover _ _ _ => isTrue trivial

namespace Pipeline

variable (cfg : PipelineConfig)

def database (s : Pipeline) : Database where
  campaigns := s.engine.campaignStatus
  commands := s.commands
  targets := s.targets
  shards := s.shards
  tables := s.engine.tables

/-- The pipeline after a request changed the database. -/
def withDatabase (s : Pipeline) (db : Database) : Pipeline :=
  { s with
    engine := { s.engine.control db.tables with campaignStatus := db.campaigns }
    commands := db.commands
    targets := db.targets
    shards := db.shards }

def channel (s : Pipeline) : EventType → List CardEvent
  | .activate => s.engine.activateCh
  | .dlrReceived => s.dlrCh
  | .moReceived => s.moCh

def Enabled (s : Pipeline) : PipelineAction → Prop
  | .request a => a.isRequest = true ∧ s.database.Enabled cfg.platform a ∧
      a.Agrees cfg.engine.contexts
  | .publish ans => IsClaim s.shards cfg.platform.planner.batchSize ans.claimed
  | .release ev _ => ev ∈ s.engine.delayed
  | .handle ev ans _ => ev ∈ s.channel ev.type ∧ s.engine.Answerable cfg.engine ev ans
  | .submit msg _ _ _ => msg ∈ s.sendSMSCh
  | .incoming resolved row _ _ _ _ =>
    match resolved with
    | .ok (some cardID) => s.engine.Selectable cardID row
    | _ => True
  | .flush batch _ => batch.Subperm s.engine.stateCh
  | .preloadShard _ _ _ _ | .receipt _ _ _ | .cleanup _ => True

def handle (s : Pipeline) (ev : CardEvent) (ans : Answers) (answered : Option UUID) : Pipeline :=
  { s with
    engine := s.engine.handle cfg.engine ev ans answered
    sendSMSCh := s.sendSMSCh ++
      (smsOf ((handleCardEvent cfg.engine.lib cfg.engine.cryptoProvider ans ev).run workerSemantics
        s.engine.process).outputs).map Prod.fst
    dlrCh := if ev.type = .dlrReceived then s.dlrCh.erase ev else s.dlrCh
    moCh := if ev.type = .moReceived then s.moCh.erase ev else s.moCh }

def publish (s : Pipeline) (ans : PlannerAnswers) : Pipeline :=
  let r := publishBatch cfg.platform.planner s.engine.campaignStatus s.shards ans
  { s with
    engine := { s.engine with activateCh := s.engine.activateCh ++ r.2 }
    shards := r.1 }

/-- The pipeline after a retry timer fired. -/
def release (s : Pipeline) (ev : CardEvent) (published : Bool) : Pipeline :=
  { s with
    engine := { s.engine with
      activateCh := s.engine.activateCh ++ if published then [ev] else []
      delayed := s.engine.delayed.erase ev } }

def next (s : Pipeline) : PipelineAction → Pipeline
  | .request a => s.withDatabase (s.database.next cfg.platform a)
  | .publish ans => s.publish cfg ans
  | .preloadShard campaignID cardIDs keys rows =>
    { s with engine := s.engine.preloadShard campaignID cardIDs keys rows }
  | .release ev published => s.release ev published
  | .handle ev ans answered => s.handle cfg ev ans answered
  | .submit msg results eventID now =>
    let r := s.gateway.handleSendSMS msg results eventID now
    { s with
      gateway := r.1
      sendSMSCh := s.sendSMSCh.erase msg
      dlrCh := s.dlrCh ++ r.2.toList }
  | .receipt receipt eventID now =>
    let r := s.gateway.handleDLR receipt eventID now
    { s with
      gateway := r.1
      dlrCh := s.dlrCh ++ r.2.toList }
  | .incoming resolved row sourceAddr payload eventID now =>
    let r := (Gateway.handleMO resolved row sourceAddr payload eventID now).run workerSemantics
      s.engine.process
    { s with
      engine := { s.engine with process := r.state }
      moCh := s.moCh ++ r.value.toList }
  | .cleanup now => { s with gateway := s.gateway.cleanupCorrelations now }
  | .flush batch copyWorks => { s with engine := s.engine.next cfg.engine (.flush batch copyWorks) }

end Pipeline

/-- The pipeline as a transition system. -/
def pipeline (cfg : PipelineConfig) : Machine Pipeline PipelineAction where
  Enabled := Pipeline.Enabled cfg
  next := Pipeline.next cfg

instance (cfg : PipelineConfig) (s : Pipeline) : (a : PipelineAction) →
    Decidable ((pipeline cfg).Enabled s a)
  | .request a => inferInstanceAs (Decidable (a.isRequest = true ∧
      (platform cfg.platform).Enabled s.database a ∧ a.Agrees cfg.engine.contexts))
  | .publish ans =>
    inferInstanceAs (Decidable (IsClaim s.shards cfg.platform.planner.batchSize ans.claimed))
  | .release ev _ => inferInstanceAs (Decidable (ev ∈ s.engine.delayed))
  | .handle ev ans _ => inferInstanceAs (Decidable (ev ∈ s.channel ev.type ∧
      s.engine.Answerable cfg.engine ev ans))
  | .submit msg _ _ _ => inferInstanceAs (Decidable (msg ∈ s.sendSMSCh))
  | .incoming (.ok (some cardID)) row _ _ _ _ =>
    inferInstanceAs (Decidable (s.engine.Selectable cardID row))
  | .incoming (.ok none) _ _ _ _ _ | .incoming (.error _) _ _ _ _ _ => isTrue trivial
  | .flush batch _ => inferInstanceAs (Decidable (batch.Subperm s.engine.stateCh))
  | .preloadShard _ _ _ _ | .receipt _ _ _ | .cleanup _ => isTrue trivial

/-- A pipeline that has just started, on an empty database. -/
def Pipeline.new : Pipeline where
  engine := .new fun _ ↦ none
  commands := newDatabase.commands
  targets := newDatabase.targets
  shards := newDatabase.shards
  gateway := ⟨fun _ ↦ none, fun _ ↦ none⟩
  sendSMSCh := []
  dlrCh := []
  moCh := []

/-! ## Requests

A request about one campaign leaves the others alone, and never takes anything away from a table. -/

/-- The second database is the first one after something was done to the campaign. -/
structure Database.Concerns (campaignID : UUID) (db db' : Database) : Prop where
  shards : ∃ added, db'.shards.rows = db.shards.rows ++ added
  rows : ∃ added, db'.tables.executionStates = db.tables.executionStates ++ added ∧
    ∀ row ∈ added, row.campaignID = campaignID
  campaigns : ∀ c ≠ campaignID, db'.campaigns c = db.campaigns c
  targets : ∀ c ≠ campaignID, db'.targets c = db.targets c

section Requests

variable {cfg : ControlConfig} {gen : Generated} {db db' : Database} {campaignID : UUID}

theorem Database.Concerns.refl (campaignID : UUID) (db : Database) : db.Concerns campaignID db :=
  ⟨⟨[], (append_nil _).symm⟩,
    ⟨[], (append_nil _).symm, forall_mem_nil _⟩,
    fun _ _ ↦ rfl, fun _ _ ↦ rfl⟩

theorem Database.Concerns.setStatus (h : db.Concerns campaignID db') (status : CampaignStatus) :
    db.Concerns campaignID (db'.setStatus campaignID status) where
  shards := h.shards
  rows := h.rows
  campaigns c hc := (update_of_ne hc _ _).trans (h.campaigns c hc)
  targets := h.targets

theorem Database.Concerns.insertAll (h : db.Concerns campaignID db') {added : List CampaignShard}
    {shards : ShardTable} (hinsert : db.shards.insertAll added = .ok shards) :
    db.Concerns campaignID { db' with shards } where
  shards := ⟨added, rows_insertAll hinsert⟩
  rows := h.rows
  campaigns := h.campaigns
  targets := h.targets

private theorem concerns_tables {tables : StateTables} {added : List ExecutionRow}
    (hrows : tables.executionStates = db.tables.executionStates ++ added)
    (hadded : ∀ row ∈ added, row.campaignID = campaignID) :
    db.Concerns campaignID { db with tables } :=
  ⟨⟨[], (append_nil _).symm⟩, ⟨added, hrows, hadded⟩, fun _ _ ↦ rfl, fun _ _ ↦ rfl⟩

private theorem campaignID_of_latestRow {table : List ExecutionRow} {cardID : UUID}
    {row : ExecutionRow} (h : latestRow table (cardID, campaignID) = some row) :
    row.campaignID = campaignID :=
  (Prod.mk.inj (mem_of_latestRow h).2).2

theorem concerns_initializeTargets (cfg : ControlConfig) (gen : Generated) (db : Database)
    (campaignID : UUID) (firstStep : ℤ) :
    db.Concerns campaignID (initializeTargets cfg gen db campaignID firstStep) := by
  have hfold : ∀ (batches : List (List UUID)) (t : StateTables), ∃ added,
      (batches.foldl (fun t batch ↦ initializeCampaign t campaignID batch firstStep gen.now)
        t).executionStates = t.executionStates ++ added ∧
      ∀ row ∈ added, row.campaignID = campaignID := by
    intro batches
    induction batches with
    | nil => exact fun t ↦ ⟨[], (append_nil _).symm, forall_mem_nil _⟩
    | cons batch batches ih =>
      intro t
      obtain ⟨added, heq, hsub⟩ := exists_executionStates_initializeCampaign t campaignID batch
        firstStep gen.now
      obtain ⟨more, heq', hmore⟩ := ih (initializeCampaign t campaignID batch firstStep gen.now)
      refine ⟨added ++ more, ?_, fun row hrow ↦ ?_⟩
      · rw [foldl_cons, heq', heq, append_assoc]
      · rcases mem_append.mp hrow with hrow | hrow
        · obtain ⟨cardID, -, rfl⟩ := mem_map.mp (hsub.subset hrow)
          rfl
        · exact hmore row hrow
  obtain ⟨added, hrows, hadded⟩ := hfold (targetBatches cfg db campaignID) db.tables
  exact concerns_tables hrows hadded

/-- **What a request can touch.** -/
theorem concerns_next (cfg : PlatformConfig) (db : Database) {a : PlatformAction}
    (ha : a.campaignID = some campaignID) : db.Concerns campaignID (db.next cfg a) := by
  have hrefl := Database.Concerns.refl campaignID db
  cases a with
  | create c commands targets =>
    obtain rfl := some.inj ha
    refine ⟨hrefl.shards, hrefl.rows, (hrefl.setStatus .pending).campaigns, fun c' hc' ↦ ?_⟩
    exact update_of_ne hc' _ _
  | start c gen =>
    obtain rfl := some.inj ha
    change db.Concerns c (startCampaign cfg.control gen db c).2
    have hout := startCampaign_outcome cfg.control gen db c
    generalize (startCampaign cfg.control gen db c).2 = db' at hout ⊢
    cases hout with
    | refused => exact hrefl
    | failed hpending => exact concerns_initializeTargets _ _ _ _ _
    | started hpending hcommands hinsert =>
      exact ((concerns_initializeTargets _ _ _ _ _).setStatus .running).insertAll hinsert
  | pause c =>
    obtain rfl := some.inj ha
    change db.Concerns c (pauseCampaign db c).2
    rcases pauseCampaign_cases db c with heq | heq
    · rw [heq]
      exact hrefl
    · rw [heq]
      exact hrefl.setStatus .paused
  | resume c gen =>
    obtain rfl := some.inj ha
    change db.Concerns c (resumeCampaign cfg.control gen db c).2
    have hout := resumeCampaign_outcome cfg.control gen db c
    generalize (resumeCampaign cfg.control gen db c).2 = db' at hout ⊢
    cases hout with
    | refused => exact hrefl
    | resumed hpaused hcommands hinsert => exact (hrefl.setStatus .running).insertAll hinsert
  | abort c gen =>
    obtain rfl := some.inj ha
    change db.Concerns c (abortCampaignRequest gen db c).2
    rcases abortCampaignRequest_cases gen db c with heq | heq
    · rw [heq]
      exact hrefl
    · rw [heq]
      refine (concerns_tables executionStates_abortCampaign fun row hrow ↦ ?_).setStatus .aborted
      obtain ⟨cardID, latest, hlatest, -, rfl⟩ := mem_abortRows.mp hrow
      exact (campaignID_of_latestRow hlatest :)
  | retryFailed c gen =>
    obtain rfl := some.inj ha
    change db.Concerns c (retryFailedCards gen db c).2
    rcases retryFailedCards_cases gen db c with heq | ⟨first, campaigns, hcampaigns, heq⟩
    · rw [heq]
      exact hrefl
    · have hreset : db.Concerns c { db with
          tables := resetTransaction db.tables c (listFailedCardIDs db.tables c) first.sequence
            gen.now } := by
        refine concerns_tables executionStates_resetTransaction fun row hrow ↦ ?_
        obtain ⟨cardID, -, latest, hlatest, rfl⟩ := mem_resetRows.mp hrow
        exact (campaignID_of_latestRow hlatest :)
      rw [heq]
      rcases hcampaigns with rfl | rfl
      · exact hreset
      · exact hreset.setStatus .pending
  | check c =>
    obtain rfl := some.inj ha
    change db.Concerns c (checkCompletion db c)
    rcases checkCompletion_cases db c with heq | ⟨status, -, heq⟩
    · rw [heq]
      exact hrefl
    · rw [heq]
      exact hrefl.setStatus status
  | flush _ _ | publish _ | recover _ _ _ => cases ha

end Requests

/-! ## Handler calls -/

namespace Pipeline

structure Handled (cfg : PipelineConfig) (s : Pipeline) (ev : CardEvent) (ans : Answers)
    (answered : Option UUID) (after : Option CardState) (outs : List Output)
    (counters : CounterStore) : Prop where
  outcome : EventOutcome s.engine.process ans ev after outs counters
  acts : Acts s.engine.process ev.cardID ((handleCardEvent cfg.engine.lib
    cfg.engine.cryptoProvider ans ev).run workerSemantics s.engine.process) after outs
  handles : Engine.Handles s.engine (s.handle cfg ev ans answered).engine ev answered after outs
    counters
  sendSMSCh : (s.handle cfg ev ans answered).sendSMSCh = s.sendSMSCh ++ (smsOf outs).map Prod.fst

theorem exists_handled (cfg : PipelineConfig) (s : Pipeline) (ev : CardEvent) (ans : Answers)
    (answered : Option UUID) :
    ∃ after outs counters, Handled cfg s ev ans answered after outs counters := by
  obtain ⟨after, outs, counters, hout, hleaves⟩ :=
    handleCardEvent_outcome s.engine.process cfg.engine.lib cfg.engine.cryptoProvider ans ev
  refine ⟨after, outs, counters, hout, hleaves.acts, Engine.handles_of_leaves hleaves answered, ?_⟩
  rw [handle, smsOf_visible, hleaves.outputs]

end Pipeline

/-! ## Incoming messages -/

open Worker in
theorem Gateway.cardState_handleMO {s : Process} {cardID : UUID} {st : CardState}
    (hst : s.cardState cardID = some st) (resolved : Except String (Option UUID))
    (row : Except String (Option ExecutionRow)) (sourceAddr : String) (payload : Bytes)
    (eventID : UUID) (now : ℤ) :
    ((Gateway.handleMO resolved row sourceAddr payload eventID now).run workerSemantics
      s).state.cardState cardID = some st := by
  rcases resolved with err | _ | cardID'
  · exact hst
  · exact hst
  · have hstate : ((Gateway.handleMO (.ok (some cardID')) row sourceAddr payload eventID now).run
        workerSemantics s).state = ((getCardState cardID' row).run workerSemantics s).state := by
      rw [Gateway.handleMO, Program.run_bind]
      dsimp only
      split <;> simp
    have hview : ((getCardState cardID' row).run workerSemantics s).state.cardState
        = update s.cardState cardID' (s.found cardID' row) :=
      CardStateStore.cardState_fetch s.states cardID' (selectedRow row)
    rw [hstate, hview]
    by_cases hcard : cardID = cardID'
    · subst hcard
      rw [update_self]
      exact Process.found_of_cardState hst row
    · rw [update_of_ne hcard, hst]

end OtaPlatform
