import OtaPlatform.Controlplane.Statements
import OtaPlatform.Engine.Representation
import OtaPlatform.Engine.Sequencing

/-!
# Pausing and resuming

While a campaign is paused its activations are discarded by the executor, whatever step they are
for, and the planner goes on to publish its shards. `ResumeCampaign` makes new shards for the cards
that are stored as `pending` or `activating`. It looks at nothing else: not at the shards that are
still open, not at the activations in `ActivateCh`, and not at the messages that are under way.

So a card is represented once after a resume exactly if before it was

* nowhere, and stored as `pending` or `activating`; or
* at one place, and stored otherwise.

`resumes_represent_once_iff` says this for all resumes of a run.

A resume lists the cards before its transaction. `commits_represent_once_iff` is the statement for
resumes that are interrupted: the activations are then those of the cards as they were listed, and
the places those at the transaction.
-/

namespace OtaPlatform

open List

/-! ## Places -/

/-- The event settles the message: it is a response to it, or a report of it other than one that a
message was delivered which is to be answered. -/
def TraceEvent.settles (cfg : EngineConfig) (p : SendSMSMessage × PacketOrigin) :
    TraceEvent → Bool
  | .handled ev answered => ev.cardID = p.1.cardID ∧
      (ev.type = .moReceived ∧ answered = some p.1.msgID ∨
        ev.type = .dlrReceived ∧ ev.msgID = some p.1.msgID ∧
          ¬ (ev.dlrStatus = .delivrd ∧ (cfg.contexts p.1.campaignID).expects p.2.step))
  | _ => false

namespace Pipeline

variable (cfg : PipelineConfig) (s : Pipeline) (cardID campaignID : UUID)

/-- The items of the pending and publishing shards of the campaign. -/
def openItems : List CardEvent :=
  (s.shards.rows.filter fun shard ↦ shard.campaignID = campaignID && shard.isOpen).flatMap
    CampaignShard.events

/-- The messages of the card in the campaign that still await their report or response. -/
def awaitedMessages : List (SendSMSMessage × PacketOrigin) :=
  s.engine.published.filter fun p ↦ (p.1.cardID, p.1.campaignID) = (cardID, campaignID) ∧
    s.engine.trace.all fun e ↦ !e.settles cfg.engine p

/-- At how many places the card is: items of open shards, activations in `ActivateCh`, awaited
messages. -/
def occurrences : ℕ :=
  (s.openItems campaignID).countP (fun ev ↦ ev.cardID = cardID) +
    s.engine.activateCh.countP (CardEvent.isFor (cardID, campaignID)) +
    (s.awaitedMessages cfg cardID campaignID).length

/-- Every target card of the campaign that has not ended is at one place. -/
def RepresentedOnce : Prop :=
  ∀ cardID ∈ (s.targets campaignID).cards, ¬ s.engine.Ended cardID campaignID →
    s.occurrences cfg cardID campaignID = 1

/-- The latest stored row of the card is one that a resume makes an activation for. -/
def StoredPending : Prop :=
  ∃ row ∈ latestRow s.engine.tables.executionStates (cardID, campaignID),
    row.status = .pending ∨ row.status = .activating

instance : Decidable (s.StoredPending cardID campaignID) :=
  inferInstanceAs (Decidable (∃ row ∈ latestRow _ _, _))

def Resumes (gen : Generated) : Prop :=
  (resumeCampaign cfg.platform.control gen s.database campaignID).1 = .ok ()

/-- **The condition**: a resume comes when the cards that have not ended are nowhere if they are
stored as `pending` or `activating`, and at one place otherwise. -/
def ResumeGuard (campaignID : UUID) (s : Pipeline) : PipelineAction → Prop
  | .request (.resume c gen) => c = campaignID → s.Resumes cfg campaignID gen →
      ∀ cardID ∈ (s.targets campaignID).cards, ¬ s.engine.Ended cardID campaignID →
        s.occurrences cfg cardID campaignID = if s.StoredPending cardID campaignID then 0 else 1
  | _ => True

end Pipeline

/-! ## What a resume adds -/

section Resume

private theorem countP_eq_ite {α κ : Type} [DecidableEq κ] {f : α → κ} {l : List α}
    (hnodup : (l.map f).Nodup) {p : α → Bool} {k : κ} {P : Prop} [Decidable P]
    (hP : P ↔ ∃ x ∈ l, f x = k ∧ p x = true) :
    (l.filter p).countP (fun x ↦ f x = k) = if P then 1 else 0 := by
  have hsub : ((l.filter p).map f).Nodup := hnodup.sublist (filter_sublist.map f)
  have hle : (l.filter p).countP (fun x ↦ decide (f x = k)) ≤ 1 := by
    have hcount := nodup_iff_count_le_one.mp hsub k
    rwa [count, countP_map] at hcount
  split_ifs with hmem
  · refine le_antisymm hle (countP_pos_iff.mpr ?_)
    obtain ⟨x, hx, hkey, hp⟩ := hP.mp hmem
    exact ⟨x, mem_filter.mpr ⟨hx, hp⟩, decide_eq_true hkey⟩
  · refine countP_eq_zero.mpr fun x hx hkey ↦ hmem (hP.mpr ⟨x, ?_⟩)
    obtain ⟨hx, hp⟩ := mem_filter.mp hx
    exact ⟨hx, of_decide_eq_true hkey, hp⟩

variable {cfg : PipelineConfig} {s : Pipeline} {cardID campaignID : UUID} {gen : Generated}

/-- A resume makes one activation for each card that is stored as `pending` or `activating`. -/
theorem countP_resumeEvents (s : Pipeline) (cardID campaignID : UUID) (gen : Generated)
    (firstStep : ℤ) :
    (resumeEvents gen s.database campaignID firstStep).countP (fun ev ↦ ev.cardID = cardID)
      = if s.StoredPending cardID campaignID then 1 else 0 := by
  have hnodup : ((listCampaignCards s.database.tables campaignID).map
      ExecutionRow.cardID).Nodup :=
    ((perm_insertionSort _ _).map _).nodup_iff.mpr (nodup_latestRows _ _)
  rw [resumeEvents, countP_map]
  refine countP_eq_ite hnodup ⟨?_, ?_⟩
  · rintro ⟨row, hrow, hstatus⟩
    obtain ⟨hcard, -⟩ := Prod.mk_inj.mp (mem_of_latestRow hrow).2
    refine ⟨row, mem_listCampaignCards.mpr (hcard ▸ hrow), hcard, ?_⟩
    simpa using hstatus
  · rintro ⟨row, hrow, rfl, hstatus⟩
    exact ⟨row, mem_listCampaignCards.mp hrow, by simpa using hstatus⟩

/-- The pipeline with the campaign running again, and these shards. -/
def Pipeline.resumed (s : Pipeline) (campaignID : UUID) (shards : ShardTable) : Pipeline :=
  { s with
    engine := { s.engine with
      campaignStatus := Function.update s.engine.campaignStatus campaignID (some .running) }
    shards := shards }

/-- The places of a card that has not ended and the activations of it are one together. -/
def Pipeline.CompletedBy (cfg : PipelineConfig) (s : Pipeline) (campaignID : UUID)
    (events : List CardEvent) : Prop :=
  ∀ cardID ∈ (s.targets campaignID).cards, ¬ s.engine.Ended cardID campaignID →
    s.occurrences cfg cardID campaignID + events.countP (fun ev ↦ ev.cardID = cardID) = 1

section Transaction

variable {events : List CardEvent}
  (h : (resumeTransaction cfg.platform.control gen s.database campaignID events).1 = .ok ())

include h

/-- **What the transaction of a resume does to the pipeline**: it adds shards for the activations
and sets the status. -/
theorem exists_resumeTransaction :
    ∃ added, ∃ shards : ShardTable, shards.rows = s.shards.rows ++ added ∧
      added.flatMap CampaignShard.events = events ∧
      (∀ shard ∈ added, shard.campaignID = campaignID ∧ shard.isOpen = true) ∧
      s.withDatabase (resumeTransaction cfg.platform.control gen s.database campaignID events).2
        = s.resumed campaignID shards := by
  rw [resumeTransaction] at h ⊢
  split at h
  · cases h
  · rename_i shards hinsert
    refine ⟨_, shards, rows_insertAll hinsert, ?_, fun shard hshard ↦ ?_, ?_⟩
    · rw [events_generated, Batches.flatten_batches cfg.platform.control.shardSize_pos]
    · obtain ⟨hcampaign, hstatus, -⟩ := mem_generated hshard
      refine ⟨hcampaign, ?_⟩
      rw [CampaignShard.isOpen, hstatus]
      rfl
    -- the card states are left alone, so the control plane moves no card
    · have hmoved : s.engine.trace ++ Engine.movedBy s.engine.tables s.engine.tables
          = s.engine.trace := by
        rw [Engine.movedBy, drop_length, map_nil, append_nil]
      rw [Pipeline.withDatabase, Engine.control]
      exact congrArg (fun trace ↦ { s.resumed campaignID shards with
        engine := { (s.resumed campaignID shards).engine with trace } }) hmoved

/-- **After the transaction** every card that has not ended is represented once exactly if the
activations complete its places. -/
theorem Pipeline.representedOnce_resumeTransaction_iff :
    (s.withDatabase (resumeTransaction cfg.platform.control gen s.database campaignID
        events).2).RepresentedOnce cfg campaignID ↔ s.CompletedBy cfg campaignID events := by
  obtain ⟨added, shards, hrows, hevents, hadded, hnext⟩ := exists_resumeTransaction h
  rw [hnext]
  have hitems : (s.resumed campaignID shards).openItems campaignID
      = s.openItems campaignID ++ events := by
    have hall : added.filter (fun shard ↦ shard.campaignID = campaignID && shard.isOpen) = added :=
      filter_eq_self.mpr fun shard hshard ↦ by simp [hadded shard hshard]
    rw [openItems, resumed, hrows, filter_append, flatMap_append, hall, hevents, openItems]
  refine forall₂_congr fun cardID _ ↦ imp_congr_right fun _ ↦ ?_
  have hactivate : (s.resumed campaignID shards).engine.activateCh = s.engine.activateCh := rfl
  have hawaited : (s.resumed campaignID shards).awaitedMessages cfg cardID campaignID
      = s.awaitedMessages cfg cardID campaignID := rfl
  rw [occurrences, hitems, countP_append, hactivate, hawaited, occurrences]
  omega

end Transaction

/-- A resume that commits is the transaction for the cards it finds. -/
theorem exists_resumeCampaign (h : s.Resumes cfg campaignID gen) :
    ∃ step, resumeCampaign cfg.platform.control gen s.database campaignID
      = resumeTransaction cfg.platform.control gen s.database campaignID
        (resumeEvents gen s.database campaignID step) := by
  rw [Pipeline.Resumes, resumeCampaign] at h
  rw [resumeCampaign]
  dsimp only at h ⊢
  split_ifs at h ⊢
  split at h
  · cases h
  · exact ⟨_, rfl⟩

theorem Pipeline.representedOnce_resume_iff (h : s.Resumes cfg campaignID gen) :
    (s.next cfg (.request (.resume campaignID gen))).RepresentedOnce cfg campaignID
      ↔ ∀ cardID ∈ (s.targets campaignID).cards, ¬ s.engine.Ended cardID campaignID →
        s.occurrences cfg cardID campaignID
          = if s.StoredPending cardID campaignID then 0 else 1 := by
  obtain ⟨step, hresume⟩ := exists_resumeCampaign h
  have hnext : s.next cfg (.request (.resume campaignID gen))
      = s.withDatabase (resumeCampaign cfg.platform.control gen s.database campaignID).2 := rfl
  rw [Resumes, hresume] at h
  rw [hnext, hresume, representedOnce_resumeTransaction_iff h]
  refine forall₂_congr fun cardID _ ↦ imp_congr_right fun _ ↦ ?_
  rw [countP_resumeEvents]
  split_ifs
  · exact Nat.add_eq_right.trans Iff.rfl
  · rw [Nat.add_zero]

end Resume

/-- **Pausing and resuming.** In every run, every card of the campaign that has not ended is
represented once after each resume exactly if each resume meets the condition. -/
theorem resumes_represent_once_iff (cfg : PipelineConfig) (s : Pipeline) (campaignID : UUID)
    {acts : List PipelineAction} (hrun : (pipeline cfg).Runs s acts) :
    (pipeline cfg).RunsUnder (Pipeline.ResumeGuard cfg campaignID) s acts
      ↔ ∀ before gen after, acts = before ++ .request (.resume campaignID gen) :: after →
        ((pipeline cfg).after s before).Resumes cfg campaignID gen →
        ((pipeline cfg).after s (before ++ [.request (.resume campaignID gen)])).RepresentedOnce
          cfg campaignID := by
  have hafter : ∀ before a, (pipeline cfg).after s (before ++ [a])
      = ((pipeline cfg).after s before).next cfg a := fun before a ↦ Machine.after_append ..
  rw [Machine.runsUnder_iff_forall_split, and_iff_right hrun]
  constructor
  · intro h before gen after heq hresumes
    rw [hafter, Pipeline.representedOnce_resume_iff hresumes]
    exact h before _ after heq rfl hresumes
  · intro h before a after heq
    cases a with
    | request a =>
      cases a with
      | resume c gen =>
        rintro rfl hresumes
        have honce := h before gen after heq hresumes
        rwa [hafter, Pipeline.representedOnce_resume_iff hresumes] at honce
      | _ => trivial
    | _ => trivial

/-! ## Resumes, statement by statement

`ResumeCampaign` lists the cards before its transaction, and the pipeline may move in between. -/

structure ResumeCall where
  campaignID : UUID
  gen : Generated
  /-- The second write of the status is refused. -/
  refused : Bool

def ResumeCall.code (r : ResumeCall) : Statements (Except String Unit) :=
  resumeStatements r.refused r.gen r.campaignID

def PipelineConfig.host (cfg : PipelineConfig) : HostConfig :=
  ⟨cfg.platform.control, cfg.engine.lib, cfg.engine.cryptoProvider⟩

/-- The database of the pipeline, on a host whose caches are empty. A resume reads neither. -/
def Pipeline.host (s : Pipeline) : Host :=
  ⟨s.database, fun _ ↦ none, fun _ ↦ none, s.engine.process, 0⟩

/-- The statements of the control plane on the database of the pipeline. -/
def statementSemantics (cfg : PipelineConfig) : Semantics hostSignature Pipeline Output where
  answer s := (hostSemantics cfg.host).answer s.host
  next s o := s.withDatabase ((hostSemantics cfg.host).next s.host o).db
  output _ _ := []

/-- Resumes in flight on a pipeline. -/
abbrev ResumingState := Threads hostSignature (Except String Unit) Pipeline Output

abbrev ResumingAction := ThreadAction ResumeCall PipelineAction

/-- The pipeline with any number of resumes in flight. -/
abbrev resuming (cfg : PipelineConfig) : Machine ResumingState ResumingAction :=
  Threads.machine (statementSemantics cfg) ResumeCall.code (pipeline cfg)

/-- The thread is about to insert shards for the activations, and nothing refuses them. -/
def Commits (cfg : PipelineConfig) (campaignID : UUID) (t : ResumingState) (i : ℕ)
    (events : List CardEvent) : Prop :=
  ∃ gen k, t.threads[i]? = some (.call (.resumeTransaction campaignID gen events) k) ∧
    (resumeTransaction cfg.platform.control gen t.shared.database campaignID events).1 = .ok ()

/-- **The condition**, at the transaction: what the resume has listed completes the places. -/
def CommitGuard (cfg : PipelineConfig) (campaignID : UUID) (t : ResumingState) :
    ResumingAction → Prop
  | .step i => ∀ events, Commits cfg campaignID t i events →
      t.shared.CompletedBy cfg campaignID events
  | _ => True

theorem representedOnce_commit_iff {cfg : PipelineConfig} {t : ResumingState} {campaignID : UUID}
    {i : ℕ} {events : List CardEvent} (h : Commits cfg campaignID t i events) :
    ((resuming cfg).next t (.step i)).shared.RepresentedOnce cfg campaignID
      ↔ t.shared.CompletedBy cfg campaignID events := by
  obtain ⟨gen, k, hthread, hok⟩ := h
  have hnext : ((resuming cfg).next t (.step i)).shared = t.shared.withDatabase
      (resumeTransaction cfg.platform.control gen t.shared.database campaignID events).2 :=
    congrArg Threads.shared (Threads.stepAt_eq hthread)
  rw [hnext, Pipeline.representedOnce_resumeTransaction_iff hok]

/-- **Resuming, statement by statement.** In every run, every card of the campaign that has not
ended is represented once after each resume that commits exactly if each of them meets the
condition. -/
theorem commits_represent_once_iff (cfg : PipelineConfig) (t : ResumingState) (campaignID : UUID)
    {acts : List ResumingAction} (hrun : (resuming cfg).Runs t acts) :
    (resuming cfg).RunsUnder (CommitGuard cfg campaignID) t acts
      ↔ ∀ before i after events, acts = before ++ .step i :: after →
        Commits cfg campaignID ((resuming cfg).after t before) i events →
        ((resuming cfg).after t (before ++ [.step i])).shared.RepresentedOnce cfg campaignID := by
  have hafter : ∀ before a, (resuming cfg).after t (before ++ [a])
      = (resuming cfg).next ((resuming cfg).after t before) a :=
    fun before a ↦ Machine.after_append ..
  rw [Machine.runsUnder_iff_forall_split, and_iff_right hrun]
  constructor
  · intro h before i after events heq hcommits
    rw [hafter, representedOnce_commit_iff hcommits]
    exact h before _ after heq events hcommits
  · intro h before a after heq
    cases a with
    | step i =>
      intro events hcommits
      have honce := h before i after events heq hcommits
      rwa [hafter, representedOnce_commit_iff hcommits] at honce
    | _ => trivial

/-! ## A campaign that is paused early -/

namespace PausedEarly

def cfg : PipelineConfig := ⟨plainConfig (plainContext [1] 3), smallPlatform 2 (Nat.succ_pos 1)⟩

def campaign : UUID := .ofDigit 1

def card : UUID := .ofDigit 2

def started : List PipelineAction :=
  [.request (.create campaign (plainContext [1] 3).commands singleTarget),
    .request (.start campaign plainGenerated)]

def resume : PipelineAction := .request (.resume campaign plainGenerated)

/-- It is published before it is paused, and the activation is discarded. -/
def discarded : List PipelineAction :=
  started ++ [.publish { claimed := ((pipeline cfg).after .new started).shards.rows },
    .request (.pause campaign),
    .handle (plainGenerated.activation campaign 1 0 card)
      { Answers.plain (plainContext [1] 3) (.ofDigit 5) (some (initialRow campaign 1 0 card)) with
        campaignStatus := .ok .paused } none]

/-- It is paused before it is published. -/
def unpublished : List PipelineAction := started ++ [.request (.pause campaign)]

end PausedEarly

open PausedEarly in
/-- The card whose activation was discarded is represented by the new shard. -/
theorem resumes_represent_once_discarded :
    ((pipeline cfg).after .new discarded).occurrences cfg card campaign = 0 ∧
      ((pipeline cfg).after .new (discarded ++ [resume])).RepresentedOnce cfg campaign := by
  have hruns : (pipeline cfg).Runs .new (discarded ++ [resume]) := by
    unfold Machine.Runs
    decide +kernel
  have hzero : ((pipeline cfg).after .new discarded).occurrences cfg card campaign = 0 := by
    decide +kernel
  refine ⟨hzero, (resumes_represent_once_iff cfg .new campaign hruns).mp ?_ discarded
    plainGenerated [] rfl (by unfold Pipeline.Resumes; decide +kernel)⟩
  refine Machine.runsUnder_append.mpr
    ⟨?_, ⟨by decide +kernel, fun _ _ cardID hcard _ ↦ ?_⟩, trivial⟩
  · exact ⟨⟨by decide +kernel, trivial⟩, ⟨by decide +kernel, trivial⟩, ⟨by decide +kernel, trivial⟩,
      ⟨by decide +kernel, trivial⟩, ⟨by decide +kernel, trivial⟩, trivial⟩
  · obtain rfl := mem_singleton.mp hcard
    decide +kernel

open PausedEarly in
/-- After the resume the card is in two shards. -/
theorem resume_duplicates_card :
    (pipeline cfg).Runs .new (unpublished ++ [resume]) ∧
      ((pipeline cfg).after .new unpublished).Resumes cfg campaign plainGenerated ∧
      ((pipeline cfg).after .new (unpublished ++ [resume])).occurrences cfg card campaign = 2 ∧
      ¬ ((pipeline cfg).after .new (unpublished ++ [resume])).RepresentedOnce cfg campaign := by
  have htwo : ((pipeline cfg).after .new (unpublished ++ [resume])).occurrences cfg card campaign
      = 2 := by decide +kernel
  refine ⟨?_, ?_, htwo, fun h ↦ ?_⟩
  · unfold Machine.Runs
    decide +kernel
  · unfold Pipeline.Resumes
    decide +kernel
  · have hone := h card (by decide +kernel)
      (Engine.not_ended_of_status (show _ = some .pending by decide +kernel) rfl)
    exact absurd (htwo.symm.trans hone) (by decide)

end OtaPlatform
