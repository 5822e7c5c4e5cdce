import OtaPlatform.Controlplane.Campaign
import OtaPlatform.Executor.Outcomes
import OtaPlatform.Transition.Threads

/-!
# Requests, statement by statement

The requests of the campaign service, the completion checker and the status lookup of the executor,
as programs whose operations are single database statements and cache accesses. Any number of them
may be in flight at once.

## Steps

A transaction is one step: its writes become visible together, and the row it updates is locked
until then. Target rows do not change while a campaign exists, so the pages of target cards are read
in one step. An entry of a status cache is stored together with the clock reading it carries.

A tick of the completion checker handles the running campaigns one after the other. It is a program
per campaign here, which can be interleaved in more ways.

## Statements that the database refuses

Most of them end the request with an error, and it has done no more than one that is not scheduled
again. Two are passed over: the error of `SetCampaignStatus`, which every caller logs or drops, and
the one of skipping the cards in an abort. The request goes on and returns no error. A call says
which of these two are refused (`refused`, `cardsRefused`).

## Two caches

The status of a campaign is cached twice: by the coordination store, which the control plane writes
through, and by the worker, whose entries live for five seconds.
-/

namespace OtaPlatform

open Function

/-! ## The shared state -/

structure StatusEntry where
  status : CampaignStatus
  /-- When it was stored, in milliseconds. -/
  cachedAt : ℤ
deriving DecidableEq, Repr

/-- How long the coordination store keeps a status. -/
def statusCacheTTL : ℤ := 30000

/-- How long the worker keeps a status. -/
def campaignStatusCacheTTL : ℤ := 5000

/-- An engine process and its database. -/
structure Host where
  db : Database
  /-- The status cache of the coordination store. -/
  statusCache : UUID → Option StatusEntry
  campaignStatusCache : UUID → Option StatusEntry
  process : Process
  now : ℤ

structure HostConfig where
  control : ControlConfig
  lib : SecuredPackets
  cryptoProvider : Bool

/-! ## Statements -/

/-- Statements and cache accesses. -/
inductive HostOp
  /-- Counts the shards that are pending or being published. -/
  | countOpenShards
  | selectStatus (campaignID : UUID)
  | selectCommands (campaignID : UUID)
  | selectTargets (campaignID : UUID)
  /-- Initializes the states of a page of cards. -/
  | initializeCampaign (campaignID : UUID) (batch : List UUID) (step now : ℤ)
  /-- Sets the campaign running and inserts its shards. -/
  | startTransaction (campaignID : UUID) (gen : Generated) (step : ℤ)
  /-- Selects the latest state of its cards. -/
  | listCampaignCards (campaignID : UUID)
  /-- Sets the campaign running and inserts shards for the given activations. -/
  | resumeTransaction (campaignID : UUID) (gen : Generated) (events : List CardEvent)
  | pauseRunning (campaignID : UUID)
  /-- Sets the status of a campaign, whatever it is. -/
  | updateStatus (campaignID : UUID) (status : CampaignStatus)
  | abortCards (campaignID : UUID) (now : ℤ)
  | selectStats (campaignID : UUID)
  | finishRunning (campaignID : UUID) (status : CampaignStatus)
  | clock
  | loadStatus (campaignID : UUID)
  | storeStatus (campaignID : UUID) (status : CampaignStatus)
  | loadCampaignStatus (campaignID : UUID)
  | storeCampaignStatus (campaignID : UUID) (status : CampaignStatus)
  | deleteCampaignStatus (campaignID : UUID)
  /-- The part of `handleActivate` that follows the status check. -/
  | activate (ev : CardEvent) (ans : Answers) (campaignID : UUID)

/-- The statements with their answers. -/
abbrev hostSignature : Signature where
  Op := HostOp
  Answer
    | .countOpenShards => ℕ
    | .selectStatus _ => Option CampaignStatus
    | .selectCommands _ => List CampaignCommand
    | .selectTargets _ => List (List UUID)
    | .startTransaction _ _ _ | .resumeTransaction _ _ _ => Except String Unit
    | .listCampaignCards _ => List ExecutionRow
    | .pauseRunning _ => Bool
    | .selectStats _ => Option CampaignStatsRow
    | .clock => ℤ
    | .loadStatus _ | .loadCampaignStatus _ => Option StatusEntry
    | .activate _ _ _ => Handled
    | _ => Unit

/-- `UPDATE campaigns SET status = ? WHERE id = ?`. -/
def Database.updateStatus (db : Database) (campaignID : UUID) (status : CampaignStatus) :
    Database :=
  if (db.campaigns campaignID).isSome then db.setStatus campaignID status else db

/-- `UPDATE campaigns SET status = ? WHERE id = ? AND status = 'running'`. -/
def Database.updateRunning (db : Database) (campaignID : UUID) (status : CampaignStatus) :
    Database :=
  if db.campaigns campaignID = some .running then db.setStatus campaignID status else db

def startTransaction (cfg : ControlConfig) (gen : Generated) (db : Database) (campaignID : UUID)
    (firstStep : ℤ) : Response :=
  match db.shards.insertAll (startShards cfg gen db campaignID firstStep) with
  | .error e => (.error ("start campaign transaction: create campaign shard: " ++ e), db)
  | .ok shards =>
    if (db.targets campaignID).cards.isEmpty then
      (.error ("start campaign transaction: campaign " ++ campaignID.text ++
        " has no target cards"), db)
    else (.ok (), { db.setStatus campaignID .running with shards })

/-- The activations of a resumed campaign, from the states its cards had. -/
def resumeEventsOf (gen : Generated) (campaignID : UUID) (firstStep : ℤ)
    (cardStates : List ExecutionRow) : List CardEvent :=
  (cardStates.filter fun row ↦ row.status = .pending || row.status = .activating).map fun row ↦
    gen.activation campaignID (if row.currentStep = 0 then firstStep else row.currentStep)
      row.retryCount row.cardID

def resumeTransaction (cfg : ControlConfig) (gen : Generated) (db : Database) (campaignID : UUID)
    (events : List CardEvent) : Response :=
  match db.shards.insertAll (gen.shards campaignID (db.shards.maxSequence campaignID + 1)
      (Batches.batches cfg.shardSize events)) with
  | .error e => (.error ("resume campaign transaction: create resume campaign shards: " ++ e), db)
  | .ok shards => (.ok (), { db.setStatus campaignID .running with shards })

/-- The rest of `handleActivate`, in one go. -/
def Host.activate (cfg : HostConfig) (s : Host) (ev : CardEvent) (ans : Answers)
    (campaignID : UUID) : Outcome Handled Process Output :=
  (handleActivate cfg.lib cfg.cryptoProvider { ans with campaignStatus := .ok .running } ev
    campaignID).run workerSemantics s.process

def hostSemantics (cfg : HostConfig) : Semantics hostSignature Host Output where
  answer s
    | .countOpenShards => (s.db.shards.rows.filter CampaignShard.isOpen).length
    | .selectStatus campaignID => s.db.campaigns campaignID
    | .selectCommands campaignID => s.db.commands campaignID
    | .selectTargets campaignID => targetBatches cfg.control s.db campaignID
    | .startTransaction campaignID gen step =>
      (startTransaction cfg.control gen s.db campaignID step).1
    | .listCampaignCards campaignID => listCampaignCards s.db.tables campaignID
    | .resumeTransaction campaignID gen events =>
      (resumeTransaction cfg.control gen s.db campaignID events).1
    | .pauseRunning campaignID => s.db.campaigns campaignID = some .running
    | .selectStats campaignID => s.db.tables.campaignStats campaignID
    | .clock => s.now
    | .loadStatus campaignID => s.statusCache campaignID
    | .loadCampaignStatus campaignID => s.campaignStatusCache campaignID
    | .activate ev ans campaignID => (s.activate cfg ev ans campaignID).value
    | .initializeCampaign _ _ _ _ | .updateStatus _ _ | .abortCards _ _ | .finishRunning _ _
    | .storeStatus _ _ | .storeCampaignStatus _ _ | .deleteCampaignStatus _ => ()
  next s
    | .initializeCampaign campaignID batch step now => { s with
        db := { s.db with
          tables := initializeCampaign s.db.tables campaignID batch step now } }
    | .startTransaction campaignID gen step =>
      { s with db := (startTransaction cfg.control gen s.db campaignID step).2 }
    | .resumeTransaction campaignID gen events =>
      { s with db := (resumeTransaction cfg.control gen s.db campaignID events).2 }
    | .pauseRunning campaignID => { s with db := s.db.updateRunning campaignID .paused }
    | .updateStatus campaignID status => { s with db := s.db.updateStatus campaignID status }
    | .abortCards campaignID now => { s with
        db := { s.db with tables := abortCampaign s.db.tables campaignID now } }
    | .finishRunning campaignID status => { s with db := s.db.updateRunning campaignID status }
    | .storeStatus campaignID status => { s with
        statusCache := update s.statusCache campaignID (some ⟨status, s.now⟩) }
    | .storeCampaignStatus campaignID status => { s with
        campaignStatusCache :=
          update s.campaignStatusCache campaignID (some ⟨status, s.now⟩) }
    | .deleteCampaignStatus campaignID => { s with
        campaignStatusCache := update s.campaignStatusCache campaignID none }
    | .activate ev ans campaignID => { s with process := (s.activate cfg ev ans campaignID).state }
    | .countOpenShards | .selectStatus _ | .selectCommands _ | .selectTargets _
    | .listCampaignCards _ | .selectStats _ | .clock | .loadStatus _ | .loadCampaignStatus _ => s
  output s
    | .activate ev ans campaignID => (s.activate cfg ev ans campaignID).outputs
    | _ => []

/-! ## Writes to the status column -/

/-- What a statement may write to the status column. -/
inductive StatusWrite (s : Host) : HostOp → UUID → CampaignStatus → Prop
  | update (c : UUID) (status : CampaignStatus) : StatusWrite s (.updateStatus c status) c status
  | finish (c : UUID) (status : CampaignStatus) (h : s.db.campaigns c = some .running) :
    StatusWrite s (.finishRunning c status) c status
  | pause (c : UUID) (h : s.db.campaigns c = some .running) :
    StatusWrite s (.pauseRunning c) c .paused
  | start (c : UUID) (gen : Generated) (step : ℤ) :
    StatusWrite s (.startTransaction c gen step) c .running
  | resume (c : UUID) (gen : Generated) (events : List CardEvent) :
    StatusWrite s (.resumeTransaction c gen events) c .running

section StatusWrites

variable {cfg : HostConfig}

/-- A transaction that fails leaves the statuses; one that does not starts the campaign. -/
private def FailsOrRuns (before : UUID → Option CampaignStatus) (c : UUID) (r : Response) : Prop :=
  (∃ e, r.1 = .error e ∧ r.2.campaigns = before) ∨
    r.2.campaigns = update before c (some .running)

private theorem failsOrRuns_start (gen : Generated) (db : Database) (c : UUID) (step : ℤ) :
    FailsOrRuns db.campaigns c (startTransaction cfg.control gen db c step) := by
  rw [startTransaction]
  split
  · exact Or.inl ⟨_, rfl, rfl⟩
  · split_ifs
    · exact Or.inl ⟨_, rfl, rfl⟩
    · exact Or.inr rfl

private theorem failsOrRuns_resume (gen : Generated) (db : Database) (c : UUID)
    (events : List CardEvent) :
    FailsOrRuns db.campaigns c (resumeTransaction cfg.control gen db c events) := by
  rw [resumeTransaction]
  split
  · exact Or.inl ⟨_, rfl, rfl⟩
  · exact Or.inr rfl

/-- **What a statement does to the status of the campaigns.** -/
theorem campaigns_next_cases (cfg : HostConfig) (s : Host) (o : HostOp) :
    ((hostSemantics cfg).next s o).db.campaigns = s.db.campaigns ∨
      ∃ c status, StatusWrite s o c status ∧ ((hostSemantics cfg).next s o).db.campaigns
        = update s.db.campaigns c (some status) := by
  cases o with
  | updateStatus c status =>
    change (s.db.updateStatus c status).campaigns = _ ∨ _
    rw [Database.updateStatus]
    split_ifs with h
    · refine Or.inr ⟨c, status, .update c status, ?_⟩
      change (s.db.updateStatus c status).campaigns = _
      rw [Database.updateStatus, if_pos h]
      rfl
    · exact Or.inl rfl
  | finishRunning c status =>
    by_cases h : s.db.campaigns c = some .running
    · refine Or.inr ⟨c, status, .finish c status h, ?_⟩
      exact congrArg Database.campaigns (if_pos h)
    · exact Or.inl (congrArg Database.campaigns (if_neg h))
  | pauseRunning c =>
    by_cases h : s.db.campaigns c = some .running
    · exact Or.inr ⟨c, .paused, .pause c h, congrArg Database.campaigns (if_pos h)⟩
    · exact Or.inl (congrArg Database.campaigns (if_neg h))
  | startTransaction c gen step =>
    rcases failsOrRuns_start gen s.db c step with ⟨-, -, h⟩ | h
    · exact Or.inl h
    · exact Or.inr ⟨c, .running, .start c gen step, h⟩
  | resumeTransaction c gen events =>
    rcases failsOrRuns_resume gen s.db c events with ⟨-, -, h⟩ | h
    · exact Or.inl h
    · exact Or.inr ⟨c, .running, .resume c gen events, h⟩
  | _ => exact Or.inl rfl

end StatusWrites

/-! ## Requests -/

namespace HostOp

/-- The program that makes one statement. -/
abbrev exec (o : HostOp) : Program hostSignature (hostSignature.Answer o) :=
  .op (E := hostSignature) o

end HostOp

/-- A request: what it answers, after its statements. -/
abbrev Statements := Program hostSignature

open HostOp

/-- `SetCampaignStatus`: the row, then the cache; neither if the update of the row is refused. -/
def setCampaignStatus (refused : Bool) (campaignID : UUID) (status : CampaignStatus) :
    Statements Unit :=
  if refused then return ()
  else do
    exec (.updateStatus campaignID status)
    exec (.storeStatus campaignID status)

/-- Initializes the states of the target cards, page by page. -/
def initializeBatches (campaignID : UUID) (step now : ℤ) : List (List UUID) → Statements Unit
  | [] => return ()
  | batch :: batches => do
    exec (.initializeCampaign campaignID batch step now)
    initializeBatches campaignID step now batches

section Requests

variable (refused : Bool)

/-- What a start and a resume do when their transaction is over. -/
def afterTransaction (campaignID : UUID) : Except String Unit → Statements (Except String Unit)
  | .error e => return .error e
  | .ok () => do
    setCampaignStatus refused campaignID .running
    return .ok ()

def startLoaded (gen : Generated) (campaignID : UUID) (step : ℤ) :
    Statements (Except String Unit) := do
  let batches ← exec (.selectTargets campaignID)
  initializeBatches campaignID step gen.now batches
  let result ← exec (.startTransaction campaignID gen step)
  afterTransaction refused campaignID result

/-- `StartCampaign`. -/
def startStatements (cfg : ControlConfig) (gen : Generated) (campaignID : UUID) :
    Statements (Except String Unit) := do
  let pendingShards ← exec .countOpenShards
  if cfg.maxBacklog < pendingShards then
    return .error ("shard backlog high: " ++ toString pendingShards ++
      " shards pending/publishing across campaigns (max " ++ toString cfg.maxBacklog ++
      ") — try again later")
  else match ← exec (.selectStatus campaignID) with
    | none => return .error ("load campaign " ++ campaignID.text ++ ": record not found")
    | some status => do
      let commands ← exec (.selectCommands campaignID)
      if status ≠ .pending then
        return .error ("campaign " ++ campaignID.text ++ " is in status \"" ++ status.text ++
          "\", expected 'pending'")
      else match commands with
        | [] => return .error ("campaign " ++ campaignID.text ++ " has no commands")
        | first :: _ => startLoaded refused gen campaignID first.sequence

/-- `PauseCampaign`. -/
def pauseStatements (campaignID : UUID) : Statements (Except String Unit) := do
  if ← exec (.pauseRunning campaignID) then do
    setCampaignStatus refused campaignID .paused
    return .ok ()
  else return .error ("campaign " ++ campaignID.text ++ " is not in 'running' status")

def resumeLoaded (gen : Generated) (campaignID : UUID) (step : ℤ) :
    Statements (Except String Unit) := do
  let cardStates ← exec (.listCampaignCards campaignID)
  let result ← exec (.resumeTransaction campaignID gen
    (resumeEventsOf gen campaignID step cardStates))
  afterTransaction refused campaignID result

/-- `ResumeCampaign`. -/
def resumeStatements (gen : Generated) (campaignID : UUID) : Statements (Except String Unit) := do
  if (← exec (.selectStatus campaignID)) = some .paused then
    match ← exec (.selectCommands campaignID) with
    | [] => return .error ("campaign " ++ campaignID.text ++ " has no commands")
    | first :: _ => resumeLoaded refused gen campaignID first.sequence
  else return .error ("load paused campaign " ++ campaignID.text ++ ": record not found")

/-- `AbortCampaign` after the campaign was loaded. The cards are skipped last, so that the executor
stops as soon as possible. -/
def abortLoaded (cardsRefused : Bool) (gen : Generated) (campaignID : UUID) :
    Statements (Except String Unit) := do
  exec (.updateStatus campaignID .aborted)
  setCampaignStatus refused campaignID .aborted
  if cardsRefused then return .ok ()
  else do
    exec (.abortCards campaignID gen.now)
    return .ok ()

/-- `AbortCampaign`. -/
def abortStatements (cardsRefused : Bool) (gen : Generated) (campaignID : UUID) :
    Statements (Except String Unit) := do
  match ← exec (.selectStatus campaignID) with
  | none => return .error ("load campaign " ++ campaignID.text ++ ": record not found")
  | some status =>
    if status ≠ .running ∧ status ≠ .paused then
      return .error ("campaign " ++ campaignID.text ++ " is in status \"" ++ status.text ++
        "\", cannot abort")
    else abortLoaded refused cardsRefused gen campaignID

end Requests

/-- One campaign in a tick of the completion checker. -/
def checkStatements (campaignID : UUID) : Statements (Except String Unit) := do
  if (← exec (.selectStatus campaignID)) = some .running then
    match (← exec (.selectStats campaignID)).bind completionStatus with
    | none => return .ok ()
    | some status => do
      exec (.finishRunning campaignID status)
      return .ok ()
  else return .ok ()

/-! ## Requests that are not interrupted

A request whose statements follow one another without others in between is the request of the
campaign service. -/

section Uninterrupted

variable (cfg : HostConfig) (s : Host) (refused : Bool) (gen : Generated) (campaignID : UUID)

/-- What a finished request answered, and the database it left. -/
def Outcome.response (r : Outcome (Except String Unit) Host Output) : Response :=
  (r.value, r.state.db)

theorem response_exec_bind (o : HostOp)
    (f : hostSignature.Answer o → Statements (Except String Unit)) :
    ((o.exec >>= f).run (hostSemantics cfg) s).response
      = ((f ((hostSemantics cfg).answer s o)).run (hostSemantics cfg)
          ((hostSemantics cfg).next s o)).response := rfl

theorem answer_selectStatus : (hostSemantics cfg).answer s (.selectStatus campaignID)
    = s.db.campaigns campaignID := rfl

theorem next_selectStatus : (hostSemantics cfg).next s (.selectStatus campaignID) = s := rfl

theorem answer_selectCommands : (hostSemantics cfg).answer s (.selectCommands campaignID)
    = s.db.commands campaignID := rfl

theorem next_selectCommands : (hostSemantics cfg).next s (.selectCommands campaignID) = s := rfl

theorem Database.updateStatus_self {db : Database} {campaignID : UUID} {status : CampaignStatus}
    (h : db.campaigns campaignID = some status) : db.updateStatus campaignID status = db := by
  have hsame : update db.campaigns campaignID (some status) = db.campaigns := by
    rw [← h, update_eq_self]
  rw [Database.updateStatus, h, Database.setStatus, hsame]
  rfl

theorem run_pauseStatements :
    ((pauseStatements refused campaignID).run (hostSemantics cfg) s).response
      = pauseCampaign s.db campaignID := by
  rw [pauseStatements, pauseCampaign, response_exec_bind]
  by_cases hrunning : s.db.campaigns campaignID = some .running
  · have hanswer : (hostSemantics cfg).answer s (.pauseRunning campaignID) = true :=
      decide_eq_true hrunning
    have hnext : (hostSemantics cfg).next s (.pauseRunning campaignID)
        = { s with db := s.db.setStatus campaignID .paused } :=
      congrArg (fun db ↦ { s with db }) (if_pos hrunning)
    rw [hanswer, hnext, if_pos rfl, if_pos hrunning]
    cases refused with
    | true => rfl
    | false => exact Prod.ext rfl (Database.updateStatus_self (update_self _ _ _))
  · have hanswer : (hostSemantics cfg).answer s (.pauseRunning campaignID) = false :=
      decide_eq_false hrunning
    have hnext : (hostSemantics cfg).next s (.pauseRunning campaignID) = s :=
      congrArg (fun db ↦ { s with db }) (if_neg hrunning)
    rw [hanswer, hnext, if_neg Bool.false_ne_true, if_neg hrunning]
    rfl

theorem run_abortStatements :
    ((abortStatements refused false gen campaignID).run (hostSemantics cfg) s).response
      = abortCampaignRequest gen s.db campaignID := by
  rw [abortStatements, abortCampaignRequest, response_exec_bind, answer_selectStatus]
  cases hstatus : s.db.campaigns campaignID with
  | none => rfl
  | some status =>
    by_cases hrefused : status ≠ .running ∧ status ≠ .paused
    · simp only [if_pos hrefused]
      rfl
    · simp only [if_neg hrefused]
      have hupdate : s.db.updateStatus campaignID .aborted
          = s.db.setStatus campaignID .aborted := by
        rw [Database.updateStatus, hstatus]
        rfl
      have hagain : (s.db.setStatus campaignID .aborted).updateStatus campaignID .aborted
          = s.db.setStatus campaignID .aborted :=
        Database.updateStatus_self (update_self _ _ _)
      cases refused with
      | true =>
        change (Except.ok (), { s.db.updateStatus campaignID .aborted with
          tables := abortCampaign (s.db.updateStatus campaignID .aborted).tables campaignID
            gen.now }) = _
        rw [hupdate]
        rfl
      | false =>
        change (Except.ok (), { (s.db.updateStatus campaignID .aborted).updateStatus campaignID
          .aborted with tables := abortCampaign ((s.db.updateStatus campaignID
            .aborted).updateStatus campaignID .aborted).tables campaignID gen.now }) = _
        rw [hupdate, hagain]
        rfl

theorem run_checkStatements : ((checkStatements campaignID).run (hostSemantics cfg) s).state.db
      = checkCompletion s.db campaignID := by
  have hstats : (hostSemantics cfg).answer s (.selectStats campaignID)
      = s.db.tables.campaignStats campaignID := rfl
  rw [checkStatements, checkCompletion, Program.run_bind, Program.run_op, answer_selectStatus,
    next_selectStatus]
  by_cases hrunning : s.db.campaigns campaignID = some .running
  · rw [if_pos hrunning, hrunning, Program.run_bind, Program.run_op, hstats]
    cases s.db.tables.campaignStats campaignID with
    | none => rfl
    | some stats =>
      rw [Option.bind_some]
      cases hended : completionStatus stats with
      | none => simp only [hended]; rfl
      | some status =>
        simp only [hended]
        exact if_pos hrunning
  · rw [if_neg hrunning]
    split
    · rename_i h _
      exact absurd h hrunning
    · rfl

private theorem run_initializeBatches (step now : ℤ) (batches : List (List UUID)) :
    (initializeBatches campaignID step now batches).run (hostSemantics cfg) s
      = ⟨(), { s with db := { s.db with
          tables := batches.foldl (fun t batch ↦ initializeCampaign t campaignID batch step now)
            s.db.tables } }, []⟩ := by
  induction batches generalizing s with
  | nil => rfl
  | cons batch batches ih =>
    rw [initializeBatches, Program.run_bind, Program.run_op, ih]
    rfl

private theorem response_afterTransaction {r : Response} {before : UUID → Option CampaignStatus}
    (hr : FailsOrRuns before campaignID r) :
    ((afterTransaction refused campaignID r.1).run (hostSemantics cfg)
      { s with db := r.2 }).response = r := by
  obtain ⟨value, db⟩ := r
  cases value with
  | error e => rfl
  | ok u =>
    rcases hr with ⟨e, he, -⟩ | hrunning
    · cases he
    · cases refused with
      | true => rfl
      | false =>
        refine Prod.ext rfl (Database.updateStatus_self ?_)
        rw [hrunning, update_self]

private theorem run_startLoaded (step : ℤ) :
    ((startLoaded refused gen campaignID step).run (hostSemantics cfg) s).response
      = startTransaction cfg.control gen (initializeTargets cfg.control gen s.db campaignID step)
          campaignID step := by
  have hselect : (hostSemantics cfg).answer s (.selectTargets campaignID)
      = targetBatches cfg.control s.db campaignID := rfl
  have hselected : (hostSemantics cfg).next s (.selectTargets campaignID) = s := rfl
  rw [startLoaded, response_exec_bind, hselect, hselected, Program.run_bind, run_initializeBatches]
  exact response_afterTransaction cfg s refused campaignID
    (failsOrRuns_start gen (initializeTargets cfg.control gen s.db campaignID step) campaignID step)

private theorem run_resumeLoaded (step : ℤ) :
    ((resumeLoaded refused gen campaignID step).run (hostSemantics cfg) s).response
      = resumeTransaction cfg.control gen s.db campaignID
          (resumeEvents gen s.db campaignID step) := by
  rw [resumeLoaded, response_exec_bind, response_exec_bind]
  exact response_afterTransaction cfg s refused campaignID
    (failsOrRuns_resume gen s.db campaignID (resumeEvents gen s.db campaignID step))

theorem run_startStatements :
    ((startStatements refused cfg.control gen campaignID).run (hostSemantics cfg) s).response
      = startCampaign cfg.control gen s.db campaignID := by
  have hcount : (hostSemantics cfg).answer s .countOpenShards
      = (s.db.shards.rows.filter CampaignShard.isOpen).length := rfl
  have hcounted : (hostSemantics cfg).next s .countOpenShards = s := rfl
  rw [startStatements, startCampaign, response_exec_bind, hcount, hcounted]
  dsimp only
  by_cases hfull : cfg.control.maxBacklog < (s.db.shards.rows.filter CampaignShard.isOpen).length
  · rw [if_pos hfull, if_pos hfull]
    rfl
  · rw [if_neg hfull, if_neg hfull, response_exec_bind, answer_selectStatus, next_selectStatus]
    cases s.db.campaigns campaignID with
    | none => rfl
    | some status =>
      dsimp only
      rw [response_exec_bind, answer_selectCommands, next_selectCommands]
      by_cases hpending : status ≠ .pending
      · rw [if_pos hpending, if_pos hpending]
        rfl
      · rw [if_neg hpending, if_neg hpending]
        cases s.db.commands campaignID with
        | nil => rfl
        | cons first rest =>
          dsimp only
          rw [run_startLoaded]
          rfl

theorem run_resumeStatements :
    ((resumeStatements refused gen campaignID).run (hostSemantics cfg) s).response
      = resumeCampaign cfg.control gen s.db campaignID := by
  rw [resumeStatements, resumeCampaign, response_exec_bind, answer_selectStatus, next_selectStatus]
  by_cases hpaused : s.db.campaigns campaignID = some .paused
  · rw [if_pos hpaused, if_neg (not_not.mpr hpaused), response_exec_bind,
      answer_selectCommands, next_selectCommands]
    cases s.db.commands campaignID with
    | nil => rfl
    | cons first rest =>
      dsimp only
      rw [run_resumeLoaded]
      rfl
  · rw [if_neg hpaused, if_pos hpaused]
    rfl

end Uninterrupted

/-! ## Status lookups -/

/-- `CoordinationStore.GetCampaignStatus` when the cache has no fresh entry. -/
def fetchCampaignStatus (campaignID : UUID) : Statements (Option CampaignStatus) := do
  match ← exec (.selectStatus campaignID) with
  | none => return none
  | some status => do
    exec (.storeStatus campaignID status)
    return some status

/-- `CoordinationStore.GetCampaignStatus`. -/
def getCampaignStatus (campaignID : UUID) : Statements (Option CampaignStatus) := do
  match ← exec (.loadStatus campaignID) with
  | none => fetchCampaignStatus campaignID
  | some entry => do
    if (← exec .clock) - entry.cachedAt < statusCacheTTL then return some entry.status
    else fetchCampaignStatus campaignID

section Lookups

variable (refused : Bool)

/-- `getCampaignStatusCached` when the cache has no fresh entry. A campaign that the store does not
know is read once more, and what is read is written back. -/
def lookupCampaignStatus (campaignID : UUID) : Statements (Except String CampaignStatus) := do
  match ← getCampaignStatus campaignID with
  | some status => do
    exec (.storeCampaignStatus campaignID status)
    return .ok status
  | none =>
    match ← exec (.selectStatus campaignID) with
    | none => return .error "load campaign status from db: record not found"
    | some status => do
      setCampaignStatus refused campaignID status
      exec (.storeCampaignStatus campaignID status)
      return .ok status

def getCampaignStatusCached (campaignID : UUID) : Statements (Except String CampaignStatus) := do
  match ← exec (.loadCampaignStatus campaignID) with
  | none => lookupCampaignStatus refused campaignID
  | some entry => do
    if (← exec .clock) - entry.cachedAt < campaignStatusCacheTTL then return .ok entry.status
    else do
      exec (.deleteCampaignStatus campaignID)
      lookupCampaignStatus refused campaignID

/-- `handleActivate` after the status lookup. -/
def activateFound (ev : CardEvent) (ans : Answers) (campaignID : UUID) :
    Except String CampaignStatus → Statements (Except String Unit)
  | .error err => return .error ("get campaign status: " ++ err)
  | .ok status =>
    if status = .running then exec (.activate ev ans campaignID)
    else do
      -- the cached context goes too; it is not modelled
      exec (.deleteCampaignStatus campaignID)
      return .ok ()

/-- `handleActivate`. -/
def activateStatements (ev : CardEvent) (ans : Answers) (campaignID : UUID) :
    Statements (Except String Unit) := do
  let status ← getCampaignStatusCached refused campaignID
  activateFound ev ans campaignID status

end Lookups

/-! ## The host as a transition system -/

inductive HostCall
  | start (campaignID : UUID) (gen : Generated) (refused : Bool := false)
  | pause (campaignID : UUID) (refused : Bool := false)
  | resume (campaignID : UUID) (gen : Generated) (refused : Bool := false)
  | abort (campaignID : UUID) (gen : Generated) (refused cardsRefused : Bool := false)
  | check (campaignID : UUID)
  | activate (campaignID : UUID) (ev : CardEvent) (ans : Answers) (refused : Bool := false)

def HostCall.code (cfg : HostConfig) : HostCall → Statements (Except String Unit)
  | .start campaignID gen refused => startStatements refused cfg.control gen campaignID
  | .pause campaignID refused => pauseStatements refused campaignID
  | .resume campaignID gen refused => resumeStatements refused gen campaignID
  | .abort campaignID gen refused cardsRefused =>
    abortStatements refused cardsRefused gen campaignID
  | .check campaignID => checkStatements campaignID
  | .activate campaignID ev ans refused => activateStatements refused ev ans campaignID

def HostCall.campaignID : HostCall → UUID
  | .start c _ _ | .pause c _ | .resume c _ _ | .abort c _ _ _ | .check c | .activate c _ _ _ => c

/-- The campaign a statement reads or writes, if it is about one. -/
def HostOp.campaignID : HostOp → Option UUID
  | .countOpenShards | .clock => none
  | .selectStatus c | .selectCommands c | .selectTargets c | .initializeCampaign c _ _ _
  | .startTransaction c _ _ | .listCampaignCards c | .resumeTransaction c _ _ | .pauseRunning c
  | .updateStatus c _ | .abortCards c _ | .selectStats c | .finishRunning c _ | .loadStatus c
  | .storeStatus c _ | .loadCampaignStatus c | .storeCampaignStatus c _ | .deleteCampaignStatus c
  | .activate _ _ c => some c

/-- The statement is about no other campaign. -/
def HostOp.Within (campaignID : UUID) (o : HostOp) : Prop :=
  ∀ c, o.campaignID = some c → c = campaignID

/-- The status that a statement writes, to the row of a campaign or to a cache. -/
def HostOp.sets : HostOp → Option CampaignStatus
  | .updateStatus _ status | .storeStatus _ status | .storeCampaignStatus _ status
  | .finishRunning _ status => some status
  | .startTransaction _ _ _ | .resumeTransaction _ _ _ => some .running
  | .pauseRunning _ => some .paused
  | _ => none

def HostCall.Sets : HostCall → CampaignStatus → Prop
  | .start _ _ _, status | .resume _ _ _, status => status = .running
  | .pause _ _, status => status = .paused
  | .abort _ _ _ _, status => status = .aborted
  | .check _, status => status ≠ .running
  | .activate _ _ _ _, _ => True

/-- The statement is about the campaign, and writes no other statuses than the given ones. -/
structure HostOp.KeepsTo (campaignID : UUID) (S : CampaignStatus → Prop) (o : HostOp) : Prop where
  within : o.Within campaignID
  sets : ∀ status, o.sets = some status → S status

def HostOp.writesStatus : HostOp → Bool
  | .updateStatus _ _ | .finishRunning _ _ => true
  | _ => false

inductive HostOp.Lookup (campaignID : UUID) : HostOp → Prop
  | clock : Lookup campaignID .clock
  | selectStatus : Lookup campaignID (.selectStatus campaignID)
  | updateStatus (status : CampaignStatus) : Lookup campaignID (.updateStatus campaignID status)
  | loadStatus : Lookup campaignID (.loadStatus campaignID)
  | storeStatus (status : CampaignStatus) : Lookup campaignID (.storeStatus campaignID status)
  | loadCampaignStatus : Lookup campaignID (.loadCampaignStatus campaignID)
  | storeCampaignStatus (status : CampaignStatus) :
    Lookup campaignID (.storeCampaignStatus campaignID status)
  | deleteCampaignStatus : Lookup campaignID (.deleteCampaignStatus campaignID)

section KeepsTo

open Program

variable (refused : Bool) (campaignID : UUID) {S : CampaignStatus → Prop} {status : CampaignStatus}
  {o : HostOp}

theorem HostOp.within_of_eq {campaignID : UUID} (h : o.campaignID = some campaignID) :
    o.Within campaignID := by
  intro c hc
  exact Option.some.inj (hc.symm.trans h)

theorem HostOp.KeepsTo.read {campaignID : UUID} (hc : o.campaignID = some campaignID)
    (hsets : o.sets = none) : o.KeepsTo campaignID S :=
  ⟨within_of_eq hc, fun _ h ↦ absurd (hsets.symm.trans h).symm (Option.some_ne_none _)⟩

theorem HostOp.KeepsTo.write {campaignID : UUID} (hc : o.campaignID = some campaignID)
    (hsets : o.sets = some status) (hS : S status) : o.KeepsTo campaignID S :=
  ⟨within_of_eq hc, fun _ h ↦ Option.some.inj (hsets.symm.trans h) ▸ hS⟩

private theorem only_setCampaignStatus {P : HostOp → Prop}
    (hupdate : P (.updateStatus campaignID status)) (hstore : P (.storeStatus campaignID status)) :
    Only P (setCampaignStatus refused campaignID status) := by
  rw [setCampaignStatus]
  split_ifs
  · exact only_pure _
  · exact only_op_bind hupdate fun _ ↦ ⟨hstore, fun _ ↦ trivial⟩

private theorem keepsTo_setCampaignStatus (hS : S status) :
    Only (HostOp.KeepsTo campaignID S) (setCampaignStatus refused campaignID status) :=
  only_setCampaignStatus refused campaignID (.write rfl rfl hS) (.write rfl rfl hS)

private theorem keepsTo_initializeBatches (step now : ℤ) (batches : List (List UUID)) :
    Only (HostOp.KeepsTo campaignID S) (initializeBatches campaignID step now batches) := by
  induction batches with
  | nil => exact only_pure _
  | cons batch batches ih => exact only_op_bind (.read rfl rfl) fun _ ↦ ih

private theorem keepsTo_afterTransaction (result : Except String Unit) :
    Only (HostOp.KeepsTo campaignID (· = .running))
      (afterTransaction refused campaignID result) := by
  cases result with
  | error e => exact only_pure _
  | ok u => exact only_bind (keepsTo_setCampaignStatus refused campaignID rfl) fun _ ↦ only_pure _

private theorem keepsTo_start (cfg : ControlConfig) (gen : Generated) :
    Only (HostOp.KeepsTo campaignID (· = .running))
      (startStatements refused cfg gen campaignID) := by
  refine only_op_bind ⟨nofun, nofun⟩ fun pendingShards ↦ ?_
  split_ifs
  · exact only_pure _
  · refine only_op_bind (.read rfl rfl) fun found ↦ ?_
    cases found with
    | none => exact only_pure _
    | some found =>
      refine only_op_bind (.read rfl rfl) fun commands ↦ ?_
      split_ifs
      · exact only_pure _
      · cases commands with
        | nil => exact only_pure _
        | cons first rest =>
          refine only_op_bind (.read rfl rfl) fun batches ↦ ?_
          refine only_bind (keepsTo_initializeBatches campaignID _ _ batches) fun _ ↦ ?_
          exact only_op_bind (.write rfl rfl rfl) (keepsTo_afterTransaction refused campaignID)

private theorem keepsTo_pause :
    Only (HostOp.KeepsTo campaignID (· = .paused)) (pauseStatements refused campaignID) := by
  refine only_op_bind (.write rfl rfl rfl) fun paused ↦ ?_
  split_ifs
  · exact only_bind (keepsTo_setCampaignStatus refused campaignID rfl) fun _ ↦ only_pure _
  · exact only_pure _

private theorem keepsTo_resume (gen : Generated) :
    Only (HostOp.KeepsTo campaignID (· = .running)) (resumeStatements refused gen campaignID) := by
  refine only_op_bind (.read rfl rfl) fun found ↦ ?_
  split_ifs
  · refine only_op_bind (.read rfl rfl) fun commands ↦ ?_
    cases commands with
    | nil => exact only_pure _
    | cons first rest =>
      refine only_op_bind (.read rfl rfl) fun cardStates ↦ ?_
      exact only_op_bind (.write rfl rfl rfl) (keepsTo_afterTransaction refused campaignID)
  · exact only_pure _

private theorem keepsTo_abort (cardsRefused : Bool) (gen : Generated) :
    Only (HostOp.KeepsTo campaignID (· = .aborted))
      (abortStatements refused cardsRefused gen campaignID) := by
  refine only_op_bind (.read rfl rfl) fun found ↦ ?_
  cases found with
  | none => exact only_pure _
  | some found =>
    dsimp only
    split_ifs
    · exact only_pure _
    · refine only_op_bind (.write rfl rfl rfl) fun _ ↦ ?_
      refine only_bind (keepsTo_setCampaignStatus refused campaignID rfl) fun _ ↦ ?_
      split_ifs
      · exact only_pure _
      · exact only_op_bind (.read rfl rfl) fun _ ↦ only_pure _

private theorem keepsTo_check :
    Only (HostOp.KeepsTo campaignID (· ≠ .running)) (checkStatements campaignID) := by
  refine only_op_bind (.read rfl rfl) fun found ↦ ?_
  split_ifs
  · refine only_op_bind (.read rfl rfl) fun stats ↦ ?_
    split
    · exact only_pure _
    · next status hended =>
      obtain ⟨r, -, hended⟩ := Option.bind_eq_some_iff.mp hended
      refine only_op_bind (.write rfl rfl ?_) fun _ ↦ only_pure _
      rintro rfl
      rw [completionStatus] at hended
      split_ifs at hended <;> cases hended
  · exact only_pure _

private theorem lookup_fetchCampaignStatus :
    Only (fun o : HostOp ↦ o.Lookup campaignID ∧ o.writesStatus = false)
      (fetchCampaignStatus campaignID) := by
  refine only_op_bind ⟨.selectStatus, rfl⟩ fun found ↦ ?_
  cases found with
  | none => exact only_pure _
  | some found => exact only_op_bind ⟨.storeStatus found, rfl⟩ fun _ ↦ only_pure _

theorem lookup_getCampaignStatus :
    Only (fun o : HostOp ↦ o.Lookup campaignID ∧ o.writesStatus = false)
      (getCampaignStatus campaignID) := by
  refine only_op_bind ⟨.loadStatus, rfl⟩ fun cached ↦ ?_
  cases cached with
  | none => exact lookup_fetchCampaignStatus campaignID
  | some entry =>
    refine only_op_bind ⟨.clock, rfl⟩ fun now ↦ ?_
    split_ifs
    · exact only_pure _
    · exact lookup_fetchCampaignStatus campaignID

private theorem lookup_lookupCampaignStatus :
    Only (HostOp.Lookup campaignID) (lookupCampaignStatus refused campaignID) := by
  refine only_bind ((lookup_getCampaignStatus campaignID).mono fun _ _ h ↦ h.1) fun found ↦ ?_
  cases found with
  | some found => exact only_op_bind (.storeCampaignStatus found) fun _ ↦ only_pure _
  | none =>
    refine only_op_bind .selectStatus fun found ↦ ?_
    cases found with
    | none => exact only_pure _
    | some found =>
      refine only_bind (only_setCampaignStatus refused campaignID (.updateStatus found)
        (.storeStatus found)) fun _ ↦ ?_
      exact only_op_bind (.storeCampaignStatus found) fun _ ↦ only_pure _

/-- A lookup reads and writes the status and its caches, and nothing else. -/
theorem lookup_getCampaignStatusCached :
    Only (HostOp.Lookup campaignID) (getCampaignStatusCached refused campaignID) := by
  refine only_op_bind .loadCampaignStatus fun cached ↦ ?_
  cases cached with
  | none => exact lookup_lookupCampaignStatus refused campaignID
  | some entry =>
    refine only_op_bind .clock fun now ↦ ?_
    split_ifs
    · exact only_pure _
    · refine only_op_bind .deleteCampaignStatus fun _ ↦ ?_
      exact lookup_lookupCampaignStatus refused campaignID

private theorem keepsTo_activate (ev : CardEvent) (ans : Answers) :
    Only (HostOp.KeepsTo campaignID fun _ ↦ True)
      (activateStatements refused ev ans campaignID) := by
  refine only_bind ((lookup_getCampaignStatusCached refused campaignID).mono ?_) fun found ↦ ?_
  · intro o _ ho
    refine ⟨?_, fun _ _ ↦ trivial⟩
    cases ho with
    | clock => exact nofun
    | _ => exact HostOp.within_of_eq rfl
  · cases found with
    | error err => exact only_pure _
    | ok found =>
      rw [activateFound]
      split_ifs
      · exact ⟨.read rfl rfl, fun _ ↦ only_pure _⟩
      · exact only_op_bind (.read rfl rfl) fun _ ↦ only_pure _

/-- **A call keeps to its campaign**, and to the statuses it may write. -/
theorem keepsTo_code (cfg : HostConfig) (r : HostCall) :
    Only (HostOp.KeepsTo r.campaignID r.Sets) (r.code cfg) := by
  cases r with
  | start c gen refused => exact keepsTo_start refused c cfg.control gen
  | pause c refused => exact keepsTo_pause refused c
  | resume c gen refused => exact keepsTo_resume refused c gen
  | abort c gen refused cardsRefused => exact keepsTo_abort refused c cardsRefused gen
  | check c => exact keepsTo_check c
  | activate c ev ans refused => exact keepsTo_activate refused c ev ans

end KeepsTo

section MayReturn

open Program

variable {campaignID : UUID} {ok : Allowed hostSignature} {v : Option CampaignStatus}

private theorem mayReturn_fetchCampaignStatus
    (h : MayReturn ok (fetchCampaignStatus campaignID) v) : ok (.selectStatus campaignID) v := by
  obtain ⟨found, hfound, h⟩ := mayReturn_call h
  cases found with
  | none =>
    rw [mayReturn_pure h]
    exact hfound
  | some found =>
    obtain ⟨_, -, h⟩ := mayReturn_call h
    rw [mayReturn_pure h]
    exact hfound

theorem mayReturn_getCampaignStatus (h : MayReturn ok (getCampaignStatus campaignID) v) :
    ok (.selectStatus campaignID) v ∨
      ∃ entry, ok (.loadStatus campaignID) (some entry) ∧ v = some entry.status := by
  obtain ⟨cached, hcached, h⟩ := mayReturn_call h
  cases cached with
  | none => exact Or.inl (mayReturn_fetchCampaignStatus h)
  | some entry =>
    obtain ⟨now, -, h⟩ := mayReturn_call h
    simp only [Program.bind] at h
    split_ifs at h
    · exact Or.inr ⟨entry, hcached, mayReturn_pure h⟩
    · exact Or.inl (mayReturn_fetchCampaignStatus h)

end MayReturn

/-- What else happens: a campaign is created, a state writer applies a batch, time passes. -/
inductive HostEvent
  | create (campaignID : UUID) (commands : List CampaignCommand) (targets : Targets)
  | flush (batch : List CardStateChange) (copyWorks : Bool)
  | tick (ms : ℕ)

def Database.create (db : Database) (campaignID : UUID) (commands : List CampaignCommand)
    (targets : Targets) : Database :=
  { db.setStatus campaignID .pending with
    commands := update db.commands campaignID commands
    targets := update db.targets campaignID targets }

def hostEnvironment : Machine Host HostEvent where
  Enabled s
    | .create campaignID _ _ => s.db.campaigns campaignID = none
    | _ => True
  next s
    | .create campaignID commands targets =>
      { s with db := s.db.create campaignID commands targets }
    | .flush batch copyWorks => { s with
        db := { s.db with tables := writeCardStateBatch copyWorks s.db.tables batch } }
    | .tick ms => { s with now := s.now + ms }

instance (s : Host) : (e : HostEvent) → Decidable (hostEnvironment.Enabled s e)
  | .create campaignID _ _ => inferInstanceAs (Decidable (s.db.campaigns campaignID = none))
  | .flush _ _ | .tick _ => isTrue trivial

/-- Calls in flight on a host. -/
abbrev HostState := Threads hostSignature (Except String Unit) Host Output

abbrev HostAction := ThreadAction HostCall HostEvent

/-- The host as a transition system. -/
abbrev host (cfg : HostConfig) : Machine HostState HostAction :=
  Threads.machine (hostSemantics cfg) (HostCall.code cfg) hostEnvironment

end OtaPlatform
