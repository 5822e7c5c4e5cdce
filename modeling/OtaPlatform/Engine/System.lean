import OtaPlatform.Executor.Outcomes
import OtaPlatform.Pgstore.QueryStore
import OtaPlatform.Transition.Ledger
import OtaPlatform.Transition.Machine

/-!
# The engine process

The executor, the batched state writer, the planner's preloading, the control-plane statements and
the completion checker, as one transition system. A handler call is one step here; its finer
interleavings are treated apart.

## Environment

Events reach the handlers in any order. An activation must have been published, by the planner, by a
handler or by a retry timer; a delivery report or a response may come at any time. What the database
returns for a card is a row it could return, a loaded context is that of the campaign, and a fresh
message identifier was not used before.

## History

`trace` records what happened, in order, and nothing in the step reads it. Properties that speak
about order, such as "after the message was published", are about the trace.
-/

namespace OtaPlatform

open List Function

structure EngineConfig where
  lib : SecuredPackets
  cryptoProvider : Bool
  /-- The commands and parameters of the campaigns. -/
  contexts : UUID → CampaignContext

inductive TraceEvent
  /-- A handler took an event; `answered` is the message a response answers. -/
  | handled (ev : CardEvent) (answered : Option UUID)
  | output (out : Output)
  /-- The control plane moved a card: it appended the row. -/
  | moved (row : ExecutionRow)
  | finished (campaignID : UUID) (status : CampaignStatus)
deriving DecidableEq, Repr

structure Engine where
  process : Process
  tables : StateTables
  cardCounters : CardCounters
  campaignMeta : UUID → Option CampaignCommandMeta
  campaignStatus : UUID → Option CampaignStatus
  /-- The transitions the state writers have not applied yet. -/
  stateCh : List CardStateChange
  /-- The activations that were published and not handled yet. -/
  activateCh : List CardEvent
  /-- The activations that wait for a timer. -/
  delayed : List CardEvent
  trace : List TraceEvent

inductive EngineAction
  | plan (ev : CardEvent)
  | release (ev : CardEvent)
  | handle (ev : CardEvent) (ans : Answers) (answered : Option UUID)
  /-- The gateway looks up the campaign of a card that sent a message. -/
  | lookup (cardID : UUID) (row : Except String (Option ExecutionRow))
  | flush (batch : List CardStateChange) (copyWorks : Bool)
  | preloadShard (campaignID : UUID) (cardIDs : List UUID)
      (keys : Option (List (UUID × CardKeyMaterial))) (rows : Option (List (UUID × ℤ)))
  | initCampaign (campaignID : UUID) (cardIDs : List UUID) (step updatedAt : ℤ)
  | reset (campaignID : UUID) (cardIDs : List UUID) (step updatedAt : ℤ)
  | abort (campaignID : UUID) (updatedAt : ℤ)
  /-- The completion checker looks at a campaign. -/
  | check (campaignID : UUID)

/-! ## Outputs -/

/-- The transitions among the outputs. -/
def changesOf (outs : List Output) : List CardStateChange :=
  outs.filterMap fun
    | .change ch => some ch
    | _ => none

/-- The published activations among the outputs. -/
def eventsOf (outs : List Output) : List CardEvent :=
  outs.filterMap fun
    | .event ev => some ev
    | _ => none

/-- The delayed activations among the outputs. -/
def delayedOf (outs : List Output) : List CardEvent :=
  outs.filterMap fun
    | .delayed ev => some ev
    | _ => none

/-- The published messages among the outputs. -/
def smsOf (outs : List Output) : List (SendSMSMessage × PacketOrigin) :=
  outs.filterMap fun
    | .sms msg origin => some (msg, origin)
    | _ => none

def outputsOf (trace : List TraceEvent) : List Output :=
  trace.filterMap fun
    | .output out => some out
    | _ => none

/-- A selection of outputs that ignores the message log may be made among the visible ones. -/
theorem filterMap_visible {β : Type} (f : Output → Option β)
    (hlog : ∀ action, f (.log action) = none) (outs : List Output) :
    outs.filterMap f = (visible outs).filterMap f := by
  induction outs with
  | nil => rfl
  | cons out outs ih =>
    cases out with
    | log action =>
      rw [filterMap_cons_none (hlog action), ih, ← singleton_append, visible_append,
        visible_log, nil_append]
    | sms _ _ | event _ | delayed _ | change _ =>
      simp [visible, filterMap_cons] at ih ⊢; rw [ih]

variable (outs : List Output)

theorem changesOf_visible : changesOf outs = changesOf (visible outs) :=
  filterMap_visible _ (fun _ ↦ rfl) outs

theorem eventsOf_visible : eventsOf outs = eventsOf (visible outs) :=
  filterMap_visible _ (fun _ ↦ rfl) outs

theorem delayedOf_visible : delayedOf outs = delayedOf (visible outs) :=
  filterMap_visible _ (fun _ ↦ rfl) outs

theorem smsOf_visible : smsOf outs = smsOf (visible outs) :=
  filterMap_visible _ (fun _ ↦ rfl) outs

theorem changesOf_append (outs' : List Output) :
    changesOf (outs ++ outs') = changesOf outs ++ changesOf outs' := filterMap_append

theorem smsOf_append (outs' : List Output) : smsOf (outs ++ outs') = smsOf outs ++ smsOf outs' :=
  filterMap_append

variable {after : Option CardState}

theorem ReportOutcome.smsOf_eq_nil {ev : CardEvent} {found : Option CardState} {outs : List Output}
    {evicted : Bool} (h : ReportOutcome ev found after outs evicted) : smsOf outs = [] := by
  cases h with
  | quiet | awaits _ | publishes _ => rfl
  | finishes hst hstatus h =>
    cases h with
    | written _ | unwritten _ => rfl

theorem OverflowOutcome.smsOf_eq_nil {cardID campaignID : UUID} {found : Option CardState}
    {outs : List Output} {evicted : Bool}
    (h : OverflowOutcome cardID campaignID found after outs evicted) : smsOf outs = [] := by
  cases h with
  | quiet | fails _ _ _ | unwritten _ _ => rfl

theorem EventOutcome.smsOf_cases {s : Process} {ans : Answers} {ev : CardEvent} {outs : List Output}
    {counters : CounterStore} (h : EventOutcome s ans ev after outs counters) :
    smsOf outs = [] ∨ ∃ msg origin, smsOf outs = [(msg, origin)] ∧ msg.msgID = ans.msgID ∧
      ev.type = .activate ∧ msg.cardID = ev.cardID ∧ ev.campaignID = some msg.campaignID := by
  cases h with
  | refused hcampaign htype => exact Or.inl rfl
  | reported htype hcampaign h => exact Or.inl (h.report htype hcampaign).smsOf_eq_nil
  | responded htype h => exact Or.inl (h.report htype).smsOf_eq_nil
  | activated htype hcampaign h =>
    cases h with
    | quiet | consumed _ _ | delayed _ _ | unsent _ _ _ => exact Or.inl rfl
    | overflowed hctx hcmd hslot h => exact Or.inl h.smsOf_eq_nil
    | sent msg origin hctx hcmd hpass hmsg horigin houts =>
      obtain ⟨hid, hcard, rfl⟩ := hmsg
      refine Or.inr ⟨msg, origin, ?_, hid, htype, hcard, hcampaign⟩
      rcases houts with rfl | rfl <;> rfl

theorem outputsOf_append (trace trace' : List TraceEvent) :
    outputsOf (trace ++ trace') = outputsOf trace ++ outputsOf trace' :=
  filterMap_append

theorem outputsOf_handled (ev : CardEvent) (answered : Option UUID) (outs : List Output) :
    outputsOf (.handled ev answered :: outs.map .output) = outs := by
  rw [outputsOf, filterMap_cons_none rfl, filterMap_map]
  exact filterMap_some

/-- The trace event is neither a call nor an output. -/
def TraceEvent.isSilent : TraceEvent → Prop
  | .moved _ | .finished _ _ => True
  | .handled _ _ | .output _ => False

theorem outputsOf_of_silent {trace : List TraceEvent} (h : ∀ e ∈ trace, e.isSilent) :
    outputsOf trace = [] := by
  rw [outputsOf, filterMap_eq_nil_iff]
  intro e he
  cases e with
  | output out => exact absurd (h _ he) id
  | _ => rfl

namespace Engine

variable (cfg : EngineConfig)

/-- The campaign an event is handled for: its own, or that of the card state. -/
def eventCampaign (s : Engine) (ev : CardEvent) (ans : Answers) : Option UUID :=
  ev.campaignID <|> (s.process.found ev.cardID ans.row).map CardState.campaignID

/-- The messages published so far, with what they were built from. -/
def published (s : Engine) : List (SendSMSMessage × PacketOrigin) := smsOf (outputsOf s.trace)

/-- The transitions emitted so far. -/
def emitted (s : Engine) : List CardStateChange := changesOf (outputsOf s.trace)

/-- The transitions so far, those of the control plane included, as the rows they are stored as. -/
def transitions (s : Engine) : List ExecutionRow :=
  s.trace.filterMap fun
    | .output (.change ch) => some ch.toRow
    | .moved row => some row
    | _ => none

/-- The last transition of a card in a campaign. -/
def last (s : Engine) (pair : UUID × UUID) : Option ExecutionRow :=
  Ledger.lastOf ExecutionRow.pair s.transitions pair

/-- The cards that had a transition, with their campaigns. -/
def pairs (s : Engine) : Finset (UUID × UUID) := Ledger.keysOf ExecutionRow.pair s.transitions

/-- What a `SELECT` for the state of a card may return. -/
def Selectable (s : Engine) (cardID : UUID) : Except String (Option ExecutionRow) → Prop
  | .ok row => isSelected s.tables.executionStates cardID row
  | .error _ => True

/-- What the outside may answer to a call. -/
def Answerable (s : Engine) (ev : CardEvent) (ans : Answers) : Prop :=
  s.Selectable ev.cardID ans.row ∧
  (match s.eventCampaign ev ans, ans.context with
    | some c, .ok ctx => ctx = cfg.contexts c
    | _, _ => True) ∧
  ans.msgID ∉ s.published.map fun p ↦ p.1.msgID

def Enabled (s : Engine) : EngineAction → Prop
  | .plan ev => ev.type = .activate
  | .release ev => ev ∈ s.delayed
  | .handle ev ans _ => (ev.type = .activate → ev ∈ s.activateCh) ∧ s.Answerable cfg ev ans
  | .lookup cardID row => s.Selectable cardID row
  | .flush batch _ => batch.Subperm s.stateCh
  | _ => True

instance (s : Engine) (cardID : UUID) (row : Except String (Option ExecutionRow)) :
    Decidable (s.Selectable cardID row) := by
  unfold Selectable
  cases row <;> infer_instance

instance (s : Engine) (ev : CardEvent) (ans : Answers) : Decidable (s.Answerable cfg ev ans) := by
  unfold Answerable
  refine @instDecidableAnd _ _ inferInstance (@instDecidableAnd _ _ ?_ inferInstance)
  cases s.eventCampaign ev ans <;> cases ans.context <;> infer_instance

instance (s : Engine) (a : EngineAction) : Decidable (s.Enabled cfg a) := by
  unfold Enabled
  cases a <;> infer_instance

def handle (s : Engine) (ev : CardEvent) (ans : Answers) (answered : Option UUID) : Engine :=
  let r := (handleCardEvent cfg.lib cfg.cryptoProvider ans ev).run workerSemantics s.process
  { s with
    process := r.state
    stateCh := s.stateCh ++ changesOf r.outputs
    activateCh := (if ev.type = .activate then s.activateCh.erase ev else s.activateCh) ++
      eventsOf r.outputs
    delayed := s.delayed ++ delayedOf r.outputs
    trace := s.trace ++ .handled ev answered :: r.outputs.map .output }

/-- The engine after a shard was loaded: keys first, then counters. `keys` is what the database
returns for the cards, `none` when it fails, and then the counters are not loaded either. -/
def preloadShard (s : Engine) (campaignID : UUID) (cardIDs : List UUID)
    (keys : Option (List (UUID × CardKeyMaterial))) (rows : Option (List (UUID × ℤ))) : Engine :=
  match keys with
  | none => s
  | some keys =>
    let c := Counters.preloadShard ⟨s.process.counters, s.cardCounters, s.campaignMeta⟩
      campaignID cardIDs rows
    { s with
      process := { s.process with
        counters := c.store
        cardKeyCache := keys.foldl (fun cache kv ↦ update cache kv.1 (some kv.2))
          s.process.cardKeyCache }
      cardCounters := c.table
      campaignMeta := c.campaignMeta }

/-- The transitions that a control-plane statement made: the rows it appended. -/
def movedBy (before after : StateTables) : List TraceEvent :=
  (after.executionStates.drop before.executionStates.length).map .moved

def control (s : Engine) (tables : StateTables) : Engine :=
  { s with tables := tables, trace := s.trace ++ movedBy s.tables tables }

/-- One campaign in a tick of the completion checker. -/
def check (s : Engine) (campaignID : UUID) : Engine :=
  match s.campaignStatus campaignID, s.tables.campaignStats campaignID with
  | some .running, some stats =>
    match completionStatus stats with
    | none => s
    | some status => { s with
        campaignStatus := update s.campaignStatus campaignID (some status)
        trace := s.trace ++ [.finished campaignID status] }
  | _, _ => s

def next (s : Engine) : EngineAction → Engine
  | .plan ev => { s with activateCh := s.activateCh ++ [ev] }
  | .release ev => { s with
      activateCh := s.activateCh ++ [ev]
      delayed := s.delayed.erase ev }
  | .handle ev ans answered => s.handle cfg ev ans answered
  | .lookup cardID row => { s with
      process := { s.process with states := s.process.states.fetch cardID (selectedRow row) } }
  | .flush batch copyWorks => { s with
      tables := writeCardStateBatch copyWorks s.tables batch
      stateCh := s.stateCh.diff batch }
  | .preloadShard campaignID cardIDs keys rows => s.preloadShard campaignID cardIDs keys rows
  | .initCampaign campaignID cardIDs step updatedAt =>
    s.control (initializeCampaign s.tables campaignID cardIDs step updatedAt)
  | .reset campaignID cardIDs step updatedAt =>
    s.control ((resetFailedCards s.tables campaignID cardIDs step updatedAt).getD s.tables)
  | .abort campaignID updatedAt => s.control (abortCampaign s.tables campaignID updatedAt)
  | .check campaignID => s.check campaignID

end Engine

/-- The engine as a transition system. -/
def engine (cfg : EngineConfig) : Machine Engine EngineAction where
  Enabled := Engine.Enabled cfg
  next := Engine.next cfg

instance (cfg : EngineConfig) (s : Engine) (a : EngineAction) :
    Decidable ((engine cfg).Enabled s a) :=
  inferInstanceAs (Decidable (s.Enabled cfg a))

/-! ## A plain deployment

Concrete runs use an engine that has just started and a packet layer without cryptography. -/

/-- The packet is the counter and the command; a response starts with its status. -/
def plainPackets : SecuredPackets where
  buildCommandPacket _ input := .ok (input.counter ++ input.userData)
  parseResponsePacket _ raw _ _ :=
    match raw with
    | [] => .error "empty response"
    | status :: data => .ok ⟨[], [], 0, status, [], data⟩

/-- An engine that has just started, on an empty database. -/
def Engine.new (campaignStatus : UUID → Option CampaignStatus) : Engine where
  process := ⟨⟨fun _ _ ↦ ⟨UUID.ofDigit 0, 0, .pending, 0, none, none, 0⟩, fun _ ↦ 0,
    fun _ ↦ none, fun _ _ h ↦ absurd h (Option.some_ne_none _).symm⟩, CounterStore.new,
    fun _ ↦ none⟩
  tables := ⟨[], fun _ ↦ none⟩
  cardCounters _ _ := none
  campaignMeta _ := none
  campaignStatus := campaignStatus
  stateCh := []
  activateCh := []
  delayed := []
  trace := []

/-- Commands at the given steps that expect a response, with at most so many attempts. -/
def plainContext (steps : List ℤ) (maxRetries : ℤ) : CampaignContext :=
  ⟨steps.map fun step ↦ { sequence := step, applicationID := .ofDigit 2, expectResponse := true },
    { maxRetries := maxRetries }⟩

/-- All campaigns have the same commands. -/
def plainConfig (ctx : CampaignContext) : EngineConfig := ⟨plainPackets, false, fun _ ↦ ctx⟩

def plainActivate (cardID campaignID : UUID) : CardEvent :=
  { type := .activate, eventID := .ofDigit 0, cardID := cardID, campaignID := some campaignID
    step := 1 }

/-- A response with status zero. -/
def plainResponse (cardID campaignID : UUID) : CardEvent :=
  { type := .moReceived, eventID := .ofDigit 0, cardID := cardID, campaignID := some campaignID
    payloadHex := "00" }

/-- A delivery report of a message. -/
def plainReport (cardID campaignID msgID : UUID) (status : DLRStatus) : CardEvent :=
  { type := .dlrReceived, eventID := .ofDigit 0, cardID := cardID, campaignID := some campaignID
    msgID := some msgID, dlrStatus := status }

/-- A call in which nothing fails. -/
def Answers.plain (ctx : CampaignContext) (msgID : UUID)
    (row : Option ExecutionRow := none) : Answers where
  context := .ok ctx
  msgID := msgID
  eventID := msgID
  logID := msgID
  row := .ok row

/-! ## What a handler call does to the engine -/

variable (cfg : EngineConfig) (s : Engine)

namespace Engine

/-- The engine after a handler call with the given effect on its card. -/
structure Handles (s s' : Engine) (ev : CardEvent) (answered : Option UUID)
    (after : Option CardState) (outs : List Output) (counters : CounterStore) : Prop where
  cardState : s'.process.cardState = update s.process.cardState ev.cardID after
  counters_eq : s'.process.counters = counters
  stateCh : s'.stateCh = s.stateCh ++ changesOf outs
  /-- An activation is taken from its channel, the published ones are added. -/
  activateCh : s'.activateCh =
    (if ev.type = .activate then s.activateCh.erase ev else s.activateCh) ++ eventsOf outs
  delayed : s'.delayed = s.delayed ++ delayedOf outs
  /-- The history, up to message log entries. -/
  trace : ∃ raw, visible raw = outs ∧
    s'.trace = s.trace ++ .handled ev answered :: raw.map .output
  tables : s'.tables = s.tables
  cardCounters : s'.cardCounters = s.cardCounters
  campaignStatus : s'.campaignStatus = s.campaignStatus

section Handles

variable {s s' : Engine} {ev : CardEvent} {answered : Option UUID} {after : Option CardState}
  {outs : List Output} {counters : CounterStore}

variable (h : Handles s s' ev answered after outs counters)

include h

theorem Handles.published_eq : s'.published = s.published ++ smsOf outs := by
  obtain ⟨raw, hraw, htrace⟩ := h.trace
  rw [published, htrace, outputsOf_append, outputsOf_handled, smsOf_append, smsOf_visible raw,
    hraw, published]

theorem Handles.emitted_eq : s'.emitted = s.emitted ++ changesOf outs := by
  obtain ⟨raw, hraw, htrace⟩ := h.trace
  rw [emitted, htrace, outputsOf_append, outputsOf_handled, changesOf_append,
    changesOf_visible raw, hraw, emitted]

theorem Handles.transitions_eq :
    s'.transitions = s.transitions ++ (changesOf outs).map CardStateChange.toRow := by
  obtain ⟨raw, hraw, htrace⟩ := h.trace
  rw [transitions, htrace, filterMap_append, filterMap_cons_none rfl,
    filterMap_map, transitions, ← hraw, ← changesOf_visible, changesOf, map_filterMap]
  refine congrArg _ (filterMap_congr fun out _ ↦ ?_)
  cases out <;> rfl

end Handles

theorem handles_of_leaves {cfg : EngineConfig} {s : Engine} {ev : CardEvent} {ans : Answers}
    {outs : List Output} {counters : CounterStore}
    (h : Leaves s.process ev.cardID ((handleCardEvent cfg.lib cfg.cryptoProvider ans ev).run
      workerSemantics s.process) after outs counters) (answered : Option UUID) :
    Handles s (s.handle cfg ev ans answered) ev answered after outs counters := by
  refine ⟨h.cardState, h.counters_eq, ?_, ?_, ?_, ⟨_, h.outputs, rfl⟩, rfl, rfl, rfl⟩
  · rw [handle, changesOf_visible, h.outputs]
  · rw [handle, eventsOf_visible, h.outputs]
  · rw [handle, delayedOf_visible, h.outputs]

/-- **The outcomes of a handler call.** -/
theorem handle_cases (ev : CardEvent) (ans : Answers) (answered : Option UUID) :
    ∃ after outs counters, EventOutcome s.process ans ev after outs counters ∧
      Handles s (s.handle cfg ev ans answered) ev answered after outs counters := by
  obtain ⟨after, outs, counters, hout, hleaves⟩ :=
    handleCardEvent_outcome s.process cfg.lib cfg.cryptoProvider ans ev
  exact ⟨after, outs, counters, hout, handles_of_leaves hleaves answered⟩

theorem Selectable.mem {s : Engine} {cardID : UUID} {row : Except String (Option ExecutionRow)}
    (h : s.Selectable cardID row) {r : ExecutionRow} (hr : selectedRow row = some r) :
    r ∈ s.tables.executionStates ∧ r.cardID = cardID ∧
      ∀ r' ∈ s.tables.executionStates, r'.cardID = cardID → r'.transitionSeq ≤ r.transitionSeq := by
  cases row with
  | error err => exact absurd hr.symm (Option.some_ne_none r)
  | ok row =>
    obtain rfl : row = some r := hr
    exact h

theorem cardState_lookup (cardID : UUID) (row : Except String (Option ExecutionRow)) :
    (s.next cfg (.lookup cardID row)).process.cardState
      = update s.process.cardState cardID (s.process.found cardID row) :=
  CardStateStore.cardState_fetch _ _ _

theorem outputsOf_control (tables : StateTables) :
    outputsOf (s.control tables).trace = outputsOf s.trace := by
  have hmoved : outputsOf (movedBy s.tables tables) = [] :=
    outputsOf_of_silent (forall_mem_map.mpr fun _ _ ↦ trivial)
  rw [control, outputsOf_append, hmoved, append_nil]

theorem transitions_control {tables : StateTables} {rows : List ExecutionRow}
    (hrows : tables.executionStates = s.tables.executionStates ++ rows) :
    (s.control tables).transitions = s.transitions ++ rows := by
  rw [control, transitions, filterMap_append, movedBy, hrows, drop_left, filterMap_map, transitions]
  exact congrArg _ filterMap_some

theorem process_check (campaignID : UUID) : (s.check campaignID).process = s.process := by
  unfold check
  split
  · split <;> rfl
  · rfl

theorem transitions_check (campaignID : UUID) :
    (s.check campaignID).transitions = s.transitions := by
  unfold check
  split
  · split
    · rfl
    · rw [transitions, filterMap_append]
      exact append_nil _
  · rfl

theorem outputsOf_check (campaignID : UUID) :
    outputsOf (s.check campaignID).trace = outputsOf s.trace := by
  unfold check
  split
  · split
    · rfl
    · rw [outputsOf_append]
      exact append_nil _
  · rfl

theorem exists_trace_next {a : EngineAction} (ha : ∀ ev ans answered, a ≠ .handle ev ans answered) :
    ∃ more, (s.next cfg a).trace = s.trace ++ more ∧ ∀ e ∈ more, e.isSilent := by
  have hcontrol : ∀ tables, ∃ more, (s.control tables).trace = s.trace ++ more ∧
      ∀ e ∈ more, e.isSilent :=
    fun tables ↦ ⟨movedBy s.tables tables, rfl, forall_mem_map.mpr fun _ _ ↦ trivial⟩
  have hsame : ∀ {t : Engine}, t.trace = s.trace → ∃ more, t.trace = s.trace ++ more ∧
      ∀ e ∈ more, e.isSilent :=
    fun htrace ↦ ⟨[], htrace.trans (append_nil _).symm, forall_mem_nil _⟩
  cases a with
  | handle ev ans answered => exact absurd rfl (ha ev ans answered)
  | plan _ | release _ | lookup _ _ | flush _ _ => exact hsame rfl
  | preloadShard campaignID cardIDs keys rows => cases keys <;> exact hsame rfl
  | initCampaign _ _ _ _ | reset _ _ _ _ | abort _ _ => exact hcontrol _
  | check campaignID =>
    rw [next, check]
    split
    · split
      · exact hsame rfl
      · exact ⟨[.finished campaignID _], rfl, forall_mem_singleton.mpr trivial⟩
    · exact hsame rfl

theorem outputsOf_next {a : EngineAction} (ha : ∀ ev ans answered, a ≠ .handle ev ans answered) :
    outputsOf (s.next cfg a).trace = outputsOf s.trace := by
  obtain ⟨more, htrace, hmore⟩ := exists_trace_next cfg s ha
  rw [htrace, outputsOf_append, outputsOf_of_silent hmore, append_nil]

end Engine

end OtaPlatform
