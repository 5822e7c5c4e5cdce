import OtaPlatform.Executor.Worker

/-!
# The event handlers of the card worker

The three handlers as programs over the operations on the process state. Every use of the shared
state object is an operation of its own, in the order of the source: the handlers hold a pointer,
and what they read through it later may have been changed by another handler.
-/

namespace OtaPlatform

/-! ## The process and its operations -/

/-- The state of the process that the handlers share. -/
structure Process where
  /-- The card states of the coordination store. -/
  states : CardStateStore
  counters : CounterStore
  cardKeyCache : UUID → Option CardKeyMaterial

inductive Output
  | sms (msg : SendSMSMessage) (origin : PacketOrigin)
  | event (ev : CardEvent)
  /-- An event that a timer will send. -/
  | delayed (ev : CardEvent)
  | change (ch : CardStateChange)
  | log (action : MessageLogAction)
deriving DecidableEq, Repr

inductive WorkerOp
  | getCardState (cardID : UUID) (row : Except String (Option ExecutionRow))
  | load (cardID : UUID) (ref : ℕ)
  | setStatus (cardID : UUID) (ref : ℕ) (status : CardStatus)
  | nextSeq (cardID : UUID) (ref : ℕ)
  | setCardState (cardID : UUID) (ref : ℕ)
  | setNewCardState (cardID : UUID) (state : CardState)
  | evictCardState (cardID : UUID)
  | getCounter (cardID applicationID : UUID)
  | incrCounter (cardID applicationID : UUID)
  | evictCounters (cardID : UUID)
  | cachedKeys (cardID : UUID)
  | cacheKeys (cardID : UUID) (keys : CardKeyMaterial)
  | evictKeys (cardID : UUID)
  | send (out : Output)

/-- The operations with their answers. -/
abbrev workerSignature : Signature where
  Op := WorkerOp
  Answer
    | .getCardState _ _ => Except String (Option ℕ)
    | .load _ _ => CardState
    | .nextSeq _ _ => ℤ
    | .getCounter _ _ => ℤ
    | .cachedKeys _ => Option CardKeyMaterial
    | _ => Unit

/-- The row a `SELECT` returned, if it returned one. -/
def selectedRow : Except String (Option ExecutionRow) → Option ExecutionRow
  | .ok row => row
  | .error _ => none

/-- The state object with the next sequence number. -/
def CardState.bump (state : CardState) : CardState :=
  { state with transitionSeq := state.transitionSeq + 1 }

def workerSemantics : Semantics workerSignature Process Output where
  answer s
    | .getCardState cardID row =>
      match s.states.cardStates cardID, row with
      | none, .error err => .error err
      | _, _ => .ok (s.states.getCardState cardID (selectedRow row))
    | .load cardID ref => s.states.objects cardID ref
    | .nextSeq cardID ref => (s.states.objects cardID ref).transitionSeq + 1
    | .getCounter cardID applicationID => s.counters.getCounter cardID applicationID
    | .cachedKeys cardID => s.cardKeyCache cardID
    | .setStatus _ _ _ | .setCardState _ _ | .setNewCardState _ _ | .evictCardState _
    | .incrCounter _ _ | .evictCounters _ | .cacheKeys _ _ | .evictKeys _ | .send _ => ()
  next s
    | .getCardState cardID row =>
      { s with states := s.states.fetch cardID (selectedRow row) }
    | .setStatus cardID ref status =>
      { s with states := s.states.modify cardID ref fun st ↦ { st with status := status } }
    | .nextSeq cardID ref => { s with states := s.states.modify cardID ref CardState.bump }
    | .setCardState cardID ref =>
      if h : ref < s.states.count cardID then
        { s with states := s.states.setCardState cardID ref h } else s
    | .setNewCardState cardID state => { s with states := s.states.setNew cardID state }
    | .evictCardState cardID => { s with states := s.states.evictCardState cardID }
    | .incrCounter cardID applicationID =>
      { s with counters := s.counters.incrCounter cardID applicationID }
    | .evictCounters cardID => { s with counters := s.counters.evictCard cardID }
    | .cacheKeys cardID keys =>
      { s with cardKeyCache := Function.update s.cardKeyCache cardID (some keys) }
    | .evictKeys cardID => { s with cardKeyCache := Function.update s.cardKeyCache cardID none }
    | .load _ _ | .getCounter _ _ | .cachedKeys _ | .send _ => s
  output _
    | .send out => [out]
    | _ => []

abbrev Worker := Program workerSignature

namespace Worker

def getCardState (cardID : UUID) (row : Except String (Option ExecutionRow)) :
    Worker (Except String (Option ℕ)) := .op (E := workerSignature) (.getCardState cardID row)

def load (cardID : UUID) (ref : ℕ) : Worker CardState :=
  .op (E := workerSignature) (.load cardID ref)

def setStatus (cardID : UUID) (ref : ℕ) (status : CardStatus) : Worker Unit :=
  .op (E := workerSignature) (.setStatus cardID ref status)

/-- Increments and returns the next sequence number of a state object, in place. -/
def nextSeq (cardID : UUID) (ref : ℕ) : Worker ℤ :=
  .op (E := workerSignature) (.nextSeq cardID ref)

def setCardState (cardID : UUID) (ref : ℕ) : Worker Unit :=
  .op (E := workerSignature) (.setCardState cardID ref)

def setNewCardState (cardID : UUID) (state : CardState) : Worker Unit :=
  .op (E := workerSignature) (.setNewCardState cardID state)

def evictCardState (cardID : UUID) : Worker Unit :=
  .op (E := workerSignature) (.evictCardState cardID)

def getCounter (cardID applicationID : UUID) : Worker ℤ :=
  .op (E := workerSignature) (.getCounter cardID applicationID)

def incrCounterAsync (cardID applicationID : UUID) : Worker Unit :=
  .op (E := workerSignature) (.incrCounter cardID applicationID)

def evictCounters (cardID : UUID) : Worker Unit :=
  .op (E := workerSignature) (.evictCounters cardID)

def cachedKeys (cardID : UUID) : Worker (Option CardKeyMaterial) :=
  .op (E := workerSignature) (.cachedKeys cardID)

def cacheKeys (cardID : UUID) (keys : CardKeyMaterial) : Worker Unit :=
  .op (E := workerSignature) (.cacheKeys cardID keys)

def evictKeys (cardID : UUID) : Worker Unit := .op (E := workerSignature) (.evictKeys cardID)

def send (out : Output) : Worker Unit := .op (E := workerSignature) (.send out)

end Worker

/-! ## The handlers -/

/-- What the outside answers during one call. -/
structure Answers where
  campaignStatus : Except String CampaignStatus := .ok .running
  context : Except String CampaignContext
  /-- The keys of the card, when they are not cached. -/
  keys : Except String CardKeyMaterial := .ok {}
  profile : Except String Profile := .ok { maxConcatSMS := 7, bufferSize := 180 }
  refNum : UInt8 := 0
  /-- The throttle lets the message pass. -/
  throttle : Except String Bool := .ok true
  retrySlot : Bool := true
  msgID : UUID
  eventID : UUID
  logID : UUID
  now : ℤ := 0
  /-- What the database has for the card, when its state is not cached. -/
  row : Except String (Option ExecutionRow) := .ok none
  /-- The error of publishing the message, if there is one. -/
  smsError : Option String := none
  eventError : Option String := none
  writeError : Option String := none

abbrev Handled := Except String Unit

open Worker

/-- The keys of a card, through the cache. -/
def loadCardKeys (ans : Answers) (cardID : UUID) :
    Worker (Except String CardKeyMaterial) := do
  match ← cachedKeys cardID with
  | some keys => return .ok keys
  | none =>
    match ans.keys with
    | .error err => return .error err
    | .ok keys => do
      cacheKeys cardID keys
      return .ok keys

/-- Removes a card from all process-local caches. -/
def evictCardCaches (cardID : UUID) : Worker Unit := do
  evictKeys cardID
  evictCounters cardID
  evictCardState cardID

/-- The activation a handler publishes. -/
def activation (ans : Answers) (cardID campaignID : UUID) (step retryCount : ℤ) : CardEvent where
  type := .activate
  eventID := ans.eventID
  cardID := cardID
  campaignID := campaignID
  step := step
  retryCount := retryCount
  timestamp := ans.now

def publishEvent (ans : Answers) (ev : CardEvent) : Worker Handled :=
  match ans.eventError with
  | some err => return .error err
  | none => do
    send (.event ev)
    return .ok ()

def writeCardState (ans : Answers) (ch : CardStateChange) : Worker Handled :=
  match ans.writeError with
  | some err => return .error ("write card state: " ++ err)
  | none => do
    send (.change ch)
    return .ok ()

/-- What the handlers do when a card is done: the new state, the transition and, unless writing it
failed, the eviction. -/
def finishCard (ans : Answers) (cardID : UUID) (state : CardState) (ch : CardStateChange) :
    Worker Handled := do
  setNewCardState cardID state
  match ← writeCardState ans ch with
  | .error err => return .error err
  | .ok () => do
    evictCardCaches cardID
    return .ok ()

/-- The loop that looks for the next command; `-1` is "none found". -/
def nextStepAfter (commands : List CampaignCommand) (step : ℤ) : ℤ :=
  commands.foldl (fun nextStep cmd ↦
    if cmd.sequence > step then
      if nextStep = -1 ∨ cmd.sequence < nextStep then cmd.sequence else nextStep
    else nextStep) (-1)

/-- Publishes the next step activation or marks the card as completed. -/
def advanceOrComplete (ans : Answers) (cardID campaignID : UUID) (step : ℤ)
    (commands : List CampaignCommand) (ref : ℕ) : Worker Handled :=
  if nextStepAfter commands step = -1 then do
    let seq ← nextSeq cardID ref
    finishCard ans cardID
      { campaignID := campaignID, status := .completed, transitionSeq := seq }
      { campaignID := campaignID, cardID := cardID, status := .completed, timestamp := ans.now
        transitionSeq := seq, statsFrom := .inProgress, statsTo := .completed }
  else
    publishEvent ans (activation ans cardID campaignID (nextStepAfter commands step) 0)

/-- Marks a card as failed: the state keeps the step and the message, the transition carries the
error, and the number of retries where the handler fills it in. -/
def failCard (ans : Answers) (event : CardEvent) (campaignID : UUID) (ref : ℕ) (retries : ℤ)
    (errDesc : String) (carriesRetries : Bool) (statsFrom : CardStatus) : Worker Handled := do
  let seq ← nextSeq event.cardID ref
  let state ← load event.cardID ref
  finishCard ans event.cardID
    { campaignID := campaignID, currentStep := state.currentStep, status := .failed
      retryCount := state.retryCount + retries, lastMsgID := state.lastMsgID
      lastEventID := event.eventID, transitionSeq := seq }
    { campaignID := campaignID, cardID := event.cardID, status := .failed
      retryCount := if carriesRetries then state.retryCount + retries else 0
      lastError := errDesc, timestamp := ans.now, transitionSeq := seq
      statsFrom := statsFrom, statsTo := .failed }

/-- A retry that found no free timer fails the card, if it is still under way. -/
def overflowRetry (ans : Answers) (event : CardEvent) (campaignID : UUID) (reason : String) :
    Worker Unit := do
  match ← getCardState event.cardID ans.row with
  | .error _ | .ok none => return ()
  | .ok (some ref) => do
    let current ← load event.cardID ref
    if current.campaignID ≠ campaignID then return ()
    else if current.status.isTerminal then return ()
    else do
      let overflowSeq ← nextSeq event.cardID ref
      let _ ← writeCardState ans
        { campaignID := campaignID, cardID := event.cardID, status := .failed
          lastError := "retry_scheduler_overflow: " ++ reason, timestamp := ans.now
          transitionSeq := overflowSeq, statsFrom := .inProgress, statsTo := .failed }
      setNewCardState event.cardID
        { campaignID := campaignID, status := .failed, transitionSeq := overflowSeq }
      evictCardCaches event.cardID

/-- Starts a timer that publishes the activation again. -/
def scheduleActivateRetry (ans : Answers) (event : CardEvent) (campaignID : UUID)
    (reason : String) : Worker Unit :=
  if ans.retrySlot then send (.delayed event)
  else overflowRetry ans event campaignID reason

/-- The campaign has a rate limit and the throttle refuses the message. A failing throttle lets it
pass. -/
def throttled (ans : Answers) (params : CampaignParams) : Bool :=
  match params.throttleSMSPerSec, ans.throttle with
  | some n, .ok allowed => n > 0 && !allowed
  | _, _ => false

/-- The state of a card whose command is about to be published. -/
def activateState (ans : Answers) (event : CardEvent) (campaignID : UUID) : CardState where
  campaignID := campaignID
  currentStep := event.step
  status := .awaitingDlr
  retryCount := event.retryCount
  lastMsgID := ans.msgID
  lastEventID := event.eventID
  transitionSeq := 1

/-- The transition of a card whose command was published. -/
def activateChange (ans : Answers) (event : CardEvent) (campaignID : UUID) : CardStateChange where
  campaignID := campaignID
  cardID := event.cardID
  status := .inProgress
  currentStep := event.step
  retryCount := event.retryCount
  lastMsgID := ans.msgID
  timestamp := ans.now
  transitionSeq := (activateState ans event campaignID).transitionSeq
  statsFrom := .pending
  statsTo := .inProgress

/-- The message to the gateway: international numbering, with a user data header. -/
def smsMessage (ans : Answers) (event : CardEvent) (campaignID : UUID)
    (cardKeys : CardKeyMaterial) (profile : Profile) (parts : List Bytes) : SendSMSMessage where
  msgID := ans.msgID
  campaignID := campaignID
  cardID := event.cardID
  msisdn := cardKeys.msisdn
  ton := 1
  npi := 1
  dataCoding := lowByte profile.dcs
  protocolID := lowByte profile.pid
  esmClass := 0x40
  parts := parts.mapIdx fun i p ↦ ⟨i + 1, parts.length, 0, p⟩

def commandLogEntry (ans : Answers) (event : CardEvent) (campaignID : UUID)
    (cmd : CampaignCommand) (counterVal : ℤ) (packet : Bytes) (status : String) :
    MessageLogEntry where
  id := ans.msgID
  campaignID := campaignID
  cardID := event.cardID
  direction := "MT"
  createdAt := ans.now
  rawPayload := cmd.script
  securedPayload := packet
  counterHex := hexEncode (counterBytes counterVal)
  status := status

/-- The last part of `handleActivate`: the state, the message, its log entry and the transition. The
state is set before the message is published, so that a report finds it. -/
def sendCommand (ans : Answers) (event : CardEvent) (campaignID : UUID) (cmd : CampaignCommand)
    (cardKeys : CardKeyMaterial) (profile : Profile) (counterVal : ℤ) (packet : Bytes)
    (parts : List Bytes) : Worker Handled := do
  setNewCardState event.cardID (activateState ans event campaignID)
  match ans.smsError with
  | some err => do
    send (.log (.create
      (commandLogEntry ans event campaignID cmd counterVal packet "send_failed")))
    return .error ("publish SMS to kafka: " ++ err)
  | none => do
    send (.sms (smsMessage ans event campaignID cardKeys profile parts)
      ⟨event.step, cmd.applicationID, counterVal, counterBytes counterVal⟩)
    send (.log (.create (commandLogEntry ans event campaignID cmd counterVal packet "sent")))
    writeCardState ans (activateChange ans event campaignID)

def commandInput (cryptoProvider : Bool) (event : CardEvent) (cmd : CampaignCommand)
    (cardKeys : CardKeyMaterial) (counterVal : ℤ) : CommandPacketInput :=
  if cryptoProvider then
    { tar := tarBytes cmd.tar, counter := counterBytes counterVal, userData := cmd.script
      cardID := event.cardID }
  else
    { tar := tarBytes cmd.tar, counter := counterBytes counterVal, userData := cmd.script
      cipheringKey := cardKeys.encKey, signingKey := cardKeys.authKey }

/-- The part of `handleActivate` after the counter was taken: build and frame the packet, then send
it unless the throttle refuses. -/
def frameCommand (lib : SecuredPackets) (cryptoProvider : Bool) (ans : Answers)
    (event : CardEvent) (campaignID : UUID) (ctx : CampaignContext) (cmd : CampaignCommand)
    (cardKeys : CardKeyMaterial) (counterVal : ℤ) : Worker Handled :=
  match lib.buildCommandPacket (buildSecProfileFromCache cmd)
      (commandInput cryptoProvider event cmd cardKeys counterVal) with
  | .error err => return .error ("build command packet: " ++ err)
  | .ok packet =>
    match ans.profile with
    | .error err => return .error ("load profile: " ++ err)
    | .ok profile =>
      match splitForConcat ans.refNum packet profile.bufferSize
          (ctx.params.maxConcatOverride.getD profile.maxConcatSMS) with
      | .error err => return .error ("split for concat: " ++ err)
      | .ok parts =>
        if throttled ans ctx.params then do
          scheduleActivateRetry ans
            (activation ans event.cardID campaignID event.step event.retryCount)
            campaignID "throttle"
          return .ok ()
        else sendCommand ans event campaignID cmd cardKeys profile counterVal packet parts

/-- Builds and sends the OTA command for the given card step. -/
def handleActivate (lib : SecuredPackets) (cryptoProvider : Bool) (ans : Answers)
    (event : CardEvent) (campaignID : UUID) : Worker Handled :=
  match ans.campaignStatus with
  | .error err => return .error ("get campaign status: " ++ err)
  | .ok status =>
    if status ≠ .running then return .ok ()
    else match ans.context with
    | .error err => return .error ("load campaign context: " ++ err)
    | .ok ctx =>
      match ctx.commandByStep event.step with
      | none => return .error ("no command found at sequence " ++ toString event.step ++
          " for campaign " ++ campaignID.text)
      | some cmd => do
        match ← loadCardKeys ans event.cardID with
        | .error err => return .error ("get card keys: " ++ err)
        | .ok cardKeys => do
          let counterVal ← getCounter event.cardID cmd.applicationID
          incrCounterAsync event.cardID cmd.applicationID
          frameCommand lib cryptoProvider ans event campaignID ctx cmd cardKeys counterVal

/-- The message log update of a delivery report that names its message. -/
def logDLR (event : CardEvent) : Worker Unit :=
  match event.msgID with
  | none => return ()
  | some msgID => send (.log (.update msgID (.dlr event.dlrStatus event.smppMessageID)))

/-- The `DELIVRD` branch of `handleDLR`: wait for the response, or go on. -/
def deliveredDLR (ans : Answers) (event : CardEvent) (campaignID : UUID) (ref : ℕ) :
    Worker Handled :=
  match ans.context with
  | .error err => return .error ("load campaign context: " ++ err)
  | .ok ctx => do
    let state ← load event.cardID ref
    if (ctx.commandByStep state.currentStep).any (·.expectResponse) then do
      setStatus event.cardID ref .awaitingMo
      let _ ← nextSeq event.cardID ref
      setCardState event.cardID ref
      return .ok ()
    else advanceOrComplete ans event.cardID campaignID event.step ctx.commands ref

/-- The failure branch of `handleDLR`: try again, or give up. -/
def failedDLR (ans : Answers) (event : CardEvent) (campaignID : UUID) (ref : ℕ) :
    Worker Handled :=
  match ans.context with
  | .error err => return .error ("load campaign context: " ++ err)
  | .ok ctx => do
    let state ← load event.cardID ref
    if state.retryCount + 1 < ctx.params.maxRetries then
      publishEvent ans
        (activation ans event.cardID campaignID state.currentStep (state.retryCount + 1))
    else
      failCard ans event campaignID ref 1
        ("DLR status: " ++ event.dlrStatus.text ++ " (error_code: " ++ event.errorCode ++ ")")
        true .inProgress

/-- The part of `handleDLR` that moves the card, by the status of the report. -/
def actOnDLR (ans : Answers) (event : CardEvent) (campaignID : UUID) (ref : ℕ) :
    Worker Handled :=
  match event.dlrStatus with
  | .delivrd => deliveredDLR ans event campaignID ref
  | .failedPartialSubmit =>
    failCard ans event campaignID ref 0
      ("submit failed after partial accept: " ++ event.errorCode) false .pending
  | .failedSubmit | .failed | .undeliv | .expired | .deleted | .rejectd =>
    failedDLR ans event campaignID ref
  | .other _ => return .ok ()

/-- Processes a delivery report event. -/
def handleDLR (ans : Answers) (event : CardEvent) (campaignID : UUID) : Worker Handled := do
  match ← getCardState event.cardID ans.row with
  | .error err => return .error ("get card state: " ++ err)
  | .ok none => return .error ("DLR for card " ++ event.cardID.text ++
      ": no card state in Redis (activate may still be in progress)")
  | .ok (some ref) => do
    let state ← load event.cardID ref
    if state.status ≠ .awaitingDlr ∧ state.status ≠ .inProgress ∧ state.status ≠ .awaitingMo then
      return .ok ()
    else do
      logDLR event
      -- the response may have been handled in the meantime
      let state ← load event.cardID ref
      if state.status ≠ .awaitingDlr ∧ state.status ≠ .inProgress then return .ok ()
      else actOnDLR ans event campaignID ref

/-- The message log update of a response to the last message. -/
def logPoR (lastMsgID : Option UUID) (resp : ResponsePacket) : Worker Unit :=
  match lastMsgID with
  | none => return ()
  | some msgID => send (.log (.update msgID (.por resp.statusCode resp.data)))

/-- The part of `handleMO` after the response was parsed: log it, then go on or fail the card. -/
def actOnMO (ans : Answers) (event : CardEvent) (campaignID : UUID) (ref : ℕ)
    (ctx : CampaignContext) (payloadBytes : Bytes) (resp : ResponsePacket) : Worker Handled := do
  send (.log (.create
    { id := ans.logID, campaignID := campaignID, cardID := event.cardID, direction := "MO"
      createdAt := ans.now, rawPayload := payloadBytes, status := "received" }))
  let state ← load event.cardID ref
  logPoR state.lastMsgID resp
  if resp.statusCode = respOK then do
    let state ← load event.cardID ref
    advanceOrComplete ans event.cardID campaignID state.currentStep ctx.commands ref
  else
    failCard ans event campaignID ref 0
      ("PoR error: status_code=" ++ hexByte resp.statusCode ++ " (" ++
        porStatusDescription resp.statusCode ++ ")") false .inProgress

/-- The part of `handleMO` that parses the response, with the command of the current step. -/
def parseMO (lib : SecuredPackets) (ans : Answers) (event : CardEvent) (campaignID : UUID)
    (ref : ℕ) (cardKeys : CardKeyMaterial) : Worker Handled :=
  match hexDecode event.payloadHex with
  | .error err => return .error ("decode MO payload hex: " ++ err)
  | .ok payloadBytes =>
    match ans.context with
    | .error err => return .error ("load campaign context: " ++ err)
    | .ok ctx => do
      let state ← load event.cardID ref
      match ctx.commandByStep state.currentStep with
      | none => return .error ("no command found at sequence " ++ toString state.currentStep ++
          " for campaign " ++ campaignID.text)
      | some currentCmd =>
        match lib.parseResponsePacket (buildSecProfileFromCache currentCmd) payloadBytes
            cardKeys.encKey cardKeys.authKey with
        | .error err => return .error ("parse response packet: " ++ err)
        | .ok resp => actOnMO ans event campaignID ref ctx payloadBytes resp

/-- Processes a mobile-originated response. -/
def handleMO (lib : SecuredPackets) (ans : Answers) (event : CardEvent) : Worker Handled := do
  match ← getCardState event.cardID ans.row with
  | .error err => return .error ("get card state: " ++ err)
  | .ok none => return .error ("MO for card " ++ event.cardID.text ++
      ": no card state in Redis (activate may still be in progress)")
  | .ok (some ref) => do
    let state ← load event.cardID ref
    if state.status ≠ .awaitingMo ∧ state.status ≠ .awaitingDlr then return .ok ()
    else do
      let campaignID := event.campaignID.getD state.campaignID
      match ← loadCardKeys ans event.cardID with
      | .error err => return .error ("get card keys: " ++ err)
      | .ok cardKeys => parseMO lib ans event campaignID ref cardKeys

/-- Dispatches an event that is not a duplicate; a failing duplicate check does not stop it. An
activation or a delivery report always names its campaign; without one the status or context lookup
fails. -/
def handleCardEvent (lib : SecuredPackets) (cryptoProvider : Bool) (ans : Answers)
    (event : CardEvent) : Worker Handled :=
  match checkAndSetDedupe event.eventID with
  | .ok false => return .ok ()
  | .ok true | .error _ =>
    match event.type, event.campaignID with
    | .activate, some campaignID => handleActivate lib cryptoProvider ans event campaignID
    | .dlrReceived, some campaignID => handleDLR ans event campaignID
    | .moReceived, _ => handleMO lib ans event
    | _, none => return .error "campaign not found"

section Dispatch

variable (lib : SecuredPackets) (cryptoProvider : Bool) (ans : Answers) {event : CardEvent}
  {campaignID : UUID}

theorem handleCardEvent_activate (htype : event.type = .activate)
    (hcampaign : event.campaignID = some campaignID) : handleCardEvent lib cryptoProvider ans event
      = handleActivate lib cryptoProvider ans event campaignID := by
  simp only [handleCardEvent, checkAndSetDedupe, htype, hcampaign]

theorem handleCardEvent_dlr (htype : event.type = .dlrReceived)
    (hcampaign : event.campaignID = some campaignID) :
    handleCardEvent lib cryptoProvider ans event = handleDLR ans event campaignID := by
  simp only [handleCardEvent, checkAndSetDedupe, htype, hcampaign]

theorem handleCardEvent_mo (htype : event.type = .moReceived) :
    handleCardEvent lib cryptoProvider ans event = handleMO lib ans event := by
  simp only [handleCardEvent, checkAndSetDedupe, htype]

end Dispatch

end OtaPlatform
