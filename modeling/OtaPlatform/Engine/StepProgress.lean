import OtaPlatform.Engine.NextStep
import OtaPlatform.Transport.Gateway

/-!
# Progress through the commands of a campaign

A card that answers everything should get each command once, in order, and then be completed. The
step a card is at travels by two routes: a response is handled with the step of the card state, a
delivery report with the step of the event, and the gateway leaves that one at zero. A command that
expects no response therefore leads back to the first command.

## Layers

The conversation of one card with the engine runs the handlers and the gateway as they are. What it
does is described by the stages of a card and the milestones it passes; `Stage.next` is the whole
behaviour, and `AtStage.step` says that the conversation follows it. The result is then about a
machine with four kinds of stages.
-/

namespace OtaPlatform

open List Function Worker

/-! ## Calls in which nothing fails -/

/-- Nothing fails in a call for a card with these keys. -/
structure Unhindered (lib : SecuredPackets) (cryptoProvider : Bool) (ctx : CampaignContext)
    (cardID : UUID) (keys : CardKeyMaterial) (ans : Answers) : Prop where
  running : ans.campaignStatus = .ok .running
  context : ans.context = .ok ctx
  cardKeys : ans.keys = .ok keys
  unthrottled : throttled ans ctx.params = false
  smsError : ans.smsError = none
  eventError : ans.eventError = none
  writeError : ans.writeError = none
  /-- The packet of every command can be built, and the profile has room for it. -/
  fits : ∀ cmd ∈ ctx.commands, ∀ event : CardEvent, event.cardID = cardID → ∀ counterVal : ℤ,
    ∃ packet profile parts,
      lib.buildCommandPacket (buildSecProfileFromCache cmd)
        (commandInput cryptoProvider event cmd keys counterVal) = .ok packet ∧
      ans.profile = .ok profile ∧
      splitForConcat ans.refNum packet profile.bufferSize
        (ctx.params.maxConcatOverride.getD profile.maxConcatSMS) = .ok parts

theorem CampaignContext.mem_of_commandByStep {ctx : CampaignContext} {step : ℤ}
    {cmd : CampaignCommand} (h : ctx.commandByStep step = some cmd) :
    cmd ∈ ctx.commands ∧ cmd.sequence = step := by
  refine ⟨mem_reverse.mp (mem_of_find?_eq_some h), ?_⟩
  have := find?_some h
  exact of_decide_eq_true this

section Unhindered

variable {lib : SecuredPackets} {cryptoProvider : Bool} {ctx : CampaignContext} {cardID : UUID}
  {keys : CardKeyMaterial} {ans : Answers} {s : Process}

private theorem run_loadCardKeys_ok (hkeys : ans.keys = .ok keys)
    (hcache : s.cardKeyCache cardID = none ∨ s.cardKeyCache cardID = some keys) :
    (loadCardKeys ans cardID).run workerSemantics s
      = ⟨.ok keys, { s with
          cardKeyCache := update s.cardKeyCache cardID (some keys) }, []⟩ := by
  have hcached : (cachedKeys cardID).run workerSemantics s = ⟨s.cardKeyCache cardID, s, []⟩ := rfl
  have hstore : (cacheKeys cardID keys).run workerSemantics s
      = ⟨(), { s with cardKeyCache := update s.cardKeyCache cardID (some keys) }, []⟩ :=
    rfl
  rcases hcache with hc | hc
  · simp [loadCardKeys, hcached, hc, hkeys, hstore]
  · rw [update_eq_self_iff.mpr hc.symm]
    simp [loadCardKeys, hcached, hc]

/-- **An activation publishes its command.** -/
theorem Unhindered.run_handleActivate (h : Unhindered lib cryptoProvider ctx cardID keys ans)
    {event : CardEvent} (hcard : event.cardID = cardID) (campaignID : UUID) {cmd : CampaignCommand}
    (hcmd : ctx.commandByStep event.step = some cmd)
    (hcache : s.cardKeyCache cardID = none ∨ s.cardKeyCache cardID = some keys) :
    ∃ s' msg origin log,
      (handleActivate lib cryptoProvider ans event campaignID).run workerSemantics s
        = ⟨.ok (), s', [.sms msg origin, .log log, .change (activateChange ans event campaignID)]⟩ ∧
      s'.cardState cardID = some (activateState ans event campaignID) ∧
      s'.cardKeyCache cardID = some keys ∧
      msg.msgID = ans.msgID ∧ msg.cardID = cardID ∧ msg.campaignID = campaignID ∧
      msg.parts ≠ [] ∧ origin.step = event.step := by
  subst hcard
  obtain ⟨packet, profile, parts, hbuild, hprofile, hsplit⟩ := h.fits cmd
    (CampaignContext.mem_of_commandByStep hcmd).1 event rfl
    (s.counters.getCounter event.cardID cmd.applicationID)
  have hne : parts ≠ [] := by
    rcases splitForConcat_ok hsplit with rfl | ⟨chunks, hlen, -, -, rfl⟩
    · exact cons_ne_nil _ _
    · rw [Ne, ← length_eq_zero_iff, length_frameChunks]
      omega
  set counterVal := s.counters.getCounter event.cardID cmd.applicationID with hval
  refine ⟨⟨s.states.setNew event.cardID (activateState ans event campaignID),
    s.counters.incrCounter event.cardID cmd.applicationID,
    update s.cardKeyCache event.cardID (some keys)⟩,
    smsMessage ans event campaignID keys profile parts,
    ⟨event.step, cmd.applicationID, counterVal, counterBytes counterVal⟩,
    .create (commandLogEntry ans event campaignID cmd counterVal packet "sent"), ?_, ?_,
    update_self .., rfl, rfl, rfl, ?_, rfl⟩
  · simp [handleActivate, h.running, h.context, hcmd, run_loadCardKeys_ok h.cardKeys hcache,
      ← hval, frameCommand, hbuild, hprofile, hsplit, h.unthrottled, sendCommand, h.smsError,
      writeCardState, h.writeError]
  · simp [Process.cardState]
  · rw [smsMessage, Ne, mapIdx_eq_nil_iff]
    exact hne

/-- The card went on from `step`: the next command is activated, or the card is completed. -/
structure AdvancedFrom (ans : Answers) (ctx : CampaignContext) (cardID campaignID : UUID) (step : ℤ)
    (s : Process) (r : Outcome Handled Process Output) : Prop where
  keys : r.state.cardKeyCache cardID = none ∨
    r.state.cardKeyCache cardID = s.cardKeyCache cardID
  outputs : if nextStepAfter ctx.commands step = -1 then
      ∃ ch : CardStateChange, ch.status = .completed ∧ visible r.outputs = [.change ch]
    else visible r.outputs = [.event (activation ans cardID campaignID
      (nextStepAfter ctx.commands step) 0)]

theorem AdvancedFrom.after_log {campaignID : UUID} {step : ℤ}
    {r : Outcome Handled Process Output} {logs : List Output}
    (h : AdvancedFrom ans ctx cardID campaignID step s r) (hlogs : visible logs = []) :
    AdvancedFrom ans ctx cardID campaignID step s ⟨r.value, r.state, logs ++ r.outputs⟩ where
  keys := h.keys
  outputs := by
    rw [visible_append, hlogs, nil_append]
    exact h.outputs

variable (h : Unhindered lib cryptoProvider ctx cardID keys ans)

include h

theorem Unhindered.run_advanceOrComplete (campaignID : UUID) (step : ℤ) (ref : ℕ) :
    AdvancedFrom ans ctx cardID campaignID step s
      ((advanceOrComplete ans cardID campaignID step ctx.commands ref).run workerSemantics s) := by
  rw [advanceOrComplete]
  split_ifs with hnext
  · refine ⟨Or.inl ?_, ?_⟩
    · simp [finishCard, writeCardState, h.writeError]
    · rw [if_pos hnext]
      simp [finishCard, writeCardState, h.writeError, visible]
  · refine ⟨Or.inr ?_, ?_⟩
    · simp [publishEvent, h.eventError]
    · rw [if_neg hnext]
      simp [publishEvent, h.eventError, visible]

/-- **A delivered report** waits for the response, or goes on from the step of the event. -/
theorem Unhindered.run_handleDLR
    {event : CardEvent} (hcard : event.cardID = cardID) (hdlr : event.dlrStatus = .delivrd)
    (campaignID : UUID) {st : CardState} (hst : s.cardState cardID = some st)
    (hstatus : st.status = .awaitingDlr) :
    let r := (handleDLR ans event campaignID).run workerSemantics s
    if ctx.expects st.currentStep then
      r.state.cardState cardID = some { st.bump with status := .awaitingMo } ∧
        r.state.cardKeyCache = s.cardKeyCache ∧ visible r.outputs = []
    else AdvancedFrom ans ctx cardID campaignID event.step s r := by
  subst hcard
  obtain ⟨ref, href, hobj, hget⟩ := run_getCardState_hit hst ans.row
  -- both readings of the state see it as it was
  have hrun : (handleDLR ans event campaignID).run workerSemantics s
      = let r := (deliveredDLR ans event campaignID ref).run workerSemantics s
        ⟨r.value, r.state, ((logDLR event).run workerSemantics s).outputs ++ r.outputs⟩ := by
    simp [handleDLR, hget, hobj, hstatus, actOnDLR, hdlr]
  split_ifs with hexpects
  · obtain ⟨states, hawaits, hstates⟩ :=
      run_deliveredDLR_awaits ans event campaignID href h.context (hobj ▸ hexpects)
    rw [hrun, hawaits]
    refine ⟨?_, rfl, ?_⟩
    · rw [Process.cardState, hstates, update_self, hobj]
    · rw [visible_append, visible_logDLR, visible_nil, append_nil]
  · have hadvance := h.run_advanceOrComplete (s := s) campaignID event.step ref
    have hdelivered : (deliveredDLR ans event campaignID ref).run workerSemantics s
        = (advanceOrComplete ans event.cardID campaignID event.step ctx.commands ref).run
          workerSemantics s := by
      rw [CampaignContext.expects] at hexpects
      simp [deliveredDLR, h.context, hobj, hexpects]
    rw [hrun, hdelivered]
    exact hadvance.after_log (visible_logDLR s event)

/-- **A response** is answered by going on from the step of the card state. -/
theorem Unhindered.run_handleMO {event : CardEvent} (hcard : event.cardID = cardID) {st : CardState}
    (hst : s.cardState cardID = some st) (hstatus : st.status = .awaitingMo)
    (hcache : s.cardKeyCache cardID = none ∨ s.cardKeyCache cardID = some keys) {payload : Bytes}
    (hpayload : event.payloadHex = hexEncode payload) {cmd : CampaignCommand}
    (hcmd : ctx.commandByStep st.currentStep = some cmd) {resp : ResponsePacket}
    (hparse : lib.parseResponsePacket (buildSecProfileFromCache cmd) payload keys.encKey
      keys.authKey = .ok resp) (hok : resp.statusCode = respOK) :
    AdvancedFrom ans ctx cardID (event.campaignFor st) st.currentStep
      { s with cardKeyCache := update s.cardKeyCache cardID (some keys) }
      ((handleMO lib ans event).run workerSemantics s) := by
  subst hcard
  obtain ⟨ref, href, hobj, hget⟩ := run_getCardState_hit hst ans.row
  set s₁ : Process :=
    { s with cardKeyCache := update s.cardKeyCache event.cardID (some keys) } with hs₁
  have hobj₁ : s₁.states.objects event.cardID ref = st := hobj
  have hrun : ∃ logs, visible logs = [] ∧ (handleMO lib ans event).run workerSemantics s
      = let r := (advanceOrComplete ans event.cardID (event.campaignFor st) st.currentStep
          ctx.commands ref).run workerSemantics s₁
        ⟨r.value, r.state, logs ++ r.outputs⟩ := by
    refine ⟨.log (.create
      { id := ans.logID, campaignID := event.campaignFor st, cardID := event.cardID
        direction := "MO", createdAt := ans.now, rawPayload := payload, status := "received" }) ::
      ((logPoR st.lastMsgID resp).run workerSemantics s₁).outputs, ?_, ?_⟩
    · rw [← singleton_append, visible_append, visible_log, visible_logPoR, append_nil]
    · simp [handleMO, hget, hobj, hstatus, run_loadCardKeys_ok h.cardKeys hcache, ← hs₁, parseMO,
        hpayload, hexDecode_hexEncode, h.context, hobj₁, hcmd, hparse, actOnMO, hok,
        CardEvent.campaignFor]
  obtain ⟨logs, hlogs, hrun⟩ := hrun
  rw [hrun]
  exact (h.run_advanceOrComplete _ _ ref).after_log hlogs

end Unhindered

/-! ## The next command -/

theorem nextStepAfter_cases {commands : List CampaignCommand}
    (hpos : ∀ cmd ∈ commands, 0 < cmd.sequence) (step : ℤ) :
    (nextStepAfter commands step = -1 ∧ ∀ cmd ∈ commands, cmd.sequence ≤ step) ∨
    (∃ cmd ∈ commands, cmd.sequence = nextStepAfter commands step ∧ step < cmd.sequence ∧
      ∀ cmd' ∈ commands, step < cmd'.sequence → cmd.sequence ≤ cmd'.sequence) := by
  by_cases hlater : ∃ cmd ∈ commands, step < cmd.sequence
  · obtain ⟨cmd, hcmd, hlt⟩ := hlater
    obtain ⟨next, hnext⟩ := exists_isNextStep hcmd hlt
    obtain ⟨found, hfound, rfl⟩ := hnext.exists_command
    -- a positive sequence is not the marker
    have hne : found.sequence ≠ -1 := by
      have := hpos found hfound
      omega
    exact Or.inr ⟨found, hfound, (nextStepAfter_eq hnext hne).symm, hnext.lt, hnext.le⟩
  · have hall : ∀ cmd ∈ commands, cmd.sequence ≤ step :=
      fun cmd hcmd ↦ not_lt.mp fun hlt ↦ hlater ⟨cmd, hcmd, hlt⟩
    exact Or.inl ⟨nextStepAfter_of_forall_le hall, hall⟩

theorem CampaignContext.commandByStep_of_mem {ctx : CampaignContext}
    (hnodup : (ctx.commands.map CampaignCommand.sequence).Nodup) {cmd : CampaignCommand}
    (hmem : cmd ∈ ctx.commands) : ctx.commandByStep cmd.sequence = some cmd := by
  cases hfind : ctx.commandByStep cmd.sequence with
  | none =>
    have := find?_eq_none.mp hfind cmd (mem_reverse.mpr hmem)
    exact absurd (decide_eq_true rfl) this
  | some cmd' =>
    obtain ⟨hmem', hseq⟩ := CampaignContext.mem_of_commandByStep hfind
    rw [inj_on_of_nodup_map hnodup hmem' hmem hseq]

/-! ## The conversation of a card -/

/-- A card that answers everything, in a deployment in which nothing fails: the parts of the message
published in call `k` are accepted under `smppID k`, all of them are reported as delivered, and
`response k` is what the card sends. -/
structure Responsive (lib : SecuredPackets) (cryptoProvider : Bool) (ctx : CampaignContext)
    (cardID : UUID) where
  ans : ℕ → Answers
  keys : CardKeyMaterial
  smppID : ℕ → ℕ → String
  sentAt : ℕ → ℤ
  receivedAt : ℕ → ℤ
  response : ℕ → Bytes
  sourceAddr : String
  unhindered : ∀ k, Unhindered lib cryptoProvider ctx cardID keys (ans k)
  smppID_injective : ∀ k, Injective (smppID k)
  inTime : ∀ k, receivedAt k < sentAt k + correlationTTL
  /-- The response parses, whichever command it answers, and reports success. -/
  parses : ∀ k, ∀ cmd ∈ ctx.commands, ∃ resp,
    lib.parseResponsePacket (buildSecProfileFromCache cmd) (response k) keys.encKey keys.authKey
      = .ok resp ∧ resp.statusCode = respOK

/-- The engine as one card sees it. -/
structure Conversation where
  process : Process
  gateway : Gateway
  queue : List CardEvent
  outputs : List Output

section Conversation

variable {lib : SecuredPackets} {cryptoProvider : Bool} {ctx : CampaignContext} {cardID : UUID}
  (env : Responsive lib cryptoProvider ctx cardID)

/-- A message is submitted, reported and, if its command expects a response, answered. -/
def Conversation.deliver (k : ℕ) (c : Conversation) (p : SendSMSMessage × PacketOrigin) :
    Conversation :=
  let sent := c.gateway.handleSendSMS p.1 (fun i ↦ .accepted (env.smppID k i)) (env.ans k).eventID
    (env.sentAt k)
  let reports := Gateway.handleDLRs (env.ans k).eventID (env.receivedAt k)
    (Gateway.delivered (env.smppID k) p.1.parts.length) sent.1
  let reported := { c with
    gateway := reports.1
    queue := c.queue ++ sent.2.toList ++ reports.2 }
  if ctx.expects p.2.step then
    let r := (Gateway.handleMO (.ok (some cardID)) (env.ans k).row env.sourceAddr (env.response k)
      (env.ans k).eventID (env.receivedAt k)).run workerSemantics c.process
    { reported with
      process := r.state
      queue := reported.queue ++ r.value.toList }
  else reported

/-- The next event is handled, and what it sends is delivered. -/
def Conversation.step (k : ℕ) (c : Conversation) : Conversation :=
  match c.queue with
  | [] => c
  | ev :: queue =>
    let r := (handleCardEvent lib cryptoProvider (env.ans k) ev).run workerSemantics c.process
    (smsOf r.outputs).foldl (Conversation.deliver env k)
      { c with
        process := r.state
        queue := queue ++ eventsOf r.outputs ++ delayedOf r.outputs
        outputs := c.outputs ++ r.outputs }

/-- The conversation after `n` events. -/
def Conversation.after (c : Conversation) : ℕ → Conversation
  | 0 => c
  | n + 1 => (c.after n).step env n

end Conversation

/-! ## Stages and milestones -/

inductive Stage
  | activating (step : ℤ)
  /-- The delivery report of its message. -/
  | delivering (step : ℤ)
  | responding (step : ℤ)
  | done
deriving DecidableEq, Repr

inductive Milestone
  | sent (step : ℤ)
  | completed
deriving DecidableEq, Repr

def milestonesOf (outs : List Output) : List Milestone :=
  outs.filterMap fun
    | .sms _ origin => some (.sent origin.step)
    | .change ch => if ch.status = .completed then some .completed else none
    | _ => none

def Stage.advance (ctx : CampaignContext) (step : ℤ) : Stage × List Milestone :=
  if nextStepAfter ctx.commands step = -1 then (.done, [.completed])
  else (.activating (nextStepAfter ctx.commands step), [])

/-- What the next event does. A delivery report goes on from step zero. -/
def Stage.next (ctx : CampaignContext) : Stage → Stage × List Milestone
  | .activating step => (.delivering step, [.sent step])
  | .delivering step =>
    if ctx.expects step then (.responding step, []) else Stage.advance ctx 0
  | .responding step => Stage.advance ctx step
  | .done => (.done, [])

/-- The stage after `n` events, and the milestones passed. -/
def Stage.after (ctx : CampaignContext) (stage : Stage) : ℕ → Stage × List Milestone
  | 0 => (stage, [])
  | n + 1 =>
    let before := stage.after ctx n
    ((before.1.next ctx).1, before.2 ++ (before.1.next ctx).2)

theorem milestonesOf_append (outs outs' : List Output) :
    milestonesOf (outs ++ outs') = milestonesOf outs ++ milestonesOf outs' :=
  filterMap_append

theorem milestonesOf_visible (outs : List Output) :
    milestonesOf outs = milestonesOf (visible outs) :=
  filterMap_visible _ (fun _ ↦ rfl) outs

section Simulation

variable {lib : SecuredPackets} {cryptoProvider : Bool} {ctx : CampaignContext} {cardID : UUID}
  (env : Responsive lib cryptoProvider ctx cardID) (campaignID : UUID)

structure IsReport (cardID campaignID : UUID) (ev : CardEvent) : Prop where
  type_eq : ev.type = .dlrReceived
  cardID_eq : ev.cardID = cardID
  campaignID_eq : ev.campaignID = some campaignID
  dlrStatus_eq : ev.dlrStatus = .delivrd
  step_eq : ev.step = 0

structure IsResponse (campaignID : UUID) (ev : CardEvent) : Prop where
  type_eq : ev.type = .moReceived
  cardID_eq : ev.cardID = cardID
  campaignID_eq : ev.campaignID = some campaignID
  payload_eq : ∃ k, ev.payloadHex = hexEncode (env.response k)

/-- The events that wait, and the state of the card, at a stage. -/
def Stage.Shows (c : Conversation) : Stage → Prop
  | .activating step => (ctx.commandByStep step).isSome ∧
    ∃ ev, c.queue = [ev] ∧ ev.type = .activate ∧ ev.cardID = cardID ∧
      ev.campaignID = some campaignID ∧ ev.step = step
  | .delivering step => (ctx.commandByStep step).isSome ∧
    (∃ st, c.process.cardState cardID = some st ∧ st.status = .awaitingDlr ∧
      st.campaignID = campaignID ∧ st.currentStep = step) ∧
    ∃ report responses, c.queue = report :: responses ∧ IsReport cardID campaignID report ∧
      if ctx.expects step then ∃ response, responses = [response] ∧
        IsResponse env campaignID response else responses = []
  | .responding step => (ctx.commandByStep step).isSome ∧
    (∃ st, c.process.cardState cardID = some st ∧ st.status = .awaitingMo ∧
      st.campaignID = campaignID ∧ st.currentStep = step) ∧
    ∃ response, c.queue = [response] ∧ IsResponse env campaignID response
  | .done => c.queue = []

structure AtStage (c : Conversation) (stage : Stage) : Prop where
  keys : c.process.cardKeyCache cardID = none ∨ c.process.cardKeyCache cardID = some env.keys
  untracked : ∀ k, c.gateway.multipart (env.ans k).msgID = none
  shows : stage.Shows env campaignID c

variable {env campaignID} {c : Conversation}

private theorem run_gateway_handleMO {s : Process} {st : CardState}
    (hst : s.cardState cardID = some st) (row : Except String (Option ExecutionRow))
    (sourceAddr : String) (payload : Bytes) (eventID : UUID) (now : ℤ) :
    (Gateway.handleMO (.ok (some cardID)) row sourceAddr payload eventID now).run workerSemantics s
      = ⟨some (Gateway.moEvent cardID st.campaignID sourceAddr payload eventID now), s, []⟩ := by
  obtain ⟨ref, -, hobj, hget⟩ := run_getCardState_hit hst row
  simp [Gateway.handleMO, hget, hobj]

private theorem deliver_queue (env : Responsive lib cryptoProvider ctx cardID) (c : Conversation)
    (k : ℕ) (origin : PacketOrigin) {msg : SendSMSMessage}
    (hmsg : msg.cardID = cardID) (hcampaign : msg.campaignID = campaignID)
    (hparts : msg.parts ≠ []) (hfresh : c.gateway.multipart msg.msgID = none) {st : CardState}
    (hst : c.process.cardState cardID = some st) (hstc : st.campaignID = campaignID) :
    let c' := c.deliver env k (msg, origin)
    c'.process = c.process ∧ c'.gateway.multipart = c.gateway.multipart ∧
      c'.outputs = c.outputs ∧
      ∃ report responses, c'.queue = c.queue ++ report :: responses ∧
        IsReport cardID campaignID report ∧
        if ctx.expects origin.step then ∃ response, responses = [response] ∧
          IsResponse env campaignID response else responses = [] := by
  obtain ⟨hnone, id, hevents, hmulti⟩ := Gateway.handleDLRs_handleSendSMS c.gateway msg
    (env.smppID_injective k) (env.ans k).eventID (env.ans k).eventID (env.inTime k) hparts hfresh
  set report := Gateway.dlrEvent (Gateway.entryOf msg (env.sentAt k)).mapping ⟨id, .delivrd, ""⟩
    (env.ans k).eventID (env.receivedAt k)
  have hreport : IsReport cardID campaignID report :=
    ⟨rfl, hmsg, congrArg some hcampaign, rfl, rfl⟩
  set response := Gateway.moEvent cardID st.campaignID env.sourceAddr (env.response k)
    (env.ans k).eventID (env.receivedAt k)
  have hresponse : IsResponse env campaignID response :=
    ⟨rfl, rfl, congrArg some hstc, k, rfl⟩
  unfold Conversation.deliver
  dsimp only
  split_ifs with hexpects
  · rw [run_gateway_handleMO hst, hnone, hevents]
    refine ⟨rfl, hmulti, rfl, report, [response], ?_, hreport, response, rfl, hresponse⟩
    simp [response]
  · rw [hnone, hevents]
    exact ⟨rfl, hmulti, rfl, report, [], by simp, hreport, rfl⟩

private theorem step_of_smsOf_eq_nil (k : ℕ) {ev : CardEvent} {queue : List CardEvent}
    (hqueue : c.queue = ev :: queue) {outs : List Output}
    (houts : visible ((handleCardEvent lib cryptoProvider (env.ans k) ev).run workerSemantics
      c.process).outputs = outs) (hsms : smsOf outs = []) : c.step env k =
      ⟨((handleCardEvent lib cryptoProvider (env.ans k) ev).run workerSemantics c.process).state,
        c.gateway, queue ++ eventsOf outs ++ delayedOf outs,
        c.outputs ++ ((handleCardEvent lib cryptoProvider (env.ans k) ev).run workerSemantics
          c.process).outputs⟩ := by
  unfold Conversation.step
  rw [hqueue]
  dsimp only
  rw [smsOf_visible, eventsOf_visible, delayedOf_visible, houts, hsms, foldl_nil]

/-- The conversation went on to a stage and passed the milestones. -/
def Reaches (env : Responsive lib cryptoProvider ctx cardID) (campaignID : UUID)
    (c c' : Conversation) (p : Stage × List Milestone) : Prop :=
  AtStage env campaignID c' p.1 ∧ milestonesOf c'.outputs = milestonesOf c.outputs ++ p.2

theorem AtStage.advance {stage : Stage} (h : AtStage env campaignID c stage)
    (hpos : ∀ cmd ∈ ctx.commands, 0 < cmd.sequence) (k : ℕ) {ev : CardEvent}
    (hqueue : c.queue = [ev]) {step : ℤ} {s : Process}
    (hkeys : s.cardKeyCache cardID = none ∨ s.cardKeyCache cardID = some env.keys)
    (hadv : AdvancedFrom (env.ans k) ctx cardID campaignID step s
      ((handleCardEvent lib cryptoProvider (env.ans k) ev).run workerSemantics c.process)) :
    Reaches env campaignID c (c.step env k) (Stage.advance ctx step) := by
  have hcache := hadv.keys
  have houts := hadv.outputs
  have hkeys' : ∀ r : Outcome Handled Process Output,
      r.state.cardKeyCache cardID = none ∨ r.state.cardKeyCache cardID = s.cardKeyCache cardID →
      r.state.cardKeyCache cardID = none ∨ r.state.cardKeyCache cardID = some env.keys := by
    rintro r (hr | hr)
    · exact Or.inl hr
    · rwa [hr]
  rw [Stage.advance]
  split_ifs at houts ⊢ with hnext
  · obtain ⟨ch, hstatus, hvisible⟩ := houts
    rw [step_of_smsOf_eq_nil k hqueue hvisible rfl]
    refine ⟨⟨hkeys' _ hcache, h.untracked, rfl⟩, ?_⟩
    rw [milestonesOf_append, milestonesOf_visible (Outcome.outputs _), hvisible]
    simp [milestonesOf, hstatus]
  · rw [step_of_smsOf_eq_nil k hqueue houts rfl]
    have hsome : (ctx.commandByStep (nextStepAfter ctx.commands step)).isSome := by
      rcases nextStepAfter_cases hpos step with ⟨hnone, -⟩ | ⟨cmd, hmem, hseq, -, -⟩
      · exact absurd hnone hnext
      · rw [CampaignContext.commandByStep, find?_isSome]
        exact ⟨cmd, mem_reverse.mpr hmem, decide_eq_true hseq⟩
    refine ⟨⟨hkeys' _ hcache, h.untracked, hsome, _, rfl, rfl, rfl, rfl, rfl⟩, ?_⟩
    rw [milestonesOf_append, milestonesOf_visible (Outcome.outputs _), houts]
    rfl

/-- **The conversation follows the stages.** -/
theorem AtStage.step {stage : Stage} (h : AtStage env campaignID c stage)
    (hpos : ∀ cmd ∈ ctx.commands, 0 < cmd.sequence) (k : ℕ) :
    Reaches env campaignID c (c.step env k) (stage.next ctx) := by
  cases stage with
  | done =>
    have hqueue : c.queue = [] := h.shows
    have hstep : c.step env k = c := by rw [Conversation.step, hqueue]
    rw [hstep]
    exact ⟨h, (append_nil _).symm⟩
  | activating step =>
    obtain ⟨hsome, ev, hqueue, htype, hcard, hcampaign, rfl⟩ := h.shows
    obtain ⟨cmd, hcmd⟩ := Option.isSome_iff_exists.mp hsome
    obtain ⟨s', msg, origin, log, hrun, hst, hkeys, hmsgID, hmsgCard, hmsgCampaign, hparts,
        hstep⟩ :=
      (env.unhindered k).run_handleActivate hcard campaignID hcmd h.keys
    have hevent : (handleCardEvent lib cryptoProvider (env.ans k) ev).run workerSemantics c.process
        = ⟨.ok (), s', [.sms msg origin, .log log,
            .change (activateChange (env.ans k) ev campaignID)]⟩ := by
      rw [handleCardEvent_activate lib cryptoProvider (env.ans k) htype hcampaign, hrun]
    have hfold : c.step env k = Conversation.deliver env k ⟨s', c.gateway, [],
        c.outputs ++ [.sms msg origin, .log log,
          .change (activateChange (env.ans k) ev campaignID)]⟩ (msg, origin) := by
      rw [Conversation.step, hqueue]
      dsimp only
      rw [hevent]
      rfl
    obtain ⟨hprocess, hgateway, houtputs, hwaits⟩ := deliver_queue env
      ⟨s', c.gateway, [], c.outputs ++ [.sms msg origin, .log log,
        .change (activateChange (env.ans k) ev campaignID)]⟩ k origin
      hmsgCard hmsgCampaign hparts (hmsgID ▸ h.untracked k) hst rfl
    rw [hstep] at hwaits
    rw [hfold]
    refine ⟨⟨?_, ?_, hsome, ⟨_, by rw [hprocess]; exact hst, rfl, rfl, rfl⟩, hwaits⟩, ?_⟩
    · rw [hprocess]
      exact Or.inr hkeys
    · rw [hgateway]
      exact h.untracked
    · rw [houtputs, milestonesOf_append]
      simp [milestonesOf, activateChange, hstep, Stage.next]
  | delivering step =>
    obtain ⟨hsome, ⟨st, hst, hstatus, hstc, rfl⟩, report, responses, hqueue, hreport, hresp⟩ :=
      h.shows
    have hrun := (env.unhindered k).run_handleDLR hreport.cardID_eq hreport.dlrStatus_eq campaignID
      hst hstatus
    rw [← handleCardEvent_dlr lib cryptoProvider (env.ans k) hreport.type_eq hreport.campaignID_eq]
      at hrun
    rw [Stage.next]
    dsimp only at hrun
    split_ifs at hrun hresp ⊢ with hexpects
    · obtain ⟨hst', hkeys', hvisible⟩ := hrun
      obtain ⟨response, rfl, hresponse⟩ := hresp
      rw [step_of_smsOf_eq_nil k hqueue hvisible rfl]
      refine ⟨⟨?_, h.untracked, hsome, ⟨_, hst', rfl, hstc, rfl⟩, response, rfl, hresponse⟩, ?_⟩
      · rw [hkeys']
        exact h.keys
      · rw [milestonesOf_append, milestonesOf_visible (Outcome.outputs _), hvisible]
        rfl
    · rw [hreport.step_eq] at hrun
      rw [hresp] at hqueue
      exact h.advance hpos k hqueue h.keys hrun
  | responding step =>
    obtain ⟨hsome, ⟨st, hst, hstatus, hstc, rfl⟩, response, hqueue, hresponse⟩ := h.shows
    obtain ⟨cmd, hcmd⟩ := Option.isSome_iff_exists.mp hsome
    obtain ⟨j, hpayload⟩ := hresponse.payload_eq
    obtain ⟨resp, hparse, hok⟩ := env.parses j cmd (CampaignContext.mem_of_commandByStep hcmd).1
    have hrun := (env.unhindered k).run_handleMO hresponse.cardID_eq hst hstatus h.keys hpayload
      hcmd hparse hok
    have hfor : response.campaignFor st = campaignID := by
      rw [CardEvent.campaignFor, hresponse.campaignID_eq, Option.getD_some]
    rw [← handleCardEvent_mo lib cryptoProvider (env.ans k) hresponse.type_eq, hfor] at hrun
    exact h.advance hpos k hqueue (Or.inr (update_self ..)) hrun

/-- **The whole conversation follows the stages.** -/
theorem AtStage.after {stage : Stage} (h : AtStage env campaignID c stage)
    (hpos : ∀ cmd ∈ ctx.commands, 0 < cmd.sequence) (n : ℕ) :
    Reaches env campaignID c (c.after env n) (stage.after ctx n) := by
  induction n with
  | zero => exact ⟨h, (append_nil _).symm⟩
  | succ n ih =>
    obtain ⟨hstage, hpassed⟩ := ih.1.step hpos n
    refine ⟨hstage, hpassed.trans ?_⟩
    rw [ih.2, append_assoc]
    rfl

end Simulation

/-! ## Runs of the stages -/

section Stages

variable {ctx : CampaignContext}

theorem Stage.after_add (stage : Stage) (m n : ℕ) :
    stage.after ctx (m + n) = (((stage.after ctx m).1.after ctx n).1,
      (stage.after ctx m).2 ++ ((stage.after ctx m).1.after ctx n).2) := by
  induction n with
  | zero => exact Prod.ext rfl (append_nil _).symm
  | succ n ih =>
    rw [← Nat.add_assoc, Stage.after, ih, Stage.after]
    exact Prod.ext rfl (append_assoc _ _ _)

private theorem advance_of_sorted {steps before rest : List ℤ} {step : ℤ}
    (hsorted : steps.Pairwise (· < ·))
    (hperm : (ctx.commands.map CampaignCommand.sequence).Perm steps)
    (hpos : ∀ cmd ∈ ctx.commands, 0 < cmd.sequence) (hsplit : steps = before ++ step :: rest) :
    Stage.advance ctx step = match rest with
      | [] => (.done, [.completed])
      | next :: _ => (.activating next, []) := by
  have hmem : ∀ s, s ∈ steps ↔ ∃ cmd ∈ ctx.commands, cmd.sequence = s := fun s ↦ by
    rw [← hperm.mem_iff, mem_map]
  rw [hsplit, pairwise_append, pairwise_cons] at hsorted
  obtain ⟨-, ⟨hrest, hpair⟩, hbefore⟩ := hsorted
  have hle : ∀ s ∈ before, s ≤ step := fun s hs ↦ (hbefore s hs step mem_cons_self).le
  rw [Stage.advance]
  cases rest with
  | nil =>
    rcases nextStepAfter_cases hpos step with ⟨hnone, -⟩ | ⟨cmd, hcmd, hseq, hgt, -⟩
    · rw [if_pos hnone]
    · have := (hmem cmd.sequence).mpr ⟨cmd, hcmd, rfl⟩
      rw [hsplit, mem_append, mem_singleton] at this
      rcases this with h | h
      · have := hle _ h
        omega
      · omega
  | cons next rest =>
    obtain ⟨cmd', hcmd', hseq'⟩ := (hmem next).mp (by
      rw [hsplit]
      exact mem_append_right _ (mem_cons_of_mem _ mem_cons_self))
    have hnext : step < next := hrest next mem_cons_self
    rcases nextStepAfter_cases hpos step with ⟨-, hall⟩ | ⟨cmd, hcmd, hseq, hgt, hmin⟩
    · have := hall cmd' hcmd'
      omega
    · -- the smallest later step is the first of the later steps
      have hlow : cmd.sequence ≤ next := hseq' ▸ hmin cmd' hcmd' (by omega)
      have hhigh : next ≤ cmd.sequence := by
        have := (hmem cmd.sequence).mpr ⟨cmd, hcmd, rfl⟩
        rw [hsplit, mem_append, mem_cons] at this
        rcases this with h | h | h
        · have := hle _ h
          omega
        · omega
        · rcases mem_cons.mp h with h | h
          · exact h.ge
          · exact ((pairwise_cons.mp hpair).1 _ h).le
      have heq : nextStepAfter ctx.commands step = next := by omega
      have hnextpos := hpos cmd' hcmd'
      rw [heq, if_neg (by omega)]

private theorem after_three {step : ℤ} (hstep : ctx.expects step = true) :
    (Stage.activating step).after ctx 3
      = ((Stage.advance ctx step).1, .sent step :: (Stage.advance ctx step).2) := by
  simp [Stage.after, Stage.next, hstep]

/-- When every command expects a response, the remaining steps are visited and then the card is
completed. -/
private theorem after_of_expects {steps : List ℤ} (hsorted : steps.Pairwise (· < ·))
    (hperm : (ctx.commands.map CampaignCommand.sequence).Perm steps)
    (hpos : ∀ cmd ∈ ctx.commands, 0 < cmd.sequence)
    (hexpects : ∀ step ∈ steps, ctx.expects step = true) (rest before : List ℤ) (step : ℤ)
    (hsplit : steps = before ++ step :: rest) : ∃ n, (Stage.activating step).after ctx n
      = (.done, (step :: rest).map .sent ++ [.completed]) := by
  have hthree := after_three (hexpects step (by rw [hsplit]; simp))
  rw [advance_of_sorted hsorted hperm hpos hsplit] at hthree
  induction rest generalizing before step with
  | nil => exact ⟨3, hthree⟩
  | cons next rest ih =>
    have hsplit' : steps = (before ++ [step]) ++ next :: rest := by rw [hsplit]; simp
    have hnext := after_three (hexpects next (by rw [hsplit]; simp))
    rw [advance_of_sorted hsorted hperm hpos hsplit'] at hnext
    obtain ⟨n, hn⟩ := ih (before ++ [step]) next hsplit' hnext
    refine ⟨3 + n, ?_⟩
    rw [Stage.after_add, hthree, hn]
    rfl

/-- The stages up to a command that expects no response. -/
private def Stage.UpTo (bound : ℤ) : Stage → Prop
  | .activating step => step ≤ bound
  | .delivering step => step ≤ bound
  | .responding step => step < bound
  | .done => False

theorem Stage.UpTo.after {cmd : CampaignCommand} (hmem : cmd ∈ ctx.commands)
    (hpos : ∀ cmd ∈ ctx.commands, 0 < cmd.sequence) (hsilent : ctx.expects cmd.sequence = false)
    {stage : Stage} (h : stage.UpTo cmd.sequence) (n : ℕ) :
    (stage.after ctx n).1.UpTo cmd.sequence := by
  have hadvance : ∀ step, step < cmd.sequence → (Stage.advance ctx step).1.UpTo cmd.sequence := by
    intro step hlt
    rw [Stage.advance]
    rcases nextStepAfter_cases hpos step with ⟨-, hall⟩ | ⟨cmd', hcmd', hseq, -, hmin⟩
    · have := hall cmd hmem
      omega
    · have := hpos cmd' hcmd'
      rw [if_neg (by omega), ← hseq]
      exact hmin cmd hmem hlt
  induction n with
  | zero => exact h
  | succ n ih =>
    rw [Stage.after]
    cases hstage : (stage.after ctx n).1 with
    | activating step =>
      rw [hstage] at ih
      exact ih
    | delivering step =>
      rw [hstage] at ih
      have hle : step ≤ cmd.sequence := ih
      dsimp only [Stage.next]
      split_ifs with hexpects
      · have hne : step ≠ cmd.sequence := by
          rintro rfl
          rw [hsilent] at hexpects
          exact Bool.false_ne_true hexpects
        exact lt_of_le_of_ne hle hne
      · exact hadvance 0 (hpos cmd hmem)
    | responding step =>
      rw [hstage] at ih
      exact hadvance step ih
    | done =>
      rw [hstage] at ih
      exact ih.elim

end Stages

section Progress

variable {lib : SecuredPackets} {cryptoProvider : Bool} {ctx : CampaignContext} {cardID : UUID}
  {env : Responsive lib cryptoProvider ctx cardID} {campaignID : UUID} {c : Conversation}

theorem AtStage.eq_done {stage : Stage} (h : AtStage env campaignID c stage)
    (hqueue : c.queue = []) : stage = .done := by
  have hshows := h.shows
  cases stage with
  | done => rfl
  | activating step =>
    obtain ⟨-, ev, hev, -⟩ := hshows
    exact absurd (hev.symm.trans hqueue) (cons_ne_nil _ _)
  | delivering step =>
    obtain ⟨-, -, report, responses, hev, -⟩ := hshows
    exact absurd (hev.symm.trans hqueue) (cons_ne_nil _ _)
  | responding step =>
    obtain ⟨-, -, response, hev, -⟩ := hshows
    exact absurd (hev.symm.trans hqueue) (cons_ne_nil _ _)

/-- With a command that expects no response, at or after the step that is activated, the
conversation does not end. -/
theorem AtStage.queue_ne_nil {step : ℤ} (h : AtStage env campaignID c (.activating step))
    (hpos : ∀ cmd ∈ ctx.commands, 0 < cmd.sequence) {cmd : CampaignCommand}
    (hmem : cmd ∈ ctx.commands) (hle : step ≤ cmd.sequence)
    (hsilent : ctx.expects cmd.sequence = false) (n : ℕ) : (c.after env n).queue ≠ [] := by
  intro hqueue
  have hupTo : (Stage.activating step).UpTo cmd.sequence := hle
  have hafter := hupTo.after hmem hpos hsilent n
  rw [(h.after hpos n).1.eq_done hqueue] at hafter
  exact hafter

/-- **Every command is sent once, in order, and then the card is completed, exactly when every
command expects a response.** -/
theorem commands_sent_once_iff (env : Responsive lib cryptoProvider ctx cardID) (campaignID : UUID)
    (hpos : ∀ cmd ∈ ctx.commands, 0 < cmd.sequence) (first : ℤ) (rest : List ℤ)
    (hsorted : (first :: rest).Pairwise (· < ·))
    (hperm : (ctx.commands.map CampaignCommand.sequence).Perm (first :: rest))
    (hstart : AtStage env campaignID c (.activating first))
    (hnothing : milestonesOf c.outputs = []) :
    (∃ n, (c.after env n).queue = [] ∧
      milestonesOf (c.after env n).outputs = (first :: rest).map .sent ++ [.completed]) ↔
    ∀ cmd ∈ ctx.commands, cmd.expectResponse = true := by
  have hnodup : (ctx.commands.map CampaignCommand.sequence).Nodup :=
    hperm.nodup_iff.mpr (hsorted.imp fun h ↦ h.ne)
  have hexpects : ∀ cmd ∈ ctx.commands, ctx.expects cmd.sequence = cmd.expectResponse := by
    intro cmd hcmd
    rw [CampaignContext.expects, CampaignContext.commandByStep_of_mem hnodup hcmd]
    rfl
  constructor
  · rintro ⟨n, hqueue, -⟩ cmd hcmd
    by_contra hsilent
    rw [← hexpects cmd hcmd, Bool.not_eq_true] at hsilent
    have hfirst : first ≤ cmd.sequence := by
      rcases mem_cons.mp (hperm.mem_iff.mp (mem_map_of_mem hcmd)) with h | h
      · exact h.ge
      · exact ((pairwise_cons.mp hsorted).1 _ h).le
    exact hstart.queue_ne_nil hpos hcmd hfirst hsilent n hqueue
  · intro hall
    have hsteps : ∀ step ∈ first :: rest, ctx.expects step = true := by
      intro step hstep
      obtain ⟨cmd, hcmd, rfl⟩ := mem_map.mp (hperm.mem_iff.mpr hstep)
      rw [hexpects cmd hcmd, hall cmd hcmd]
    obtain ⟨n, hn⟩ := after_of_expects hsorted hperm hpos hsteps rest [] first rfl
    obtain ⟨hstage, hpassed⟩ := hstart.after hpos n
    rw [hn] at hstage hpassed
    exact ⟨n, hstage.shows, by rw [hpassed, hnothing, nil_append]⟩

end Progress

/-! ## Commands with and without a response -/

namespace EmptyCommands

/-- A campaign of empty commands. -/
def ctx (steps : List ℤ) (expectResponse : Bool) : CampaignContext :=
  ⟨steps.map fun step ↦ { sequence := step, applicationID := .ofDigit 2, expectResponse },
    { maxRetries := 3 }⟩

/-- A card that answers every message with status zero. -/
def card (steps : List ℤ) (expectResponse : Bool) :
    Responsive plainPackets false (ctx steps expectResponse) (.ofDigit 1) where
  ans k := .plain (ctx steps expectResponse) (.ofDigit k)
  keys := {}
  smppID _ i := String.ofList (replicate i 'x')
  sentAt _ := 0
  receivedAt _ := 1
  response _ := [0]
  sourceAddr := ""
  unhindered k := by
    refine ⟨rfl, rfl, rfl, rfl, rfl, rfl, rfl, fun cmd hcmd event _ counterVal ↦ ?_⟩
    obtain ⟨step, -, rfl⟩ := mem_map.mp hcmd
    refine ⟨counterBytes counterVal, { maxConcatSMS := 7, bufferSize := 180 },
      [frameOTASMS (counterBytes counterVal) none], ?_, rfl, ?_⟩
    · simp [plainPackets, commandInput]
    · simp [splitForConcat, counterBytes]
  smppID_injective k i j h := by
    have hlist := String.ofList_injective h
    have hlength := congrArg length hlist
    rwa [length_replicate, length_replicate] at hlength
  inTime k := by
    rw [correlationTTL]
    omega
  parses k cmd hcmd := ⟨_, rfl, rfl⟩

/-- The card is activated at the first command. -/
def start : Conversation where
  process := (Engine.new fun _ ↦ none).process
  gateway := ⟨fun _ ↦ none, fun _ ↦ none⟩
  queue := [{ type := .activate, eventID := .ofDigit 0, cardID := .ofDigit 1
              campaignID := some (.ofDigit 3), step := 1 }]
  outputs := []

theorem start_atStage {steps : List ℤ} {expectResponse : Bool}
    (hfirst : ((ctx steps expectResponse).commandByStep 1).isSome = true) :
    AtStage (card steps expectResponse) (.ofDigit 3) start (.activating 1) :=
  ⟨Or.inl rfl, fun _ ↦ rfl, hfirst, _, rfl, rfl, rfl, rfl, rfl⟩

end EmptyCommands

open EmptyCommands in
/-- With responses each of two commands is sent once. -/
theorem commands_sent_once_responding :
    ∃ n, (start.after (card [1, 2] true) n).queue = [] ∧
      milestonesOf (start.after (card [1, 2] true) n).outputs = [.sent 1, .sent 2, .completed] :=
  (commands_sent_once_iff (card [1, 2] true) (.ofDigit 3) (by decide) 1 [2] (by decide)
    (Perm.refl _) (start_atStage rfl) rfl).mpr (by decide)

open EmptyCommands in
/-- Without one a command is sent again after its delivery report, and the card never ends. -/
theorem command_sent_again :
    milestonesOf (start.after (card [1] false) 3).outputs = [.sent 1, .sent 1] ∧
      ¬ ∃ n, (start.after (card [1] false) n).queue = [] ∧
        milestonesOf (start.after (card [1] false) n).outputs = [.sent 1, .completed] := by
  refine ⟨by decide +kernel, fun ⟨n, hqueue, _⟩ ↦ ?_⟩
  have hstage : AtStage (card [1] false) (.ofDigit 3) start (.activating 1) := start_atStage rfl
  exact hstage.queue_ne_nil (by decide) mem_cons_self (by decide) rfl n hqueue

end OtaPlatform
