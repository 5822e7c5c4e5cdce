import OtaPlatform.Engine.Emissions
import OtaPlatform.Engine.Sequencing
import OtaPlatform.Executor.Progress

/-!
# Attempts of a command

A command that cannot be delivered is sent again, until the campaign's limit of attempts. The number
of the attempt is passed from hand to hand: an activation carries it, the card state keeps it while
the message is out, the handler of the failing report reads it there and publishes an activation
with the next one. A message that the throttle refuses is activated again later, with the number it
had.

`retries_end_in_failure` is the result. If every message of a card is answered by one failing
report, there are as many messages as the limit says, numbered from zero, and at least one; then the
card is failed, once, and nothing follows.

## Layers

First what a call does that returns without an error, and what it adds to the history of its card.
Then the stages of a card: an activation waits, a message is out, or the attempts are used up
(`Attempting`). The number of the attempt is the number of messages in the history, and that is the
whole invariant.
-/

namespace OtaPlatform

open Engine List Function Worker

/-! ## Calls that return without an error -/

/-- What an activation does that returns without an error: the throttle refuses it and a timer is
started, or its command is sent. -/
inductive Activated (s : Process) (ans : Answers) (event : CardEvent) (campaignID : UUID) :
    Option CardState → List Output → Prop
  | delayed : Activated s ans event campaignID (s.cardState event.cardID)
      [.delayed (activation ans event.cardID campaignID event.step event.retryCount)]
  | sent (msg : SendSMSMessage) (origin : PacketOrigin) (hid : msg.msgID = ans.msgID)
      (hcard : msg.cardID = event.cardID) (horigin : origin.step = event.step) :
    Activated s ans event campaignID (some (activateState ans event campaignID))
      [.sms msg origin, .change (activateChange ans event campaignID)]

/-- What a failing report does that returns without an error: the next attempt is published, or the
card is failed. -/
inductive FailureHandled (ans : Answers) (event : CardEvent) (campaignID : UUID) (limit : ℤ)
    (st : CardState) : Option CardState → List Output → Prop
  | again (hlimit : st.retryCount + 1 < limit) : FailureHandled ans event campaignID limit st
      (some st) [.event
        (activation ans event.cardID campaignID st.currentStep (st.retryCount + 1))]
  | gaveUp {ch : CardStateChange} (hlimit : ¬ st.retryCount + 1 < limit)
      (hch : Finishes event.cardID campaignID st .failed .inProgress ch) :
    FailureHandled ans event campaignID limit st none [.change ch]

section Calls

variable {s : Process} {lib : SecuredPackets} {cryptoProvider : Bool} {ans : Answers}
  {event : CardEvent} {campaignID : UUID}

/-- **An activation without an error**, while the campaign is running and there is a timer. -/
theorem handleActivate_activated (hstatus : ans.campaignStatus = .ok .running)
    (hslot : ∀ ctx, ans.context = .ok ctx → throttled ans ctx.params = true →
      ans.retrySlot = true) (hok : ((handleActivate lib cryptoProvider ans event campaignID).run
      workerSemantics s).value = .ok ()) :
    ∃ after outs, Activated s ans event campaignID after outs ∧
      Acts s event.cardID ((handleActivate lib cryptoProvider ans event campaignID).run
        workerSemantics s) after outs := by
  rcases run_handleActivate_cases s lib cryptoProvider ans event campaignID with
    ⟨value, cache, hvalue, hrun⟩ | ⟨ctx, cmd, err, cache, -, -, hrun⟩ |
    ⟨ctx, cmd, cardKeys, packet, profile, parts, cache, hframes, hrun⟩
  · rw [hrun] at hok
    exact absurd hok (hvalue hstatus)
  · rw [hrun] at hok
    cases hok
  · rw [hrun, throttleOrSend] at hok ⊢
    by_cases hthrottled : throttled ans ctx.params = true
    · have hfree := hslot ctx hframes.context hthrottled
      rw [if_pos hthrottled]
      refine ⟨_, _, .delayed, ?_, ?_⟩
      · simp [scheduleActivateRetry, hfree, visible]
      · rw [update_eq_self]
        simp [scheduleActivateRetry, hfree, Process.cardState]
    · rw [if_neg hthrottled] at hok ⊢
      obtain ⟨hleaves, hvalue⟩ := sendCommand_leaves
        ⟨s.states, s.counters.incrCounter event.cardID cmd.applicationID, cache⟩ ans event
        campaignID cmd cardKeys profile
        (s.counters.getCounter event.cardID cmd.applicationID) packet parts
      obtain ⟨hsms, hwrite⟩ := hvalue.mp hok
      rw [sentOutputs, if_pos hsms, if_pos hwrite] at hleaves
      exact ⟨_, _, .sent _ _ rfl rfl rfl, hleaves.outputs, hleaves.cardState⟩

private theorem failedDLR_handled {ref : ℕ} (href : s.states.cardStates event.cardID = some ref)
    (hok : ((failedDLR ans event campaignID ref).run workerSemantics s).value = .ok ()) :
    ∃ ctx after outs, ans.context = .ok ctx ∧
      FailureHandled ans event campaignID ctx.params.maxRetries
        (s.states.objects event.cardID ref) after outs ∧
      Acts s event.cardID ((failedDLR ans event campaignID ref).run workerSemantics s)
        after outs := by
  cases hctx : ans.context with
  | error err => simp [failedDLR, hctx] at hok
  | ok ctx =>
    by_cases hlimit : (s.states.objects event.cardID ref).retryCount + 1 < ctx.params.maxRetries
    · cases hevent : ans.eventError with
      | some err => simp [failedDLR, hctx, hlimit, publishEvent, hevent] at hok
      | none =>
        refine ⟨ctx, _, _, rfl, .again hlimit, ?_, ?_⟩
        · simp [failedDLR, hctx, hlimit, publishEvent, hevent, visible]
        · rw [← cardState_of_ref href, update_eq_self]
          simp [failedDLR, hctx, hlimit, publishEvent, hevent]
    · cases hwrite : ans.writeError with
      | some err =>
        simp [failedDLR, hctx, hlimit, failCard, finishCard, writeCardState, hwrite] at hok
      | none =>
        obtain ⟨after, outs, evicted, hout, hyields⟩ := failCard_outcome ans event campaignID 1
          ("DLR status: " ++ event.dlrStatus.text ++ " (error_code: " ++ event.errorCode ++ ")")
          true .inProgress href
        have hacts : Acts s event.cardID ((failedDLR ans event campaignID ref).run
            workerSemantics s) after outs := by
          simpa [failedDLR, hctx, hlimit] using hyields.acts
        refine ⟨ctx, after, outs, rfl, ?_, hacts⟩
        have hevicted := hout.written hwrite
        cases hout.outcome with
        | written hch => exact .gaveUp hlimit hch
        | unwritten hst => cases hevicted

/-- **A failing report without an error**, for a card that waits for it. -/
theorem handleDLR_failureHandled {st : CardState} (hst : s.cardState event.cardID = some st)
    (hstatus : st.status = .awaitingDlr) (hfailure : event.dlrStatus.isFailure = true)
    (hok : ((handleDLR ans event campaignID).run workerSemantics s).value = .ok ()) :
    ∃ ctx after outs, ans.context = .ok ctx ∧
      FailureHandled ans event campaignID ctx.params.maxRetries st after outs ∧
      Acts s event.cardID ((handleDLR ans event campaignID).run workerSemantics s) after outs := by
  obtain ⟨ref, href, rfl, hget⟩ := run_getCardState_hit hst ans.row
  have hact : actOnDLR ans event campaignID ref = failedDLR ans event campaignID ref := by
    rw [actOnDLR]
    cases hdlr : event.dlrStatus <;> rw [hdlr] at hfailure <;> first | rfl | cases hfailure
  have hrun : (handleDLR ans event campaignID).run workerSemantics s
      = let r := (failedDLR ans event campaignID ref).run workerSemantics s
        ⟨r.value, r.state, ((logDLR event).run workerSemantics s).outputs ++ r.outputs⟩ := by
    simp [handleDLR, hget, hstatus, hact]
  rw [hrun] at hok ⊢
  obtain ⟨ctx, after, outs, hctx, hhandled, hacts⟩ := failedDLR_handled href hok
  exact ⟨ctx, after, outs, hctx, hhandled, hacts.after_log (visible_logDLR s event)⟩

end Calls

/-! ## The history of a card -/

def TraceEvent.isCallFor (cardID : UUID) : TraceEvent → Bool
  | .handled ev _ => ev.cardID = cardID
  | _ => false

def TraceEvent.isReportFor (cardID : UUID) : TraceEvent → Bool
  | .handled ev _ => ev.cardID = cardID ∧ ev.type = .dlrReceived
  | _ => false

structure History where
  sent : List Output
  reports : ℕ
  calls : ℕ
deriving DecidableEq

/-- What happened to a card in a part of a trace. -/
def historyOf (cardID : UUID) (trace : List TraceEvent) : History where
  sent := (outputsOf trace).filter fun out ↦ out.cardID = some cardID
  reports := trace.countP (TraceEvent.isReportFor cardID)
  calls := trace.countP (TraceEvent.isCallFor cardID)

/-- What happened to a card since the trace had the given length. -/
def Engine.cardHistory (s : Engine) (start : ℕ) (cardID : UUID) : History :=
  historyOf cardID (s.trace.drop start)

/-- The activations of a card that wait for a handler or a timer. -/
def Engine.waitingFor (s : Engine) (cardID : UUID) : List CardEvent :=
  s.waiting.filter fun ev ↦ ev.cardID = cardID

section History

variable {cfg : EngineConfig} {s s' : Engine} {ev : CardEvent} {answered : Option UUID}
  {after : Option CardState} {outs : List Output} {counters : CounterStore} {cardID : UUID}
  {start : ℕ}

private theorem filter_cardID_visible (raw : List Output) :
    raw.filter (fun out ↦ out.cardID = some cardID)
      = (visible raw).filter fun out ↦ out.cardID = some cardID := by
  rw [visible, filter_filter]
  refine filter_congr fun out _ ↦ ?_
  cases out <;> simp [Output.cardID]

private theorem countP_outputs {p : TraceEvent → Bool} (hp : ∀ out, p (.output out) = false)
    (raw : List Output) : (raw.map TraceEvent.output).countP p = 0 := by
  rw [countP_eq_zero]
  intro e he
  obtain ⟨out, -, rfl⟩ := mem_map.mp he
  rw [hp]
  exact Bool.false_ne_true

variable (h : Handles s s' ev answered after outs counters)

include h

variable (hstart : start ≤ s.trace.length)

include hstart

theorem Engine.Handles.le_length : start ≤ s'.trace.length := by
  obtain ⟨raw, -, htrace⟩ := h.trace
  rw [htrace, length_append]
  exact hstart.trans (Nat.le_add_right _ _)

theorem Engine.Handles.history_eq : s'.cardHistory start cardID =
      ⟨(s.cardHistory start cardID).sent ++ outs.filter fun out ↦ out.cardID = some cardID,
        (s.cardHistory start cardID).reports +
          if ev.cardID = cardID ∧ ev.type = .dlrReceived then 1 else 0,
        (s.cardHistory start cardID).calls + if ev.cardID = cardID then 1 else 0⟩ := by
  obtain ⟨raw, rfl, htrace⟩ := h.trace
  rw [cardHistory, htrace, drop_append_of_le_length hstart, historyOf, outputsOf_append,
    outputsOf_handled, filter_append, filter_cardID_visible raw, countP_append,
    countP_append, countP_cons, countP_cons, countP_outputs fun _ ↦ rfl, countP_outputs fun _ ↦ rfl]
  simp [TraceEvent.isReportFor, TraceEvent.isCallFor, cardHistory, historyOf]

theorem Engine.Handles.history_of_ne (houts : ∀ out ∈ outs, out.cardID = some ev.cardID)
    (hne : ev.cardID ≠ cardID) : s'.cardHistory start cardID = s.cardHistory start cardID := by
  have hsent : outs.filter (fun out ↦ out.cardID = some cardID) = [] := by
    rw [filter_eq_nil_iff]
    intro out hout
    rw [houts out hout, decide_eq_true_eq, Option.some_inj]
    exact hne
  rw [h.history_eq hstart, hsent, append_nil, if_neg hne, if_neg fun hand ↦ hne hand.1]
  rfl

theorem Engine.Handles.history_self (houts : ∀ out ∈ outs, out.cardID = some ev.cardID) :
    s'.cardHistory start ev.cardID = ⟨(s.cardHistory start ev.cardID).sent ++ outs,
        (s.cardHistory start ev.cardID).reports + if ev.type = .dlrReceived then 1 else 0,
        (s.cardHistory start ev.cardID).calls + 1⟩ := by
  have hsent : outs.filter (fun out ↦ out.cardID = some ev.cardID) = outs :=
    filter_eq_self.mpr fun out hout ↦ decide_eq_true (houts out hout)
  rw [h.history_eq hstart, hsent, if_pos rfl]
  simp only [true_and]

omit hstart

variable (hmem : ev.type = .activate → ev ∈ s.activateCh)

include hmem

theorem Engine.Handles.waitingFor_perm (cardID : UUID) : (s'.waitingFor cardID).Perm
      ((if ev.type = .activate then (s.waitingFor cardID).erase ev else s.waitingFor cardID) ++
        (eventsOf outs ++ delayedOf outs).filter fun ev ↦ ev.cardID = cardID) := by
  have hleft : ((if ev.type = .activate then s.activateCh.erase ev else s.activateCh) ++ s.delayed)
      = if ev.type = .activate then s.waiting.erase ev else s.waiting := by
    split_ifs with htype
    · exact (erase_append_left _ (hmem htype)).symm
    · rfl
  have hperm := (waiting_of_handles h).filter fun ev ↦ ev.cardID = cardID
  rwa [hleft, filter_append, apply_ite (filter _), ← erase_filter] at hperm

omit h in
omit hmem in
private theorem cardID_of_mem_filterMap {f : Output → Option CardEvent}
    (hf : ∀ out e, f out = some e → out.cardID = some e.cardID)
    (houts : ∀ out ∈ outs, out.cardID = some cardID) {e : CardEvent}
    (he : e ∈ outs.filterMap f) : e.cardID = cardID := by
  obtain ⟨out, hout, he⟩ := mem_filterMap.mp he
  exact Option.some.inj ((hf out e he).symm.trans (houts out hout))

omit hmem in
omit h in
private theorem cardID_of_mem_events (houts : ∀ out ∈ outs, out.cardID = some cardID) :
    ∀ e ∈ eventsOf outs ++ delayedOf outs, e.cardID = cardID := by
  intro e he
  rcases mem_append.mp he with he | he
  · refine cardID_of_mem_filterMap (fun out e he ↦ ?_) houts he
    cases out with
    | event ev => exact congrArg (some ∘ CardEvent.cardID) (Option.some.inj he)
    | _ => exact absurd he.symm (Option.some_ne_none _)
  · refine cardID_of_mem_filterMap (fun out e he ↦ ?_) houts he
    cases out with
    | delayed ev => exact congrArg (some ∘ CardEvent.cardID) (Option.some.inj he)
    | _ => exact absurd he.symm (Option.some_ne_none _)

theorem Engine.Handles.waitingFor_of_ne (houts : ∀ out ∈ outs, out.cardID = some ev.cardID)
    (hne : ev.cardID ≠ cardID) : (s'.waitingFor cardID).Perm (s.waitingFor cardID) := by
  have hnew : (eventsOf outs ++ delayedOf outs).filter (fun ev ↦ ev.cardID = cardID) = [] := by
    rw [filter_eq_nil_iff]
    intro e he
    rw [cardID_of_mem_events houts e he, decide_eq_true_eq]
    exact hne
  have hnot : ev ∉ s.waitingFor cardID := fun hev ↦
    hne (of_decide_eq_true (mem_filter.mp hev).2)
  have hperm := h.waitingFor_perm hmem cardID
  rwa [hnew, append_nil, erase_of_not_mem hnot, ite_self] at hperm

theorem Engine.Handles.waitingFor_self (houts : ∀ out ∈ outs, out.cardID = some ev.cardID) :
    (s'.waitingFor ev.cardID).Perm ((if ev.type = .activate then (s.waitingFor ev.cardID).erase ev
        else s.waitingFor ev.cardID) ++ (eventsOf outs ++ delayedOf outs)) := by
  have hnew : (eventsOf outs ++ delayedOf outs).filter (fun e ↦ e.cardID = ev.cardID)
      = eventsOf outs ++ delayedOf outs :=
    filter_eq_self.mpr fun e he ↦ decide_eq_true (cardID_of_mem_events houts e he)
  have hperm := h.waitingFor_perm hmem ev.cardID
  rwa [hnew] at hperm

omit hmem

omit h

theorem Engine.cardHistory_next {a : EngineAction}
    (ha : ∀ ev ans answered, a ≠ .handle ev ans answered) (hstart : start ≤ s.trace.length) :
    start ≤ (s.next cfg a).trace.length ∧
      (s.next cfg a).cardHistory start cardID = s.cardHistory start cardID := by
  obtain ⟨more, htrace, hmore⟩ := s.exists_trace_next cfg ha
  have hcount : ∀ p : TraceEvent → Bool, (∀ e, e.isSilent → p e = false) → more.countP p = 0 :=
    fun p hp ↦ countP_eq_zero.mpr fun e he ↦ ne_true_of_eq_false (hp e (hmore e he))
  have hreports : more.countP (TraceEvent.isReportFor cardID) = 0 := by
    refine hcount _ fun e he ↦ ?_
    cases e with
    | handled ev answered => exact absurd he id
    | _ => rfl
  have hcalls : more.countP (TraceEvent.isCallFor cardID) = 0 := by
    refine hcount _ fun e he ↦ ?_
    cases e with
    | handled ev answered => exact absurd he id
    | _ => rfl
  refine ⟨?_, ?_⟩
  · rw [htrace, length_append]
    exact hstart.trans (Nat.le_add_right _ _)
  · rw [cardHistory, htrace, drop_append_of_le_length hstart, historyOf,
      outputsOf_append, outputsOf_of_silent hmore, append_nil, countP_append,
      countP_append, hreports, hcalls]
    rfl

theorem Engine.waitingFor_next {a : EngineAction}
    (ha : ∀ ev ans answered, a ≠ .handle ev ans answered)
    (hplan : ∀ ev, a = .plan ev → ev.cardID ≠ cardID) (henabled : s.Enabled cfg a) :
    ((s.next cfg a).waitingFor cardID).Perm (s.waitingFor cardID) := by
  cases a with
  | handle ev ans answered => exact absurd rfl (ha ev ans answered)
  | plan ev =>
    refine ((s.waiting_plan cfg ev).filter _).trans (Perm.of_eq ?_)
    have hev : [ev].filter (fun e ↦ e.cardID = cardID) = [] := by
      rw [filter_eq_nil_iff]
      exact forall_mem_singleton.mpr fun hev ↦ hplan ev rfl (of_decide_eq_true hev)
    rw [filter_append, hev, append_nil, waitingFor]
  | release ev => exact (waiting_release cfg henabled).filter _
  | preloadShard campaignID cardIDs keys rows => cases keys <;> exact Perm.refl _
  | check campaignID => exact (Perm.of_eq (s.waiting_check campaignID)).filter _
  | _ => exact Perm.refl _

/-- An activation of the card that is handled is one of those that wait. -/
theorem Engine.mem_waitingFor (h : ev ∈ s.activateCh) : ev ∈ s.waitingFor ev.cardID :=
  mem_filter.mpr ⟨mem_append_left _ h, decide_eq_true rfl⟩

end History

/-! ## Stages -/

/-- `n` messages were published for the step, numbered from zero: each comes with the transition to
`in_progress` that has its identifier and its number. -/
structure Underway (step : ℤ) (n : ℕ) (sent : List Output) : Prop where
  length_eq : (smsOf sent).length = n
  step_eq : ∀ p ∈ smsOf sent, p.2.step = step
  /-- Their transitions, and no others. -/
  changes_eq : ((changesOf sent).map fun ch ↦
      (ch.status, ch.currentStep, ch.retryCount, ch.lastMsgID))
    = (smsOf sent).mapIdx fun r p ↦ (.inProgress, step, (r : ℤ), some p.1.msgID)

/-- After `n` messages the card was failed, and this is the last thing that was sent. -/
def Exhausted (step : ℤ) (n : ℕ) (sent : List Output) : Prop :=
  ∃ before ch, sent = before ++ [.change ch] ∧ ch.status = .failed ∧ Underway step n before

variable {outs : List Output}

section Underway

variable {step : ℤ} {n : ℕ} {sent : List Output}

theorem underway_nil (step : ℤ) : Underway step 0 [] := ⟨rfl, forall_mem_nil _, rfl⟩

theorem Underway.append_of_eq_nil (h : Underway step n sent)
    (hsms : smsOf outs = []) (hchanges : changesOf outs = []) : Underway step n (sent ++ outs) := by
  have hsms' : smsOf (sent ++ outs) = smsOf sent := by
    rw [smsOf_append, hsms, append_nil]
  have hchanges' : changesOf (sent ++ outs) = changesOf sent := by
    rw [changesOf_append, hchanges, append_nil]
  refine ⟨?_, ?_, ?_⟩
  · rw [hsms']
    exact h.length_eq
  · rw [hsms']
    exact h.step_eq
  · rw [hsms', hchanges']
    exact h.changes_eq

theorem Underway.append_sms (h : Underway step n sent) {msg : SendSMSMessage}
    {origin : PacketOrigin} {ch : CardStateChange} (horigin : origin.step = step)
    (hch : (ch.status, ch.currentStep, ch.retryCount, ch.lastMsgID)
      = (CardStatus.inProgress, step, (n : ℤ), some msg.msgID)) :
    Underway step (n + 1) (sent ++ [.sms msg origin, .change ch]) := by
  have hsms : smsOf (sent ++ [.sms msg origin, .change ch]) = smsOf sent ++ [(msg, origin)] :=
    smsOf_append ..
  have hchanges : changesOf (sent ++ [.sms msg origin, .change ch]) = changesOf sent ++ [ch] :=
    changesOf_append ..
  refine ⟨?_, ?_, ?_⟩
  · rw [hsms, length_append, h.length_eq, length_singleton]
  · rw [hsms]
    intro p hp
    rcases mem_append.mp hp with hp | hp
    · exact h.step_eq p hp
    · rw [mem_singleton.mp hp]
      exact horigin
  · rw [hsms, hchanges, map_append, map_singleton, hch, h.changes_eq, mapIdx_concat, h.length_eq]

theorem Exhausted.length_eq (h : Exhausted step n sent) : (smsOf sent).length = n := by
  obtain ⟨before, ch, rfl, -, hunder⟩ := h
  have hsms : smsOf (before ++ [.change ch]) = smsOf before ++ [] := smsOf_append ..
  rw [hsms, append_nil, hunder.length_eq]

end Underway

/-- Every call so far sent a message, was refused by the throttle, or took a report. -/
def History.Counted (h : History) : Prop :=
  h.calls = (smsOf h.sent).length + (delayedOf h.sent).length + h.reports

theorem History.Counted.call {h : History} (hcounted : h.Counted)
    {reports : ℕ} (hone : (smsOf outs).length + (delayedOf outs).length + reports = 1) :
    Counted ⟨h.sent ++ outs, h.reports + reports, h.calls + 1⟩ := by
  have hdelayed : delayedOf (h.sent ++ outs) = delayedOf h.sent ++ delayedOf outs :=
    filterMap_append
  rw [Counted] at hcounted ⊢
  dsimp only
  rw [smsOf_append, hdelayed, length_append, length_append, hcounted]
  omega

structure CardEvent.IsAttempt (ev : CardEvent) (campaignID : UUID) (step : ℤ) (n : ℕ) : Prop where
  type_eq : ev.type = .activate
  campaignID_eq : ev.campaignID = some campaignID
  step_eq : ev.step = step
  retryCount_eq : ev.retryCount = n

/-- The card waits for the report on the attempt with the given number. -/
structure CardState.AwaitsAttempt (st : CardState) (step : ℤ) (n : ℕ) : Prop where
  status_eq : st.status = .awaitingDlr
  currentStep_eq : st.currentStep = step
  retryCount_eq : st.retryCount = n

/-- **The stages of a card**: its history, the activations that wait and the cached state. Only the
stage in which a message is out depends on the cache, the number of the attempt is nowhere else
then. -/
inductive Attempting (campaignID : UUID) (step : ℤ) (limit : ℕ) (h : History) :
    List CardEvent → Option CardState → Prop
  | waits {ev : CardEvent} {cached : Option CardState} {n : ℕ} (hn : n < limit)
      (hev : ev.IsAttempt campaignID step n) (hsent : Underway step n h.sent)
      (hreports : h.reports = n) : Attempting campaignID step limit h [ev] cached
  | awaits {st : CardState} {n : ℕ} (hn : n < limit) (hst : st.AwaitsAttempt step n)
      (hsent : Underway step (n + 1) h.sent) (hreports : h.reports = n) :
    Attempting campaignID step limit h [] (some st)
  | done {cached : Option CardState} (hsent : Exhausted step limit h.sent)
      (hreports : h.reports = limit) : Attempting campaignID step limit h [] cached

structure InCourse (cardID campaignID : UUID) (step : ℤ) (limit start : ℕ) (s : Engine) :
    Prop where
  start_le : start ≤ s.trace.length
  counted : (s.cardHistory start cardID).Counted
  stage : Attempting campaignID step limit (s.cardHistory start cardID) (s.waitingFor cardID)
    (s.process.cardState cardID)

/-- A handler takes an event of the card, and returns without an error. An activation finds the
campaign running, and a timer when the throttle refuses it. A report is a failing one, for the
campaign, and there is a message that was not reported on. There is no response. -/
def Engine.AttemptFails (cfg : EngineConfig) (campaignID : UUID) (start : ℕ) (s : Engine)
    (ev : CardEvent) (ans : Answers) : Prop :=
  ((handleCardEvent cfg.lib cfg.cryptoProvider ans ev).run workerSemantics s.process).value
    = .ok () ∧
  match ev.type with
  | .activate => ans.campaignStatus = .ok .running ∧ (ans.refuses = true → ans.retrySlot = true)
  | .dlrReceived =>
    ev.campaignID = some campaignID ∧ ev.dlrStatus.isFailure = true ∧
    (s.cardHistory start ev.cardID).reports < (smsOf (s.cardHistory start ev.cardID).sent).length
  | .moReceived => False

/-- **The condition.** The planner publishes no other activation of the card, and its messages are
answered by failing reports. -/
def AnsweredByFailure (cfg : EngineConfig) (cardID campaignID : UUID) (start : ℕ) (s : Engine) :
    EngineAction → Prop
  | .plan ev => ev.cardID ≠ cardID
  | .handle ev ans _ => ev.cardID = cardID → s.AttemptFails cfg campaignID start ev ans
  | _ => True

instance (cfg : EngineConfig) (campaignID : UUID) (start : ℕ) (s : Engine) (ev : CardEvent)
    (ans : Answers) : Decidable (s.AttemptFails cfg campaignID start ev ans) := by
  unfold AttemptFails
  refine @instDecidableAnd _ _ inferInstance ?_
  cases ev.type <;> infer_instance

instance (cfg : EngineConfig) (cardID campaignID : UUID) (start : ℕ) (s : Engine) :
    (a : EngineAction) → Decidable (AnsweredByFailure cfg cardID campaignID start s a)
  | .plan ev => inferInstanceAs (Decidable (ev.cardID ≠ cardID))
  | .handle ev ans _ => inferInstanceAs
    (Decidable (ev.cardID = cardID → s.AttemptFails cfg campaignID start ev ans))
  | .release _ | .lookup _ _ | .flush _ _ | .preloadShard _ _ _ _ | .initCampaign _ _ _ _
  | .reset _ _ _ _ | .abort _ _ | .check _ => isTrue trivial

variable {cached : Option CardState}

section Steps

variable {cfg : EngineConfig} {s s' : Engine} {cardID campaignID : UUID} {step : ℤ}
  {limit start : ℕ}

theorem InCourse.frame (h : InCourse cardID campaignID step limit start s)
    (hstart : start ≤ s'.trace.length)
    (hhistory : s'.cardHistory start cardID = s.cardHistory start cardID)
    (hwaiting : (s'.waitingFor cardID).Perm (s.waitingFor cardID))
    (hcached : ∀ st, s.process.cardState cardID = some st →
      s'.process.cardState cardID = some st) : InCourse cardID campaignID step limit start s' := by
  refine ⟨hstart, hhistory ▸ h.counted, ?_⟩
  rw [hhistory]
  have hstage := h.stage
  generalize s.waitingFor cardID = waiting at hwaiting hstage
  generalize s.process.cardState cardID = cached at hcached hstage
  cases hstage with
  | waits hn hev hsent hreports =>
    rw [perm_singleton.mp hwaiting]
    exact .waits hn hev hsent hreports
  | awaits hn hst hsent hreports =>
    rw [perm_nil.mp hwaiting, hcached _ rfl]
    exact .awaits hn hst hsent hreports
  | done hsent hreports =>
    rw [perm_nil.mp hwaiting]
    exact .done hsent hreports

theorem Attempting.of_mem {h : History} {waiting : List CardEvent} {ev : CardEvent}
    (hstage : Attempting campaignID step limit h waiting cached) (hmem : ev ∈ waiting) :
    ∃ n < limit, waiting = [ev] ∧ ev.IsAttempt campaignID step n ∧ Underway step n h.sent ∧
      h.reports = n := by
  cases hstage with
  | waits hn hev hsent hreports =>
    obtain rfl := mem_singleton.mp hmem
    exact ⟨_, hn, rfl, hev, hsent, hreports⟩
  | awaits _ _ _ _ | done _ _ => exact absurd hmem not_mem_nil

theorem Attempting.of_lt {h : History} {waiting : List CardEvent}
    (hstage : Attempting campaignID step limit h waiting cached)
    (hlt : h.reports < (smsOf h.sent).length) :
    ∃ n < limit, ∃ st, waiting = [] ∧ cached = some st ∧ st.AwaitsAttempt step n ∧
      Underway step (n + 1) h.sent ∧ h.reports = n := by
  cases hstage with
  | waits hn hev hsent hreports =>
    rw [hreports, hsent.length_eq] at hlt
    exact absurd hlt (lt_irrefl _)
  | awaits hn hst hsent hreports => exact ⟨_, hn, _, rfl, rfl, hst, hsent, hreports⟩
  | done hsent hreports =>
    rw [hreports, hsent.length_eq] at hlt
    exact absurd hlt (lt_irrefl _)

/-- At every stage the messages are within the limit and no report is missing one. -/
theorem Attempting.bounds {h : History} {waiting : List CardEvent}
    (hstage : Attempting campaignID step limit h waiting cached) :
    (smsOf h.sent).length ≤ limit ∧ h.reports ≤ (smsOf h.sent).length := by
  cases hstage with
  | waits hn hev hsent hreports =>
    rw [hsent.length_eq, hreports]
    exact ⟨hn.le, le_rfl⟩
  | awaits hn hst hsent hreports =>
    rw [hsent.length_eq, hreports]
    exact ⟨hn, Nat.le_succ _⟩
  | done hsent hreports =>
    rw [hsent.length_eq, hreports]
    exact ⟨le_rfl, le_rfl⟩

theorem Attempting.exhausted {h : History} (hstage : Attempting campaignID step limit h [] cached)
    (hreported : h.reports = (smsOf h.sent).length) : Exhausted step limit h.sent := by
  cases hstage with
  | awaits hn hst hsent hreports =>
    rw [hreports, hsent.length_eq] at hreported
    exact absurd hreported (Nat.succ_ne_self _).symm
  | done hsent hreports => exact hsent

theorem InCourse.call {ev : CardEvent} {answered : Option UUID} {after : Option CardState}
    {counters : CounterStore} (h : InCourse ev.cardID campaignID step limit start s)
    (hh : Handles s s' ev answered after outs counters)
    (houts : ∀ out ∈ outs, out.cardID = some ev.cardID)
    (hone : (smsOf outs).length + (delayedOf outs).length +
      (if ev.type = .dlrReceived then 1 else 0) = 1) (hstage : Attempting campaignID step limit
      ⟨(s.cardHistory start ev.cardID).sent ++ outs,
        (s.cardHistory start ev.cardID).reports + if ev.type = .dlrReceived then 1 else 0,
        (s.cardHistory start ev.cardID).calls + 1⟩ (s'.waitingFor ev.cardID) after) :
    InCourse ev.cardID campaignID step limit start s' := by
  have hhistory := hh.history_self h.start_le houts
  refine ⟨hh.le_length h.start_le, ?_, ?_⟩
  · rw [hhistory]
    exact h.counted.call hone
  · rw [hhistory, hh.cardState, update_self]
    exact hstage

theorem InCourse.activated {ev : CardEvent} {ans : Answers} {answered : Option UUID}
    {after : Option CardState} {outs : List Output} {counters : CounterStore}
    (h : InCourse ev.cardID campaignID step limit start s) (hmem : ev ∈ s.activateCh)
    (hh : Handles s s' ev answered after outs counters)
    (hact : Activated s.process ans ev campaignID after outs) :
    InCourse ev.cardID campaignID step limit start s' := by
  obtain ⟨n, hn, hwaiting, hev, hsent, hreports⟩ := h.stage.of_mem (mem_waitingFor hmem)
  have htype : ev.type ≠ .dlrReceived := by
    rw [hev.type_eq]
    decide
  -- the activation was the only one
  have hleft : (s.waitingFor ev.cardID).erase ev = [] := by
    rw [hwaiting, erase_cons_head]
  cases hact with
  | delayed =>
    have houts : ∀ out ∈ [Output.delayed
        (activation ans ev.cardID campaignID ev.step ev.retryCount)],
        out.cardID = some ev.cardID := forall_mem_singleton.mpr rfl
    have hperm := hh.waitingFor_self (fun _ ↦ hmem) houts
    rw [if_pos hev.type_eq, hleft] at hperm
    refine h.call hh houts (by rw [if_neg htype]; rfl) ?_
    rw [perm_singleton.mp hperm, if_neg htype]
    exact .waits hn ⟨rfl, rfl, hev.step_eq, hev.retryCount_eq⟩
      (hsent.append_of_eq_nil rfl rfl) hreports
  | sent msg origin hid hcard horigin =>
    have houts : ∀ out ∈ [Output.sms msg origin, .change (activateChange ans ev campaignID)],
        out.cardID = some ev.cardID :=
      forall_mem_cons.mpr ⟨congrArg some hcard, forall_mem_singleton.mpr rfl⟩
    have hperm := hh.waitingFor_self (fun _ ↦ hmem) houts
    rw [if_pos hev.type_eq, hleft] at hperm
    refine h.call hh houts (by rw [if_neg htype]; rfl) ?_
    rw [perm_nil.mp hperm, if_neg htype]
    refine .awaits hn ⟨rfl, hev.step_eq, hev.retryCount_eq⟩
      (hsent.append_sms (horigin.trans hev.step_eq) ?_) hreports
    rw [activateChange, hev.step_eq, hev.retryCount_eq, hid]

theorem InCourse.reported {ev : CardEvent} {ans : Answers} {answered : Option UUID}
    {after : Option CardState} {counters : CounterStore} {maxRetries : ℤ}
    (h : InCourse ev.cardID campaignID step limit start s) (hlimit : (limit : ℤ) = max 1 maxRetries)
    (htype : ev.type = .dlrReceived) (hh : Handles s s' ev answered after outs counters)
    {st : CardState} (hst : s.process.cardState ev.cardID = some st)
    (hlt : (s.cardHistory start ev.cardID).reports
      < (smsOf (s.cardHistory start ev.cardID).sent).length)
    (hfailed : FailureHandled ans ev campaignID maxRetries st after outs) :
    InCourse ev.cardID campaignID step limit start s' := by
  obtain ⟨n, hn, st', hwaiting, hcached, hst', hsent, hreports⟩ := h.stage.of_lt hlt
  obtain rfl : st = st' := Option.some.inj (hst.symm.trans hcached)
  have hne : ev.type ≠ .activate := by
    rw [htype]
    decide
  cases hfailed with
  | again hagain =>
    have houts : ∀ out ∈ [Output.event
        (activation ans ev.cardID campaignID st.currentStep (st.retryCount + 1))],
        out.cardID = some ev.cardID := forall_mem_singleton.mpr rfl
    have hperm := hh.waitingFor_self (fun hact ↦ absurd hact hne) houts
    rw [if_neg hne, hwaiting] at hperm
    refine h.call hh houts (by rw [if_pos htype]; rfl) ?_
    rw [perm_singleton.mp hperm, if_pos htype]
    refine .waits (n := n + 1) ?_ ⟨rfl, rfl, hst'.currentStep_eq, ?_⟩
      (hsent.append_of_eq_nil rfl rfl) (congrArg (· + 1) hreports)
    · rw [hst'.retryCount_eq] at hagain
      omega
    · rw [activation, hst'.retryCount_eq]
      rfl
  | @gaveUp ch hgave hch =>
    have houts : ∀ out ∈ [Output.change ch], out.cardID = some ev.cardID :=
      forall_mem_singleton.mpr (congrArg some hch.cardID_eq)
    have hperm := hh.waitingFor_self (fun hact ↦ absurd hact hne) houts
    rw [if_neg hne, hwaiting] at hperm
    -- this was the last attempt
    have hlast : limit = n + 1 := by
      rw [hst'.retryCount_eq] at hgave
      omega
    refine h.call hh houts (by rw [if_pos htype]; rfl) ?_
    rw [perm_nil.mp hperm, if_pos htype]
    refine .done ⟨_, ch, rfl, hch.status_eq, ?_⟩ ?_
    · rw [hlast]
      exact hsent
    · rw [hlast]
      exact congrArg (· + 1) hreports

theorem InCourse.handle {ev : CardEvent} {ans : Answers} {answered : Option UUID}
    (h : InCourse ev.cardID campaignID step limit start s)
    (hlimit : (limit : ℤ) = max 1 (cfg.contexts campaignID).params.maxRetries)
    (henabled : s.Enabled cfg (.handle ev ans answered))
    (hguard : s.AttemptFails cfg campaignID start ev ans) :
    InCourse ev.cardID campaignID step limit start (s.handle cfg ev ans answered) := by
  obtain ⟨hok, hguard⟩ := hguard
  cases htype : ev.type with
  | activate =>
    simp only [htype] at hguard
    obtain ⟨hstatus, hslot⟩ := hguard
    have hmem := henabled.1 htype
    obtain ⟨n, -, -, hev, -, -⟩ := h.stage.of_mem (mem_waitingFor hmem)
    have hcall := handleCardEvent_activate cfg.lib cfg.cryptoProvider ans htype hev.campaignID_eq
    rw [hcall] at hok
    obtain ⟨after, outs, hact, hacts⟩ := handleActivate_activated hstatus
      (fun ctx hctx hthrottled ↦ hslot ((Answers.refuses_eq hctx).trans hthrottled)) hok
    rw [← hcall] at hacts
    exact h.activated hmem (handles_of_leaves ⟨hacts.outputs, hacts.cardState, rfl⟩ answered)
      hact
  | dlrReceived =>
    simp only [htype] at hguard
    obtain ⟨hcampaign, hfailure, hlt⟩ := hguard
    obtain ⟨n, -, st, -, hcached, hst, -, -⟩ := h.stage.of_lt hlt
    have hcall := handleCardEvent_dlr cfg.lib cfg.cryptoProvider ans htype hcampaign
    rw [hcall] at hok
    obtain ⟨ctx, after, outs, hctx, hfailed, hacts⟩ :=
      handleDLR_failureHandled hcached hst.status_eq hfailure hok
    rw [← hcall] at hacts
    -- the context is that of the campaign
    obtain rfl : ctx = cfg.contexts campaignID := by
      have hcontext := henabled.2.2.1
      rwa [eventCampaign, hcampaign, hctx] at hcontext
    exact h.reported hlimit htype
      (handles_of_leaves ⟨hacts.outputs, hacts.cardState, rfl⟩ answered) hcached hlt hfailed
  | moReceived =>
    simp only [htype] at hguard

theorem InCourse.aside (h : InCourse cardID campaignID step limit start s)
    {a : EngineAction} (ha : ∀ ev ans answered, a ≠ .handle ev ans answered)
    (hplan : ∀ ev, a = .plan ev → ev.cardID ≠ cardID) (henabled : s.Enabled cfg a)
    (hcached : ∀ st, s.process.cardState cardID = some st →
      (s.next cfg a).process.cardState cardID = some st) :
    InCourse cardID campaignID step limit start (s.next cfg a) := by
  obtain ⟨hstart, hhistory⟩ := cardHistory_next ha h.start_le
  exact h.frame hstart hhistory (waitingFor_next ha hplan henabled) hcached

theorem InCourse.next (h : InCourse cardID campaignID step limit start s)
    (hlimit : (limit : ℤ) = max 1 (cfg.contexts campaignID).params.maxRetries) {a : EngineAction}
    (henabled : s.Enabled cfg a) (hguard : AnsweredByFailure cfg cardID campaignID start s a) :
    InCourse cardID campaignID step limit start (s.next cfg a) := by
  cases a with
  | handle ev ans answered =>
    by_cases hcard : ev.cardID = cardID
    · subst hcard
      exact h.handle hlimit henabled (hguard rfl)
    · obtain ⟨after, outs, counters, hout, hh⟩ := s.handle_cases cfg ev ans answered
      refine h.frame (hh.le_length h.start_le) (hh.history_of_ne h.start_le hout.cardID_eq hcard)
        (hh.waitingFor_of_ne henabled.1 hout.cardID_eq hcard) fun st hst ↦ ?_
      rw [Engine.next, hh.cardState, update_of_ne (Ne.symm hcard)]
      exact hst
  | plan ev =>
    refine h.aside (fun _ _ _ ↦ EngineAction.noConfusion) (fun ev' hev' ↦ ?_) henabled
      fun _ hst ↦ hst
    obtain rfl := EngineAction.plan.inj hev'
    exact hguard
  | lookup card row =>
    refine h.aside (fun _ _ _ ↦ EngineAction.noConfusion) (fun _ ↦ EngineAction.noConfusion)
      henabled fun st hst ↦ ?_
    rw [cardState_lookup]
    by_cases hc : cardID = card
    · subst hc
      rw [update_self, Process.found_of_cardState hst]
    · rw [update_of_ne hc]
      exact hst
  | preloadShard campaignID cardIDs keys rows =>
    have hsame : s.Same (s.next cfg (.preloadShard campaignID cardIDs keys rows)) :=
      s.same_next cfg trivial
    exact h.aside (fun _ _ _ ↦ EngineAction.noConfusion) (fun _ ↦ EngineAction.noConfusion)
      henabled fun st hst ↦ (congrFun hsame.cardState cardID).trans hst
  | check campaignID =>
    have hsame : s.Same (s.next cfg (.check campaignID)) := s.same_next cfg trivial
    exact h.aside (fun _ _ _ ↦ EngineAction.noConfusion) (fun _ ↦ EngineAction.noConfusion)
      henabled fun st hst ↦ (congrFun hsame.cardState cardID).trans hst
  | _ =>
    exact h.aside (fun _ _ _ ↦ EngineAction.noConfusion) (fun _ ↦ EngineAction.noConfusion)
      henabled fun _ hst ↦ hst

end Steps

/-! ## Runs -/

/-- One activation of the card waits, and it is the first attempt of the step. -/
def FirstActivation (cardID campaignID : UUID) (step : ℤ) (s : Engine) : Prop :=
  ∃ ev, s.waitingFor cardID = [ev] ∧ ev.IsAttempt campaignID step 0

/-- No activation of the card waits, and every message was reported on. -/
def AllReported (cardID : UUID) (start : ℕ) (s : Engine) : Prop :=
  s.waitingFor cardID = [] ∧
    (s.cardHistory start cardID).reports = (smsOf (s.cardHistory start cardID).sent).length

theorem FirstActivation.inCourse {cardID campaignID : UUID} {step : ℤ} {s : Engine}
    (h : FirstActivation cardID campaignID step s) {limit : ℕ} (hlimit : 0 < limit) :
    InCourse cardID campaignID step limit s.trace.length s := by
  obtain ⟨ev, hwaiting, hev⟩ := h
  have hhistory : s.cardHistory s.trace.length cardID = ⟨[], 0, 0⟩ := by
    rw [cardHistory, drop_length]
    rfl
  refine ⟨le_rfl, ?_, ?_⟩
  · rw [hhistory]
    rfl
  · rw [hhistory, hwaiting]
    exact .waits hlimit hev (underway_nil step) rfl

/-- **Attempts are bounded and end in failure.** From an engine in which the first attempt of a step
waits, in every run in which each message of the card is answered by one failing report: at most
`max 1 maxRetries` messages are published; there are no more calls than messages, refusals of the
throttle and reports; and once nothing is left to handle, exactly so many messages were published,
numbered from zero, and then one transition to `failed`, and nothing after it. -/
theorem retries_end_in_failure (cfg : EngineConfig) (cardID campaignID : UUID) (step : ℤ)
    (s₀ : Engine) (acts : List EngineAction) (hfirst : FirstActivation cardID campaignID step s₀)
    (hrun : (engine cfg).RunsUnder
      (AnsweredByFailure cfg cardID campaignID s₀.trace.length) s₀ acts) :
    let s := (engine cfg).after s₀ acts
    let h := s.cardHistory s₀.trace.length cardID
    let limit := (max 1 (cfg.contexts campaignID).params.maxRetries).toNat
    (smsOf h.sent).length ≤ limit ∧
    h.calls = (smsOf h.sent).length + (delayedOf h.sent).length + h.reports ∧
    h.reports ≤ (smsOf h.sent).length ∧
    (AllReported cardID s₀.trace.length s → Exhausted step limit h.sent) := by
  intro s h limit
  have hlimit : (limit : ℤ) = max 1 (cfg.contexts campaignID).params.maxRetries :=
    Int.toNat_of_nonneg (Int.one_nonneg.trans (le_max_left _ _))
  have hpos : 0 < limit := by
    have := le_max_left 1 (cfg.contexts campaignID).params.maxRetries
    omega
  have hcourse : InCourse cardID campaignID step limit s₀.trace.length s :=
    hrun.invariant (fun _ _ hinv henabled hguard ↦ hinv.next hlimit henabled hguard)
      (hfirst.inCourse hpos)
  refine ⟨hcourse.stage.bounds.1, hcourse.counted, hcourse.stage.bounds.2, ?_⟩
  rintro ⟨hwaiting, hreported⟩
  have hstage := hcourse.stage
  rw [hwaiting] at hstage
  exact hstage.exhausted hreported

/-! ## A card that is never reached -/

namespace Unreachable

/-- One command, at most two attempts, and a throttle. -/
def ctx : CampaignContext :=
  { plainContext [1] 2 with params := { maxRetries := 2, throttleSMSPerSec := some 1 } }

def cfg : EngineConfig := plainConfig ctx

def card : UUID := .ofDigit 1

def campaign : UUID := .ofDigit 3

/-- A call in which nothing fails, under a fresh identifier. -/
def answers (digit : ℕ) : Answers := .plain ctx (.ofDigit digit)

def start : Engine :=
  (new fun _ ↦ some .running).next cfg (.plan (plainActivate card campaign))

/-- The throttle refuses the first attempt once. Then both attempts are sent, and reported on. -/
def refused : List EngineAction :=
  let later := activation (answers 5) card campaign 1 0
  let again := activation (answers 7) card campaign 1 1
  [.handle (plainActivate card campaign) { answers 5 with throttle := .ok false } none,
    .release later,
    .handle later (answers 6) none,
    .handle (plainReport card campaign (.ofDigit 6) .undeliv) (answers 7) none,
    .handle again (answers 8) none,
    .handle (plainReport card campaign (.ofDigit 8) .expired) (answers 9) none]

end Unreachable

open Unreachable in
theorem retries_end_in_failure_refused :
    FirstActivation card campaign 1 start ∧
      (engine cfg).RunsUnder (AnsweredByFailure cfg card campaign start.trace.length) start
        refused ∧
      AllReported card start.trace.length ((engine cfg).after start refused) ∧
      Exhausted 1 2
        (((engine cfg).after start refused).cardHistory start.trace.length card).sent := by
  have hfirst : FirstActivation card campaign 1 start :=
    ⟨plainActivate card campaign, by decide +kernel, rfl, rfl, rfl, rfl⟩
  have hrun : (engine cfg).RunsUnder (AnsweredByFailure cfg card campaign start.trace.length)
      start refused := by decide +kernel
  have hall : AllReported card start.trace.length ((engine cfg).after start refused) :=
    ⟨by decide +kernel, by decide +kernel⟩
  exact ⟨hfirst, hrun, hall,
    (retries_end_in_failure cfg card campaign 1 start refused hfirst hrun).2.2.2 hall⟩

end OtaPlatform
