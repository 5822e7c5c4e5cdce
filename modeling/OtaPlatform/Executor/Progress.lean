import OtaPlatform.Executor.Outcomes

/-!
# Calls that get what they ask for

The outcomes of a handler include that nothing happens: something could not be loaded, built or
published, the call returns an error, and the worker pool logs it. Here is what a call does when it
gets everything it asks for: the card goes on (`GoesOn`). A next activation is published or waits
for a timer, a message is sent, a response is waited for, or the card is done.

The conditions (`Process.Frames`, `ActivateAnswered`, `DLRAnswered`) are about what the outside
answers and what the process has, never about what the call does with it.
-/

namespace OtaPlatform

open Function Worker

/-! ## How a card goes on -/

structure CardEvent.Activates (ev : CardEvent) (cardID campaignID : UUID) : Prop where
  type_eq : ev.type = .activate
  cardID_eq : ev.cardID = cardID
  campaignID_eq : ev.campaignID = some campaignID

/-- The message is for the card and has a part to submit. -/
structure SendSMSMessage.Carries (msg : SendSMSMessage) (cardID campaignID : UUID) : Prop where
  cardID_eq : msg.cardID = cardID
  campaignID_eq : msg.campaignID = campaignID
  parts_ne_nil : msg.parts ≠ []

/-- The transition ends the part of the card in the campaign. -/
structure CardStateChange.Ends (ch : CardStateChange) (cardID campaignID : UUID) : Prop where
  cardID_eq : ch.cardID = cardID
  campaignID_eq : ch.campaignID = campaignID
  isTerminal : ch.status.isTerminal = true

/-- In the campaign, the card is to send a response. -/
structure CardState.AwaitsMO (st : CardState) (campaignID : UUID) : Prop where
  campaignID_eq : st.campaignID = campaignID
  status_eq : st.status = .awaitingMo

instance (ev : CardEvent) (cardID campaignID : UUID) : Decidable (ev.Activates cardID campaignID) :=
  decidable_of_iff (ev.type = .activate ∧ ev.cardID = cardID ∧ ev.campaignID = some campaignID)
    ⟨fun ⟨h₁, h₂, h₃⟩ ↦ ⟨h₁, h₂, h₃⟩, fun ⟨h₁, h₂, h₃⟩ ↦ ⟨h₁, h₂, h₃⟩⟩

/-- A call that left `after` in the cache of the card and sent `outs` left the card with something
to happen next in the campaign, or done. -/
inductive GoesOn (cardID campaignID : UUID) : Option CardState → List Output → Prop
  | publishes {after : Option CardState} {ev : CardEvent} (hev : ev.Activates cardID campaignID) :
    GoesOn cardID campaignID after [.event ev]
  | waits {after : Option CardState} {ev : CardEvent} (hev : ev.Activates cardID campaignID) :
    GoesOn cardID campaignID after [.delayed ev]
  | sends {after : Option CardState} {msg : SendSMSMessage} {origin : PacketOrigin}
      {outs : List Output} (hmsg : msg.Carries cardID campaignID) :
    GoesOn cardID campaignID after (.sms msg origin :: outs)
  | awaits {st : CardState} (hst : st.AwaitsMO campaignID) :
    GoesOn cardID campaignID (some st) []
  | ends {ch : CardStateChange} (hch : ch.Ends cardID campaignID) :
    GoesOn cardID campaignID none [.change ch]

/-- What a call did to the cached state of its card, and what it sent. -/
structure Acts {α : Type} (s : Process) (cardID : UUID) (r : Outcome α Process Output)
    (after : Option CardState) (outs : List Output) : Prop where
  outputs : visible r.outputs = outs
  cardState : r.state.cardState = update s.cardState cardID after

section Acts

variable {α : Type} {s : Process} {cardID : UUID} {r : Outcome α Process Output}
  {after after' : Option CardState} {outs outs' : List Output}

theorem Yields.acts {evicted : Bool} (h : Yields s cardID r after outs evicted) :
    Acts s cardID r after outs := ⟨h.outputs, h.cardState⟩

theorem Leaves.acts {counters : CounterStore} (h : Leaves s cardID r after outs counters) :
    Acts s cardID r after outs := ⟨h.outputs, h.cardState⟩

theorem Acts.unique (h : Acts s cardID r after outs) (h' : Acts s cardID r after' outs') :
    after = after' ∧ outs = outs' := by
  refine ⟨?_, h.outputs.symm.trans h'.outputs⟩
  have hstates := congrFun (h.cardState.symm.trans h'.cardState) cardID
  rw [update_self, update_self] at hstates
  exact hstates

theorem Acts.after_log {logs : List Output} (h : Acts s cardID r after outs)
    (hlogs : visible logs = []) :
    Acts s cardID ⟨r.value, r.state, logs ++ r.outputs⟩ after outs where
  outputs := by rw [visible_append, hlogs, List.nil_append, h.outputs]
  cardState := h.cardState

end Acts

/-- With a working state writer, finishing a card emits its transition. -/
theorem Finished.ends {ans : Answers} {cardID campaignID : UUID} {st : CardState}
    {status from_ : CardStatus} {after : Option CardState} {outs : List Output} {evicted : Bool}
    (h : Finished ans cardID campaignID st status from_ after outs evicted)
    (hwrite : ans.writeError = none) (hstatus : status.isTerminal = true) :
    after = none ∧ ∃ ch : CardStateChange, ch.Ends cardID campaignID ∧ outs = [.change ch] := by
  have hevicted := h.written hwrite
  cases h.outcome with
  | written hch =>
    exact ⟨rfl, _, ⟨hch.cardID_eq, hch.campaignID_eq, hch.status_eq ▸ hstatus⟩, rfl⟩
  | unwritten hst' => cases hevicted

/-! ## Delivery reports -/

/-- The status is one that `handleDLR` acts on. -/
def DLRStatus.isListed : DLRStatus → Bool
  | .other _ => false
  | _ => true

/-- A delivery report in the campaign gets what it asks for: its status is listed, the context of
the campaign can be loaded, and events and transitions can be published. -/
structure DLRAnswered (ans : Answers) (event : CardEvent) : Prop where
  listed : event.dlrStatus.isListed = true
  context : ∃ ctx, ans.context = .ok ctx
  event : ans.eventError = none
  write : ans.writeError = none

section DLR

variable {s : Process} {ans : Answers} {event : CardEvent} {campaignID : UUID}

theorem DLRCase.goesOn {st : CardState} {after : Option CardState} {outs : List Output}
    {evicted : Bool} (h : DLRCase ans event campaignID st after outs evicted)
    (hanswered : DLRAnswered ans event) (hcampaign : st.campaignID = campaignID) :
    GoesOn event.cardID campaignID after outs := by
  obtain ⟨ctx', hctx'⟩ := hanswered.context
  cases h with
  | unlisted hdlr =>
    have hlisted := hanswered.listed
    rw [hdlr] at hlisted
    cases hlisted
  | unloaded hdlr hctx => cases hctx.symm.trans hctx'
  | awaits hdlr hctx hcmd => exact .awaits ⟨hcampaign, rfl⟩
  | advances hdlr hctx hcmd h =>
    have hkept := h.kept hanswered.write
    cases h.outcome with
    | publishes hnext herr => exact .publishes ⟨rfl, rfl, rfl⟩
    | unpublished hnext herr => exact absurd hanswered.event herr
    | completes hnext hfinish =>
      cases hfinish with
      | written hch => exact .ends ⟨hch.cardID_eq, hch.campaignID_eq, hch.status_eq ▸ rfl⟩
      | unwritten hst' => exact absurd (Option.some.inj (hkept rfl)) hst'.ne
  | retries hdlr hctx hmax =>
    rw [if_pos hanswered.event]
    exact .publishes ⟨rfl, rfl, rfl⟩
  | fails hdlr hctx hmax h =>
    obtain ⟨rfl, ch, hch, rfl⟩ := h.ends hanswered.write rfl
    exact .ends hch
  | partialSubmit hdlr h =>
    obtain ⟨rfl, ch, hch, rfl⟩ := h.ends hanswered.write rfl
    exact .ends hch

/-- **A delivery report moves the card on.** The report is answered, and it finds the card waiting
for one in its campaign. -/
theorem handleDLR_goesOn (h : DLRAnswered ans event) {st : CardState}
    (hfound : s.found event.cardID ans.row = some st) (hcampaign : st.campaignID = campaignID)
    (hst : st.awaitsReport) : ∃ after outs, GoesOn event.cardID campaignID after outs ∧
      Acts s event.cardID ((handleDLR ans event campaignID).run workerSemantics s) after outs := by
  obtain ⟨after, outs, evicted, hgoes, hyields⟩ := yields_handleDLR s ans event campaignID
    (Q := fun after outs _ ↦ GoesOn event.cardID campaignID after outs)
    (fun hstale ↦ absurd hst (hstale st hfound)) fun s₁ ref href hobject _ ↦
      (actOnDLR_cases ans event campaignID href).imp fun _ _ _ hcase ↦
        hcase.goesOn h (Option.some.inj (hobject.symm.trans hfound) ▸ hcampaign)
  exact ⟨after, outs, hgoes, hyields.acts⟩

end DLR

/-! ## Responses -/

/-- What a response does with a working state writer: it leaves the state of the card as it found
it, or ends the part of the card in the campaign of the response. -/
inductive MOSettles (event : CardEvent) : Option CardState → Option CardState → List Output → Prop
  | keeps {found : Option CardState} {outs : List Output} :
    MOSettles event found found outs
  | ends {st : CardState} {ch : CardStateChange}
      (hch : ch.Ends event.cardID (event.campaignFor st)) :
    MOSettles event (some st) none [.change ch]

section MO

variable {s : Process} {ans : Answers} {event : CardEvent} {st : CardState}

private theorem moSettles_of_finish {status from_ : CardStatus} {after : Option CardState}
    {outs : List Output} {evicted : Bool} (hstatus : status.isTerminal = true)
    (h : FinishOutcome event.cardID (event.campaignFor st) st status from_ after outs evicted)
    (hkept : evicted = false → after = some st) : MOSettles event (some st) after outs := by
  cases h with
  | written hch => exact .ends ⟨hch.cardID_eq, hch.campaignID_eq, hch.status_eq ▸ hstatus⟩
  | unwritten hst' =>
    rw [hkept rfl]
    exact .keeps

/-- **A response settles.** What it finds stays, unless the card is done. -/
theorem handleMO_settles (hwrite : ans.writeError = none) (lib : SecuredPackets)
    (hfound : s.found event.cardID ans.row = some st) :
    ∃ after outs, MOSettles event (some st) after outs ∧
      Acts s event.cardID ((handleMO lib ans event).run workerSemantics s) after outs := by
  obtain ⟨after, outs, evicted, hout, hyields⟩ := handleMO_outcome s lib ans event
  rw [hfound] at hout
  refine ⟨after, outs, ?_, hyields.acts⟩
  have hkept := hout.kept hwrite
  cases hout.outcome with
  | quiet => exact .keeps
  | responded hst hctx hcmd h =>
    cases h with
    | publishes | unpublished => exact .keeps
    | completes hnext hfinish => exact moSettles_of_finish rfl hfinish hkept
  | rejected hst hctx hcmd h => exact moSettles_of_finish rfl h hkept

end MO

/-! ## Activations -/

/-- An activation in the campaign gets what it asks for: its command can be framed, and the message
can be published; or the throttle refuses it and there is a timer, or else a card under way that
can be failed. -/
inductive ActivateAnswered (s : Process) (lib : SecuredPackets) (cryptoProvider : Bool)
    (ans : Answers) (event : CardEvent) (campaignID : UUID) : Prop
  | sent {ctx : CampaignContext} {cmd : CampaignCommand} {cardKeys : CardKeyMaterial}
      {packet : Bytes} {profile : Profile} {parts : List Bytes}
      (hframes : s.Frames lib cryptoProvider ans event ctx cmd cardKeys packet profile parts)
      (hpass : throttled ans ctx.params = false) (hsms : ans.smsError = none) :
    ActivateAnswered s lib cryptoProvider ans event campaignID
  | delayed {ctx : CampaignContext} {cmd : CampaignCommand} {cardKeys : CardKeyMaterial}
      {packet : Bytes} {profile : Profile} {parts : List Bytes}
      (hframes : s.Frames lib cryptoProvider ans event ctx cmd cardKeys packet profile parts)
      (hthrottled : throttled ans ctx.params = true) (hslot : ans.retrySlot = true) :
    ActivateAnswered s lib cryptoProvider ans event campaignID
  | overflowed {ctx : CampaignContext} {cmd : CampaignCommand} {cardKeys : CardKeyMaterial}
      {packet : Bytes} {profile : Profile} {parts : List Bytes} {st : CardState}
      (hframes : s.Frames lib cryptoProvider ans event ctx cmd cardKeys packet profile parts)
      (hthrottled : throttled ans ctx.params = true) (hslot : ans.retrySlot = false)
      (hfound : s.found event.cardID ans.row = some st) (hcampaign : st.campaignID = campaignID)
      (hst : st.status.isTerminal = false) (hwrite : ans.writeError = none) :
    ActivateAnswered s lib cryptoProvider ans event campaignID

section Activate

variable {s : Process} {lib : SecuredPackets} {cryptoProvider : Bool} {ans : Answers}
  {event : CardEvent} {campaignID : UUID}

theorem ne_nil_of_splitForConcat {refNum : UInt8} {packet : Bytes} {maxPartSize maxParts : ℤ}
    {parts : List Bytes} (h : splitForConcat refNum packet maxPartSize maxParts = .ok parts) :
    parts ≠ [] := by
  rcases splitForConcat_ok h with rfl | ⟨chunks, htwo, -, -, rfl⟩
  · exact List.cons_ne_nil _ _
  · rw [← List.length_pos_iff, length_frameChunks]
    omega

private theorem run_of_frames {ctx : CampaignContext} {cmd : CampaignCommand}
    {cardKeys : CardKeyMaterial} {packet : Bytes} {profile : Profile} {parts : List Bytes}
    (h : s.Frames lib cryptoProvider ans event ctx cmd cardKeys packet profile parts)
    {Q : Option CardState → List Output → Prop} (hrest : ∀ s₁ : Process, s₁.states = s.states →
      ∃ after outs, Q after outs ∧ Acts s₁ event.cardID
        ((throttleOrSend ans event campaignID ctx cmd cardKeys profile
          (s.counters.getCounter event.cardID cmd.applicationID) packet parts).run
            workerSemantics s₁) after outs) : ∃ after outs, Q after outs ∧ Acts s event.cardID
      ((handleActivate lib cryptoProvider ans event campaignID).run workerSemantics s)
        after outs := by
  obtain ⟨cache, hload⟩ := run_loadCardKeys s ans event.cardID
  obtain ⟨after, outs, hQ, hacts⟩ := hrest
    ⟨s.states, s.counters.incrCounter event.cardID cmd.applicationID, cache⟩ rfl
  refine ⟨after, outs, hQ, ?_⟩
  have hsame : Acts s event.cardID _ after outs := ⟨hacts.outputs, hacts.cardState⟩
  simpa [handleActivate, h.status, h.context, h.command, hload, h.keys, frameCommand, h.build,
    h.loaded, h.split, throttleOrSend] using hsame

/-- **An activation moves the card on.** -/
theorem handleActivate_goesOn (h : ActivateAnswered s lib cryptoProvider ans event campaignID) :
    ∃ after outs, GoesOn event.cardID campaignID after outs ∧
      Acts s event.cardID ((handleActivate lib cryptoProvider ans event campaignID).run
        workerSemantics s) after outs := by
  cases h with
  | @sent ctx cmd cardKeys packet profile parts hframes hpass hsms =>
    refine run_of_frames hframes fun s₁ _ ↦ ?_
    rw [throttleOrSend, hpass, if_neg Bool.false_ne_true]
    refine ⟨_, _, ?_, (sendCommand_leaves ..).1.acts⟩
    rw [sentOutputs, if_pos hsms]
    refine .sends ⟨rfl, rfl, fun hnil ↦ ne_nil_of_splitForConcat hframes.split ?_⟩
    exact List.mapIdx_eq_nil_iff.mp hnil
  | delayed hframes hthrottled hslot =>
    refine run_of_frames hframes fun s₁ _ ↦ ?_
    refine ⟨s₁.cardState event.cardID, [.delayed
      (activation ans event.cardID campaignID event.step event.retryCount)],
      .waits ⟨rfl, rfl, rfl⟩, ?_, ?_⟩
    · simp [throttleOrSend, hthrottled, scheduleActivateRetry, hslot, visible]
    · rw [update_eq_self]
      simp [throttleOrSend, hthrottled, scheduleActivateRetry, hslot]
  | @overflowed _ _ _ _ _ _ st hframes hthrottled hslot hfound hcampaign hst hwrite =>
    refine run_of_frames hframes fun s₁ hstates ↦ ?_
    have hfound₁ : s₁.found event.cardID ans.row = some st := by
      rw [Process.found, hstates]
      exact hfound
    obtain ⟨after, outs, evicted, hout, hyields⟩ := overflowRetry_outcome s₁ ans
      (activation ans event.cardID campaignID event.step event.retryCount) campaignID "throttle"
    have houts : outs ≠ [] := hout.failed st hfound₁ hcampaign hst hwrite
    have hacts : Acts s₁ event.cardID _ after outs := hyields.acts
    refine ⟨after, outs, ?_, ?_, ?_⟩
    · generalize s₁.found _ ans.row = found at hout
      cases hout.outcome with
      | quiet | unwritten => exact absurd rfl houts
      | fails _ _ hch => exact .ends ⟨hch.cardID_eq, hch.campaignID_eq, hch.status_eq ▸ rfl⟩
    · simpa [throttleOrSend, hthrottled, scheduleActivateRetry, hslot] using hacts.outputs
    · simpa [throttleOrSend, hthrottled, scheduleActivateRetry, hslot] using hacts.cardState

end Activate

end OtaPlatform
