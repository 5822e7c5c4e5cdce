import OtaPlatform.Executor.Outcomes

/-!
# What a call leaves in the caches

The executor keeps the keys, the counters and the state of a card in memory while the card is under
way, and removes all three when it is done. A call that sends the terminal transition of its card
ends with the eviction; no call touches the entries of another card.

## What the index is for

`EvictCard` deletes the counters that the index lists for the card. That all of them are deleted is
therefore a property of every operation on the counters, and not of the eviction alone: it is part
of what is proved about each operation.
-/

namespace OtaPlatform

open Function Worker

structure Process.NoEntry (s : Process) (cardID : UUID) : Prop where
  keys : s.cardKeyCache cardID = none
  counters : ∀ appID, s.counters.counter cardID appID = none
  states : s.states.cardStates cardID = none

structure Process.SameEntry (s s' : Process) (cardID : UUID) : Prop where
  keys : s'.cardKeyCache cardID = s.cardKeyCache cardID
  counters : ∀ appID, s'.counters.counter cardID appID = s.counters.counter cardID appID
  states : s'.states.cardStates cardID = s.states.cardStates cardID

variable {cardID : UUID}

theorem Process.NoEntry.of_same {s s' : Process} (h : s.NoEntry cardID)
    (hsame : s.SameEntry s' cardID) : s'.NoEntry cardID where
  keys := hsame.keys.trans h.keys
  counters appID := (hsame.counters appID).trans (h.counters appID)
  states := hsame.states.trans h.states

def Output.isEnd : Output → Bool
  | .change ch => ch.status.isTerminal
  | _ => false

/-! ## Relations between the state before and the state after -/

/-- Only the entries of the card were touched, and the counters are still indexed. -/
structure Touches (cardID : UUID) (s s' : Process) (_outs : List Output) : Prop where
  indexed : s.counters.Indexed → s'.counters.Indexed
  others : ∀ card, card ≠ cardID → s.SameEntry s' card

structure Quiet (cardID : UUID) (s s' : Process) (outs : List Output) : Prop extends
    Touches cardID s s' outs where
  isEnd : ∀ out ∈ outs, out.isEnd = false

structure Evicts (cardID : UUID) (s s' : Process) (outs : List Output) : Prop extends
    Touches cardID s s' outs where
  noEntry : s.counters.Indexed → s'.NoEntry cardID

structure Tidy (cardID : UUID) (s s' : Process) (outs : List Output) : Prop extends
    Touches cardID s s' outs where
  evicted : (∃ out ∈ outs, out.isEnd = true) → s.counters.Indexed → s'.NoEntry cardID

section Relations

variable {cardID : UUID} {s s' s'' : Process} {outs outs' : List Output}

theorem Touches.refl (cardID : UUID) (s : Process) (outs : List Output) : Touches cardID s s outs :=
  ⟨id, fun _ _ ↦ ⟨rfl, fun _ ↦ rfl, rfl⟩⟩

theorem Touches.trans (h : Touches cardID s s' outs) (h' : Touches cardID s' s'' outs') :
    Touches cardID s s'' (outs ++ outs') := by
  refine ⟨h'.indexed ∘ h.indexed, fun card hne ↦ ?_⟩
  have hs := h.others card hne
  have hs' := h'.others card hne
  exact ⟨hs'.keys.trans hs.keys, fun appID ↦ (hs'.counters appID).trans (hs.counters appID),
    hs'.states.trans hs.states⟩

theorem Quiet.refl (cardID : UUID) (s : Process) : Quiet cardID s s [] :=
  ⟨Touches.refl cardID s [], List.forall_mem_nil _⟩

theorem Quiet.trans (h : Quiet cardID s s' outs) (h' : Quiet cardID s' s'' outs') :
    Quiet cardID s s'' (outs ++ outs') :=
  ⟨h.toTouches.trans h'.toTouches, List.forall_mem_append.mpr ⟨h.isEnd, h'.isEnd⟩⟩

theorem Touches.trans_evicts (h : Touches cardID s s' outs) (h' : Evicts cardID s' s'' outs') :
    Evicts cardID s s'' (outs ++ outs') :=
  ⟨h.trans h'.toTouches, h'.noEntry ∘ h.indexed⟩

theorem Evicts.tidy (h : Evicts cardID s s' outs) : Tidy cardID s s' outs :=
  ⟨h.toTouches, fun _ ↦ h.noEntry⟩

theorem Quiet.tidy (h : Quiet cardID s s' outs) : Tidy cardID s s' outs := by
  refine ⟨h.toTouches, ?_⟩
  rintro ⟨out, hout, hend⟩
  rw [h.isEnd out hout] at hend
  exact absurd hend Bool.false_ne_true

theorem Quiet.trans_tidy (h : Quiet cardID s s' outs) (h' : Tidy cardID s' s'' outs') :
    Tidy cardID s s'' (outs ++ outs') := by
  refine ⟨h.toTouches.trans h'.toTouches, ?_⟩
  rintro ⟨out, hout, hend⟩ hindexed
  rcases List.mem_append.mp hout with hout | hout
  · rw [h.isEnd out hout] at hend
    exact absurd hend Bool.false_ne_true
  · exact h'.evicted ⟨out, hout, hend⟩ (h.indexed hindexed)

end Relations

/-! ## Operations -/

/-- The operation is on the card and sends no terminal transition. -/
def WorkerOp.IsQuietFor (cardID : UUID) : WorkerOp → Prop
  | .getCardState c _ | .load c _ | .setStatus c _ _ | .nextSeq c _ | .setCardState c _
  | .setNewCardState c _ | .evictCardState c | .getCounter c _ | .incrCounter c _
  | .evictCounters c | .cachedKeys c | .cacheKeys c _ | .evictKeys c => c = cardID
  | .send out => out.isEnd = false

private theorem touches_states {s : Process} {states : CardStateStore}
    (h : ∀ card, card ≠ cardID → states.cardStates card = s.states.cardStates card)
    (outs : List Output) : Touches cardID s { s with states := states } outs :=
  ⟨id, fun card hne ↦ ⟨rfl, fun _ ↦ rfl, h card hne⟩⟩

theorem cardStates_fetch_of_ne (states : CardStateStore) {card : UUID}
    (hne : card ≠ cardID) (row : Option ExecutionRow) :
    (states.fetch cardID row).cardStates card = states.cardStates card := by
  unfold CardStateStore.fetch
  split
  · exact update_of_ne hne _ _
  · rfl

private theorem touches_op {o : WorkerOp} (ho : o.IsQuietFor cardID) (s : Process) :
    Touches cardID s (workerSemantics.next s o) (workerSemantics.output s o) := by
  cases o with
  | getCardState c row =>
    obtain rfl : c = cardID := ho
    exact touches_states (fun card hne ↦ cardStates_fetch_of_ne _ hne _) _
  | load c ref => exact Touches.refl ..
  | setStatus _ _ _ | nextSeq _ _ => exact ⟨id, fun _ _ ↦ ⟨rfl, fun _ ↦ rfl, rfl⟩⟩
  | setCardState c ref =>
    obtain rfl : c = cardID := ho
    change Touches c s (if h : ref < s.states.count c then
      { s with states := s.states.setCardState c ref h } else s) _
    split
    · exact touches_states (fun card hne ↦ update_of_ne hne _ _) _
    · exact Touches.refl ..
  | setNewCardState c state =>
    obtain rfl : c = cardID := ho
    exact touches_states (fun card hne ↦ update_of_ne hne _ _) _
  | evictCardState c =>
    obtain rfl : c = cardID := ho
    exact touches_states (fun card hne ↦ update_of_ne hne _ _) _
  | getCounter c appID => exact Touches.refl ..
  | incrCounter c appID =>
    obtain rfl : c = cardID := ho
    refine ⟨fun h ↦ h.incrCounter c appID, fun card hne ↦ ⟨rfl, fun appID' ↦ ?_, rfl⟩⟩
    exact s.counters.counter_incrCounter_of_ne c appID fun hpair ↦ hne (Prod.mk.inj hpair).1
  | evictCounters c =>
    obtain rfl : c = cardID := ho
    exact ⟨fun h ↦ h.evictCard c, fun card hne ↦
      ⟨rfl, s.counters.counter_evictCard_of_ne c hne, rfl⟩⟩
  | cachedKeys c => exact Touches.refl ..
  | cacheKeys c keys =>
    obtain rfl : c = cardID := ho
    exact ⟨id, fun card hne ↦ ⟨update_of_ne hne _ _, fun _ ↦ rfl, rfl⟩⟩
  | evictKeys c =>
    obtain rfl : c = cardID := ho
    exact ⟨id, fun card hne ↦ ⟨update_of_ne hne _ _, fun _ ↦ rfl, rfl⟩⟩
  | send out => exact Touches.refl ..

theorem quiet_op {o : WorkerOp} (ho : o.IsQuietFor cardID) :
    (Program.op (E := workerSignature) o).Respects workerSemantics (Quiet cardID) := by
  refine Program.respects_op fun s ↦ ⟨touches_op ho s, ?_⟩
  cases o with
  | send out => exact List.forall_mem_singleton.mpr ho
  | _ => exact List.forall_mem_nil _

/-! ## Handlers -/

/-- Every run of a call relates the state before and the state after. -/
abbrev Program.Ensures {α : Type} (p : Worker α) (R : Process → Process → List Output → Prop) :
    Prop := p.Respects workerSemantics R

variable (ans : Answers) (event : CardEvent) (lib : SecuredPackets) (cryptoProvider : Bool)

section Handlers

variable {α β : Type} {cardID campaignID : UUID} {p : Worker α} {f : α → Worker β}

private theorem quiet_pure (cardID : UUID) (a : α) : (pure a : Worker α).Ensures (Quiet cardID) :=
  Program.respects_pure (Quiet.refl cardID) a

private theorem tidy_pure (cardID : UUID) (a : α) : (pure a : Worker α).Ensures (Tidy cardID) :=
  Program.respects_pure (fun s ↦ (Quiet.refl cardID s).tidy) a

variable (hp : p.Ensures (Quiet cardID))

include hp

private theorem quiet_bind (hf : ∀ a, (f a).Ensures (Quiet cardID)) :
    (p >>= f).Ensures (Quiet cardID) :=
  hp.bind hf fun _ _ _ _ _ ↦ Quiet.trans

private theorem tidy_bind (hf : ∀ a, (f a).Ensures (Tidy cardID)) :
    (p >>= f).Ensures (Tidy cardID) :=
  hp.bind hf fun _ _ _ _ _ ↦ Quiet.trans_tidy

private theorem tidy_of_quiet : p.Ensures (Tidy cardID) :=
  hp.mono fun _ _ _ ↦ Quiet.tidy

private theorem touches_of_quiet : p.Ensures (Touches cardID) :=
  hp.mono fun _ _ _ ↦ Quiet.toTouches

omit hp

private theorem tidy_of_evicts (hp : p.Ensures (Evicts cardID)) : p.Ensures (Tidy cardID) :=
  hp.mono fun _ _ _ ↦ Evicts.tidy

private theorem quiet_send (cardID : UUID) {out : Output} (hout : out.isEnd = false) :
    (send out).Ensures (Quiet cardID) :=
  quiet_op (o := .send out) hout

private theorem quiet_evictCardCaches (cardID : UUID) :
    (evictCardCaches cardID).Ensures (Quiet cardID) :=
  quiet_bind (quiet_op rfl) fun _ ↦ quiet_bind (quiet_op rfl) fun _ ↦ quiet_op rfl

private theorem evicts_evictCardCaches (cardID : UUID) :
    (evictCardCaches cardID).Ensures (Evicts cardID) := by
  refine fun s ↦ ⟨(quiet_evictCardCaches cardID s).toTouches, fun hindexed ↦ ?_⟩
  rw [run_evictCardCaches]
  exact ⟨update_self .., fun appID ↦ hindexed.counter_evictCard cardID appID,
    update_self ..⟩

/-- Whatever was sent before, a call that evicts the card at its end is tidy. -/
private theorem evicts_bind (hp : p.Ensures (Touches cardID))
    (hf : ∀ a, (f a).Ensures (Evicts cardID)) : (p >>= f).Ensures (Evicts cardID) :=
  hp.bind hf fun _ _ _ _ _ ↦ Touches.trans_evicts

private theorem touches_writeCardState (cardID : UUID) (ans : Answers) (ch : CardStateChange) :
    (writeCardState ans ch).Ensures (Touches cardID) := by
  rw [writeCardState]
  cases ans.writeError with
  | some _ | none => exact fun s ↦ Touches.refl cardID s _

/-- A card that is done is evicted, unless its transition could not be written. -/
private theorem tidy_finishCard (cardID : UUID) (state : CardState) (ch : CardStateChange) :
    (finishCard ans cardID state ch).Ensures (Tidy cardID) := by
  refine tidy_bind (quiet_op rfl) fun _ ↦ ?_
  rw [writeCardState]
  cases ans.writeError with
  | some err => exact tidy_pure cardID _
  | none =>
    have hsend : (send (.change ch)).Ensures (Touches cardID) :=
      fun s ↦ Touches.refl cardID s _
    have hboth := evicts_bind hsend fun _ ↦
      (evicts_evictCardCaches cardID).then_pure (Except.ok () : Handled)
    exact tidy_of_evicts hboth

private theorem quiet_publishEvent (cardID : UUID) (ans : Answers) (ev : CardEvent) :
    (publishEvent ans ev).Ensures (Quiet cardID) := by
  rw [publishEvent]
  cases ans.eventError with
  | some err => exact quiet_pure cardID _
  | none => exact quiet_bind (quiet_send cardID rfl) fun _ ↦ quiet_pure cardID _

private theorem tidy_advanceOrComplete (cardID campaignID : UUID) (step : ℤ)
    (commands : List CampaignCommand) (ref : ℕ) :
    (advanceOrComplete ans cardID campaignID step commands ref).Ensures (Tidy cardID) := by
  rw [advanceOrComplete]
  split_ifs
  · exact tidy_bind (quiet_op rfl) fun seq ↦ tidy_finishCard _ _ _ _
  · exact tidy_of_quiet (quiet_publishEvent cardID ans _)

private theorem tidy_failCard (campaignID : UUID) (ref : ℕ)
    (retries : ℤ) (errDesc : String) (carriesRetries : Bool) (statsFrom : CardStatus) :
    (failCard ans event campaignID ref retries errDesc carriesRetries statsFrom).Ensures
      (Tidy event.cardID) :=
  tidy_bind (quiet_op rfl) fun _ ↦
    tidy_bind (quiet_op rfl) fun _ ↦ tidy_finishCard _ _ _ _

/-- A call that starts with `GetCardState` and returns when it fails or finds nothing. -/
private theorem tidy_getCardState {row : Except String (Option ExecutionRow)}
    {g : Except String (Option ℕ) → Worker β}
    (herror : ∀ err, (g (.error err)).Ensures (Tidy cardID))
    (hnone : (g (.ok none)).Ensures (Tidy cardID))
    (hsome : ∀ ref, (g (.ok (some ref))).Ensures (Tidy cardID)) :
    (getCardState cardID row >>= g).Ensures (Tidy cardID) := by
  refine tidy_bind (quiet_op rfl) fun result ↦ ?_
  cases result with
  | error err => exact herror err
  | ok result =>
    cases result with
    | none => exact hnone
    | some ref => exact hsome ref

private theorem tidy_overflowRetry (campaignID : UUID) (reason : String) :
    (overflowRetry ans event campaignID reason).Ensures (Tidy event.cardID) := by
  refine tidy_getCardState (fun _ ↦ tidy_pure _ _) (tidy_pure _ _) fun ref ↦
    tidy_bind (quiet_op rfl) fun current ↦ ?_
  split_ifs
  · exact tidy_pure event.cardID _
  · exact tidy_pure event.cardID _
  · refine tidy_bind (quiet_op rfl) fun overflowSeq ↦ ?_
    -- here the eviction does not depend on whether the transition was written
    refine tidy_of_evicts (evicts_bind (touches_writeCardState event.cardID ans _) fun _ ↦ ?_)
    exact evicts_bind (touches_of_quiet (quiet_op rfl)) fun _ ↦
      evicts_evictCardCaches event.cardID

private theorem tidy_scheduleActivateRetry (campaignID : UUID) (reason : String) :
    (scheduleActivateRetry ans event campaignID reason).Ensures (Tidy event.cardID) := by
  rw [scheduleActivateRetry]
  split_ifs
  · exact tidy_of_quiet (quiet_send event.cardID rfl)
  · exact tidy_overflowRetry _ _ _ _

private theorem quiet_loadCardKeys (cardID : UUID) :
    (loadCardKeys ans cardID).Ensures (Quiet cardID) := by
  refine quiet_bind (quiet_op rfl) fun cached ↦ ?_
  cases cached with
  | some keys => exact quiet_pure cardID _
  | none =>
    cases ans.keys with
    | error err => exact quiet_pure cardID _
    | ok keys => exact quiet_bind (quiet_op rfl) fun _ ↦ quiet_pure cardID _

private theorem quiet_sendCommand (campaignID : UUID)
    (cmd : CampaignCommand) (cardKeys : CardKeyMaterial) (profile : Profile) (counterVal : ℤ)
    (packet : Bytes) (parts : List Bytes) :
    (sendCommand ans event campaignID cmd cardKeys profile counterVal packet parts).Ensures
      (Quiet event.cardID) := by
  refine quiet_bind (quiet_op rfl) fun _ ↦ ?_
  cases ans.smsError with
  | some err => exact quiet_bind (quiet_send event.cardID rfl) fun _ ↦ quiet_pure event.cardID _
  | none =>
    refine quiet_bind (quiet_send event.cardID rfl) fun _ ↦
      quiet_bind (quiet_send event.cardID rfl) fun _ ↦ ?_
    rw [writeCardState]
    cases ans.writeError with
    | some err => exact quiet_pure event.cardID _
    | none => exact quiet_bind (quiet_send event.cardID rfl) fun _ ↦ quiet_pure event.cardID _

private theorem tidy_frameCommand (ans : Answers) (event : CardEvent) (campaignID : UUID)
    (ctx : CampaignContext) (cmd : CampaignCommand) (cardKeys : CardKeyMaterial) (counterVal : ℤ) :
    (frameCommand lib cryptoProvider ans event campaignID ctx cmd cardKeys counterVal).Ensures
      (Tidy event.cardID) := by
  rw [frameCommand]
  cases lib.buildCommandPacket (buildSecProfileFromCache cmd)
      (commandInput cryptoProvider event cmd cardKeys counterVal) with
  | error err => exact tidy_pure event.cardID _
  | ok packet =>
    cases ans.profile with
    | error err => exact tidy_pure event.cardID _
    | ok profile =>
      dsimp only
      cases splitForConcat ans.refNum packet profile.bufferSize
          (ctx.params.maxConcatOverride.getD profile.maxConcatSMS) with
      | error err => exact tidy_pure event.cardID _
      | ok parts =>
        dsimp only
        split_ifs with hthrottled
        · exact (tidy_scheduleActivateRetry ans
            (activation ans event.cardID campaignID event.step event.retryCount) campaignID
            "throttle").then_pure _
        · exact tidy_of_quiet (quiet_sendCommand _ _ _ _ _ _ _ _ _)

private theorem tidy_handleActivate (ans : Answers) (event : CardEvent) (campaignID : UUID) :
    (handleActivate lib cryptoProvider ans event campaignID).Ensures (Tidy event.cardID) := by
  rw [handleActivate]
  cases ans.campaignStatus with
  | error err => exact tidy_pure event.cardID _
  | ok status =>
    dsimp only
    split_ifs
    · exact tidy_pure event.cardID _
    · cases ans.context with
      | error err => exact tidy_pure event.cardID _
      | ok ctx =>
        dsimp only
        cases ctx.commandByStep event.step with
        | none => exact tidy_pure event.cardID _
        | some cmd =>
          refine tidy_bind (quiet_loadCardKeys ans event.cardID) fun keys ↦ ?_
          cases keys with
          | error err => exact tidy_pure event.cardID _
          | ok cardKeys =>
            exact tidy_bind (quiet_op rfl) fun counterVal ↦
              tidy_bind (quiet_op rfl) fun _ ↦ tidy_frameCommand _ _ _ _ _ _ _ _ _

private theorem tidy_deliveredDLR (campaignID : UUID) (ref : ℕ) :
    (deliveredDLR ans event campaignID ref).Ensures (Tidy event.cardID) := by
  rw [deliveredDLR]
  cases ans.context with
  | error err => exact tidy_pure event.cardID _
  | ok ctx =>
    refine tidy_bind (quiet_op rfl) fun state ↦ ?_
    split_ifs
    · exact tidy_of_quiet (quiet_bind (quiet_op rfl) fun _ ↦ quiet_bind (quiet_op rfl) fun _ ↦
        quiet_bind (quiet_op rfl) fun _ ↦ quiet_pure event.cardID _)
    · exact tidy_advanceOrComplete _ _ _ _ _ _

private theorem tidy_failedDLR (campaignID : UUID) (ref : ℕ) :
    (failedDLR ans event campaignID ref).Ensures (Tidy event.cardID) := by
  rw [failedDLR]
  cases ans.context with
  | error err => exact tidy_pure event.cardID _
  | ok ctx =>
    refine tidy_bind (quiet_op rfl) fun state ↦ ?_
    split_ifs
    · exact tidy_of_quiet (quiet_publishEvent event.cardID ans _)
    · exact tidy_failCard _ _ _ _ _ _ _ _

private theorem tidy_actOnDLR (campaignID : UUID) (ref : ℕ) :
    (actOnDLR ans event campaignID ref).Ensures (Tidy event.cardID) := by
  rw [actOnDLR]
  cases event.dlrStatus with
  | delivrd => exact tidy_deliveredDLR _ _ _ _
  | failedPartialSubmit => exact tidy_failCard _ _ _ _ _ _ _ _
  | other status => exact tidy_pure event.cardID _
  | failedSubmit | failed | undeliv | expired | deleted | rejectd =>
    exact tidy_failedDLR _ _ _ _

private theorem quiet_logDLR (cardID : UUID) (event : CardEvent) :
    (logDLR event).Ensures (Quiet cardID) := by
  rw [logDLR]
  cases event.msgID with
  | none => exact quiet_pure cardID _
  | some msgID => exact quiet_send cardID rfl

private theorem tidy_handleDLR (campaignID : UUID) :
    (handleDLR ans event campaignID).Ensures (Tidy event.cardID) := by
  refine tidy_getCardState (fun _ ↦ tidy_pure _ _) (tidy_pure _ _) fun ref ↦
    tidy_bind (quiet_op rfl) fun state ↦ ?_
  split_ifs
  · exact tidy_pure event.cardID _
  · refine tidy_bind (quiet_logDLR event.cardID event) fun _ ↦
      tidy_bind (quiet_op rfl) fun state ↦ ?_
    split_ifs
    · exact tidy_pure event.cardID _
    · exact tidy_actOnDLR _ _ _ _

private theorem quiet_logPoR (cardID : UUID) (lastMsgID : Option UUID) (resp : ResponsePacket) :
    (logPoR lastMsgID resp).Ensures (Quiet cardID) := by
  cases lastMsgID with
  | none => exact quiet_pure cardID _
  | some msgID => exact quiet_send cardID rfl

private theorem tidy_actOnMO (campaignID : UUID) (ref : ℕ)
    (ctx : CampaignContext) (payloadBytes : Bytes) (resp : ResponsePacket) :
    (actOnMO ans event campaignID ref ctx payloadBytes resp).Ensures (Tidy event.cardID) := by
  refine tidy_bind (quiet_send event.cardID rfl) fun _ ↦
    tidy_bind (quiet_op rfl) fun state ↦
      tidy_bind (quiet_logPoR event.cardID state.lastMsgID resp) fun _ ↦ ?_
  split_ifs
  · exact tidy_bind (quiet_op rfl) fun state ↦ tidy_advanceOrComplete _ _ _ _ _ _
  · exact tidy_failCard _ _ _ _ _ _ _ _

private theorem tidy_parseMO (ans : Answers) (event : CardEvent)
    (campaignID : UUID) (ref : ℕ) (cardKeys : CardKeyMaterial) :
    (parseMO lib ans event campaignID ref cardKeys).Ensures (Tidy event.cardID) := by
  rw [parseMO]
  cases hexDecode event.payloadHex with
  | error err => exact tidy_pure event.cardID _
  | ok payloadBytes =>
    cases ans.context with
    | error err => exact tidy_pure event.cardID _
    | ok ctx =>
      refine tidy_bind (quiet_op rfl) fun state ↦ ?_
      cases ctx.commandByStep state.currentStep with
      | none => exact tidy_pure event.cardID _
      | some currentCmd =>
        dsimp only
        cases lib.parseResponsePacket (buildSecProfileFromCache currentCmd) payloadBytes
            cardKeys.encKey cardKeys.authKey with
        | error err => exact tidy_pure event.cardID _
        | ok resp => exact tidy_actOnMO _ _ _ _ _ _ _

private theorem tidy_handleMO (ans : Answers) (event : CardEvent) :
    (handleMO lib ans event).Ensures (Tidy event.cardID) := by
  refine tidy_getCardState (fun _ ↦ tidy_pure _ _) (tidy_pure _ _) fun ref ↦
    tidy_bind (quiet_op rfl) fun state ↦ ?_
  split_ifs
  · exact tidy_pure event.cardID _
  · refine tidy_bind (quiet_loadCardKeys ans event.cardID) fun keys ↦ ?_
    cases keys with
    | error err => exact tidy_pure event.cardID _
    | ok cardKeys => exact tidy_parseMO _ _ _ _ _ _

/-- **Every call is tidy**: it touches the entries of its card only, and leaves none of them when it
sends the terminal transition of the card. -/
theorem tidy_handleCardEvent (ans : Answers) (event : CardEvent) :
    (handleCardEvent lib cryptoProvider ans event).Respects workerSemantics
      (Tidy event.cardID) := by
  cases htype : event.type with
  | activate =>
    cases hcampaign : event.campaignID with
    | none =>
      simp only [handleCardEvent, checkAndSetDedupe, htype, hcampaign]
      exact tidy_pure event.cardID _
    | some campaignID =>
      rw [handleCardEvent_activate _ _ _ htype hcampaign]
      exact tidy_handleActivate _ _ _ _ _
  | dlrReceived =>
    cases hcampaign : event.campaignID with
    | none =>
      simp only [handleCardEvent, checkAndSetDedupe, htype, hcampaign]
      exact tidy_pure event.cardID _
    | some campaignID =>
      rw [handleCardEvent_dlr _ _ _ htype hcampaign]
      exact tidy_handleDLR _ _ _
  | moReceived =>
    rw [handleCardEvent_mo _ _ _ htype]
    exact tidy_handleMO _ _ _

end Handlers

/-! ## Reports that find nothing -/

section Absent

variable {s : Process} {ans : Answers} {event : CardEvent}

private theorem run_getCardState_miss {row : Except String (Option ExecutionRow)}
    (hmiss : s.states.cardStates cardID = none) (hrow : selectedRow row = none) :
    (∃ err, (getCardState cardID row).run workerSemantics s = ⟨.error err, s, []⟩) ∨
      (getCardState cardID row).run workerSemantics s = ⟨.ok none, s, []⟩ := by
  have hfetch : s.states.fetch cardID none = s.states := by
    simp [CardStateStore.fetch]
  cases row with
  | error err =>
    refine Or.inl ⟨err, ?_⟩
    rw [run_getCardState, hrow, hfetch, hmiss]
  | ok row =>
    refine Or.inr ?_
    rw [run_getCardState, hrow, hfetch, CardStateStore.getCardState, hfetch, hmiss]

theorem run_handleCardEvent_absent (htype : event.type ≠ .activate)
    (hmiss : s.states.cardStates event.cardID = none) (hrow : selectedRow ans.row = none) :
    ∃ value, (handleCardEvent lib cryptoProvider ans event).run workerSemantics s
      = ⟨value, s, []⟩ := by
  have hget := run_getCardState_miss hmiss hrow
  cases hevent : event.type with
  | activate => exact absurd hevent htype
  | dlrReceived =>
    cases hcampaign : event.campaignID with
    | none =>
      simp only [handleCardEvent, checkAndSetDedupe, hevent, hcampaign]
      exact ⟨_, rfl⟩
    | some campaignID =>
      rw [handleCardEvent_dlr _ _ _ hevent hcampaign, handleDLR, Program.run_bind]
      rcases hget with ⟨err, hget⟩ | hget
      · rw [hget]
        exact ⟨_, rfl⟩
      · rw [hget]
        exact ⟨_, rfl⟩
  | moReceived =>
    rw [handleCardEvent_mo _ _ _ hevent, handleMO, Program.run_bind]
    rcases hget with ⟨err, hget⟩ | hget
    · rw [hget]
      exact ⟨_, rfl⟩
    · rw [hget]
      exact ⟨_, rfl⟩

end Absent

end OtaPlatform
