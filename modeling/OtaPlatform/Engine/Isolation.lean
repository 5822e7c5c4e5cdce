import OtaPlatform.Engine.System

/-!
# Reports of another campaign

A card has one stored state, whichever campaign it is for. A delivery report carries the campaign of
the message it is about, and `handleDLR` does not compare the two: a report of one campaign that
comes in while the card is busy with another one is taken for a report of that one.

* `CardEvent.Acts` says which reports act on a state, by the state and by what the outside answers.
* `Engine.isolates_iff`: a report of another campaign leaves the state alone, emits no transition
  and publishes no activation exactly if it does not act on it.
-/

namespace OtaPlatform

/-! ## Which reports act -/

/-- The report acts on the state: it overwrites it, ends it, or goes on from it. -/
def CardEvent.Acts (ev : CardEvent) (ans : Answers) (st : CardState) : Prop :=
  st.awaitsReport ∧
  match ev.dlrStatus with
  | .delivrd => ∃ ctx, ans.context = .ok ctx ∧
      (ctx.expects st.currentStep = true ∨ nextStepAfter ctx.commands ev.step = -1 ∨
        ans.eventError = none)
  | .failedPartialSubmit => True
  | .other _ => False
  | .failedSubmit | .failed | .undeliv | .expired | .deleted | .rejectd =>
    ∃ ctx, ans.context = .ok ctx ∧
      (ctx.params.maxRetries ≤ st.retryCount + 1 ∨ ans.eventError = none)

/-- The state is as it was, and neither a transition nor an activation is sent. -/
def Still (st : CardState) (after : Option CardState) (outs : List Output) : Prop :=
  after = some st ∧ changesOf outs = [] ∧ eventsOf outs = []

variable {st : CardState} {after : Option CardState}

theorem still_nil_iff : Still st after [] ↔ after = some st := by
  simp [Still, changesOf, eventsOf]

theorem not_still_event (st : CardState) (after : Option CardState) (ev : CardEvent) :
    ¬ Still st after [.event ev] := by
  simp [Still, eventsOf]

section Acts

open Worker

variable {s : Process} {ref : ℕ}

theorem FinishOutcome.not_still {cardID campaignID : UUID}
    {status statsFrom : CardStatus} {outs : List Output}
    {evicted : Bool} (h : FinishOutcome cardID campaignID st status statsFrom after outs evicted) :
    ¬ Still st after outs := by
  cases h with
  | written hch => simp [Still, changesOf]
  | unwritten hst' =>
    rw [still_nil_iff]
    exact fun hafter ↦ hst'.ne (Option.some.inj hafter)

theorem AdvanceOutcome.still_iff {ans : Answers} {cardID campaignID : UUID} {step : ℤ}
    {commands : List CampaignCommand} {outs : List Output} {evicted : Bool}
    (h : AdvanceOutcome ans cardID campaignID step commands st after outs evicted) :
    Still st after outs ↔ ¬ (nextStepAfter commands step = -1 ∨ ans.eventError = none) := by
  cases h with
  | publishes hnext herr => simp [herr, not_still_event]
  | unpublished hnext herr => simp [hnext, herr, still_nil_iff]
  | completes hnext h => simp [h.not_still, hnext]

theorem CardEvent.acts_iff_of_isFailure {ans : Answers} {event : CardEvent}
    (h : event.dlrStatus.isFailure = true) :
    event.Acts ans st ↔ st.awaitsReport ∧ ∃ ctx, ans.context = .ok ctx ∧
      (ctx.params.maxRetries ≤ st.retryCount + 1 ∨ ans.eventError = none) := by
  rw [CardEvent.Acts]
  cases hdlr : event.dlrStatus <;> rw [hdlr] at h <;> first | exact Iff.rfl | cases h

theorem DLRCase.still_iff {ans : Answers} {event : CardEvent} {campaignID : UUID}
    {outs : List Output} {evicted : Bool} (h : DLRCase ans event campaignID st after outs evicted)
    (hst : st.awaitsReport) : Still st after outs ↔ ¬ event.Acts ans st := by
  cases h with
  | unlisted hdlr => simp [still_nil_iff, CardEvent.Acts, hdlr]
  | unloaded hdlr hctx =>
    rcases hdlr with hdlr | hdlr
    · simp [still_nil_iff, CardEvent.Acts, hdlr, hctx]
    · simp [still_nil_iff, CardEvent.acts_iff_of_isFailure hdlr, hctx]
  | awaits hdlr hctx hcmd =>
    have hne : { st.bump with status := .awaitingMo } ≠ st := by
      intro heq
      have hseq := congrArg CardState.transitionSeq heq
      simp [CardState.bump] at hseq
    simp [still_nil_iff, CardEvent.Acts, hdlr, hctx, hcmd, hst, hne]
  | advances hdlr hctx hcmd h =>
    rw [h.outcome.still_iff]
    simp [CardEvent.Acts, hdlr, hctx, hcmd, hst]
  | retries hdlr hctx hmax =>
    rw [CardEvent.acts_iff_of_isFailure hdlr]
    by_cases herr : ans.eventError = none
    · simp [herr, hctx, hst, not_still_event]
    · simp [herr, hctx, hmax, still_nil_iff]
  | fails hdlr hctx hmax h =>
    rw [CardEvent.acts_iff_of_isFailure hdlr]
    simp [h.outcome.not_still, hctx, hst, not_lt.mp hmax]
  | partialSubmit hdlr h => simp [h.outcome.not_still, CardEvent.Acts, hst, hdlr]

/-- **When a report is without effect.** -/
theorem handleDLR_still_iff (ans : Answers) (event : CardEvent) (campaignID : UUID)
    (hst : s.found event.cardID ans.row = some st) :
    Does s event.cardID (handleDLR ans event campaignID)
      fun after outs _ ↦ Still st after outs ↔ ¬ event.Acts ans st := by
  refine yields_handleDLR s ans event campaignID (fun hstale ↦ ?_) ?_
  · simp [still_nil_iff, hst, CardEvent.Acts, hstale st hst]
  · intro s₁ ref href hfound hlive
    obtain rfl := Option.some.inj (hst.symm.trans hfound)
    exact (actOnDLR_cases ans event campaignID href).imp fun _ _ _ h ↦ h.still_iff hlive

end Acts

namespace Engine

/-! ## A report of another campaign -/

/-- The step leaves the stored state of the card as it is, sends no transition and publishes no
activation. -/
structure Isolated (s s' : Engine) (cardID : UUID) (st : CardState) : Prop where
  kept : s'.process.cardState cardID = some st
  emitted_eq : s'.emitted = s.emitted
  activateCh_eq : s'.activateCh = s.activateCh

/-- If the stored state is that of another campaign than the report, the report leaves it alone. -/
def Isolates (cfg : EngineConfig) (s : Engine) (ev : CardEvent) (ans : Answers)
    (answered : Option UUID) : Prop :=
  ∀ campaignID st, ev.campaignID = some campaignID → s.process.found ev.cardID ans.row = some st →
    st.campaignID ≠ campaignID → Isolated s (s.handle cfg ev ans answered) ev.cardID st

/-- Whatever its campaign is, a report leaves the state it finds alone unless it acts on it. -/
theorem isolated_iff (cfg : EngineConfig) (s : Engine) (ev : CardEvent) (ans : Answers)
    (answered : Option UUID) {campaignID : UUID} (htype : ev.type = .dlrReceived)
    (hcampaign : ev.campaignID = some campaignID)
    (hst : s.process.found ev.cardID ans.row = some st) :
    Isolated s (s.handle cfg ev ans answered) ev.cardID st ↔ ¬ ev.Acts ans st := by
  obtain ⟨after, outs, evicted, hstill, hyields⟩ := handleDLR_still_iff ans ev campaignID hst
  have hrun : (handleCardEvent cfg.lib cfg.cryptoProvider ans ev).run workerSemantics s.process
      = (handleDLR ans ev campaignID).run workerSemantics s.process := by
    rw [handleCardEvent, htype, hcampaign]
    rfl
  have hleaves : Leaves s.process ev.cardID ((handleCardEvent cfg.lib cfg.cryptoProvider ans ev).run
      workerSemantics s.process) after outs _ :=
    ⟨hrun ▸ hyields.outputs, hrun ▸ hyields.cardState, rfl⟩
  have hhandles := handles_of_leaves hleaves answered
  rw [← hstill]
  constructor
  · intro h
    refine ⟨?_, ?_, ?_⟩
    · rw [← h.kept, hhandles.cardState, Function.update_self]
    · have hemitted := h.emitted_eq
      rw [hhandles.emitted_eq] at hemitted
      exact List.append_right_eq_self.mp hemitted
    · have hactivate := h.activateCh_eq
      rw [hhandles.activateCh, htype] at hactivate
      exact List.append_right_eq_self.mp hactivate
  · rintro ⟨hafter, hchanges, hevents⟩
    refine ⟨?_, ?_, ?_⟩
    · rw [hhandles.cardState, Function.update_self, hafter]
    · rw [hhandles.emitted_eq, hchanges, List.append_nil]
    · rw [hhandles.activateCh, htype, hevents, List.append_nil]
      rfl

/-- **Campaign isolation.** In every state of the engine, a report leaves the stored state of
another campaign alone exactly if it does not act on it. -/
theorem isolates_iff (cfg : EngineConfig) (s : Engine) (ev : CardEvent) (ans : Answers)
    (answered : Option UUID) (htype : ev.type = .dlrReceived) :
    Isolates cfg s ev ans answered ↔ ∀ campaignID st, ev.campaignID = some campaignID →
      s.process.found ev.cardID ans.row = some st → st.campaignID ≠ campaignID →
      ¬ ev.Acts ans st := by
  constructor
  · intro h campaignID st hcampaign hst hother
    exact (isolated_iff cfg s ev ans answered htype hcampaign hst).mp
      (h campaignID st hcampaign hst hother)
  · intro h campaignID st hcampaign hst hother
    exact (isolated_iff cfg s ev ans answered htype hcampaign hst).mpr
      (h campaignID st hcampaign hst hother)

end Engine

/-! ## A card in two campaigns -/

namespace TwoCampaigns

/-- One command that expects a response. -/
def ctx : CampaignContext := plainContext [1] 1

def cfg : EngineConfig := plainConfig ctx

def start : Engine := .new fun _ ↦ some .running

def activate (campaignID : UUID) : CardEvent := plainActivate (.ofDigit 1) campaignID

/-- Campaign 3 sends to the card, then campaign 4 does. -/
def acts : List EngineAction :=
  [.plan (activate (.ofDigit 3)), .handle (activate (.ofDigit 3)) (.plain ctx (.ofDigit 6)) none,
    .plan (activate (.ofDigit 4)), .handle (activate (.ofDigit 4)) (.plain ctx (.ofDigit 7)) none]

/-- A report of the message of campaign 3. -/
def report (status : DLRStatus) : CardEvent :=
  plainReport (.ofDigit 1) (.ofDigit 3) (.ofDigit 6) status

end TwoCampaigns

open TwoCampaigns in
/-- An intermediate report does not act. -/
theorem isolates_iff_accepted :
    Engine.Isolates cfg ((engine cfg).after start acts) (report .acceptd)
      (.plain ctx (.ofDigit 8)) none :=
  (Engine.isolates_iff cfg _ _ _ none rfl).mpr fun _ _ _ _ _ h ↦ h.2

open TwoCampaigns in
/-- **A report moves the state of another campaign.** Campaign 4 waits for the report of its message
and, with the report of campaign 3, for a response to it. -/
theorem report_moves_other_campaign :
    (engine cfg).Runs start (acts ++ [.handle (report .delivrd) (.plain ctx (.ofDigit 8)) none]) ∧
      (((engine cfg).after start acts).process.cardState (.ofDigit 1)).map
        (fun st ↦ (st.campaignID, st.status, st.transitionSeq))
        = some (.ofDigit 4, .awaitingDlr, 1) ∧
      ((((engine cfg).after start acts).handle cfg (report .delivrd) (.plain ctx (.ofDigit 8))
        none).process.cardState (.ofDigit 1)).map
        (fun st ↦ (st.campaignID, st.status, st.transitionSeq))
        = some (.ofDigit 4, .awaitingMo, 2) ∧
      ¬ Engine.Isolates cfg ((engine cfg).after start acts) (report .delivrd)
        (.plain ctx (.ofDigit 8)) none := by
  have hbefore : (((engine cfg).after start acts).process.cardState (.ofDigit 1)).map
      (fun st ↦ (st.campaignID, st.status, st.transitionSeq))
      = some (.ofDigit 4, .awaitingDlr, 1) := by decide +kernel
  have hafter : ((((engine cfg).after start acts).handle cfg (report .delivrd)
      (.plain ctx (.ofDigit 8)) none).process.cardState (.ofDigit 1)).map
      (fun st ↦ (st.campaignID, st.status, st.transitionSeq))
      = some (.ofDigit 4, .awaitingMo, 2) := by decide +kernel
  refine ⟨?_, hbefore, hafter, fun hisolates ↦ ?_⟩
  · unfold Machine.Runs
    decide +kernel
  · obtain ⟨st, hst, hfields⟩ := Option.map_eq_some_iff.mp hbefore
    have hcampaign : st.campaignID = .ofDigit 4 := congrArg Prod.fst hfields
    have hother : st.campaignID ≠ .ofDigit 3 := by
      rw [hcampaign]
      decide
    have hkept : (((engine cfg).after start acts).handle cfg (report .delivrd)
        (.plain ctx (.ofDigit 8)) none).process.cardState (.ofDigit 1) = some st :=
      (hisolates (.ofDigit 3) st rfl (Process.found_of_cardState hst _) hother).kept
    rw [hkept, Option.map_some, hfields] at hafter
    exact absurd hafter (by decide)

end OtaPlatform
