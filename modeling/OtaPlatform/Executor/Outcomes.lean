import OtaPlatform.Executor.Handlers

/-!
# What a handler can do

One call of a handler, run without interruption, has one of a few outcomes. They are listed here
once, per handler, in terms of the state that `GetCardState` found; everything about runs of the
executor is derived from the lists and never unfolds a handler.

Message log entries are left out of the outcomes: no state depends on them.
-/

namespace OtaPlatform

open Option List Function Worker

def Process.cardState (s : Process) : UUID → Option CardState := s.states.cardState

/-- The state `GetCardState` returns. -/
def Process.found (s : Process) (cardID : UUID) (row : Except String (Option ExecutionRow)) :
    Option CardState :=
  s.states.found cardID (selectedRow row)

variable {st : CardState}

theorem Process.found_of_cardState {s : Process} {cardID : UUID} (h : s.cardState cardID = some st)
    (row : Except String (Option ExecutionRow)) : s.found cardID row = some st := by
  change (s.cardState cardID <|> (selectedRow row).map ExecutionRow.toCardState) = some st
  rw [h]
  rfl

/-- A state that is found was cached, or nothing was and a row was read. -/
theorem Process.found_cases {s : Process} {cardID : UUID}
    {row : Except String (Option ExecutionRow)} (h : s.found cardID row = some st) :
    s.cardState cardID = some st ∨
      s.cardState cardID = none ∧ ∃ r, selectedRow row = some r ∧ r.toCardState = st := by
  have h : (s.cardState cardID <|> (selectedRow row).map ExecutionRow.toCardState) = some st := h
  cases hcached : s.cardState cardID with
  | some st' =>
    rw [hcached] at h
    exact Or.inl h
  | none =>
    rw [hcached] at h
    exact Or.inr ⟨rfl, map_eq_some_iff.mp h⟩

/-- Everything but the message log. -/
def visible (outs : List Output) : List Output :=
  outs.filter fun
    | .log _ => false
    | _ => true

@[simp] theorem visible_nil : visible [] = [] := rfl

@[simp] theorem visible_append (outs outs' : List Output) :
    visible (outs ++ outs') = visible outs ++ visible outs' := filter_append ..

@[simp] theorem visible_log (action : MessageLogAction) : visible [.log action] = [] := rfl

/-- The card an output is about; log entries do not count. -/
def Output.cardID : Output → Option UUID
  | .sms msg _ => some msg.cardID
  | .event ev | .delayed ev => some ev.cardID
  | .change ch => some ch.cardID
  | .log _ => none

/-! ## The operations -/

variable {ref : ℕ}

section Run

variable (s : Process) (cardID : UUID)

@[simp] theorem run_getCardState (row : Except String (Option ExecutionRow)) :
    (getCardState cardID row).run workerSemantics s = ⟨match s.states.cardStates cardID, row with
          | none, .error err => .error err
          | _, _ => .ok (s.states.getCardState cardID (selectedRow row)),
        { s with states := s.states.fetch cardID (selectedRow row) }, []⟩ := rfl

@[simp] theorem run_load (ref : ℕ) :
    (load cardID ref).run workerSemantics s = ⟨s.states.objects cardID ref, s, []⟩ := rfl

@[simp] theorem run_setStatus (ref : ℕ) (status : CardStatus) :
    (setStatus cardID ref status).run workerSemantics s
      = ⟨(), { s with states := s.states.modify cardID ref fun st ↦ { st with status := status } },
          []⟩ := rfl

@[simp] theorem run_nextSeq (ref : ℕ) : (nextSeq cardID ref).run workerSemantics s
      = ⟨(s.states.objects cardID ref).transitionSeq + 1,
          { s with states := s.states.modify cardID ref CardState.bump }, []⟩ := rfl

@[simp] theorem run_setNewCardState (state : CardState) :
    (setNewCardState cardID state).run workerSemantics s
      = ⟨(), { s with states := s.states.setNew cardID state }, []⟩ := rfl

@[simp] theorem run_getCounter (applicationID : UUID) :
    (getCounter cardID applicationID).run workerSemantics s
      = ⟨s.counters.getCounter cardID applicationID, s, []⟩ := rfl

@[simp] theorem run_incrCounterAsync (applicationID : UUID) :
    (incrCounterAsync cardID applicationID).run workerSemantics s
      = ⟨(), { s with counters := s.counters.incrCounter cardID applicationID }, []⟩ := rfl

@[simp] theorem run_send (out : Output) : (send out).run workerSemantics s = ⟨(), s, [out]⟩ := rfl

@[simp] theorem run_evictCardCaches : (evictCardCaches cardID).run workerSemantics s
      = ⟨(), ⟨s.states.evictCardState cardID, s.counters.evictCard cardID,
          update s.cardKeyCache cardID none⟩, []⟩ := rfl

theorem run_setCardState (href : s.states.cardStates cardID = some ref) :
    (setCardState cardID ref).run workerSemantics s = ⟨(), s, []⟩ := by
  have hlt : ref < s.states.count cardID := s.states.allocated cardID ref href
  have hnext : workerSemantics.next s (.setCardState cardID ref) = s := by
    change (if h : ref < s.states.count cardID then
      { s with states := s.states.setCardState cardID ref h } else s) = s
    rw [dif_pos hlt, CardStateStore.setCardState_self href]
  rw [setCardState, Program.run_op, hnext]
  rfl

end Run

/-! ## Effects on one card -/

/-- A run that started in `s` left `after` in the cache of the card, sent `outs` and left these
counters. -/
structure Leaves {α : Type} (s : Process) (cardID : UUID) (r : Outcome α Process Output)
    (after : Option CardState) (outs : List Output) (counters : CounterStore) : Prop where
  outputs : visible r.outputs = outs
  cardState : r.state.cardState = update s.cardState cardID after
  counters_eq : r.state.counters = counters

/-- A run that started in `s` left `after` in the cache of the card, sent `outs` and, if `evicted`,
removed the counters of the card. -/
structure Yields {α : Type} (s : Process) (cardID : UUID) (r : Outcome α Process Output)
    (after : Option CardState) (outs : List Output) (evicted : Bool) : Prop where
  outputs : visible r.outputs = outs
  cardState : r.state.cardState = update s.cardState cardID after
  counters : r.state.counters = if evicted then s.counters.evictCard cardID else s.counters

/-- Run from `s`, the program does to the card what `Q` says. -/
abbrev Does {α : Type} (s : Process) (cardID : UUID) (p : Worker α)
    (Q : Option CardState → List Output → Bool → Prop) : Prop :=
  ∃ after outs evicted, Q after outs evicted ∧
    Yields s cardID (p.run workerSemantics s) after outs evicted

variable {α : Type} {Q : Option CardState → List Output → Bool → Prop}
  {r : Outcome α Process Output} {after : Option CardState} {outs : List Output}

section Effects

variable {s : Process} {cardID : UUID}

theorem Does.imp {p : Worker α} {Q' : Option CardState → List Output → Bool → Prop}
    (h : Does s cardID p Q)
    (hQ : ∀ after outs evicted, Q after outs evicted → Q' after outs evicted) :
    Does s cardID p Q' := by
  obtain ⟨after, outs, evicted, hout, hyields⟩ := h
  exact ⟨after, outs, evicted, hQ _ _ _ hout, hyields⟩

theorem Does.of_run_eq {p q : Worker α} (h : Does s cardID q Q)
    (hrun : p.run workerSemantics s = q.run workerSemantics s) : Does s cardID p Q := by
  rwa [Does, hrun]

/-- Effects are counted from any earlier state that differs only in the cached state of the card. -/
theorem Yields.of_update {s' : Process} {before : Option CardState}
    {evicted : Bool} (h : Yields s' cardID r after outs evicted)
    (hstate : s'.cardState = update s.cardState cardID before)
    (hcounters : s'.counters = s.counters) : Yields s cardID r after outs evicted where
  outputs := h.outputs
  cardState := by rw [h.cardState, hstate, update_idem]
  counters := by rw [h.counters, hcounters]

theorem Yields.after_log {logs : List Output} {evicted : Bool}
    (h : Yields s cardID r after outs evicted) (hlogs : visible logs = []) :
    Yields s cardID ⟨r.value, r.state, logs ++ r.outputs⟩ after outs evicted where
  outputs := by rw [visible_append, hlogs, nil_append, h.outputs]
  cardState := h.cardState
  counters := h.counters

theorem yields_of_same {st : Option CardState} (hst : s.cardState cardID = st)
    (hstates : r.state.states = s.states) (hcounters : r.state.counters = s.counters)
    (houts : visible r.outputs = outs) : Yields s cardID r st outs false where
  outputs := houts
  cardState := by
    rw [← hst, update_eq_self, Process.cardState, hstates, Process.cardState]
  counters := by rw [hcounters]; rfl

theorem finishCard_yields (s : Process) (cardID : UUID) (ans : Answers) (state : CardState)
    (ch : CardStateChange) : (ans.writeError = none ∧
      Yields s cardID ((finishCard ans cardID state ch).run workerSemantics s) none
        [.change ch] true) ∨ (ans.writeError ≠ none ∧
      Yields s cardID ((finishCard ans cardID state ch).run workerSemantics s) (some state)
        [] false) := by
  cases hwrite : ans.writeError with
  | none =>
    refine Or.inl ⟨rfl, ?_, ?_, ?_⟩
    · simp [finishCard, writeCardState, hwrite, visible]
    · simp [finishCard, writeCardState, hwrite, Process.cardState]
    · simp [finishCard, writeCardState, hwrite]
  | some err =>
    refine Or.inr ⟨by simp, ?_, ?_, ?_⟩
    · simp [finishCard, writeCardState, hwrite]
    · simp [finishCard, writeCardState, hwrite, Process.cardState]
    · simp [finishCard, writeCardState, hwrite]

theorem publishEvent_yields (s : Process) (cardID : UUID) (ans : Answers) (ev : CardEvent) :
    Yields s cardID ((publishEvent ans ev).run workerSemantics s) (s.cardState cardID)
      (if ans.eventError = none then [.event ev] else []) false := by
  cases herr : ans.eventError with
  | none =>
    refine yields_of_same rfl ?_ ?_ ?_
    · simp [publishEvent, herr]
    · simp [publishEvent, herr]
    · simp [publishEvent, herr, visible]
  | some err =>
    refine yields_of_same rfl ?_ ?_ ?_
    · simp [publishEvent, herr]
    · simp [publishEvent, herr]
    · simp [publishEvent, herr]

/-- The keys a call gets: the cached ones, or else what the database returns. -/
def Process.availableKeys (s : Process) (ans : Answers) (cardID : UUID) :
    Except String CardKeyMaterial :=
  (s.cardKeyCache cardID).elim ans.keys .ok

theorem run_loadCardKeys (s : Process) (ans : Answers) (cardID : UUID) :
    ∃ cache, (loadCardKeys ans cardID).run workerSemantics s
      = ⟨s.availableKeys ans cardID, { s with cardKeyCache := cache }, []⟩ := by
  have hcached : (cachedKeys cardID).run workerSemantics s = ⟨s.cardKeyCache cardID, s, []⟩ := rfl
  have hcache : ∀ keys, (cacheKeys cardID keys).run workerSemantics s
      = ⟨(), { s with cardKeyCache := update s.cardKeyCache cardID (some keys) }, []⟩ :=
    fun _ ↦ rfl
  rw [Process.availableKeys]
  cases hc : s.cardKeyCache cardID with
  | some keys => exact ⟨s.cardKeyCache, by simp [loadCardKeys, hcached, hc]⟩
  | none =>
    cases hk : ans.keys with
    | error err => exact ⟨s.cardKeyCache, by simp [loadCardKeys, hcached, hc, hk]⟩
    | ok keys =>
      refine ⟨update s.cardKeyCache cardID (some keys), ?_⟩
      simp [loadCardKeys, hcached, hc, hk, hcache]

end Effects

/-! ## Handlers that read the card state

Both report handlers begin with `GetCardState`; what it leaves in the cache is the state the rest of
the handler is judged by. -/

section Fetch

variable {s : Process} {cardID : UUID}

theorem cardState_of_ref (href : s.states.cardStates cardID = some ref) :
    s.cardState cardID = some (s.states.objects cardID ref) := by
  rw [Process.cardState, CardStateStore.cardState, href, map_some]

/-- `GetCardState` returns the object that is current afterwards, or finds nothing. -/
theorem getCardState_cases (s : Process) (cardID : UUID)
    (row : Except String (Option ExecutionRow)) :
    let r := (getCardState cardID row).run workerSemantics s
    (∃ ref, r.value = .ok (some ref) ∧ r.state.states.cardStates cardID = some ref ∧
      s.found cardID row = some (r.state.states.objects cardID ref)) ∨
    s.found cardID row = none ∧ ∀ ref, r.value ≠ .ok (some ref) := by
  have hfound : s.found cardID row = _ := CardStateStore.found_eq (selectedRow row)
  cases hget : s.states.getCardState cardID (selectedRow row) with
  | none =>
    refine Or.inr ⟨by rw [hfound, hget, map_none], fun ref ↦ ?_⟩
    simp only [run_getCardState, hget]
    split <;> simp
  | some ref =>
    refine Or.inl ⟨ref, ?_, hget, by rw [hfound, hget]; rfl⟩
    cases hcache : s.states.cardStates cardID with
    | some ref' => simp [hget, hcache]
    | none =>
      cases row with
      | ok row => simp [hget]
      | error err =>
        -- a miss with a failing database returns no object
        simp [CardStateStore.getCardState, CardStateStore.fetch, hcache, selectedRow] at hget

theorem run_getCardState_hit (hst : s.cardState cardID = some st)
    (row : Except String (Option ExecutionRow)) :
    ∃ ref, s.states.cardStates cardID = some ref ∧ s.states.objects cardID ref = st ∧
      (getCardState cardID row).run workerSemantics s = ⟨.ok (some ref), s, []⟩ := by
  rw [Process.cardState, CardStateStore.cardState, map_eq_some_iff] at hst
  obtain ⟨ref, href, hobj⟩ := hst
  refine ⟨ref, href, hobj, ?_⟩
  simp [href, CardStateStore.getCardState, CardStateStore.fetch]

theorem cardState_getCardState (s : Process) (cardID : UUID)
    (row : Except String (Option ExecutionRow)) :
    ((getCardState cardID row).run workerSemantics s).state.cardState
      = update s.cardState cardID (s.found cardID row) :=
  CardStateStore.cardState_fetch s.states cardID (selectedRow row)

/-- **The rule for `GetCardState`.** A handler that returns at once when nothing is found, and
whose rest has an outcome from every process in which the found object is current, has that
outcome. -/
theorem yields_getCardState {row : Except String (Option ExecutionRow)}
    {k : Except String (Option ℕ) → Worker α}
    (hquiet : s.found cardID row = none → Q (s.found cardID row) [] false)
    (herror : ∀ err, ∃ value, k (.error err) = .ret value)
    (hmissing : ∃ value, k (.ok none) = .ret value)
    (hsome : ∀ (s₁ : Process) (ref : ℕ), s₁.states.cardStates cardID = some ref →
      s.found cardID row = some (s₁.states.objects cardID ref) →
      Does s₁ cardID (k (.ok (some ref))) Q) : Does s cardID (getCardState cardID row >>= k) Q := by
  have hview := cardState_getCardState s cardID row
  have hnone : ∀ v, (∀ ref, v ≠ .ok (some ref)) → ∃ value, k v = .ret value := by
    rintro (err | _ | ref) hnothing
    · exact herror err
    · exact hmissing
    · exact absurd rfl (hnothing ref)
  rcases getCardState_cases s cardID row with ⟨ref, hvalue, href, hfound⟩ | ⟨hmiss, hnothing⟩
  · obtain ⟨after, outs, evicted, hQ, hyields⟩ := hsome _ ref href hfound
    refine ⟨after, outs, evicted, hQ, ?_⟩
    rw [Program.run_bind, hvalue]
    exact hyields.of_update hview rfl
  · obtain ⟨value, hvalue⟩ := hnone _ hnothing
    refine ⟨_, _, _, hquiet hmiss, ?_⟩
    rw [Program.run_bind, hvalue, Program.run_ret]
    exact Yields.of_update (yields_of_same (by rw [hview, update_self]) rfl rfl rfl)
      hview rfl

end Fetch

/-! ## Advancing and failing -/

/-- The transition ends the card's part in the campaign, one number after the state it was found
in. -/
structure Finishes (cardID campaignID : UUID) (st : CardState) (status statsFrom : CardStatus)
    (ch : CardStateChange) : Prop where
  cardID_eq : ch.cardID = cardID
  campaignID_eq : ch.campaignID = campaignID
  status_eq : ch.status = status
  transitionSeq_eq : ch.transitionSeq = st.transitionSeq + 1
  statsFrom_eq : ch.statsFrom = statsFrom
  statsTo_eq : ch.statsTo = status

/-- The state of a finished card whose transition could not be written. -/
structure Unwritten (campaignID : UUID) (st : CardState) (status : CardStatus) (st' : CardState) :
    Prop where
  campaignID_eq : st'.campaignID = campaignID
  status_eq : st'.status = status
  transitionSeq_eq : st'.transitionSeq = st.transitionSeq + 1

theorem Unwritten.ne {campaignID : UUID} {status : CardStatus} {st' : CardState}
    (h : Unwritten campaignID st status st') : st' ≠ st := by
  rintro rfl
  have hseq := h.transitionSeq_eq
  omega

/-- What finishing a card does: the transition is written and the card evicted, or writing it fails
and the new state stays. -/
inductive FinishOutcome (cardID campaignID : UUID) (st : CardState)
    (status statsFrom : CardStatus) : Option CardState → List Output → Bool → Prop
  | written {ch : CardStateChange} (hch : Finishes cardID campaignID st status statsFrom ch) :
    FinishOutcome cardID campaignID st status statsFrom none [.change ch] true
  | unwritten {st' : CardState} (hst' : Unwritten campaignID st status st') :
    FinishOutcome cardID campaignID st status statsFrom (some st') [] false

inductive AdvanceOutcome (ans : Answers) (cardID campaignID : UUID) (step : ℤ)
    (commands : List CampaignCommand) (st : CardState) :
    Option CardState → List Output → Bool → Prop
  | publishes (hnext : nextStepAfter commands step ≠ -1) (herr : ans.eventError = none) :
    AdvanceOutcome ans cardID campaignID step commands st (some st)
      [.event (activation ans cardID campaignID (nextStepAfter commands step) 0)] false
  | unpublished (hnext : nextStepAfter commands step ≠ -1) (herr : ans.eventError ≠ none) :
    AdvanceOutcome ans cardID campaignID step commands st (some st) [] false
  | completes (hnext : nextStepAfter commands step = -1) {after : Option CardState}
      {outs : List Output} {evicted : Bool}
      (h : FinishOutcome cardID campaignID st .completed .inProgress after outs evicted) :
    AdvanceOutcome ans cardID campaignID step commands st after outs evicted

/-- What finishing a card does; with a working state writer, the transition is written. -/
structure Finished (ans : Answers) (cardID campaignID : UUID) (st : CardState)
    (status statsFrom : CardStatus) (after : Option CardState) (outs : List Output)
    (evicted : Bool) : Prop where
  outcome : FinishOutcome cardID campaignID st status statsFrom after outs evicted
  written : ans.writeError = none → evicted = true

/-- What `advanceOrComplete` does; with a working state writer, a card that is not finished keeps
its state. -/
structure Advanced (ans : Answers) (cardID campaignID : UUID) (step : ℤ)
    (commands : List CampaignCommand) (st : CardState) (after : Option CardState)
    (outs : List Output) (evicted : Bool) : Prop where
  outcome : AdvanceOutcome ans cardID campaignID step commands st after outs evicted
  kept : ans.writeError = none → evicted = false → after = some st

variable (ans : Answers) (event : CardEvent)

variable (campaignID : UUID)

section Advance

variable {s : Process} {cardID : UUID} {ref : ℕ}

private theorem finish_after_nextSeq (status from_ : CardStatus)
    (href : s.states.cardStates cardID = some ref) (state : CardState) (ch : CardStateChange)
    (hch : Finishes cardID campaignID (s.states.objects cardID ref) status from_ ch)
    (hstate : Unwritten campaignID (s.states.objects cardID ref) status state) :
    ∃ after outs evicted,
      Finished ans cardID campaignID (s.states.objects cardID ref) status from_ after outs evicted ∧
      Yields s cardID ((finishCard ans cardID state ch).run workerSemantics
        { s with states := s.states.modify cardID ref CardState.bump }) after outs evicted := by
  have hmodify := CardStateStore.cardState_modify href CardState.bump
  rcases finishCard_yields { s with states := s.states.modify cardID ref CardState.bump }
      cardID ans state ch with ⟨-, h⟩ | ⟨hwrite, h⟩
  · exact ⟨_, _, _, ⟨.written hch, fun _ ↦ rfl⟩, h.of_update hmodify rfl⟩
  · exact ⟨_, _, _, ⟨.unwritten hstate, fun hnone ↦ absurd hnone hwrite⟩, h.of_update hmodify rfl⟩

theorem advanceOrComplete_outcome (step : ℤ)
    (commands : List CampaignCommand) (href : s.states.cardStates cardID = some ref) :
    Does s cardID (advanceOrComplete ans cardID campaignID step commands ref)
      (Advanced ans cardID campaignID step commands (s.states.objects cardID ref)) := by
  by_cases hnext : nextStepAfter commands step = -1
  · obtain ⟨after, outs, evicted, hout, hyields⟩ := finish_after_nextSeq ans campaignID .completed
      .inProgress href
      { campaignID := campaignID, status := .completed
        transitionSeq := (s.states.objects cardID ref).transitionSeq + 1 }
      { campaignID := campaignID, cardID := cardID, status := .completed, timestamp := ans.now
        transitionSeq := (s.states.objects cardID ref).transitionSeq + 1
        statsFrom := .inProgress, statsTo := .completed }
      ⟨rfl, rfl, rfl, rfl, rfl, rfl⟩ ⟨rfl, rfl, rfl⟩
    refine ⟨after, outs, evicted, ⟨.completes hnext hout.outcome, fun hwrite hkept ↦ ?_⟩, ?_⟩
    · cases hkept.symm.trans (hout.written hwrite)
    · rw [advanceOrComplete, if_pos hnext]
      simpa using hyields
  · have hyields := publishEvent_yields s cardID ans
      (activation ans cardID campaignID (nextStepAfter commands step) 0)
    rw [cardState_of_ref href] at hyields
    rw [advanceOrComplete, if_neg hnext]
    by_cases herr : ans.eventError = none
    · rw [if_pos herr] at hyields
      exact ⟨_, _, _, ⟨.publishes hnext herr, fun _ _ ↦ rfl⟩, hyields⟩
    · rw [if_neg herr] at hyields
      exact ⟨_, _, _, ⟨.unpublished hnext herr, fun _ _ ↦ rfl⟩, hyields⟩

theorem failCard_outcome (retries : ℤ)
    (errDesc : String) (carriesRetries : Bool) (from_ : CardStatus)
    (href : s.states.cardStates event.cardID = some ref) :
    Does s event.cardID (failCard ans event campaignID ref retries errDesc carriesRetries from_)
      (Finished ans event.cardID campaignID (s.states.objects event.cardID ref) .failed from_) := by
  have hload : (s.states.modify event.cardID ref CardState.bump).objects event.cardID ref
      = (s.states.objects event.cardID ref).bump := by
    simp [CardStateStore.modify]
  obtain ⟨after, outs, evicted, hout, hyields⟩ := finish_after_nextSeq ans campaignID .failed from_
    href
    { campaignID := campaignID
      currentStep := (s.states.objects event.cardID ref).bump.currentStep
      status := .failed
      retryCount := (s.states.objects event.cardID ref).bump.retryCount + retries
      lastMsgID := (s.states.objects event.cardID ref).bump.lastMsgID
      lastEventID := event.eventID
      transitionSeq := (s.states.objects event.cardID ref).transitionSeq + 1 }
    { campaignID := campaignID, cardID := event.cardID, status := .failed
      retryCount := if carriesRetries then
        (s.states.objects event.cardID ref).bump.retryCount + retries else 0
      lastError := errDesc, timestamp := ans.now
      transitionSeq := (s.states.objects event.cardID ref).transitionSeq + 1
      statsFrom := from_, statsTo := .failed }
    ⟨rfl, rfl, rfl, rfl, rfl, rfl⟩ ⟨rfl, rfl, rfl⟩
  refine ⟨after, outs, evicted, hout, ?_⟩
  simpa [failCard, hload] using hyields

end Advance

/-! ## Delivery reports -/

/-- The states in which a delivery report moves the card. -/
def CardState.awaitsReport (st : CardState) : Prop :=
  st.status = .awaitingDlr ∨ st.status = .inProgress

def CampaignContext.expects (ctx : CampaignContext) (step : ℤ) : Bool :=
  (ctx.commandByStep step).any (·.expectResponse)

/-- What `handleDLR` does to its card, given the state it finds. -/
inductive DLROutcome (ans : Answers) (event : CardEvent) (campaignID : UUID) :
    Option CardState → Option CardState → List Output → Bool → Prop
  | quiet (st : Option CardState) : DLROutcome ans event campaignID st st [] false
  | awaits {st : CardState} {ctx : CampaignContext} (hst : st.awaitsReport)
      (hdlr : event.dlrStatus = .delivrd) (hctx : ans.context = .ok ctx)
      (hcmd : ctx.expects st.currentStep = true) :
    DLROutcome ans event campaignID (some st) (some { st.bump with status := .awaitingMo }) [] false
  | delivered {st : CardState} {ctx : CampaignContext} {after : Option CardState}
      {outs : List Output} {evicted : Bool} (hst : st.awaitsReport)
      (hdlr : event.dlrStatus = .delivrd) (hctx : ans.context = .ok ctx)
      (hcmd : ctx.expects st.currentStep = false)
      (h : AdvanceOutcome ans event.cardID campaignID event.step ctx.commands st
        after outs evicted) :
    DLROutcome ans event campaignID (some st) after outs evicted
  | retries {st : CardState} {ctx : CampaignContext} (hst : st.awaitsReport)
      (hdlr : event.dlrStatus ≠ .delivrd) (hctx : ans.context = .ok ctx)
      (hmax : st.retryCount + 1 < ctx.params.maxRetries) :
    DLROutcome ans event campaignID (some st) (some st)
      [.event (activation ans event.cardID campaignID st.currentStep (st.retryCount + 1))] false
  | partialSubmit {st : CardState} {after : Option CardState} {outs : List Output} {evicted : Bool}
      (hst : st.awaitsReport) (hdlr : event.dlrStatus = .failedPartialSubmit)
      (h : FinishOutcome event.cardID campaignID st .failed .pending after outs evicted) :
    DLROutcome ans event campaignID (some st) after outs evicted
  | fails {st : CardState} {ctx : CampaignContext} {after : Option CardState} {outs : List Output}
      {evicted : Bool} (hst : st.awaitsReport) (hdlr : event.dlrStatus ≠ .delivrd)
      (hsubmitted : event.dlrStatus ≠ .failedPartialSubmit) (hctx : ans.context = .ok ctx)
      (hmax : ¬ st.retryCount + 1 < ctx.params.maxRetries)
      (h : FinishOutcome event.cardID campaignID st .failed .inProgress after outs evicted) :
    DLROutcome ans event campaignID (some st) after outs evicted

/-- The statuses after which `handleDLR` tries again, or gives up. -/
def DLRStatus.isFailure : DLRStatus → Bool
  | .failedSubmit | .failed | .undeliv | .expired | .deleted | .rejectd => true
  | .delivrd | .failedPartialSubmit | .other _ => false

theorem DLRStatus.ne_of_isFailure {status : DLRStatus} (h : status.isFailure = true) :
    status ≠ .delivrd ∧ status ≠ .failedPartialSubmit := by
  constructor <;> rintro rfl <;> cases h

/-- The cases of `actOnDLR`, by the status of the report and what the outside answers. -/
inductive DLRCase (ans : Answers) (event : CardEvent) (campaignID : UUID) (st : CardState) :
    Option CardState → List Output → Bool → Prop
  | unlisted {text : { text : String // text ∉ dlrStatusNames }}
      (hdlr : event.dlrStatus = .other text) : DLRCase ans event campaignID st (some st) [] false
  | unloaded {err : String} (hdlr : event.dlrStatus = .delivrd ∨ event.dlrStatus.isFailure = true)
      (hctx : ans.context = .error err) : DLRCase ans event campaignID st (some st) [] false
  | awaits {ctx : CampaignContext} (hdlr : event.dlrStatus = .delivrd)
      (hctx : ans.context = .ok ctx) (hcmd : ctx.expects st.currentStep = true) :
    DLRCase ans event campaignID st (some { st.bump with status := .awaitingMo }) [] false
  | advances {ctx : CampaignContext} {after : Option CardState} {outs : List Output}
      {evicted : Bool} (hdlr : event.dlrStatus = .delivrd) (hctx : ans.context = .ok ctx)
      (hcmd : ctx.expects st.currentStep = false)
      (h : Advanced ans event.cardID campaignID event.step ctx.commands st after outs evicted) :
    DLRCase ans event campaignID st after outs evicted
  | retries {ctx : CampaignContext} (hdlr : event.dlrStatus.isFailure = true)
      (hctx : ans.context = .ok ctx) (hmax : st.retryCount + 1 < ctx.params.maxRetries) :
    DLRCase ans event campaignID st (some st)
      (if ans.eventError = none then
        [.event (activation ans event.cardID campaignID st.currentStep (st.retryCount + 1))]
      else []) false
  | fails {ctx : CampaignContext} {after : Option CardState} {outs : List Output} {evicted : Bool}
      (hdlr : event.dlrStatus.isFailure = true) (hctx : ans.context = .ok ctx)
      (hmax : ¬ st.retryCount + 1 < ctx.params.maxRetries)
      (h : Finished ans event.cardID campaignID st .failed .inProgress after outs evicted) :
    DLRCase ans event campaignID st after outs evicted
  | partialSubmit {after : Option CardState} {outs : List Output} {evicted : Bool}
      (hdlr : event.dlrStatus = .failedPartialSubmit)
      (h : Finished ans event.cardID campaignID st .failed .pending after outs evicted) :
    DLRCase ans event campaignID st after outs evicted

section DLR

variable {s : Process}

@[simp] theorem visible_logDLR (s : Process) (event : CardEvent) :
    visible ((logDLR event).run workerSemantics s).outputs = [] := by
  cases hmsg : event.msgID <;> simp [logDLR, hmsg]

@[simp] theorem state_logDLR (s : Process) (event : CardEvent) :
    ((logDLR event).run workerSemantics s).state = s := by
  cases hmsg : event.msgID <;> simp [logDLR, hmsg]

/-- A delivered report of a command that expects a response writes the current object in place
twice and stores it again. -/
theorem run_deliveredDLR_awaits
    (href : s.states.cardStates event.cardID = some ref) {ctx : CampaignContext}
    (hctx : ans.context = .ok ctx)
    (hcmd : ctx.expects (s.states.objects event.cardID ref).currentStep = true) :
    ∃ states, (deliveredDLR ans event campaignID ref).run workerSemantics s
        = ⟨.ok (), { s with states := states }, []⟩ ∧
      states.cardState = update s.cardState event.cardID
        (some { (s.states.objects event.cardID ref).bump with status := .awaitingMo }) := by
  set states := (s.states.modify event.cardID ref fun st ↦
    { st with status := .awaitingMo }).modify event.cardID ref CardState.bump with hstates
  refine ⟨states, ?_, ?_⟩
  · have hrun := run_setCardState { s with states := states } event.cardID
      (show states.cardStates event.cardID = some ref from href)
    rw [CampaignContext.expects] at hcmd
    rw [hstates] at hrun ⊢
    simp [deliveredDLR, hctx, hcmd, hrun]
  · have hbump := CardStateStore.cardState_modify
      (s := s.states.modify event.cardID ref fun st ↦ { st with status := .awaitingMo })
      (show _ = some ref from href) CardState.bump
    rw [CardStateStore.cardState_modify href, update_idem] at hbump
    rw [hstates, hbump]
    simp [CardStateStore.modify, CardState.bump, Process.cardState]

private theorem deliveredDLR_cases
    (href : s.states.cardStates event.cardID = some ref) (hdlr : event.dlrStatus = .delivrd) :
    Does s event.cardID (deliveredDLR ans event campaignID ref)
      (DLRCase ans event campaignID (s.states.objects event.cardID ref)) := by
  cases hctx : ans.context with
  | error err =>
    rw [deliveredDLR, hctx]
    exact ⟨_, _, _, .unloaded (Or.inl hdlr) hctx,
      yields_of_same (cardState_of_ref href) rfl rfl rfl⟩
  | ok ctx =>
    by_cases hcmd : ctx.expects (s.states.objects event.cardID ref).currentStep = true
    · obtain ⟨states, hrun, hstates⟩ := run_deliveredDLR_awaits ans event campaignID href hctx hcmd
      refine ⟨_, _, _, .awaits hdlr hctx hcmd, ?_⟩
      rw [hrun]
      exact ⟨rfl, hstates, rfl⟩
    · have hadvance := advanceOrComplete_outcome ans campaignID event.step ctx.commands href
      have hexpects := Bool.eq_false_iff.mpr hcmd
      refine (hadvance.imp fun _ _ _ ↦ .advances hdlr hctx hexpects).of_run_eq ?_
      rw [CampaignContext.expects] at hcmd
      simp [deliveredDLR, hctx, hcmd]

private theorem failedDLR_cases
    (href : s.states.cardStates event.cardID = some ref) (hdlr : event.dlrStatus.isFailure = true) :
    Does s event.cardID (failedDLR ans event campaignID ref)
      (DLRCase ans event campaignID (s.states.objects event.cardID ref)) := by
  cases hctx : ans.context with
  | error err =>
    rw [failedDLR, hctx]
    exact ⟨_, _, _, .unloaded (Or.inr hdlr) hctx,
      yields_of_same (cardState_of_ref href) rfl rfl rfl⟩
  | ok ctx =>
    by_cases hmax : (s.states.objects event.cardID ref).retryCount + 1 < ctx.params.maxRetries
    · have hyields := publishEvent_yields s event.cardID ans (activation ans event.cardID campaignID
        (s.states.objects event.cardID ref).currentStep
        ((s.states.objects event.cardID ref).retryCount + 1))
      rw [cardState_of_ref href] at hyields
      refine ⟨_, _, _, .retries hdlr hctx hmax, ?_⟩
      simpa [failedDLR, hctx, hmax] using hyields
    · have hfail := failCard_outcome ans event campaignID 1
        ("DLR status: " ++ event.dlrStatus.text ++ " (error_code: " ++ event.errorCode ++ ")")
        true .inProgress href
      refine (hfail.imp fun _ _ _ ↦ .fails hdlr hctx hmax).of_run_eq ?_
      simp [failedDLR, hctx, hmax]

/-- **The cases of `actOnDLR`**, in every process in which the object is current. -/
theorem actOnDLR_cases (href : s.states.cardStates event.cardID = some ref) :
    Does s event.cardID (actOnDLR ans event campaignID ref)
      (DLRCase ans event campaignID (s.states.objects event.cardID ref)) := by
  have hfailed := failedDLR_cases ans event campaignID href
  rw [actOnDLR]
  cases hdlr : event.dlrStatus with
  | delivrd => exact deliveredDLR_cases ans event campaignID href hdlr
  | failedPartialSubmit =>
    exact (failCard_outcome ans event campaignID 0
      ("submit failed after partial accept: " ++ event.errorCode) false .pending href).imp
        fun _ _ _ ↦ .partialSubmit hdlr
  | failedSubmit | failed | undeliv | expired | deleted | rejectd =>
    exact hfailed (by rw [hdlr]; rfl)
  | other text =>
    exact ⟨_, _, _, .unlisted hdlr, yields_of_same (cardState_of_ref href) rfl rfl rfl⟩

theorem DLRCase.outcome {ans : Answers} {event : CardEvent} {campaignID : UUID}
    {st : CardState} {after : Option CardState} {outs : List Output} {evicted : Bool}
    (h : DLRCase ans event campaignID st after outs evicted) (hst : st.awaitsReport) :
    DLROutcome ans event campaignID (some st) after outs evicted := by
  cases h with
  | unlisted | unloaded => exact .quiet _
  | awaits hdlr hctx hcmd => exact .awaits hst hdlr hctx hcmd
  | advances hdlr hctx hcmd h => exact .delivered hst hdlr hctx hcmd h.outcome
  | retries hdlr hctx hmax =>
    split_ifs
    · exact .retries hst (DLRStatus.ne_of_isFailure hdlr).1 hctx hmax
    · exact .quiet _
  | fails hdlr hctx hmax h =>
    obtain ⟨hdelivered, hpartial⟩ := DLRStatus.ne_of_isFailure hdlr
    exact .fails hst hdelivered hpartial hctx hmax h.outcome
  | partialSubmit hdlr h => exact .partialSubmit hst hdlr h.outcome

/-- **The rule for `handleDLR`.** A report for a state that does not await one is without effect;
otherwise the outcome is that of `actOnDLR`, from every process in which the found object is
current. -/
theorem yields_handleDLR (s : Process) (ans : Answers) (event : CardEvent) (campaignID : UUID)
    (hquiet : (∀ st, s.found event.cardID ans.row = some st → ¬ st.awaitsReport) →
      Q (s.found event.cardID ans.row) [] false)
    (hact : ∀ (s₁ : Process) (ref : ℕ), s₁.states.cardStates event.cardID = some ref →
      s.found event.cardID ans.row = some (s₁.states.objects event.cardID ref) →
      (s₁.states.objects event.cardID ref).awaitsReport →
      Does s₁ event.cardID (actOnDLR ans event campaignID ref) Q) :
    Does s event.cardID (handleDLR ans event campaignID) Q := by
  rw [handleDLR]
  refine yields_getCardState (fun hmiss ↦ hquiet fun st hst ↦ ?_) (fun _ ↦ ⟨_, rfl⟩) ⟨_, rfl⟩ ?_
  · cases hmiss.symm.trans hst
  · intro s₁ ref href hfound
    by_cases hlive : (s₁.states.objects event.cardID ref).awaitsReport
    · -- the report moves the card
      obtain ⟨after, outs, evicted, hQ, hyields⟩ := hact s₁ ref href hfound hlive
      refine ⟨after, outs, evicted, hQ, ?_⟩
      have hsecond : ¬ ((s₁.states.objects event.cardID ref).status ≠ .awaitingDlr ∧
          (s₁.states.objects event.cardID ref).status ≠ .inProgress) := by
        rcases hlive with h | h <;> simp [h]
      have hfirst : ¬ ((s₁.states.objects event.cardID ref).status ≠ .awaitingDlr ∧
          (s₁.states.objects event.cardID ref).status ≠ .inProgress ∧
          (s₁.states.objects event.cardID ref).status ≠ .awaitingMo) :=
        fun h ↦ hsecond ⟨h.1, h.2.1⟩
      simpa [hfirst, hsecond] using hyields.after_log (visible_logDLR s₁ event)
    · -- the report is stale, or comes after the response
      have hsame : Yields s₁ event.cardID (⟨.ok (), s₁, []⟩ : Outcome Handled Process Output)
          (s.found event.cardID ans.row) [] false :=
        yields_of_same (hfound ▸ cardState_of_ref href) rfl rfl rfl
      refine ⟨_, _, _, hquiet fun st hst ↦ ?_, ?_⟩
      · rwa [some.inj (hst.symm.trans hfound)]
      · rw [CardState.awaitsReport, not_or] at hlive
        by_cases hmo : (s₁.states.objects event.cardID ref).status = .awaitingMo
        · simpa [hmo] using hsame.after_log (visible_logDLR s₁ event)
        · simpa [hlive.1, hlive.2, hmo] using hsame

/-- **The outcomes of a delivery report.** -/
theorem handleDLR_outcome (s : Process) (ans : Answers) (event : CardEvent) (campaignID : UUID) :
    Does s event.cardID (handleDLR ans event campaignID)
      (DLROutcome ans event campaignID (s.found event.cardID ans.row)) := by
  refine yields_handleDLR s ans event campaignID (fun _ ↦ .quiet _) ?_
  intro s₁ ref href hfound hlive
  rw [hfound]
  exact (actOnDLR_cases ans event campaignID href).imp fun _ _ _ h ↦ h.outcome hlive

end DLR

/-! ## Responses -/

def CardState.awaitsResponse (st : CardState) : Prop :=
  st.status = .awaitingMo ∨ st.status = .awaitingDlr

/-- What `handleMO` does to its card, given the state it finds. -/
inductive MOOutcome (ans : Answers) (event : CardEvent) :
    Option CardState → Option CardState → List Output → Bool → Prop
  | quiet (st : Option CardState) : MOOutcome ans event st st [] false
  | responded {st : CardState} {ctx : CampaignContext} {cmd : CampaignCommand}
      {after : Option CardState} {outs : List Output} {evicted : Bool} (hst : st.awaitsResponse)
      (hctx : ans.context = .ok ctx) (hcmd : ctx.commandByStep st.currentStep = some cmd)
      (h : AdvanceOutcome ans event.cardID (event.campaignID.getD st.campaignID) st.currentStep
        ctx.commands st after outs evicted) :
    MOOutcome ans event (some st) after outs evicted
  | rejected {st : CardState} {ctx : CampaignContext} {cmd : CampaignCommand}
      {after : Option CardState} {outs : List Output} {evicted : Bool} (hst : st.awaitsResponse)
      (hctx : ans.context = .ok ctx) (hcmd : ctx.commandByStep st.currentStep = some cmd)
      (h : FinishOutcome event.cardID (event.campaignID.getD st.campaignID) st .failed .inProgress
        after outs evicted) :
    MOOutcome ans event (some st) after outs evicted

/-- What a response does; with a working state writer, a card that is not finished keeps its
state. -/
structure Responded (ans : Answers) (event : CardEvent) (found after : Option CardState)
    (outs : List Output) (evicted : Bool) : Prop where
  outcome : MOOutcome ans event found after outs evicted
  kept : ans.writeError = none → evicted = false → after = found

section MO

variable {s : Process}

private theorem responded_quiet {ans : Answers} {event : CardEvent} (found : Option CardState) :
    Responded ans event found found [] false :=
  ⟨.quiet found, fun _ _ ↦ rfl⟩

@[simp] theorem visible_logPoR (s : Process) (lastMsgID : Option UUID) (resp : ResponsePacket) :
    visible ((logPoR lastMsgID resp).run workerSemantics s).outputs = [] := by
  cases lastMsgID <;> simp [logPoR]

@[simp] theorem state_logPoR (s : Process) (lastMsgID : Option UUID) (resp : ResponsePacket) :
    ((logPoR lastMsgID resp).run workerSemantics s).state = s := by
  cases lastMsgID <;> simp [logPoR]

theorem visible_log_logPoR (s : Process) (action : MessageLogAction) (lastMsgID : Option UUID)
    (resp : ResponsePacket) :
    visible (.log action :: ((logPoR lastMsgID resp).run workerSemantics s).outputs) = [] := by
  rw [← singleton_append, visible_append, visible_log, visible_logPoR, nil_append]

private theorem actOnMO_outcome {ctx : CampaignContext} {cmd : CampaignCommand}
    (href : s.states.cardStates event.cardID = some ref)
    (hobj : s.states.objects event.cardID ref = st) (hst : st.awaitsResponse)
    (hctx : ans.context = .ok ctx) (hcmd : ctx.commandByStep st.currentStep = some cmd)
    (payloadBytes : Bytes) (resp : ResponsePacket) :
    Does s event.cardID (actOnMO ans event (event.campaignID.getD st.campaignID) ref ctx
      payloadBytes resp) (Responded ans event (some st)) := by
  subst hobj
  rw [actOnMO]
  by_cases hok : resp.statusCode = respOK
  · obtain ⟨after, outs, evicted, hout, hyields⟩ := advanceOrComplete_outcome ans
      (event.campaignID.getD (s.states.objects event.cardID ref).campaignID)
      (s.states.objects event.cardID ref).currentStep ctx.commands href
    refine ⟨after, outs, evicted, ⟨.responded hst hctx hcmd hout.outcome, hout.kept⟩, ?_⟩
    simpa [hok] using hyields.after_log (visible_log_logPoR _ _ _ _)
  · obtain ⟨after, outs, evicted, hout, hyields⟩ := failCard_outcome ans event
      (event.campaignID.getD (s.states.objects event.cardID ref).campaignID) 0
      ("PoR error: status_code=" ++ hexByte resp.statusCode ++ " (" ++
        porStatusDescription resp.statusCode ++ ")") false .inProgress href
    refine ⟨after, outs, evicted, ⟨.rejected hst hctx hcmd hout.outcome, fun hwrite hkept ↦ ?_⟩, ?_⟩
    · cases hkept.symm.trans (hout.written hwrite)
    · simpa [hok] using hyields.after_log (visible_log_logPoR _ _ _ _)

private theorem parseMO_outcome (lib : SecuredPackets) (ans : Answers) (event : CardEvent)
    (href : s.states.cardStates event.cardID = some ref)
    (hobj : s.states.objects event.cardID ref = st) (hst : st.awaitsResponse)
    (cardKeys : CardKeyMaterial) :
    Does s event.cardID (parseMO lib ans event (event.campaignID.getD st.campaignID) ref cardKeys)
      (Responded ans event (some st)) := by
  have hquiet : ∀ value : Handled, Does s event.cardID (.ret value)
      (Responded ans event (some st)) :=
    fun value ↦ ⟨_, _, _, responded_quiet _,
      yields_of_same (hobj ▸ cardState_of_ref href) rfl rfl rfl⟩
  rw [parseMO]
  cases hpayload : hexDecode event.payloadHex with
  | error err => exact hquiet _
  | ok payloadBytes =>
    cases hctx : ans.context with
    | error err => exact hquiet _
    | ok ctx =>
      cases hcmd : ctx.commandByStep st.currentStep with
      | none =>
        simpa [Does, hobj, hcmd] using hquiet _
      | some cmd =>
        cases hresp : lib.parseResponsePacket (buildSecProfileFromCache cmd) payloadBytes
            cardKeys.encKey cardKeys.authKey with
        | error err =>
          simpa [Does, hobj, hcmd, hresp] using hquiet _
        | ok resp =>
          exact (actOnMO_outcome ans event href hobj hst hctx hcmd payloadBytes resp).of_run_eq
            (by simp [hobj, hcmd, hresp])

/-- **The outcomes of a response.** -/
theorem handleMO_outcome (s : Process) (lib : SecuredPackets) (ans : Answers) (event : CardEvent) :
    Does s event.cardID (handleMO lib ans event)
      (Responded ans event (s.found event.cardID ans.row)) := by
  rw [handleMO]
  refine yields_getCardState (fun _ ↦ responded_quiet _) (fun _ ↦ ⟨_, rfl⟩) ⟨_, rfl⟩ ?_
  intro s₁ ref href hfound
  have hquiet : ∀ (value : Handled) (keys : UUID → Option CardKeyMaterial), Yields s₁ event.cardID
      (⟨value, { s₁ with cardKeyCache := keys }, []⟩ : Outcome Handled Process Output)
      (s.found event.cardID ans.row) [] false :=
    fun _ _ ↦ yields_of_same (hfound ▸ cardState_of_ref href) rfl rfl rfl
  by_cases hlive : (s₁.states.objects event.cardID ref).awaitsResponse
  · have hcond : ¬ ((s₁.states.objects event.cardID ref).status ≠ .awaitingMo ∧
        (s₁.states.objects event.cardID ref).status ≠ .awaitingDlr) := by
      rcases hlive with h | h <;> simp [h]
    obtain ⟨cache, hkeys⟩ := run_loadCardKeys s₁ ans event.cardID
    cases havailable : s₁.availableKeys ans event.cardID with
    | error err =>
      refine ⟨_, _, _, responded_quiet _, ?_⟩
      simpa [hcond, hkeys, havailable] using hquiet (.error ("get card keys: " ++ err)) cache
    | ok cardKeys =>
      obtain ⟨after, outs, evicted, hout, hyields⟩ := parseMO_outcome lib ans event
        (s := { s₁ with cardKeyCache := cache }) href rfl hlive cardKeys
      refine ⟨after, outs, evicted, hfound ▸ hout, ?_⟩
      have hsame : Yields s₁ event.cardID _ after outs evicted :=
        ⟨hyields.outputs, hyields.cardState, hyields.counters⟩
      simpa [hcond, hkeys, havailable] using hsame
  · rw [CardState.awaitsResponse, not_or] at hlive
    refine ⟨_, _, _, responded_quiet _, ?_⟩
    simpa [hlive.1, hlive.2] using hquiet (.ok ()) s₁.cardKeyCache

end MO

/-! ## Reports and responses together -/

/-- The campaign a report is handled for. -/
def CardEvent.campaignFor (ev : CardEvent) (st : CardState) : UUID :=
  ev.campaignID.getD st.campaignID

def CardEvent.Moves (ev : CardEvent) (st : CardState) : Prop :=
  (ev.type = .dlrReceived ∧ st.awaitsReport) ∨ (ev.type = .moReceived ∧ st.awaitsResponse)

instance (st : CardState) : Decidable st.awaitsReport :=
  inferInstanceAs (Decidable (_ ∨ _))

instance (st : CardState) : Decidable st.awaitsResponse :=
  inferInstanceAs (Decidable (_ ∨ _))

instance (ev : CardEvent) (st : CardState) : Decidable (ev.Moves st) :=
  inferInstanceAs (Decidable (_ ∨ _))

theorem CardEvent.Moves.not_isTerminal {ev : CardEvent} (h : ev.Moves st) :
    st.status.isTerminal = false := by
  rcases h with ⟨-, h | h⟩ | ⟨-, h | h⟩ <;> rw [h] <;> rfl

theorem CardEvent.Moves.type_ne {ev : CardEvent} (h : ev.Moves st) : ev.type ≠ .activate := by
  rcases h with ⟨h, -⟩ | ⟨h, -⟩ <;> rw [h] <;> exact EventType.noConfusion

/-- The counter from which a report takes a card that it finishes: each site names its own, whatever
the card was counted under. -/
def CardEvent.finishedFrom (ev : CardEvent) : CardStatus :=
  if ev.type = .dlrReceived ∧ ev.dlrStatus = .failedPartialSubmit then .pending else .inProgress

/-- What `handleDLR` and `handleMO` have in common: they leave the state as it is, wait for the
response, publish an activation, or finish the card. -/
inductive ReportOutcome (ev : CardEvent) :
    Option CardState → Option CardState → List Output → Bool → Prop
  | quiet (st : Option CardState) : ReportOutcome ev st st [] false
  | awaits {st : CardState} (hst : ev.Moves st) :
    ReportOutcome ev (some st) (some { st.bump with status := .awaitingMo }) [] false
  | publishes {st : CardState} {ans : Answers} {step retryCount : ℤ} (hst : ev.Moves st) :
    ReportOutcome ev (some st) (some st)
      [.event (activation ans ev.cardID (ev.campaignFor st) step retryCount)] false
  | finishes {st : CardState} {status : CardStatus} {after : Option CardState}
      {outs : List Output} {evicted : Bool} (hst : ev.Moves st)
      (hstatus : status = .completed ∨ status = .failed)
      (h : FinishOutcome ev.cardID (ev.campaignFor st) st status ev.finishedFrom
        after outs evicted) :
    ReportOutcome ev (some st) after outs evicted

section Report

variable {ans : Answers} {ev : CardEvent} {found after : Option CardState} {outs : List Output}
  {evicted : Bool}

theorem AdvanceOutcome.report {campaignID : UUID} {step : ℤ}
    {commands : List CampaignCommand} {st : CardState}
    (h : AdvanceOutcome ans ev.cardID campaignID step commands st after outs evicted)
    (hst : ev.Moves st) (hfrom : ev.finishedFrom = .inProgress)
    (hcampaign : campaignID = ev.campaignFor st) :
    ReportOutcome ev (some st) after outs evicted := by
  subst hcampaign
  cases h with
  | publishes hnext herr => exact .publishes hst
  | unpublished hnext herr => exact .quiet _
  | completes hnext h => exact .finishes hst (Or.inl rfl) (hfrom ▸ h)

theorem DLROutcome.report {campaignID : UUID} (htype : ev.type = .dlrReceived)
    (hcampaign : ev.campaignID = some campaignID)
    (h : DLROutcome ans ev campaignID found after outs evicted) :
    ReportOutcome ev found after outs evicted := by
  have hc : ∀ st : CardState, campaignID = ev.campaignFor st := fun st ↦ by
    rw [CardEvent.campaignFor, hcampaign, getD_some]
  have hfrom : ev.dlrStatus ≠ .failedPartialSubmit → ev.finishedFrom = .inProgress :=
    fun hne ↦ if_neg fun hand ↦ hne hand.2
  cases h with
  | quiet => exact .quiet _
  | awaits hst hdlr hctx hcmd => exact .awaits (Or.inl ⟨htype, hst⟩)
  | delivered hst hdlr hctx hcmd h =>
    refine h.report (Or.inl ⟨htype, hst⟩) (hfrom ?_) (hc _)
    rw [hdlr]
    exact DLRStatus.noConfusion
  | @retries st ctx hst hdlr hctx hmax =>
    rw [hc st]
    exact .publishes (Or.inl ⟨htype, hst⟩)
  | @partialSubmit st _ _ _ hst hdlr h =>
    have hpending : ev.finishedFrom = .pending := if_pos ⟨htype, hdlr⟩
    rw [hc st, ← hpending] at h
    exact .finishes (Or.inl ⟨htype, hst⟩) (Or.inr rfl) h
  | @fails st _ _ _ _ hst hdlr hsubmitted hctx hmax h =>
    rw [hc st, ← hfrom hsubmitted] at h
    exact .finishes (Or.inl ⟨htype, hst⟩) (Or.inr rfl) h

theorem MOOutcome.report (htype : ev.type = .moReceived)
    (h : MOOutcome ans ev found after outs evicted) :
    ReportOutcome ev found after outs evicted := by
  have hfrom : ev.finishedFrom = .inProgress := by
    refine if_neg fun hand ↦ ?_
    rw [htype] at hand
    exact EventType.noConfusion hand.1
  cases h with
  | quiet => exact .quiet _
  | responded hst hctx hcmd h => exact h.report (Or.inr ⟨htype, hst⟩) hfrom rfl
  | rejected hst hctx hcmd h =>
    exact .finishes (Or.inr ⟨htype, hst⟩) (Or.inr rfl) (hfrom ▸ h)

end Report

/-! ## Activations -/

/-- What a retry without a free timer does to its card, given the state it finds. -/
inductive OverflowOutcome (cardID campaignID : UUID) :
    Option CardState → Option CardState → List Output → Bool → Prop
  | quiet (st : Option CardState) : OverflowOutcome cardID campaignID st st [] false
  | fails {st : CardState} {ch : CardStateChange} (hcampaign : st.campaignID = campaignID)
      (hst : st.status.isTerminal = false)
      (hch : Finishes cardID campaignID st .failed .inProgress ch) :
    OverflowOutcome cardID campaignID (some st) none [.change ch] true
  | unwritten {st : CardState} (hcampaign : st.campaignID = campaignID)
      (hst : st.status.isTerminal = false) :
    OverflowOutcome cardID campaignID (some st) none [] true

inductive ActivateOutcome (s : Process) (ans : Answers) (event : CardEvent) (campaignID : UUID) :
    Option CardState → List Output → CounterStore → Prop
  | quiet : ActivateOutcome s ans event campaignID (s.cardState event.cardID) [] s.counters
  | consumed {ctx : CampaignContext} {cmd : CampaignCommand} (hctx : ans.context = .ok ctx)
      (hcmd : ctx.commandByStep event.step = some cmd) :
    ActivateOutcome s ans event campaignID (s.cardState event.cardID) []
      (s.counters.incrCounter event.cardID cmd.applicationID)
  | delayed {ctx : CampaignContext} {cmd : CampaignCommand} (hctx : ans.context = .ok ctx)
      (hcmd : ctx.commandByStep event.step = some cmd) :
    ActivateOutcome s ans event campaignID (s.cardState event.cardID)
      [.delayed (activation ans event.cardID campaignID event.step event.retryCount)]
      (s.counters.incrCounter event.cardID cmd.applicationID)
  | overflowed {ctx : CampaignContext} {cmd : CampaignCommand} {after : Option CardState}
      {outs : List Output} {evicted : Bool} (hctx : ans.context = .ok ctx)
      (hcmd : ctx.commandByStep event.step = some cmd)
      (hslot : throttled ans ctx.params = true ∧ ans.retrySlot = false)
      (h : OverflowOutcome event.cardID campaignID (s.found event.cardID ans.row) after outs
        evicted) :
    ActivateOutcome s ans event campaignID after outs
      (if evicted then
        (s.counters.incrCounter event.cardID cmd.applicationID).evictCard event.cardID
      else s.counters.incrCounter event.cardID cmd.applicationID)
  | unsent {ctx : CampaignContext} {cmd : CampaignCommand} (hctx : ans.context = .ok ctx)
      (hcmd : ctx.commandByStep event.step = some cmd)
      (hpass : throttled ans ctx.params = false) :
    ActivateOutcome s ans event campaignID (some (activateState ans event campaignID)) []
      (s.counters.incrCounter event.cardID cmd.applicationID)
  | sent {ctx : CampaignContext} {cmd : CampaignCommand} {outs : List Output}
      (msg : SendSMSMessage) (origin : PacketOrigin) (hctx : ans.context = .ok ctx)
      (hcmd : ctx.commandByStep event.step = some cmd)
      (hpass : throttled ans ctx.params = false)
      (hmsg : msg.msgID = ans.msgID ∧ msg.cardID = event.cardID ∧ msg.campaignID = campaignID)
      (horigin : origin = ⟨event.step, cmd.applicationID,
        s.counters.getCounter event.cardID cmd.applicationID,
        counterBytes (s.counters.getCounter event.cardID cmd.applicationID)⟩)
      (houts : outs = [.change (activateChange ans event campaignID)] ∨ outs = []) :
    ActivateOutcome s ans event campaignID (some (activateState ans event campaignID))
      (.sms msg origin :: outs) (s.counters.incrCounter event.cardID cmd.applicationID)

/-- The command of an activation can be framed: the campaign is seen as running, its context has a
command for the step, the keys of the card are there, the packet can be built and split. -/
structure Process.Frames (s : Process) (lib : SecuredPackets) (cryptoProvider : Bool)
    (ans : Answers) (event : CardEvent) (ctx : CampaignContext) (cmd : CampaignCommand)
    (cardKeys : CardKeyMaterial) (packet : Bytes) (profile : Profile) (parts : List Bytes) :
    Prop where
  status : ans.campaignStatus = .ok .running
  context : ans.context = .ok ctx
  command : ctx.commandByStep event.step = some cmd
  keys : s.availableKeys ans event.cardID = .ok cardKeys
  build : lib.buildCommandPacket (buildSecProfileFromCache cmd)
    (commandInput cryptoProvider event cmd cardKeys
      (s.counters.getCounter event.cardID cmd.applicationID)) = .ok packet
  loaded : ans.profile = .ok profile
  split : splitForConcat ans.refNum packet profile.bufferSize
    (ctx.params.maxConcatOverride.getD profile.maxConcatSMS) = .ok parts

/-- The rest of an activation whose command is framed: it starts a timer if the throttle refuses it,
and sends the command otherwise. -/
def throttleOrSend (ans : Answers) (event : CardEvent) (campaignID : UUID) (ctx : CampaignContext)
    (cmd : CampaignCommand) (cardKeys : CardKeyMaterial) (profile : Profile) (counterVal : ℤ)
    (packet : Bytes) (parts : List Bytes) : Worker Handled :=
  if throttled ans ctx.params then do
    scheduleActivateRetry ans (activation ans event.cardID campaignID event.step event.retryCount)
      campaignID "throttle"
    return .ok ()
  else sendCommand ans event campaignID cmd cardKeys profile counterVal packet parts

/-- What a retry without a free timer does; with a working state writer, it fails a card under
way. -/
structure Overflowed (ans : Answers) (cardID campaignID : UUID) (found after : Option CardState)
    (outs : List Output) (evicted : Bool) : Prop where
  outcome : OverflowOutcome cardID campaignID found after outs evicted
  failed : ∀ st, found = some st → st.campaignID = campaignID → st.status.isTerminal = false →
    ans.writeError = none → outs ≠ []

/-- What `sendCommand` sends, message logs apart. -/
def sentOutputs (ans : Answers) (event : CardEvent) (campaignID : UUID) (cmd : CampaignCommand)
    (cardKeys : CardKeyMaterial) (profile : Profile) (counterVal : ℤ) (parts : List Bytes) :
    List Output :=
  if ans.smsError = none then
    .sms (smsMessage ans event campaignID cardKeys profile parts)
        ⟨event.step, cmd.applicationID, counterVal, counterBytes counterVal⟩ ::
      (if ans.writeError = none then [.change (activateChange ans event campaignID)] else [])
  else []

section Activate

variable {s : Process}

theorem overflowRetry_outcome (s : Process) (ans : Answers) (event : CardEvent)
    (campaignID : UUID) (reason : String) :
    Does s event.cardID (overflowRetry ans event campaignID reason)
      (Overflowed ans event.cardID campaignID (s.found event.cardID ans.row)) := by
  rw [overflowRetry]
  refine yields_getCardState (fun hmiss ↦ ⟨.quiet _, fun st hst ↦ ?_⟩) (fun _ ↦ ⟨_, rfl⟩)
    ⟨_, rfl⟩ ?_
  · cases hmiss.symm.trans hst
  intro s₁ ref href hfound
  have hquiet : Yields s₁ event.cardID (⟨(), s₁, []⟩ : Outcome Unit Process Output)
      (s.found event.cardID ans.row) [] false :=
    yields_of_same (hfound ▸ cardState_of_ref href) rfl rfl rfl
  have heq : ∀ st, s.found event.cardID ans.row = some st →
      s₁.states.objects event.cardID ref = st :=
    fun st hst ↦ some.inj (hfound.symm.trans hst)
  by_cases hcampaign : (s₁.states.objects event.cardID ref).campaignID = campaignID
  · by_cases hterm : (s₁.states.objects event.cardID ref).status.isTerminal = true
    · refine ⟨_, _, _, ⟨.quiet _, fun st hst _ hlive ↦ ?_⟩,
        by simpa [hcampaign, hterm] using hquiet⟩
      rw [← heq st hst, hterm] at hlive
      cases hlive
    · have hlive := Bool.eq_false_iff.mpr hterm
      have hmodify := CardStateStore.cardState_modify href CardState.bump
      cases hwrite : ans.writeError with
      | none =>
        refine ⟨none, [.change
          { campaignID := campaignID, cardID := event.cardID, status := .failed
            lastError := "retry_scheduler_overflow: " ++ reason, timestamp := ans.now
            transitionSeq := (s₁.states.objects event.cardID ref).transitionSeq + 1
            statsFrom := .inProgress, statsTo := .failed }], true,
          ⟨hfound ▸ .fails hcampaign hlive ⟨rfl, rfl, rfl, rfl, rfl, rfl⟩,
            fun _ _ _ _ _ ↦ cons_ne_nil _ _⟩, ?_, ?_, ?_⟩
        · simp [hcampaign, hlive, writeCardState, hwrite, visible]
        · simp [hcampaign, hlive, writeCardState, hwrite, Process.cardState, hmodify]
        · simp [hcampaign, hlive, writeCardState, hwrite]
      | some err =>
        refine ⟨none, [], true, ⟨hfound ▸ .unwritten hcampaign hlive, fun _ _ _ _ hnone ↦ ?_⟩,
          ?_, ?_, ?_⟩
        · cases hwrite.symm.trans hnone
        · simp [hcampaign, hlive, writeCardState, hwrite]
        · simp [hcampaign, hlive, writeCardState, hwrite, Process.cardState, hmodify]
        · simp [hcampaign, hlive, writeCardState, hwrite]
  · refine ⟨_, _, _, ⟨.quiet _, fun st hst hsame ↦ ?_⟩, by simpa [hcampaign] using hquiet⟩
    exact absurd (heq st hst ▸ hsame) hcampaign

/-- **What `sendCommand` does**, by the two calls of it that may fail. -/
theorem sendCommand_leaves (s : Process) (ans : Answers) (event : CardEvent)
    (campaignID : UUID) (cmd : CampaignCommand) (cardKeys : CardKeyMaterial) (profile : Profile)
    (counterVal : ℤ) (packet : Bytes) (parts : List Bytes) :
    let r := (sendCommand ans event campaignID cmd cardKeys profile counterVal packet parts).run
      workerSemantics s
    Leaves s event.cardID r (some (activateState ans event campaignID))
      (sentOutputs ans event campaignID cmd cardKeys profile counterVal parts) s.counters ∧
    (r.value = .ok () ↔ ans.smsError = none ∧ ans.writeError = none) := by
  rw [sendCommand]
  cases hsms : ans.smsError with
  | some err =>
    refine ⟨⟨?_, ?_, ?_⟩, ?_⟩
    · simp [sentOutputs, hsms, visible]
    · simp [Process.cardState]
    · simp
    · simp
  | none =>
    cases hwrite : ans.writeError <;> refine ⟨⟨?_, ?_, ?_⟩, ?_⟩
    all_goals simp [sentOutputs, hsms, visible, writeCardState, hwrite, Process.cardState]

theorem Leaves.of_states {s₁ : Process} {cardID : UUID}
    {counters : CounterStore} (h : Leaves s₁ cardID r after outs counters)
    (hstates : s₁.states = s.states) : Leaves s cardID r after outs counters where
  outputs := h.outputs
  cardState := by
    have hsame : s₁.cardState = s.cardState := by
      rw [Process.cardState, hstates, Process.cardState]
    rw [h.cardState, hsame]
  counters_eq := h.counters_eq

private theorem leaves_of_same {cardID : UUID} {counters : CounterStore}
    (hstates : r.state.states = s.states) (hcounters : r.state.counters = counters)
    (houts : visible r.outputs = outs) : Leaves s cardID r (s.cardState cardID) outs counters where
  outputs := houts
  cardState := by
    rw [update_eq_self, Process.cardState, hstates, Process.cardState]
  counters_eq := hcounters

/-- **The run of an activation.** It ends before it takes a counter value, or with the value taken
and no message framed, or else its command is framed. -/
theorem run_handleActivate_cases (s : Process) (lib : SecuredPackets) (cryptoProvider : Bool)
    (ans : Answers) (event : CardEvent) (campaignID : UUID) :
    let r := (handleActivate lib cryptoProvider ans event campaignID).run workerSemantics s
    (∃ value cache, (ans.campaignStatus = .ok .running → value ≠ .ok ()) ∧
      r = ⟨value, { s with cardKeyCache := cache }, []⟩) ∨
    (∃ ctx cmd err cache, ans.context = .ok ctx ∧ ctx.commandByStep event.step = some cmd ∧
      r = ⟨.error err,
        ⟨s.states, s.counters.incrCounter event.cardID cmd.applicationID, cache⟩, []⟩) ∨
    ∃ ctx cmd cardKeys packet profile parts cache,
      s.Frames lib cryptoProvider ans event ctx cmd cardKeys packet profile parts ∧
      r = (throttleOrSend ans event campaignID ctx cmd cardKeys profile
        (s.counters.getCounter event.cardID cmd.applicationID) packet parts).run workerSemantics
          ⟨s.states, s.counters.incrCounter event.cardID cmd.applicationID, cache⟩ := by
  rw [handleActivate]
  cases hstatus : ans.campaignStatus with
  | error err => exact Or.inl ⟨_, s.cardKeyCache, fun h ↦ by simp at h, rfl⟩
  | ok status =>
    by_cases hrunning : status = .running
    · subst hrunning
      cases hctx : ans.context with
      | error err => exact Or.inl ⟨.error _, s.cardKeyCache, fun _ ↦ by simp, rfl⟩
      | ok ctx =>
        cases hcmd : ctx.commandByStep event.step with
        | none => exact Or.inl ⟨.error _, s.cardKeyCache, fun _ ↦ by simp, by simp [hcmd]; rfl⟩
        | some cmd =>
          obtain ⟨cache, hload⟩ := run_loadCardKeys s ans event.cardID
          cases hkeys : s.availableKeys ans event.cardID with
          | error err =>
            exact Or.inl ⟨.error _, cache, fun _ ↦ by simp, by simp [hcmd, hload, hkeys]; rfl⟩
          | ok cardKeys =>
            right
            set counterVal := s.counters.getCounter event.cardID cmd.applicationID with hval
            cases hbuild : lib.buildCommandPacket (buildSecProfileFromCache cmd)
                (commandInput cryptoProvider event cmd cardKeys counterVal) with
            | error err =>
              exact Or.inl ⟨ctx, cmd, _, cache, rfl, hcmd, by
                simp [hcmd, hload, hkeys, ← hval, frameCommand, hbuild]; rfl⟩
            | ok packet =>
              cases hprofile : ans.profile with
              | error err =>
                exact Or.inl ⟨ctx, cmd, _, cache, rfl, hcmd, by
                  simp [hcmd, hload, hkeys, ← hval, frameCommand, hbuild, hprofile]; rfl⟩
              | ok profile =>
                cases hsplit : splitForConcat ans.refNum packet profile.bufferSize
                    (ctx.params.maxConcatOverride.getD profile.maxConcatSMS) with
                | error err =>
                  exact Or.inl ⟨ctx, cmd, _, cache, rfl, hcmd, by
                    simp [hcmd, hload, hkeys, ← hval, frameCommand, hbuild, hprofile, hsplit]; rfl⟩
                | ok parts =>
                  refine Or.inr ⟨ctx, cmd, cardKeys, packet, profile, parts, cache,
                    ⟨hstatus, hctx, hcmd, hkeys, hbuild, hprofile, hsplit⟩, ?_⟩
                  simp [hcmd, hload, hkeys, ← hval, frameCommand, hbuild, hprofile, hsplit,
                    throttleOrSend]
    · refine Or.inl ⟨.ok (), s.cardKeyCache, fun h ↦ absurd (Except.ok.inj h) hrunning, ?_⟩
      simp [hrunning]

/-- The rest of an activation after the command was framed. `s₁` is the process then. -/
private theorem throttleOrSend_outcome (s₁ : Process) (ans : Answers) (event : CardEvent)
    (campaignID : UUID) {ctx : CampaignContext} {cmd : CampaignCommand}
    (hctx : ans.context = .ok ctx) (hcmd : ctx.commandByStep event.step = some cmd)
    (cardKeys : CardKeyMaterial) (profile : Profile) (packet : Bytes) (parts : List Bytes)
    (hstates : s₁.states = s.states)
    (hcounters : s₁.counters = s.counters.incrCounter event.cardID cmd.applicationID) :
    ∃ after outs counters, ActivateOutcome s ans event campaignID after outs counters ∧
      Leaves s₁ event.cardID ((throttleOrSend ans event campaignID ctx cmd cardKeys profile
        (s.counters.getCounter event.cardID cmd.applicationID) packet parts).run workerSemantics s₁)
        after outs counters := by
  have hview : s₁.cardState = s.cardState := by
    rw [Process.cardState, hstates, Process.cardState]
  have hfound : s₁.found event.cardID ans.row = s.found event.cardID ans.row := by
    rw [Process.found, hstates, Process.found]
  by_cases hthrottled : throttled ans ctx.params = true
  · rw [throttleOrSend, if_pos hthrottled]
    cases hslot : ans.retrySlot with
    | true =>
      -- a timer will publish the activation again
      refine ⟨_, _, _, .delayed hctx hcmd, hview ▸ leaves_of_same ?_ ?_ ?_⟩
      · simp [scheduleActivateRetry, hslot]
      · simp [scheduleActivateRetry, hslot, hcounters]
      · simp [scheduleActivateRetry, hslot, visible]
    | false =>
      obtain ⟨after, outs, evicted, hout, hyields⟩ := overflowRetry_outcome s₁ ans
        (activation ans event.cardID campaignID event.step event.retryCount) campaignID "throttle"
      have hyields : Yields s₁ event.cardID _ after outs evicted := hyields
      have hout : OverflowOutcome event.cardID campaignID (s₁.found event.cardID ans.row)
        after outs evicted := hout.outcome
      rw [hfound] at hout
      refine ⟨_, _, _, .overflowed hctx hcmd ⟨hthrottled, hslot⟩ hout, ?_, ?_, ?_⟩
      · simpa [scheduleActivateRetry, hslot] using hyields.outputs
      · simpa [scheduleActivateRetry, hslot] using hyields.cardState
      · have hevicted := hyields.counters
        rw [hcounters] at hevicted
        simpa [scheduleActivateRetry, hslot] using hevicted
  · have hpass := Bool.eq_false_iff.mpr hthrottled
    have hleaves := (sendCommand_leaves s₁ ans event campaignID cmd cardKeys profile
      (s.counters.getCounter event.cardID cmd.applicationID) packet parts).1
    rw [throttleOrSend, if_neg hthrottled]
    rw [hcounters, sentOutputs] at hleaves
    split_ifs at hleaves with hsms hwrite
    · exact ⟨_, _, _, .sent _ _ hctx hcmd hpass ⟨rfl, rfl, rfl⟩ rfl (Or.inl rfl), hleaves⟩
    · exact ⟨_, _, _, .sent _ _ hctx hcmd hpass ⟨rfl, rfl, rfl⟩ rfl (Or.inr rfl), hleaves⟩
    · exact ⟨_, _, _, .unsent hctx hcmd hpass, hleaves⟩

/-- **The outcomes of an activation.** -/
theorem handleActivate_outcome (s : Process) (lib : SecuredPackets) (cryptoProvider : Bool)
    (ans : Answers) (event : CardEvent) (campaignID : UUID) :
    ∃ after outs counters, ActivateOutcome s ans event campaignID after outs counters ∧
      Leaves s event.cardID ((handleActivate lib cryptoProvider ans event campaignID).run
        workerSemantics s) after outs counters := by
  rcases run_handleActivate_cases s lib cryptoProvider ans event campaignID with
    ⟨value, cache, -, hrun⟩ | ⟨ctx, cmd, err, cache, hctx, hcmd, hrun⟩ |
    ⟨ctx, cmd, cardKeys, packet, profile, parts, cache, hframes, hrun⟩
  · exact ⟨_, _, _, .quiet, hrun ▸ leaves_of_same rfl rfl rfl⟩
  · exact ⟨_, _, _, .consumed hctx hcmd, hrun ▸ leaves_of_same rfl rfl rfl⟩
  · obtain ⟨after, outs, counters, hout, hleaves⟩ := throttleOrSend_outcome (s := s)
      ⟨s.states, s.counters.incrCounter event.cardID cmd.applicationID, cache⟩ ans event campaignID
      hframes.context hframes.command cardKeys profile packet parts rfl rfl
    exact ⟨after, outs, counters, hout, hrun ▸ Leaves.of_states hleaves rfl⟩

end Activate

/-! ## All events -/

inductive EventOutcome (s : Process) (ans : Answers) (ev : CardEvent) :
    Option CardState → List Output → CounterStore → Prop
  | activated {campaignID : UUID} {after : Option CardState} {outs : List Output}
      {counters : CounterStore} (htype : ev.type = .activate)
      (hcampaign : ev.campaignID = some campaignID)
      (h : ActivateOutcome s ans ev campaignID after outs counters) :
    EventOutcome s ans ev after outs counters
  | reported {campaignID : UUID} {after : Option CardState} {outs : List Output} {evicted : Bool}
      (htype : ev.type = .dlrReceived) (hcampaign : ev.campaignID = some campaignID)
      (h : DLROutcome ans ev campaignID (s.found ev.cardID ans.row) after outs evicted) :
    EventOutcome s ans ev after outs
      (if evicted then s.counters.evictCard ev.cardID else s.counters)
  | responded {after : Option CardState} {outs : List Output} {evicted : Bool}
      (htype : ev.type = .moReceived)
      (h : MOOutcome ans ev (s.found ev.cardID ans.row) after outs evicted) :
    EventOutcome s ans ev after outs
      (if evicted then s.counters.evictCard ev.cardID else s.counters)
  | refused (hcampaign : ev.campaignID = none) (htype : ev.type ≠ .moReceived) :
    EventOutcome s ans ev (s.cardState ev.cardID) [] s.counters

/-- **The outcomes of an event.** -/
theorem handleCardEvent_outcome (s : Process) (lib : SecuredPackets) (cryptoProvider : Bool)
    (ans : Answers) (ev : CardEvent) :
    ∃ after outs counters, EventOutcome s ans ev after outs counters ∧
      Leaves s ev.cardID ((handleCardEvent lib cryptoProvider ans ev).run workerSemantics s)
        after outs counters := by
  have hrefused : ∀ value : Handled, Leaves s ev.cardID
      (⟨value, s, []⟩ : Outcome Handled Process Output) (s.cardState ev.cardID) [] s.counters :=
    fun value ↦ ⟨rfl, (update_eq_self _ _).symm, rfl⟩
  rw [handleCardEvent]
  cases htype : ev.type with
  | activate =>
    cases hcampaign : ev.campaignID with
    | none => exact ⟨_, _, _, .refused hcampaign (by simp [htype]), hrefused _⟩
    | some campaignID =>
      obtain ⟨after, outs, counters, hout, hleaves⟩ :=
        handleActivate_outcome s lib cryptoProvider ans ev campaignID
      exact ⟨_, _, _, .activated htype hcampaign hout, hleaves⟩
  | dlrReceived =>
    cases hcampaign : ev.campaignID with
    | none => exact ⟨_, _, _, .refused hcampaign (by simp [htype]), hrefused _⟩
    | some campaignID =>
      obtain ⟨after, outs, evicted, hout, hyields⟩ := handleDLR_outcome s ans ev campaignID
      exact ⟨_, _, _, .reported htype hcampaign hout, hyields.outputs, hyields.cardState,
        hyields.counters⟩
  | moReceived =>
    obtain ⟨after, outs, evicted, hout, hyields⟩ := handleMO_outcome s lib ans ev
    exact ⟨_, _, _, .responded htype hout.outcome, hyields.outputs, hyields.cardState,
      hyields.counters⟩

theorem EventOutcome.cardID_eq {s : Process} {ans : Answers} {ev : CardEvent}
    {counters : CounterStore} (h : EventOutcome s ans ev after outs counters) :
    ∀ out ∈ outs, out.cardID = some ev.cardID := by
  have hreport : ∀ {found after : Option CardState} {outs : List Output} {evicted : Bool},
      ReportOutcome ev found after outs evicted → ∀ out ∈ outs, out.cardID = some ev.cardID := by
    intro found after outs evicted h
    cases h with
    | quiet | awaits => exact forall_mem_nil _
    | publishes hst => exact forall_mem_singleton.mpr rfl
    | finishes hst hstatus h =>
      cases h with
      | written hch => exact forall_mem_singleton.mpr (congrArg some hch.cardID_eq)
      | unwritten hst' => exact forall_mem_nil _
  cases h with
  | refused hcampaign htype => exact forall_mem_nil _
  | reported htype hcampaign h => exact hreport (h.report htype hcampaign)
  | responded htype h => exact hreport (h.report htype)
  | activated htype hcampaign h =>
    cases h with
    | quiet | consumed | unsent => exact forall_mem_nil _
    | delayed hctx hcmd => exact forall_mem_singleton.mpr rfl
    | overflowed hctx hcmd hslot h =>
      generalize s.found ev.cardID ans.row = found at h
      cases h with
      | quiet | unwritten => exact forall_mem_nil _
      | fails hcampaign hst hch =>
        exact forall_mem_singleton.mpr (congrArg some hch.cardID_eq)
    | sent msg origin hctx hcmd hpass hmsg horigin houts =>
      refine forall_mem_cons.mpr ⟨congrArg some hmsg.2.1, ?_⟩
      rcases houts with rfl | rfl
      · exact forall_mem_singleton.mpr rfl
      · exact forall_mem_nil _

end OtaPlatform
