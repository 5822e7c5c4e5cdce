import OtaPlatform.Engine.System

/-!
# The transitions a handler call emits

Every call emits at most one transition, and what the transition is depends on few things: the kind
of the event, the state that `GetCardState` found and the decision of the throttle. `moves` says in
which campaign a call would move its card, `CallEffect` what the call then does to the cached state
and what it emits. The properties of runs that are about transitions are derived from it.

## Sequence numbers

The handlers count on from the state they found, and an activation starts at one again. Whatever
they find, what they emit is numbered from one on, and only the initial rows are numbered zero.
-/

namespace OtaPlatform

open Option List Function

/-- The throttle refuses the message of an activation. -/
def Answers.refuses (ans : Answers) : Bool :=
  match ans.context with
  | .ok ctx => throttled ans ctx.params
  | .error _ => false

theorem Answers.refuses_eq {ans : Answers} {ctx : CampaignContext} (hctx : ans.context = .ok ctx) :
    ans.refuses = throttled ans ctx.params := by
  rw [refuses, hctx]

/-- The counter from which the transition of a call takes the card. -/
def CardEvent.movesFrom (ev : CardEvent) (ans : Answers) : CardStatus :=
  match ev.type with
  | .activate => if ans.refuses then .inProgress else .pending
  | .dlrReceived | .moReceived => ev.finishedFrom

theorem CardEvent.movesFrom_cases (ev : CardEvent) (ans : Answers) :
    ev.movesFrom ans = .pending ∨ ev.movesFrom ans = .inProgress := by
  have hfinished : ev.finishedFrom = .pending ∨ ev.finishedFrom = .inProgress := by
    rw [finishedFrom]
    exact ite_eq_or_eq _ _ _
  rw [movesFrom]
  cases ev.type with
  | activate => exact (ite_eq_or_eq _ _ _).symm
  | dlrReceived | moReceived => exact hfinished

/-- The campaign in which a call would move the card of its event. An activation that the throttle
refuses moves the card only when there is no timer for it, and then as a failure. -/
def Engine.moves (s : Engine) (ev : CardEvent) (ans : Answers) : Option UUID :=
  match ev.type with
  | .activate =>
    if ans.refuses then
      if ans.retrySlot then none
      else (s.process.found ev.cardID ans.row).bind fun st ↦
        if ev.campaignID = some st.campaignID ∧ st.status.isTerminal = false then ev.campaignID
        else none
    else ev.campaignID
  | .dlrReceived | .moReceived => (s.process.found ev.cardID ans.row).bind fun st ↦
      if ev.Moves st then some (ev.campaignFor st) else none

/-- **What a call does** to the cached state of its card, with the transition it emits. -/
inductive CallEffect (s : Engine) (ev : CardEvent) (ans : Answers) :
    Option CardState → List CardStateChange → Prop
  | keeps : CallEffect s ev ans (s.process.cardState ev.cardID) []
  | reads : CallEffect s ev ans (s.process.found ev.cardID ans.row) []
  | awaits {st : CardState} (hfound : s.process.found ev.cardID ans.row = some st)
      (hst : ev.Moves st) :
    CallEffect s ev ans (some { st.bump with status := .awaitingMo }) []
  | begins {campaignID : UUID} {chs : List CardStateChange} (htype : ev.type = .activate)
      (hmoves : s.moves ev ans = some campaignID) (hfrom : ev.movesFrom ans = .pending)
      (hchs : chs = [activateChange ans ev campaignID] ∨ chs = []) :
    CallEffect s ev ans (some (activateState ans ev campaignID)) chs
  | ends {st : CardState} {campaignID : UUID} {status : CardStatus} {ch : CardStateChange}
      (hfound : s.process.found ev.cardID ans.row = some st)
      (hst : st.status.isTerminal = false) (hmoves : s.moves ev ans = some campaignID)
      (hrefuses : ev.type = .activate → ans.refuses = true)
      (hstatus : status = .completed ∨ status = .failed)
      (hch : Finishes ev.cardID campaignID st status (ev.movesFrom ans) ch) :
    CallEffect s ev ans none [ch]
  | unwritten {st st' : CardState} {campaignID : UUID} {status : CardStatus}
      (hfound : s.process.found ev.cardID ans.row = some st)
      (hmoves : s.moves ev ans = some campaignID)
      (hstatus : status = .completed ∨ status = .failed)
      (hst' : Unwritten campaignID st status st') :
    CallEffect s ev ans (some st') []
  | drops : CallEffect s ev ans none []

variable {after : Option CardState}

section Effect

variable {s : Engine} {ev : CardEvent} {ans : Answers}

theorem Engine.moves_report {st : CardState} (hfound : s.process.found ev.cardID ans.row = some st)
    (hst : ev.Moves st) : s.moves ev ans = some (ev.campaignFor st) := by
  have hbind : ((s.process.found ev.cardID ans.row).bind fun st ↦
      if ev.Moves st then some (ev.campaignFor st) else none) = some (ev.campaignFor st) := by
    rw [hfound, bind_some, if_pos hst]
  rw [moves]
  cases htype : ev.type with
  | activate => exact absurd htype hst.type_ne
  | dlrReceived | moReceived => exact hbind

theorem Engine.campaignID_of_moves {campaignID : UUID} (htype : ev.type = .activate)
    (h : s.moves ev ans = some campaignID) : ev.campaignID = some campaignID := by
  rw [moves, htype] at h
  dsimp only at h
  split_ifs at h with hrefuses hslot
  · obtain ⟨st, -, hst⟩ := bind_eq_some_iff.mp h
    split_ifs at hst
    exact hst
  · exact h

theorem CardEvent.movesFrom_report (ans : Answers) {st : CardState} (hst : ev.Moves st) :
    ev.movesFrom ans = ev.finishedFrom := by
  rw [movesFrom]
  cases htype : ev.type with
  | activate => exact absurd htype hst.type_ne
  | dlrReceived | moReceived => rfl

theorem ReportOutcome.effect {found : Option CardState} {outs : List Output}
    {evicted : Bool} (h : ReportOutcome ev found after outs evicted)
    (hfound : s.process.found ev.cardID ans.row = found) :
    CallEffect s ev ans after (changesOf outs) := by
  cases h with
  | quiet st => exact hfound ▸ .reads
  | awaits hst => exact .awaits hfound hst
  | publishes hst => exact hfound ▸ .reads
  | finishes hst hstatus hfinish =>
    have hmoves := Engine.moves_report hfound hst
    rw [← CardEvent.movesFrom_report ans hst] at hfinish
    cases hfinish with
    | written hch =>
      exact .ends hfound hst.not_isTerminal hmoves (fun htype ↦ absurd htype hst.type_ne) hstatus
        hch
    | unwritten hst' => exact .unwritten hfound hmoves hstatus hst'

theorem ActivateOutcome.effect {campaignID : UUID}
    {outs : List Output} {counters : CounterStore} (htype : ev.type = .activate)
    (hcampaign : ev.campaignID = some campaignID)
    (h : ActivateOutcome s.process ans ev campaignID after outs counters) :
    CallEffect s ev ans after (changesOf outs) := by
  -- a message that passes the throttle moves the card out of `pending`
  have hbegins : ∀ {ctx : CampaignContext} {chs : List CardStateChange},
      ans.context = .ok ctx → throttled ans ctx.params = false →
      chs = [activateChange ans ev campaignID] ∨ chs = [] →
      CallEffect s ev ans (some (activateState ans ev campaignID)) chs := by
    intro ctx chs hctx hpass hchs
    have hrefuses : ans.refuses = false := (Answers.refuses_eq hctx).trans hpass
    refine .begins htype ?_ ?_ hchs
    · rw [Engine.moves, htype]
      simp only [hrefuses, Bool.false_eq_true, if_false, hcampaign]
    · rw [CardEvent.movesFrom, htype]
      simp only [hrefuses, Bool.false_eq_true, if_false]
  cases h with
  | quiet | consumed _ _ | delayed _ _ => exact .keeps
  | unsent hctx hcmd hpass => exact hbegins hctx hpass (Or.inr rfl)
  | sent msg origin hctx hcmd hpass hmsg horigin houts =>
    rcases houts with rfl | rfl
    · exact hbegins hctx hpass (Or.inl rfl)
    · exact hbegins hctx hpass (Or.inr rfl)
  | overflowed hctx hcmd hslot hover =>
    have hrefuses : ans.refuses = true := (Answers.refuses_eq hctx).trans hslot.1
    generalize hfound : s.process.found ev.cardID ans.row = found at hover
    cases hover with
    | quiet => exact hfound ▸ .reads
    | unwritten hst hlive => exact .drops
    | @fails st ch hst hlive hch =>
      have hmoves : s.moves ev ans = some campaignID := by
        rw [Engine.moves, htype]
        simp only [hrefuses, if_true, hslot.2, Bool.false_eq_true, if_false, hfound,
          bind_some, hcampaign, hst, hlive, and_self]
      have hfrom : ev.movesFrom ans = .inProgress := by
        rw [CardEvent.movesFrom, htype]
        simp only [hrefuses, if_true]
      exact .ends hfound hlive hmoves (fun _ ↦ hrefuses) (Or.inr rfl) (hfrom ▸ hch)

theorem EventOutcome.effect {outs : List Output}
    {counters : CounterStore} (h : EventOutcome s.process ans ev after outs counters) :
    CallEffect s ev ans after (changesOf outs) := by
  cases h with
  | activated htype hcampaign h => exact h.effect htype hcampaign
  | reported htype hcampaign h => exact (h.report htype hcampaign).effect rfl
  | responded htype h => exact (h.report htype).effect rfl
  | refused hcampaign htype => exact .keeps

/-- A transition that a call emits: in the campaign it would move its card in, out of the counter of
its site and into the counter of its status. -/
structure Emission (s : Engine) (ev : CardEvent) (ans : Answers) (ch : CardStateChange) : Prop where
  cardID_eq : ch.cardID = ev.cardID
  moves_eq : s.moves ev ans = some ch.campaignID
  statsFrom_eq : ch.statsFrom = ev.movesFrom ans
  statsTo_eq : ch.statsTo = ch.status
  status_mem : ch.status = .inProgress ∨ ch.status = .completed ∨ ch.status = .failed

theorem CallEffect.emission {chs : List CardStateChange}
    (h : CallEffect s ev ans after chs) : chs = [] ∨ ∃ ch, chs = [ch] ∧ Emission s ev ans ch := by
  cases h with
  | keeps | reads | awaits | unwritten | drops => exact Or.inl rfl
  | begins htype hmoves hfrom hchs =>
    rcases hchs with rfl | rfl
    · exact Or.inr ⟨_, rfl, rfl, hmoves, hfrom.symm, rfl, Or.inl rfl⟩
    · exact Or.inl rfl
  | ends hfound hst hmoves hrefuses hstatus hch =>
    refine Or.inr ⟨_, rfl, hch.cardID_eq, hmoves.trans (congrArg some hch.campaignID_eq.symm),
      hch.statsFrom_eq, hch.statsTo_eq.trans hch.status_eq.symm, Or.inr ?_⟩
    rw [hch.status_eq]
    exact hstatus

end Effect

/-! ## Steps that leave the cards alone -/

/-- The step changed no card state, no table and no transition. -/
structure Engine.Same (s s' : Engine) : Prop where
  cardState : s'.process.cardState = s.process.cardState
  tables : s'.tables = s.tables
  stateCh : s'.stateCh = s.stateCh
  transitions : s'.transitions = s.transitions
  emitted : s'.emitted = s.emitted

/-- The actions of the planner, the timers and the checker. -/
def EngineAction.isAside : EngineAction → Prop
  | .plan _ | .release _ | .preloadShard _ _ _ _ | .check _ => True
  | _ => False

theorem Engine.same_next (cfg : EngineConfig) (s : Engine) {a : EngineAction} (ha : a.isAside) :
    s.Same (s.next cfg a) := by
  cases a with
  | plan _ | release _ => exact ⟨rfl, rfl, rfl, rfl, rfl⟩
  | preloadShard campaignID cardIDs keys rows => cases keys <;> exact ⟨rfl, rfl, rfl, rfl, rfl⟩
  | check campaignID =>
    have htables : (s.check campaignID).tables = s.tables ∧
        (s.check campaignID).stateCh = s.stateCh := by
      rw [check]
      split
      · split <;> exact ⟨rfl, rfl⟩
      · exact ⟨rfl, rfl⟩
    refine ⟨?_, htables.1, htables.2, transitions_check s campaignID, ?_⟩
    · exact congrArg Process.cardState (process_check s campaignID)
    · exact congrArg changesOf (outputsOf_check s campaignID)
  | _ => exact absurd ha id

/-! ## Sequence numbers -/

/-- What is cached or stored is numbered from zero on, what is on its way from one on. -/
structure Numbered (s : Engine) : Prop where
  cached : ∀ cardID st, s.process.cardState cardID = some st → 0 ≤ st.transitionSeq
  stored : ∀ row ∈ s.tables.executionStates, 0 ≤ row.transitionSeq
  waiting : ∀ ch ∈ s.stateCh, 1 ≤ ch.transitionSeq

section Numbered

variable {cfg : EngineConfig} {s s' : Engine}

variable (h : Numbered s)

include h

theorem Numbered.of_same (hsame : s.Same s') : Numbered s' where
  cached := by rw [hsame.cardState]; exact h.cached
  stored := by rw [hsame.tables]; exact h.stored
  waiting := by rw [hsame.stateCh]; exact h.waiting

theorem Numbered.found {cardID : UUID}
    {row : Except String (Option ExecutionRow)} (hrow : s.Selectable cardID row) {st : CardState}
    (hfound : s.process.found cardID row = some st) : 0 ≤ st.transitionSeq := by
  rcases Process.found_cases hfound with hcached | ⟨-, r, hr, rfl⟩
  · exact h.cached cardID st hcached
  · exact h.stored r (hrow.mem hr).1

theorem Numbered.handle {ev : CardEvent} {ans : Answers} {answered : Option UUID}
    (hrow : s.Selectable ev.cardID ans.row) : Numbered (s.handle cfg ev ans answered) := by
  obtain ⟨after, outs, counters, hout, hh⟩ := s.handle_cases cfg ev ans answered
  have hfound : ∀ {st}, s.process.found ev.cardID ans.row = some st → 0 ≤ st.transitionSeq :=
    h.found hrow
  have heffect : (∀ st, after = some st → 0 ≤ st.transitionSeq) ∧
      ∀ ch ∈ changesOf outs, 1 ≤ ch.transitionSeq := by
    have heffect := hout.effect
    generalize changesOf outs = chs at heffect
    cases heffect with
    | keeps => exact ⟨h.cached _, forall_mem_nil _⟩
    | reads => exact ⟨fun st hst ↦ hfound hst, forall_mem_nil _⟩
    | @awaits st hst hmoves =>
      refine ⟨fun st' hst' ↦ ?_, forall_mem_nil _⟩
      obtain rfl := some.inj hst'
      exact (hfound hst).trans (Int.le_add_one le_rfl)
    | begins htype hmoves hfrom hchs =>
      refine ⟨fun st' hst' ↦ ?_, fun ch hch ↦ ?_⟩
      · obtain rfl := some.inj hst'
        exact Int.one_nonneg
      · rcases hchs with rfl | rfl
        · rw [mem_singleton.mp hch]
          exact le_rfl
        · exact absurd hch not_mem_nil
    | ends hst hlive hmoves hrefuses hstatus hfinish =>
      refine ⟨fun st' hst' ↦ absurd hst'.symm (some_ne_none _), fun ch hch ↦ ?_⟩
      rw [mem_singleton.mp hch, hfinish.transitionSeq_eq]
      exact Int.le_add_of_nonneg_left (hfound hst)
    | unwritten hst hmoves hstatus hst' =>
      refine ⟨fun st' hafter ↦ ?_, forall_mem_nil _⟩
      obtain rfl := some.inj hafter
      rw [hst'.transitionSeq_eq]
      exact (hfound hst).trans (Int.le_add_one le_rfl)
    | drops =>
      exact ⟨fun st' hst' ↦ absurd hst'.symm (some_ne_none _),
        forall_mem_nil _⟩
  refine ⟨fun cardID st hst ↦ ?_, ?_, fun ch hch ↦ ?_⟩
  · rw [hh.cardState] at hst
    by_cases hc : cardID = ev.cardID
    · subst hc
      exact heffect.1 st (by rwa [update_self] at hst)
    · exact h.cached cardID st (by rwa [update_of_ne hc] at hst)
  · rw [hh.tables]
    exact h.stored
  · rw [hh.stateCh] at hch
    rcases mem_append.mp hch with hch | hch
    · exact h.waiting ch hch
    · exact heffect.2 ch hch

theorem Numbered.append (hcached : s'.process = s.process)
    (hstateCh : ∀ ch ∈ s'.stateCh, ch ∈ s.stateCh) {rows : List ExecutionRow}
    (htable : s'.tables.executionStates = s.tables.executionStates ++ rows)
    (hrows : ∀ row ∈ rows, 0 ≤ row.transitionSeq) : Numbered s' := by
  refine ⟨?_, fun row hrow ↦ ?_, fun ch hch ↦ h.waiting ch (hstateCh ch hch)⟩
  · rw [hcached]
    exact h.cached
  · rw [htable] at hrow
    rcases mem_append.mp hrow with hrow | hrow
    · exact h.stored row hrow
    · exact hrows row hrow

theorem Numbered.next {a : EngineAction} (henabled : s.Enabled cfg a) :
    Numbered (s.next cfg a) := by
  cases a with
  | plan _ | release _ | preloadShard _ _ _ _ | check _ => exact h.of_same (s.same_next cfg trivial)
  | handle ev ans answered => exact h.handle henabled.2.1
  | lookup cardID row =>
    refine ⟨fun card st hst ↦ ?_, h.stored, h.waiting⟩
    rw [Engine.cardState_lookup] at hst
    by_cases hc : card = cardID
    · subst hc
      rw [update_self] at hst
      exact h.found henabled hst
    · rw [update_of_ne hc] at hst
      exact h.cached card st hst
  | flush batch copyWorks =>
    obtain ⟨added, htable, hadded⟩ :=
      exists_executionStates_writeCardStateBatch copyWorks s.tables batch
    refine h.append rfl (fun ch hch ↦ diff_subset _ _ hch) htable fun row hrow ↦ ?_
    obtain ⟨ch, hch, rfl⟩ := hadded row hrow
    exact Int.one_nonneg.trans (h.waiting ch (henabled.subset hch))
  | initCampaign campaignID cardIDs step updatedAt =>
    obtain ⟨added, htable, hsub⟩ := exists_executionStates_initializeCampaign s.tables campaignID
      cardIDs step updatedAt
    refine h.append rfl (fun ch hch ↦ hch) htable fun row hrow ↦ ?_
    obtain ⟨cardID, -, rfl⟩ := mem_map.mp (hsub.subset hrow)
    exact le_rfl
  | reset campaignID cardIDs step updatedAt =>
    obtain ⟨listed, -, hreset⟩ := exists_resetTransaction s.tables campaignID cardIDs step updatedAt
    rw [Engine.next, hreset]
    refine h.append rfl (fun ch hch ↦ hch) executionStates_resetTransaction fun row hrow ↦ ?_
    obtain ⟨cardID, -, latest, hlatest, rfl⟩ := mem_resetRows.mp hrow
    exact (h.stored latest (mem_of_latestRow hlatest).1).trans (Int.le_add_one le_rfl)
  | abort campaignID updatedAt =>
    refine h.append rfl (fun ch hch ↦ hch) executionStates_abortCampaign fun row hrow ↦ ?_
    obtain ⟨cardID, latest, hlatest, -, rfl⟩ := mem_abortRows.mp hrow
    exact (h.stored latest (mem_of_latestRow hlatest).1).trans (Int.le_add_one le_rfl)

omit h

theorem numbered_new (campaignStatus : UUID → Option CampaignStatus) :
    Numbered (Engine.new campaignStatus) where
  cached _ _ h := absurd h.symm (some_ne_none _)
  stored _ h := absurd h not_mem_nil
  waiting _ h := absurd h not_mem_nil

end Numbered

end OtaPlatform
