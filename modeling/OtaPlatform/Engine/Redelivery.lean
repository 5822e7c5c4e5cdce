import OtaPlatform.Engine.System

/-!
# Redelivered activations

The same activation can reach the executor more than once: a shard that was published in part is
published again, a resumed or recovered campaign makes new activations of cards that have one in a
channel. Nothing tells the deliveries apart. The duplicate check accepts every identifier, and
`handleActivate` does not read the state of the card before it writes it.

So a delivery is without effect exactly when it would have been the first time: when the call ends
before it takes a value from the counter. `unaffected_iff` says so, for every state of the engine.

Consumption is read off the operations of the call and not off the counters, since a value that was
taken may leave no mark: an eviction in the same call removes the counter again.
-/

namespace OtaPlatform

open Worker

/-! ## What a delivery may leave -/

def takenCounters (ops : List WorkerOp) : List (UUID × UUID) :=
  ops.filterMap fun
    | .incrCounter cardID applicationID => some (cardID, applicationID)
    | _ => none

theorem takenCounters_append (ops ops' : List WorkerOp) :
    takenCounters (ops ++ ops') = takenCounters ops ++ takenCounters ops' :=
  List.filterMap_append

/-- The delivery of an event published no message, took no counter value, emitted no transition
(and with it no change of the statistics) and left the card states as they were. -/
structure Engine.Unaffected (cfg : EngineConfig) (s : Engine) (ev : CardEvent) (ans : Answers)
    (answered : Option UUID) : Prop where
  published : (s.handle cfg ev ans answered).published = s.published
  taken : takenCounters ((handleCardEvent cfg.lib cfg.cryptoProvider ans ev).calls workerSemantics
    s.process) = []
  emitted : (s.handle cfg ev ans answered).emitted = s.emitted
  cardState : (s.handle cfg ev ans answered).process.cardState = s.process.cardState

/-- The call ends before it takes a counter value: the event names no campaign, the campaign is not
seen as running, its context cannot be loaded or has no command for the step, or the keys of the
card are not to be had. -/
def Process.Refuses (s : Process) (ans : Answers) (ev : CardEvent) : Prop :=
  ev.campaignID = none ∨
  ans.campaignStatus ≠ .ok .running ∨
  (∀ ctx, ans.context = .ok ctx → ctx.commandByStep ev.step = none) ∨
  ∀ keys, s.availableKeys ans ev.cardID ≠ .ok keys

/-! ## One call -/

section Activate

variable {s : Process} {lib : SecuredPackets} {cryptoProvider : Bool} {ans : Answers}
  {ev : CardEvent} {campaignID : UUID}

private theorem taken_loadCardKeys (cardID : UUID) :
    takenCounters ((loadCardKeys ans cardID).calls workerSemantics s) = [] := by
  have hcached : (cachedKeys cardID).run workerSemantics s = ⟨s.cardKeyCache cardID, s, []⟩ := rfl
  rw [loadCardKeys, Program.calls_bind, takenCounters_append, hcached]
  cases s.cardKeyCache cardID with
  | some keys => rfl
  | none => cases ans.keys <;> rfl

private theorem taken_of_not_refuses (h : ¬ s.Refuses ans ev) :
    takenCounters ((handleActivate lib cryptoProvider ans ev campaignID).calls workerSemantics s)
      ≠ [] := by
  simp only [Process.Refuses, not_or, not_forall, not_not] at h
  obtain ⟨-, hstatus, ⟨ctx, hctx, hcmd⟩, keys, hkeys⟩ := h
  obtain ⟨cmd, hcmd⟩ := Option.ne_none_iff_exists'.mp hcmd
  obtain ⟨cache, hload⟩ := run_loadCardKeys s ans ev.cardID
  simp only [handleActivate, hstatus, hctx, hcmd, ne_eq, not_true_eq_false, if_false]
  rw [Program.calls_bind, takenCounters_append, hload, hkeys]
  intro hnil
  cases (List.append_eq_nil_iff.mp hnil).2

/-- A call that is refused sends nothing, takes no counter value and touches no card state. -/
private theorem run_of_refuses (lib : SecuredPackets) (cryptoProvider : Bool)
    (hcampaign : ev.campaignID = some campaignID) (h : s.Refuses ans ev) :
    takenCounters ((handleActivate lib cryptoProvider ans ev campaignID).calls workerSemantics s)
        = [] ∧
      ∃ value cache, (handleActivate lib cryptoProvider ans ev campaignID).run workerSemantics s
        = ⟨value, { s with cardKeyCache := cache }, []⟩ := by
  rw [handleActivate]
  cases hstatus : ans.campaignStatus with
  | error err => exact ⟨rfl, _, s.cardKeyCache, rfl⟩
  | ok status =>
    by_cases hrunning : status = .running
    · subst hrunning
      cases hctx : ans.context with
      | error err => exact ⟨rfl, _, s.cardKeyCache, rfl⟩
      | ok ctx =>
        cases hcmd : ctx.commandByStep ev.step with
        | none =>
          simp only [ne_eq, not_true_eq_false, if_false, hcmd]
          exact ⟨rfl, _, s.cardKeyCache, rfl⟩
        | some cmd =>
          -- everything else was there, so it is the keys
          have hkeys : ∀ keys, s.availableKeys ans ev.cardID ≠ .ok keys := by
            rcases h with h | h | h | h
            · cases hcampaign.symm.trans h
            · exact absurd hstatus h
            · cases hcmd.symm.trans (h ctx hctx)
            · exact h
          obtain ⟨cache, hload⟩ := run_loadCardKeys s ans ev.cardID
          simp only [ne_eq, not_true_eq_false, if_false, hcmd]
          cases havailable : s.availableKeys ans ev.cardID with
          | ok keys => exact absurd havailable (hkeys keys)
          | error err =>
            refine ⟨?_, .error ("get card keys: " ++ err), cache, ?_⟩
            · rw [Program.calls_bind, takenCounters_append, taken_loadCardKeys, hload, havailable]
              rfl
            · rw [Program.run_bind, hload, havailable]
              rfl
    · simp only [ne_eq, hrunning, not_false_eq_true, if_true]
      exact ⟨rfl, _, s.cardKeyCache, rfl⟩

end Activate

/-! ## Deliveries and redeliveries -/

private theorem unaffected_of_run {cfg : EngineConfig} {s : Engine} {ev : CardEvent} {ans : Answers}
    (value : Handled) (cache : UUID → Option CardKeyMaterial) (answered : Option UUID)
    (htaken : takenCounters ((handleCardEvent cfg.lib cfg.cryptoProvider ans ev).calls
      workerSemantics s.process) = [])
    (hrun : (handleCardEvent cfg.lib cfg.cryptoProvider ans ev).run workerSemantics s.process
      = ⟨value, { s.process with cardKeyCache := cache }, []⟩) :
    s.Unaffected cfg ev ans answered := by
  have houts : outputsOf (s.handle cfg ev ans answered).trace = outputsOf s.trace := by
    rw [Engine.handle, hrun]
    exact (outputsOf_append _ _).trans (List.append_nil _)
  refine ⟨?_, htaken, ?_, ?_⟩
  · rw [Engine.published, houts, Engine.published]
  · rw [Engine.emitted, houts, Engine.emitted]
  · rw [Engine.handle, hrun]
    rfl

/-- The delivery of an activation is without effect exactly when the call is refused. -/
theorem unaffected_iff (cfg : EngineConfig) (s : Engine) {ev : CardEvent}
    (htype : ev.type = .activate) (ans : Answers) (answered : Option UUID) :
    s.Unaffected cfg ev ans answered ↔ s.process.Refuses ans ev := by
  cases hcampaign : ev.campaignID with
  | none =>
    refine ⟨fun _ ↦ Or.inl hcampaign, fun _ ↦ ?_⟩
    have hevent : handleCardEvent cfg.lib cfg.cryptoProvider ans ev
        = return .error "campaign not found" := by
      simp only [handleCardEvent, checkAndSetDedupe, htype, hcampaign]
    refine unaffected_of_run (.error "campaign not found") s.process.cardKeyCache answered ?_ ?_
    · rw [hevent]
      rfl
    · rw [hevent]
      rfl
  | some campaignID =>
    have hevent := handleCardEvent_activate cfg.lib cfg.cryptoProvider ans htype hcampaign
    constructor
    · intro h
      by_contra hrefuses
      have htaken := h.taken
      rw [hevent] at htaken
      exact taken_of_not_refuses hrefuses htaken
    · intro hrefuses
      obtain ⟨htaken, value, cache, hrun⟩ := run_of_refuses cfg.lib cfg.cryptoProvider hcampaign
        hrefuses
      rw [← hevent] at htaken hrun
      exact unaffected_of_run value cache answered htaken hrun

/-- **When a redelivery is without effect.** However the engine came to the second delivery of an
activation, the delivery is without effect exactly when the call is refused. -/
theorem redelivery_unaffected_iff (cfg : EngineConfig) (s₀ : Engine)
    (earlier later : List EngineAction) (ev : CardEvent) (htype : ev.type = .activate)
    (ans ans' : Answers) (answered answered' : Option UUID) :
    let s := (engine cfg).after s₀ (earlier ++ .handle ev ans answered :: later)
    s.Unaffected cfg ev ans' answered' ↔ s.process.Refuses ans' ev :=
  unaffected_iff cfg _ htype ans' answered'

/-! ## An activation that is published twice -/

namespace TwicePublished

/-- One command that expects a response. -/
def ctx : CampaignContext := plainContext [1] 1

def cfg : EngineConfig := plainConfig ctx

def ev : CardEvent := plainActivate (.ofDigit 1) (.ofDigit 3)

def start : Engine := .new fun _ ↦ some .running

/-- The planner publishes the activation twice, and the first is handled. -/
def once : List EngineAction := [.plan ev, .plan ev, .handle ev (.plain ctx (.ofDigit 6)) none]

def again : EngineAction := .handle ev (.plain ctx (.ofDigit 7)) none

end TwicePublished

open TwicePublished in
/-- The campaign was paused in between. -/
theorem redelivery_unaffected_paused :
    ((engine cfg).after start once).Unaffected cfg ev
      { Answers.plain ctx (.ofDigit 7) with campaignStatus := .ok .paused } none :=
  (redelivery_unaffected_iff cfg start [.plan ev, .plan ev] [] ev rfl
    (.plain ctx (.ofDigit 6)) _ none none).mpr (Or.inr (Or.inl (by decide)))

open TwicePublished in
/-- In a running campaign the second delivery sends the command again, with the next counter value,
and emits the transition a second time. -/
theorem redelivery_sends_again :
    (engine cfg).Runs start (once ++ [again]) ∧
      ((engine cfg).after start once).published.map (fun p ↦ p.2.counterVal) = [0] ∧
      ((engine cfg).after start (once ++ [again])).published.map (fun p ↦ p.2.counterVal)
        = [0, 1] ∧
      ((engine cfg).after start (once ++ [again])).emitted.map
        (fun ch ↦ (ch.cardID, ch.transitionSeq, ch.statsFrom, ch.statsTo))
        = [(.ofDigit 1, 1, .pending, .inProgress), (.ofDigit 1, 1, .pending, .inProgress)] := by
  refine ⟨?_, ?_, ?_, ?_⟩
  · unfold Machine.Runs
    decide +kernel
  · decide +kernel
  · decide +kernel
  · decide +kernel

end OtaPlatform
