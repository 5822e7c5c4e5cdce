import OtaPlatform.Engine.System
import OtaPlatform.Executor.Eviction

/-!
# The lifetime of cache entries

The caches of the executor are to hold the cards that are under way, so that their size follows the
number of these and not the number of all cards. A card that is done is evicted by the call that
ends it. But `GetCardState` caches every row it reads, and it is called for whatever comes in: a
report that is late or repeated, a response, and the gateway's own look at the card of a message.
What it reads for a card that is done is an entry that nothing removes.

## What is shown

The entries of a card are gone from its end to its next activation in the runs in which nothing is
read for it in between: no row is found by a report, a response or a lookup, and its shard is not
loaded. `late_report_leaves_entry` is a run in which the same report comes twice.
-/

namespace OtaPlatform

open List

/-! ## Cards that are done -/

/-- Whether the card has ended since its last activation, after one more event. -/
def TraceEvent.endsCard (cardID : UUID) (was : Bool) : TraceEvent → Bool
  | .handled ev _ => if ev.cardID = cardID ∧ ev.type = .activate then false else was
  | .output (.change ch) => if ch.cardID = cardID ∧ ch.status.isTerminal = true then true else was
  | _ => was

namespace Engine

/-- The terminal transition of the card was emitted, after its last activation. -/
def hasEnded (s : Engine) (cardID : UUID) : Bool :=
  s.trace.foldl (TraceEvent.endsCard cardID) false

/-- The cards that were activated so far. -/
def activatedCards (s : Engine) : List UUID :=
  s.trace.filterMap fun
    | .handled ev _ => if ev.type = .activate then some ev.cardID else none
    | _ => none

/-- **The caches hold only cards under way**: when no event is on its way, no retry is scheduled and
every activated card has ended, there is no entry for any of them. -/
def CachesInFlight (s : Engine) : Prop :=
  s.activateCh = [] → s.delayed = [] → (∀ cardID ∈ s.activatedCards, s.hasEnded cardID = true) →
    ∀ cardID ∈ s.activatedCards, s.process.NoEntry cardID

/-- **The condition.** For a card that has ended, a report, a response or a lookup finds no row, and
its shard is not loaded. -/
def ReadsInFlight (s : Engine) : EngineAction → Prop
  | .handle ev ans _ =>
    ev.type ≠ .activate → s.hasEnded ev.cardID = true → selectedRow ans.row = none
  | .lookup cardID row => s.hasEnded cardID = true → selectedRow row = none
  | .preloadShard _ cardIDs keys _ =>
    ∀ cardID ∈ cardIDs ++ (keys.getD []).map Prod.fst, s.hasEnded cardID = false
  | _ => True

instance (s : Engine) : (a : EngineAction) → Decidable (s.ReadsInFlight a)
  | .handle ev ans _ => inferInstanceAs
    (Decidable (ev.type ≠ .activate → s.hasEnded ev.cardID = true → selectedRow ans.row = none))
  | .lookup cardID row =>
    inferInstanceAs (Decidable (s.hasEnded cardID = true → selectedRow row = none))
  | .preloadShard _ cardIDs keys _ => inferInstanceAs
    (Decidable (∀ cardID ∈ cardIDs ++ (keys.getD []).map Prod.fst, s.hasEnded cardID = false))
  | .plan _ | .release _ | .flush _ _ | .initCampaign _ _ _ _ | .reset _ _ _ _ | .abort _ _
  | .check _ => isTrue trivial

/-- The entries of a card that has ended are gone, and the counters are indexed. -/
structure Evicted (s : Engine) : Prop where
  indexed : s.process.counters.Indexed
  noEntry : ∀ cardID, s.hasEnded cardID = true → s.process.NoEntry cardID

section Steps

variable {cfg : EngineConfig} {s : Engine}

private theorem foldl_update_of_notMem (keys : List (UUID × CardKeyMaterial))
    (cache : UUID → Option CardKeyMaterial) {card : UUID} (hcard : card ∉ keys.map Prod.fst) :
    keys.foldl (fun (cache : UUID → Option CardKeyMaterial) kv ↦
      Function.update cache kv.1 (some kv.2)) cache card = cache card := by
  induction keys generalizing cache with
  | nil => rfl
  | cons kv keys ih =>
    rw [map_cons, mem_cons, not_or] at hcard
    rw [foldl_cons, ih _ hcard.2, Function.update_of_ne hcard.1]

/-! ## Calls -/

private theorem foldl_endsCard_outputs (cardID : UUID) (outs : List Output) (was : Bool) :
    (outs.map TraceEvent.output).foldl (TraceEvent.endsCard cardID) was
      = (was || outs.any fun out ↦ out.isEnd && out.cardID = some cardID) := by
  induction outs generalizing was with
  | nil => rw [map_nil, foldl_nil, any_nil, Bool.or_false]
  | cons out outs ih =>
    rw [map_cons, foldl_cons, ih, any_cons, ← Bool.or_assoc]
    congr 1
    cases out with
    | change ch =>
      by_cases hend : ch.cardID = cardID ∧ ch.status.isTerminal = true
      · simp [TraceEvent.endsCard, Output.isEnd, Output.cardID, hend]
      · simp only [TraceEvent.endsCard, if_neg hend, Output.isEnd, Output.cardID, Option.some_inj]
        rw [and_comm] at hend
        simp [hend]
    | _ => simp [TraceEvent.endsCard, Output.isEnd]

private theorem hasEnded_handle (ev : CardEvent) (ans : Answers) (answered : Option UUID)
    (cardID : UUID) : (s.handle cfg ev ans answered).hasEnded cardID
      = ((if ev.cardID = cardID ∧ ev.type = .activate then false else s.hasEnded cardID) ||
          ((handleCardEvent cfg.lib cfg.cryptoProvider ans ev).run workerSemantics
            s.process).outputs.any fun out ↦ out.isEnd && out.cardID = some cardID) := by
  rw [hasEnded, handle, foldl_append, foldl_cons, foldl_endsCard_outputs]
  rfl

private theorem cardID_of_isEnd {ev : CardEvent} {ans : Answers} {out : Output}
    (hout : out ∈ ((handleCardEvent cfg.lib cfg.cryptoProvider ans ev).run workerSemantics
      s.process).outputs) (hend : out.isEnd = true) : out.cardID = some ev.cardID := by
  obtain ⟨after, outs, counters, houtcome, hleaves⟩ :=
    handleCardEvent_outcome s.process cfg.lib cfg.cryptoProvider ans ev
  refine houtcome.cardID_eq out ?_
  rw [← hleaves.outputs, visible, mem_filter]
  refine ⟨hout, ?_⟩
  cases out with
  | log action => exact absurd hend Bool.false_ne_true
  | _ => rfl

theorem Evicted.handle (h : s.Evicted) {ev : CardEvent} {ans : Answers}
    {answered : Option UUID} (hguard : s.ReadsInFlight (.handle ev ans answered)) :
    (s.handle cfg ev ans answered).Evicted := by
  have htidy := tidy_handleCardEvent cfg.lib cfg.cryptoProvider ans ev s.process
  refine ⟨htidy.indexed h.indexed, fun cardID hended ↦ ?_⟩
  rw [hasEnded_handle, Bool.or_eq_true, any_eq_true] at hended
  by_cases hcard : cardID = ev.cardID
  · subst hcard
    rcases hended with hbefore | ⟨out, hout, hend⟩
    · -- the card had ended before, and this is no activation of it
      by_cases htype : ev.type = .activate
      · rw [if_pos ⟨rfl, htype⟩] at hbefore
        exact absurd hbefore Bool.false_ne_true
      · rw [if_neg fun hand ↦ htype hand.2] at hbefore
        have hentry := h.noEntry ev.cardID hbefore
        obtain ⟨value, hrun⟩ := run_handleCardEvent_absent cfg.lib cfg.cryptoProvider htype
          hentry.states (hguard htype hbefore)
        rw [Engine.handle, hrun]
        exact hentry
    · rw [Bool.and_eq_true] at hend
      exact htidy.evicted ⟨out, hout, hend.1⟩ h.indexed
  · rcases hended with hbefore | ⟨out, hout, hend⟩
    · rw [if_neg fun hand ↦ hcard hand.1.symm] at hbefore
      exact (h.noEntry cardID hbefore).of_same (htidy.others cardID hcard)
    · rw [Bool.and_eq_true, decide_eq_true_eq] at hend
      have hown := (cardID_of_isEnd hout hend.1).symm.trans hend.2
      exact absurd (Option.some.inj hown).symm hcard

/-! ## Other steps -/

private theorem foldl_endsCard_of_silent {more : List TraceEvent} (hmore : ∀ e ∈ more, e.isSilent)
    (cardID : UUID) (was : Bool) : more.foldl (TraceEvent.endsCard cardID) was = was := by
  induction more with
  | nil => rfl
  | cons e more ih =>
    rw [forall_mem_cons] at hmore
    have hsame : e.endsCard cardID was = was := by
      cases e with
      | moved _ | finished _ _ => rfl
      | _ => exact absurd hmore.1 id
    rw [foldl_cons, hsame]
    exact ih hmore.2

theorem Evicted.aside (h : s.Evicted) {a : EngineAction}
    (ha : ∀ ev ans answered, a ≠ .handle ev ans answered)
    (hprocess : (s.next cfg a).process = s.process) : (s.next cfg a).Evicted := by
  obtain ⟨more, htrace, hmore⟩ := s.exists_trace_next cfg ha
  refine ⟨hprocess ▸ h.indexed, fun cardID hended ↦ ?_⟩
  rw [hasEnded, htrace, foldl_append, foldl_endsCard_of_silent hmore] at hended
  rw [hprocess]
  exact h.noEntry cardID hended

theorem Evicted.lookup (h : s.Evicted) {cardID : UUID}
    {row : Except String (Option ExecutionRow)} (hguard : s.ReadsInFlight (.lookup cardID row)) :
    (s.next cfg (.lookup cardID row)).Evicted := by
  refine ⟨h.indexed, fun card hended ↦ ?_⟩
  have hentry := h.noEntry card hended
  refine hentry.of_same ⟨rfl, fun _ ↦ rfl, ?_⟩
  by_cases hcard : card = cardID
  · subst hcard
    have hfetch : s.process.states.fetch card none = s.process.states := by
      simp [CardStateStore.fetch]
    rw [next, hguard hended, hfetch]
  · exact cardStates_fetch_of_ne _ hcard _

theorem Evicted.preloadShard (h : s.Evicted) {campaignID : UUID} {cardIDs : List UUID}
    {keys : Option (List (UUID × CardKeyMaterial))} {rows : Option (List (UUID × ℤ))}
    (hguard : s.ReadsInFlight (.preloadShard campaignID cardIDs keys rows)) :
    (s.preloadShard campaignID cardIDs keys rows).Evicted := by
  cases keys with
  | none => exact h
  | some keys =>
    refine ⟨Counters.indexed_preloadShard h.indexed campaignID cardIDs rows, fun card hended ↦ ?_⟩
    have hnot : card ∉ cardIDs ++ keys.map Prod.fst := fun hmem ↦
      absurd ((hguard card hmem).symm.trans hended) Bool.false_ne_true
    rw [mem_append, not_or] at hnot
    refine (h.noEntry card hended).of_same ⟨?_, fun appID ↦ ?_, rfl⟩
    · exact foldl_update_of_notMem keys _ hnot.2
    · rcases Counters.counter_preloadShard ⟨s.process.counters, s.cardCounters, s.campaignMeta⟩
        campaignID cardIDs rows card appID with hsame | ⟨hmem, -⟩
      · exact hsame
      · exact absurd hmem hnot.1

theorem Evicted.next (h : s.Evicted) {a : EngineAction} (hguard : s.ReadsInFlight a) :
    (s.next cfg a).Evicted := by
  cases a with
  | handle ev ans answered => exact h.handle hguard
  | lookup cardID row => exact h.lookup hguard
  | preloadShard campaignID cardIDs keys rows => exact h.preloadShard hguard
  | check campaignID =>
    exact h.aside (fun _ _ _ ↦ EngineAction.noConfusion) (s.process_check campaignID)
  | _ => exact h.aside (fun _ _ _ ↦ EngineAction.noConfusion) rfl

end Steps

end Engine

/-! ## Runs -/

/-- **The caches hold only cards under way**, in every run of a process in which nothing is read for
a card from its end to its next activation. -/
theorem caches_in_flight_of_runs (cfg : EngineConfig) (s₀ : Engine) (acts : List EngineAction)
    (htrace : s₀.trace = []) (hindexed : s₀.process.counters.Indexed)
    (hrun : (engine cfg).RunsUnder Engine.ReadsInFlight s₀ acts) :
    ((engine cfg).after s₀ acts).CachesInFlight := by
  have hstart : s₀.Evicted := by
    refine ⟨hindexed, fun cardID hended ↦ ?_⟩
    rw [Engine.hasEnded, htrace] at hended
    exact absurd hended Bool.false_ne_true
  have hevicted := hrun.invariant (fun _ _ h _ hguard ↦ h.next hguard) hstart
  exact fun _ _ hall cardID hmem ↦ hevicted.noEntry cardID (hall cardID hmem)

namespace RepeatedReport

def ctx : CampaignContext := plainContext [1] 1

def cfg : EngineConfig := plainConfig ctx

def card : UUID := .ofDigit 1

def campaign : UUID := .ofDigit 3

def start : Engine := .new fun _ ↦ some .running

def undelivered : CardEvent := plainReport card campaign (.ofDigit 6) .undeliv

/-- The card is activated, its message fails and the end of the card is stored. -/
def failed : List EngineAction :=
  let acts : List EngineAction := [.plan (plainActivate card campaign),
    .handle (plainActivate card campaign) (.plain ctx (.ofDigit 6)) none,
    .handle undelivered (.plain ctx (.ofDigit 7)) none]
  acts ++ [.flush ((engine cfg).after start acts).stateCh true]

/-- The report comes again, and reads the row. -/
def repeated : List EngineAction :=
  let stored := latestRow ((engine cfg).after start failed).tables.executionStates (card, campaign)
  failed ++ [.handle undelivered (.plain ctx (.ofDigit 8) stored) none]

end RepeatedReport

open RepeatedReport in
theorem caches_in_flight_of_runs_failed :
    (engine cfg).RunsUnder Engine.ReadsInFlight start failed ∧
      ((engine cfg).after start failed).activatedCards = [card] ∧
      ((engine cfg).after start failed).hasEnded card = true ∧
      ((engine cfg).after start failed).process.NoEntry card := by
  have hrun : (engine cfg).RunsUnder Engine.ReadsInFlight start failed := by decide +kernel
  have hactivated : ((engine cfg).after start failed).activatedCards = [card] := by
    decide +kernel
  have hended : ((engine cfg).after start failed).hasEnded card = true := by decide +kernel
  refine ⟨hrun, hactivated, hended, ?_⟩
  refine caches_in_flight_of_runs cfg start failed rfl CounterStore.indexed_new hrun
    (by decide +kernel) (by decide +kernel) ?_ card ?_
  · rw [hactivated]
    exact forall_mem_singleton.mpr hended
  · rw [hactivated]
    exact mem_singleton.mpr rfl

open RepeatedReport in
/-- **The same report twice.** After the card has ended and its row is stored, the report reads the
row into the cache, where it stays. -/
theorem late_report_leaves_entry :
    (engine cfg).Runs start repeated ∧
      ((engine cfg).after start repeated).process.states.cardStates card ≠ none ∧
      ¬ ((engine cfg).after start repeated).CachesInFlight := by
  have hcached : ((engine cfg).after start repeated).process.states.cardStates card ≠ none := by
    decide +kernel
  have hactivated : ((engine cfg).after start repeated).activatedCards = [card] := by
    decide +kernel
  have hended : ((engine cfg).after start repeated).hasEnded card = true := by decide +kernel
  refine ⟨?_, hcached, fun h ↦ hcached ?_⟩
  · unfold Machine.Runs
    decide +kernel
  · refine (h (by decide +kernel) (by decide +kernel) ?_ card ?_).states
    · rw [hactivated]
      exact forall_mem_singleton.mpr hended
    · rw [hactivated]
      exact mem_singleton.mpr rfl

end OtaPlatform
