import OtaPlatform.Engine.System

/-!
# Freshness of the replay counters

A card rejects a packet whose counter is not above the last one it accepted, so the counters
published for one card and application must increase. A value comes from three places: the range
reserved in `card_counters`, the process-local map that a missing key reads as zero, and the
eviction when a card is finished.

The reservation counts one value per command of the campaign, but every attempt takes one: a retry
overdraws the range, and the next campaign of the card starts inside it. The values increase in the
runs in which that does not happen: a shard is only loaded when its range starts above everything
published, and a card without a counter in memory has had nothing published.
-/

namespace OtaPlatform

open Engine List

/-! ## Counter octets -/

/-- The number that counter octets stand for. -/
def counterValue (counter : Bytes) : ℕ := counter.foldl (fun acc b ↦ acc * 256 + b.toNat) 0

theorem counterValue_counterBytes {v : ℤ} (h₀ : 0 ≤ v) (h : v < 2 ^ 40) :
    (counterValue (counterBytes v) : ℤ) = v := by
  have hlow : ∀ w : ℤ, ((lowByte w).toNat : ℤ) = w % 256 := by
    intro w
    rw [lowByte, UInt8.toNat_ofNat']
    omega
  simp only [counterValue, counterBytes, foldl_cons, foldl_nil]
  push_cast
  simp only [hlow]
  omega

/-! ## Values in use -/

namespace Engine

/-- What the packets published for a card and an application were built from, in order. -/
def originsOf (s : Engine) (cardID applicationID : UUID) : List PacketOrigin :=
  s.published.filterMap fun p ↦
    if p.1.cardID = cardID ∧ p.2.applicationID = applicationID then some p.2 else none

/-- The counter values in the published packets, as the card reads them. -/
def publishedCounters (s : Engine) (cardID applicationID : UUID) : List ℕ :=
  (s.originsOf cardID applicationID).map fun o ↦ counterValue o.counter

def usedValues (s : Engine) (cardID applicationID : UUID) : List ℤ :=
  (s.originsOf cardID applicationID).map PacketOrigin.counterVal

end Engine

/-- For each card of the shard, the range reserved for it starts above every value used. -/
def Engine.ReservesAbove (s : Engine) (campaignID : UUID) (cardIDs : List UUID)
    (rows : Option (List (UUID × ℤ))) : Prop :=
  ∀ m ∈ Counters.getCampaignMeta ⟨s.process.counters, s.cardCounters, s.campaignMeta⟩
      campaignID rows,
    ∀ cardID ∈ cardIDs, ∀ v ∈ s.usedValues cardID m.applicationID,
      v < (s.cardCounters cardID m.applicationID).getD 0

/-- An activation without a counter in memory is the first of its card and application. -/
def Engine.CountsOn (s : Engine) (ev : CardEvent) (ans : Answers) : Prop :=
  ev.type = .activate → ∀ ctx ∈ ans.context.toOption, ∀ cmd ∈ ctx.commandByStep ev.step,
    s.process.counters.counter ev.cardID cmd.applicationID = none →
      s.usedValues ev.cardID cmd.applicationID = []

/-- **The condition.** A shard is loaded only when, for each of its cards, the reserved range starts
above every value used for the card and the application it is reserved for; and an activation finds
no counter in memory only when no value was used for its card and application. -/
def CounterGuard (s : Engine) : EngineAction → Prop
  | .preloadShard campaignID cardIDs _ rows => s.ReservesAbove campaignID cardIDs rows
  | .handle ev ans _ => s.CountsOn ev ans
  | _ => True

instance (s : Engine) (campaignID : UUID) (cardIDs : List UUID)
    (rows : Option (List (UUID × ℤ))) : Decidable (s.ReservesAbove campaignID cardIDs rows) := by
  unfold ReservesAbove
  infer_instance

instance (s : Engine) (ev : CardEvent) (ans : Answers) : Decidable (s.CountsOn ev ans) := by
  unfold CountsOn
  infer_instance

instance (s : Engine) : (a : EngineAction) → Decidable (CounterGuard s a)
  | .preloadShard campaignID cardIDs _ rows =>
    inferInstanceAs (Decidable (s.ReservesAbove campaignID cardIDs rows))
  | .handle ev ans _ => inferInstanceAs (Decidable (s.CountsOn ev ans))
  | .plan _ | .release _ | .lookup _ _ | .flush _ _ | .initCampaign _ _ _ _ | .reset _ _ _ _
  | .abort _ _ | .check _ => isTrue trivial

/-! ## The invariant -/

/-- The values used for each card and application increase, the packets carry their octets, and a
counter in memory is above all of them. -/
structure CountersFresh (s : Engine) : Prop where
  increasing : ∀ cardID appID, (s.usedValues cardID appID).Pairwise (· < ·)
  octets : ∀ cardID appID, ∀ o ∈ s.originsOf cardID appID, o.counter = counterBytes o.counterVal
  below : ∀ cardID appID n, s.process.counters.counter cardID appID = some n →
    ∀ v ∈ s.usedValues cardID appID, v < n

section Step

variable {s s' : Engine}

variable (h : CountersFresh s)

include h

/-- Steps that publish nothing keep the invariant if the counters they leave are still above the
values used. -/
theorem CountersFresh.of_published (hpub : s'.published = s.published)
    (hbelow : ∀ cardID appID n, s'.process.counters.counter cardID appID = some n →
      s.process.counters.counter cardID appID = some n ∨
        ∀ v ∈ s.usedValues cardID appID, v < n) : CountersFresh s' := by
  have horigins : ∀ cardID appID, s'.originsOf cardID appID = s.originsOf cardID appID :=
    fun cardID appID ↦ by rw [originsOf, hpub, originsOf]
  have hused : ∀ cardID appID, s'.usedValues cardID appID = s.usedValues cardID appID :=
    fun cardID appID ↦ by rw [usedValues, horigins, usedValues]
  refine ⟨fun cardID appID ↦ ?_, fun cardID appID ↦ ?_, fun cardID appID n hn ↦ ?_⟩
  · rw [hused]
    exact h.increasing cardID appID
  · rw [horigins]
    exact h.octets cardID appID
  · rw [hused]
    rcases hbelow cardID appID n hn with hsame | habove
    · exact h.below cardID appID n hsame
    · exact habove

/-- The value an activation takes is above all values used for its card and application. -/
theorem CountersFresh.lt_getCounter {cardID appID : UUID}
    (hmissing : s.process.counters.counter cardID appID = none → s.usedValues cardID appID = []) :
    ∀ v ∈ s.usedValues cardID appID, v < s.process.counters.getCounter cardID appID := by
  intro v hv
  cases hc : s.process.counters.counter cardID appID with
  | none =>
    rw [hmissing hc] at hv
    exact absurd hv not_mem_nil
  | some n =>
    rw [CounterStore.getCounter, hc, Option.getD_some]
    exact h.below cardID appID n hc v hv

theorem CountersFresh.incrCounter {cardID appID : UUID}
    (hmissing : s.process.counters.counter cardID appID = none → s.usedValues cardID appID = [])
    {cardID' appID' : UUID} {n : ℤ}
    (hn : (s.process.counters.incrCounter cardID appID).counter cardID' appID' = some n) :
    s.process.counters.counter cardID' appID' = some n ∨
      ∀ v ∈ s.usedValues cardID' appID', v < n := by
  by_cases hpair : (cardID', appID') = (cardID, appID)
  · obtain ⟨rfl, rfl⟩ := Prod.mk.inj hpair
    rw [CounterStore.counter_incrCounter_self, Option.some.injEq] at hn
    refine Or.inr fun v hv ↦ ?_
    have hlt := h.lt_getCounter hmissing v hv
    omega
  · rw [CounterStore.counter_incrCounter_of_ne _ _ _ hpair] at hn
    exact Or.inl hn

omit h in
private theorem counter_of_evictCard {counters : CounterStore} {cardID cardID' appID : UUID} {n : ℤ}
    (hn : (counters.evictCard cardID).counter cardID' appID = some n) :
    counters.counter cardID' appID = some n := by
  rcases counters.counter_evictCard cardID cardID' appID with h | h
  · rw [← h, hn]
  · rw [h] at hn
    exact absurd hn (by simp)

theorem CountersFresh.publish {cardID appID : UUID}
    (hmissing : s.process.counters.counter cardID appID = none → s.usedValues cardID appID = [])
    {msg : SendSMSMessage} {origin : PacketOrigin} (hmsg : msg.cardID = cardID)
    (happ : origin.applicationID = appID)
    (hval : origin.counterVal = s.process.counters.getCounter cardID appID)
    (hoctets : origin.counter = counterBytes origin.counterVal)
    (hpub : s'.published = s.published ++ [(msg, origin)])
    (hcounters : s'.process.counters = s.process.counters.incrCounter cardID appID) :
    CountersFresh s' := by
  have hlt := h.lt_getCounter hmissing
  have horigins : ∀ cardID' appID', s'.originsOf cardID' appID' = s.originsOf cardID' appID' ++
      if (cardID', appID') = (cardID, appID) then [origin] else [] := by
    intro cardID' appID'
    rw [originsOf, hpub, filterMap_append, originsOf, filterMap_cons, filterMap_nil]
    by_cases hpair : (cardID', appID') = (cardID, appID)
    · obtain ⟨rfl, rfl⟩ := Prod.mk.inj hpair
      simp [hmsg, happ]
    · have hne : ¬ (msg.cardID = cardID' ∧ origin.applicationID = appID') := by
        rintro ⟨rfl, rfl⟩
        exact hpair (by rw [hmsg, happ])
      simp [hpair, hne]
  have hused : ∀ cardID' appID', s'.usedValues cardID' appID' = s.usedValues cardID' appID' ++
      if (cardID', appID') = (cardID, appID) then [origin.counterVal] else [] := by
    intro cardID' appID'
    rw [usedValues, horigins, map_append, usedValues]
    split_ifs <;> rfl
  refine ⟨fun cardID' appID' ↦ ?_, fun cardID' appID' o ho ↦ ?_, fun cardID' appID' n hn v hv ↦ ?_⟩
  · rw [hused]
    split_ifs with hpair
    · obtain ⟨rfl, rfl⟩ := Prod.mk.inj hpair
      refine pairwise_append.mpr ⟨h.increasing _ _, pairwise_singleton _ _, ?_⟩
      intro v hv w hw
      rw [mem_singleton.mp hw, hval]
      exact hlt v hv
    · rw [append_nil]
      exact h.increasing _ _
  · rw [horigins] at ho
    split_ifs at ho
    · rcases mem_append.mp ho with ho | ho
      · exact h.octets _ _ o ho
      · rw [mem_singleton.mp ho]
        exact hoctets
    · rw [append_nil] at ho
      exact h.octets _ _ o ho
  · rw [hcounters] at hn
    rw [hused] at hv
    by_cases hpair : (cardID', appID') = (cardID, appID)
    · obtain ⟨rfl, rfl⟩ := Prod.mk.inj hpair
      rw [CounterStore.counter_incrCounter_self, Option.some.injEq] at hn
      rw [if_pos rfl] at hv
      rcases mem_append.mp hv with hv | hv
      · have := hlt v hv
        omega
      · rw [mem_singleton.mp hv, hval]
        omega
    · rw [if_neg hpair, append_nil] at hv
      rw [CounterStore.counter_incrCounter_of_ne _ _ _ hpair] at hn
      exact h.below _ _ n hn v hv

theorem CountersFresh.handle (cfg : EngineConfig) (ev : CardEvent)
    (ans : Answers) (answered : Option UUID) (hguard : CounterGuard s (.handle ev ans answered)) :
    CountersFresh (s.handle cfg ev ans answered) := by
  obtain ⟨after, outs, counters, hout, hh⟩ := s.handle_cases cfg ev ans answered
  -- a call that publishes nothing
  have hnone : smsOf outs = [] →
      (∀ cardID appID n, counters.counter cardID appID = some n →
        s.process.counters.counter cardID appID = some n ∨
          ∀ v ∈ s.usedValues cardID appID, v < n) →
      CountersFresh (s.handle cfg ev ans answered) := by
    intro hsms hbelow
    refine h.of_published (by rw [hh.published_eq, hsms, append_nil]) ?_
    rw [hh.counters_eq]
    exact hbelow
  have hreport : ∀ {found : Option CardState} {evicted : Bool},
      ReportOutcome ev found after outs evicted →
      counters = (if evicted then s.process.counters.evictCard ev.cardID
        else s.process.counters) → CountersFresh (s.handle cfg ev ans answered) := by
    intro found evicted hr hcounters
    refine hnone hr.smsOf_eq_nil fun cardID appID n hn ↦ Or.inl ?_
    rw [hcounters] at hn
    split_ifs at hn
    · exact counter_of_evictCard hn
    · exact hn
  cases hout with
  | refused hcampaign htype => exact hnone rfl fun cardID appID n hn ↦ Or.inl hn
  | reported htype hcampaign hdlr => exact hreport (hdlr.report htype hcampaign) rfl
  | responded htype hmo => exact hreport (hmo.report htype) rfl
  | activated htype hcampaign hact =>
    have hmissing : ∀ {ctx : CampaignContext} {cmd : CampaignCommand},
        ans.context = .ok ctx → ctx.commandByStep ev.step = some cmd →
        s.process.counters.counter ev.cardID cmd.applicationID = none →
          s.usedValues ev.cardID cmd.applicationID = [] := by
      intro ctx cmd hctx hcmd
      exact hguard htype ctx (by rw [hctx]; rfl) cmd hcmd
    cases hact with
    | quiet => exact hnone rfl fun cardID appID n hn ↦ Or.inl hn
    | consumed hctx hcmd => exact hnone rfl fun _ _ _ hn ↦ h.incrCounter (hmissing hctx hcmd) hn
    | delayed hctx hcmd => exact hnone rfl fun _ _ _ hn ↦ h.incrCounter (hmissing hctx hcmd) hn
    | unsent hctx hcmd hpass => exact hnone rfl fun _ _ _ hn ↦ h.incrCounter (hmissing hctx hcmd) hn
    | overflowed hctx hcmd hslot hover =>
      refine hnone hover.smsOf_eq_nil fun cardID appID n hn ↦ ?_
      split_ifs at hn
      · exact h.incrCounter (hmissing hctx hcmd) (counter_of_evictCard hn)
      · exact h.incrCounter (hmissing hctx hcmd) hn
    | sent msg origin hctx hcmd hpass hmsg horigin houts =>
      have hpub : (s.handle cfg ev ans answered).published = s.published ++ [(msg, origin)] := by
        rw [hh.published_eq]
        rcases houts with rfl | rfl <;> rfl
      subst horigin
      exact h.publish (hmissing hctx hcmd) hmsg.2.1 rfl rfl rfl hpub hh.counters_eq

theorem CountersFresh.preloadShard (campaignID : UUID) (cardIDs : List UUID)
    (keys : Option (List (UUID × CardKeyMaterial))) (rows : Option (List (UUID × ℤ)))
    (hguard : CounterGuard s (.preloadShard campaignID cardIDs keys rows)) :
    CountersFresh (s.preloadShard campaignID cardIDs keys rows) := by
  cases keys with
  | none => exact h
  | some keys =>
    refine h.of_published rfl fun cardID appID n hn ↦ ?_
    rcases Counters.counter_preloadShard ⟨s.process.counters, s.cardCounters, s.campaignMeta⟩
      campaignID cardIDs rows cardID appID with hsame | ⟨hcard, ⟨m, hm, rfl⟩, hset⟩
    · exact Or.inl (hsame ▸ hn)
    · -- the counter is the start of a reserved range
      obtain rfl := Option.some.inj (hset.symm.trans hn)
      exact Or.inr (hguard m hm cardID hcard)

theorem CountersFresh.next (cfg : EngineConfig) (a : EngineAction)
    (hguard : CounterGuard s a) : CountersFresh (s.next cfg a) := by
  have hidle : ∀ {s' : Engine}, outputsOf s'.trace = outputsOf s.trace →
      s'.process.counters = s.process.counters → CountersFresh s' := by
    intro s' htrace hcounters
    refine h.of_published (by rw [published, htrace, published]) ?_
    rw [hcounters]
    exact fun _ _ _ hn ↦ Or.inl hn
  cases a with
  | handle ev ans answered => exact h.handle cfg ev ans answered hguard
  | preloadShard campaignID cardIDs keys rows =>
    exact h.preloadShard campaignID cardIDs keys rows hguard
  | plan _ | release _ | lookup _ _ | flush _ _ => exact hidle rfl rfl
  | initCampaign _ _ _ _ | reset _ _ _ _ | abort _ _ => exact hidle (s.outputsOf_control _) rfl
  | check campaignID =>
    exact hidle (s.outputsOf_check campaignID)
      (congrArg Process.counters (s.process_check campaignID))

end Step

/-- **The counters of a card and an application increase** in every run whose steps meet the
condition, as long as the values stay below `2 ^ 40`. -/
theorem publishedCounters_increasing (cfg : EngineConfig) (s : Engine) (hstart : s.published = [])
    (acts : List EngineAction) (hruns : (engine cfg).RunsUnder CounterGuard s acts)
    (hbound : ∀ p ∈ ((engine cfg).after s acts).published,
      0 ≤ p.2.counterVal ∧ p.2.counterVal < 2 ^ 40) (cardID applicationID : UUID) :
    (((engine cfg).after s acts).publishedCounters cardID applicationID).Pairwise (· < ·) := by
  have hinit : CountersFresh s := by
    have horigins : ∀ cardID appID, s.originsOf cardID appID = [] := fun cardID appID ↦ by
      rw [originsOf, hstart, filterMap_nil]
    refine ⟨fun c a ↦ ?_, fun c a o ho ↦ ?_, fun c a n hn v hv ↦ ?_⟩
    · rw [usedValues, horigins]
      exact Pairwise.nil
    · rw [horigins] at ho
      exact absurd ho not_mem_nil
    · rw [usedValues, horigins] at hv
      exact absurd hv not_mem_nil
  have hfresh : CountersFresh ((engine cfg).after s acts) :=
    hruns.invariant (fun s a hs _ hg ↦ hs.next cfg a hg) hinit
  set final := (engine cfg).after s acts
  -- what the card reads is the value that was used
  have hread : ∀ o ∈ final.originsOf cardID applicationID,
      (counterValue o.counter : ℤ) = o.counterVal := by
    intro o ho
    obtain ⟨p, hp, hpo⟩ := mem_filterMap.mp ho
    split_ifs at hpo
    obtain rfl := Option.some.inj hpo
    rw [hfresh.octets _ _ _ ho]
    exact counterValue_counterBytes (hbound p hp).1 (hbound p hp).2
  have hincreasing := hfresh.increasing cardID applicationID
  rw [usedValues, pairwise_map] at hincreasing
  rw [publishedCounters, pairwise_map]
  refine hincreasing.imp_of_mem fun ho ho' hlt ↦ ?_
  have := hread _ ho
  have := hread _ ho'
  omega

/-! ## A reservation that is overdrawn

Two campaigns of one command each, on the same card and application. When the first attempt of the
first campaign is reported as undeliverable and repeated, the card uses two values of a range of
one, and the second campaign starts at the end of that range. -/

namespace OverdrawnRange

private def card : UUID := .ofDigit 1
private def app : UUID := .ofDigit 2
private def first : UUID := .ofDigit 3
private def second : UUID := .ofDigit 4

/-- One command that expects a response, at most two attempts. -/
def ctx : CampaignContext := plainContext [1] 2

def cfg : EngineConfig := plainConfig ctx

private def load (campaignID : UUID) : EngineAction :=
  .preloadShard campaignID [card] (some [(card, {})]) (some [(app, 1)])

/-- The shard of a campaign is loaded and its first attempt made. -/
def send (campaignID msgID : UUID) : List EngineAction :=
  [load campaignID, .plan (plainActivate card campaignID),
    .handle (plainActivate card campaignID) (.plain ctx msgID) none]

def answer (msgID : UUID) : EngineAction :=
  .handle (plainResponse card first) (.plain ctx msgID) (some msgID)

/-- The first attempt is undeliverable and repeated. -/
def retried : List EngineAction :=
  send first (.ofDigit 6) ++
  [.handle (plainReport card first (.ofDigit 6) .undeliv) (.plain ctx (.ofDigit 7)) none,
    .handle (activation (.plain ctx (.ofDigit 7)) card first 1 1) (.plain ctx (.ofDigit 7)) none,
    answer (.ofDigit 8)] ++ send second (.ofDigit 9)

def answered : List EngineAction :=
  send first (.ofDigit 6) ++ [answer (.ofDigit 7)] ++ send second (.ofDigit 8)

def start : Engine := .new fun _ ↦ some .running

end OverdrawnRange

open OverdrawnRange in
/-- Without a retry the second campaign goes on where the first one ended. -/
theorem publishedCounters_increasing_answered :
    (engine cfg).RunsUnder CounterGuard start answered ∧
      ((engine cfg).after start answered).publishedCounters (.ofDigit 1) (.ofDigit 2) = [0, 1] ∧
      (((engine cfg).after start answered).publishedCounters (.ofDigit 1) (.ofDigit 2)).Pairwise
        (· < ·) := by
  have hruns : (engine cfg).RunsUnder CounterGuard start answered := by decide +kernel
  refine ⟨hruns, by decide +kernel, ?_⟩
  exact publishedCounters_increasing cfg start rfl answered hruns (by decide +kernel) _ _

open OverdrawnRange in
/-- With one, the third message repeats the counter of the second. -/
theorem publishedCounters_repeated :
    start.published = [] ∧ (engine cfg).Runs start retried ∧
      ((engine cfg).after start retried).publishedCounters (.ofDigit 1) (.ofDigit 2) = [0, 1, 1] ∧
      ¬ (((engine cfg).after start retried).publishedCounters (.ofDigit 1) (.ofDigit 2)).Pairwise
        (· < ·) := by
  refine ⟨rfl, ?_, ?_, ?_⟩
  · unfold Machine.Runs
    decide +kernel
  · decide +kernel
  · decide +kernel

end OtaPlatform
