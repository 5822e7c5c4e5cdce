import OtaPlatform.Engine.Emissions

/-!
# The completion checker

The checker ends a running campaign when the counters of `campaign_stats` show no card that is
pending or in progress. The counters are sums: it should not end the campaign while a card has not
emitted its terminal transition, however late the writers are.

A terminal transition takes one card out of the two counters together, an activation moves one
between them. So the counters reach zero when as many terminal transitions were emitted as there are
cards. This is every card once, provided that no card emits two of them: a report that reads the
state of a finished card back from the table, where the end is not written yet, can make it emit a
second one, and then another card is not waited for.
-/

namespace OtaPlatform

open Engine List

/-- The cards that are pending or in progress, as the counters have them. -/
def StatsDelta.unfinished (d : StatsDelta) : ℤ := d .pending + d .inProgress

open StatsDelta

def endedBy (campaignID : UUID) (chs : List CardStateChange) : List UUID :=
  (chs.filter fun ch ↦ ch.campaignID = campaignID ∧ ch.status.isTerminal).map
    CardStateChange.cardID

namespace Engine

variable (s : Engine) (campaignID : UUID)

/-- The cards that have emitted a terminal transition in the campaign. -/
def ended : List UUID := endedBy campaignID s.emitted

/-- The campaign in which a call may end the part of its card: an activation that passes the
throttle never does. -/
def mayEnd (ev : CardEvent) (ans : Answers) : Option UUID :=
  if ev.type = .activate ∧ ans.refuses = false then none else s.moves ev ans

/-- The call ends the part of a card of the campaign only if it has not ended. -/
def EndsOnce (cards : Finset UUID) (ev : CardEvent) (ans : Answers) : Prop :=
  s.mayEnd ev ans = some campaignID → ev.cardID ∈ cards ∧ ev.cardID ∉ s.ended campaignID

end Engine

/-- **The condition.** No call finds a state to act on for a card whose part in the campaign has
ended, and the control plane leaves the campaign alone. -/
def CompletionGuard (campaignID : UUID) (cards : Finset UUID) (s : Engine) : EngineAction → Prop
  | .handle ev ans _ => s.EndsOnce campaignID cards ev ans
  | .initCampaign c _ _ _ | .reset c _ _ _ | .abort c _ => c ≠ campaignID
  | _ => True

instance (s : Engine) (campaignID : UUID) (cards : Finset UUID) (ev : CardEvent) (ans : Answers) :
    Decidable (s.EndsOnce campaignID cards ev ans) := by
  unfold EndsOnce
  infer_instance

instance (campaignID : UUID) (cards : Finset UUID) (s : Engine) :
    (a : EngineAction) → Decidable (CompletionGuard campaignID cards s a)
  | .handle ev ans _ => inferInstanceAs (Decidable (s.EndsOnce campaignID cards ev ans))
  | .initCampaign c _ _ _ | .reset c _ _ _ | .abort c _ =>
    inferInstanceAs (Decidable (c ≠ campaignID))
  | .plan _ | .release _ | .lookup _ _ | .flush _ _ | .preloadShard _ _ _ _ | .check _ =>
    isTrue trivial

/-! ## Open cards -/

theorem StatsDelta.unfinished_add (d e : StatsDelta) :
    unfinished (d + e) = d.unfinished + e.unfinished := by
  rw [unfinished, unfinished, unfinished, Pi.add_apply, Pi.add_apply]
  exact add_add_add_comm _ _ _ _

/-- A transition from `pending` or `in_progress` takes a card out of the two, and puts it back if it
goes to one of them. -/
private theorem unfinished_delta {ch : CardStateChange}
    (hfrom : ch.statsFrom = .pending ∨ ch.statsFrom = .inProgress) :
    ch.delta.unfinished = unfinished (columnUnit ch.statsTo) - 1 := by
  have hunit : unfinished (columnUnit ch.statsFrom) = 1 := by
    rcases hfrom with h | h <;> rw [h] <;> rfl
  rw [CardStateChange.delta, sub_eq_add_neg, unfinished_add, sub_eq_add_neg, ← hunit]
  congr 1
  rw [unfinished, unfinished, Pi.neg_apply, Pi.neg_apply, neg_add]

private theorem unfinished_campaignDelta_le {chs : List CardStateChange} {campaignID : UUID}
    (h : ∀ ch ∈ chs, ch.campaignID = campaignID → ch.delta.unfinished ≤ 0) :
    (campaignDelta chs campaignID).unfinished ≤ 0 := by
  induction chs with
  | nil => exact le_refl 0
  | cons ch chs ih =>
    have htail := ih fun ch' hch' ↦ h ch' (mem_cons_of_mem ch hch')
    rw [campaignDelta_cons, unfinished_add]
    split_ifs with hc
    · exact add_nonpos (h ch mem_cons_self hc) htail
    · exact (zero_add (campaignDelta chs campaignID).unfinished).trans_le htail

/-- The open cards of the statistics, together with those on their way and those that ended, are all
cards. -/
structure Accounted (campaignID : UUID) (cards : Finset UUID) (s : Engine) : Prop where
  nodup : (s.ended campaignID).Nodup
  subset : ∀ card ∈ s.ended campaignID, card ∈ cards
  waiting : ∀ ch ∈ s.stateCh, ch.campaignID = campaignID → ch.delta.unfinished ≤ 0
  balance : ∃ r, s.tables.campaignStats campaignID = some r ∧
    unfinished r.counts + (campaignDelta s.stateCh campaignID).unfinished
      + (s.ended campaignID).length = cards.card

section Steps

variable {cfg : EngineConfig} {s s' : Engine} {campaignID : UUID} {cards : Finset UUID}

theorem endedBy_append (campaignID : UUID) (chs chs' : List CardStateChange) :
    endedBy campaignID (chs ++ chs') = endedBy campaignID chs ++ endedBy campaignID chs' := by
  rw [endedBy, filter_append, map_append, endedBy, endedBy]

variable (h : Accounted campaignID cards s)

include h

theorem Accounted.of_eq (hended : s'.ended campaignID = s.ended campaignID)
    (hwaiting : ∀ ch ∈ s'.stateCh, ch.campaignID = campaignID → ch.delta.unfinished ≤ 0)
    (hdelta : (campaignDelta s'.stateCh campaignID).unfinished
      = (campaignDelta s.stateCh campaignID).unfinished)
    (hstats : s'.tables.campaignStats campaignID = s.tables.campaignStats campaignID) :
    Accounted campaignID cards s' := by
  refine ⟨?_, ?_, hwaiting, ?_⟩
  · rw [hended]
    exact h.nodup
  · rw [hended]
    exact h.subset
  · rw [hstats, hdelta, hended]
    exact h.balance

theorem Accounted.of_same (hsame : s.Same s') : Accounted campaignID cards s' := by
  refine h.of_eq ?_ ?_ ?_ ?_
  · rw [ended, hsame.emitted, ended]
  · rw [hsame.stateCh]
    exact h.waiting
  · rw [hsame.stateCh]
  · rw [hsame.tables]

theorem Accounted.keeps {ch : CardStateChange} (htables : s'.tables = s.tables)
    (hstateCh : s'.stateCh = s.stateCh ++ [ch]) (hemitted : s'.emitted = s.emitted ++ [ch])
    (hch : ch.campaignID = campaignID → ch.status.isTerminal = false ∧ ch.delta.unfinished = 0) :
    Accounted campaignID cards s' := by
  refine h.of_eq ?_ (fun ch' hch' hc ↦ ?_) ?_ (by rw [htables])
  · have hnone : endedBy campaignID [ch] = [] := by
      rw [endedBy, filter_cons_of_neg, filter_nil, map_nil]
      rw [decide_eq_true_eq]
      rintro ⟨hc, hterminal⟩
      exact absurd hterminal (Bool.eq_false_iff.mp (hch hc).1)
    rw [ended, hemitted, endedBy_append, hnone, append_nil, ended]
  · rw [hstateCh] at hch'
    rcases mem_append.mp hch' with hch' | hch'
    · exact h.waiting ch' hch' hc
    · rw [mem_singleton.mp hch'] at hc ⊢
      exact (hch hc).2.le
  · rw [hstateCh, campaignDelta_append, unfinished_add, campaignDelta_cons,
      campaignDelta_nil, add_zero]
    split_ifs with hc
    · rw [(hch hc).2, add_zero]
    · exact add_zero _

theorem Accounted.ends {ch : CardStateChange} (htables : s'.tables = s.tables)
    (hstateCh : s'.stateCh = s.stateCh ++ [ch]) (hemitted : s'.emitted = s.emitted ++ [ch])
    (hcampaign : ch.campaignID = campaignID) (hterminal : ch.status.isTerminal = true)
    (hdelta : ch.delta.unfinished = -1) (hcard : ch.cardID ∈ cards)
    (hnew : ch.cardID ∉ s.ended campaignID) : Accounted campaignID cards s' := by
  have hended : s'.ended campaignID = s.ended campaignID ++ [ch.cardID] := by
    rw [ended, hemitted, endedBy_append, ended]
    congr 1
    rw [endedBy, filter_cons_of_pos (by simp [hcampaign, hterminal])]
    rfl
  refine ⟨?_, fun card hmem ↦ ?_, fun ch' hch' hc ↦ ?_, ?_⟩
  · rw [hended, nodup_append]
    refine ⟨h.nodup, nodup_singleton _, ?_⟩
    rintro card hmem card' hmem' rfl
    exact hnew (mem_singleton.mp hmem' ▸ hmem)
  · rw [hended] at hmem
    rcases mem_append.mp hmem with hmem | hmem
    · exact h.subset card hmem
    · rw [mem_singleton.mp hmem]
      exact hcard
  · rw [hstateCh] at hch'
    rcases mem_append.mp hch' with hch' | hch'
    · exact h.waiting ch' hch' hc
    · rw [mem_singleton.mp hch', hdelta]
      decide
  · obtain ⟨r, hr, hbalance⟩ := h.balance
    refine ⟨r, by rw [htables, hr], ?_⟩
    rw [hstateCh, campaignDelta_append, unfinished_add, campaignDelta_cons,
      campaignDelta_nil, add_zero, if_pos hcampaign, hdelta, hended, length_append,
      length_singleton]
    omega

theorem Accounted.handle {ev : CardEvent}
    {ans : Answers} {answered : Option UUID} (honce : s.EndsOnce campaignID cards ev ans) :
    Accounted campaignID cards (s.handle cfg ev ans answered) := by
  obtain ⟨after, outs, counters, hout, hh⟩ := s.handle_cases cfg ev ans answered
  have heffect := hout.effect
  have hstateCh := hh.stateCh
  have hemitted := hh.emitted_eq
  generalize changesOf outs = chs at heffect hstateCh hemitted
  have hsilent : chs = [] → Accounted campaignID cards (s.handle cfg ev ans answered) := by
    intro hnil
    rw [hnil, append_nil] at hstateCh hemitted
    refine h.of_eq ?_ ?_ ?_ (by rw [hh.tables])
    · rw [ended, hemitted, ended]
    · rw [hstateCh]
      exact h.waiting
    · rw [hstateCh]
  cases heffect with
  | keeps | reads | awaits | unwritten | drops => exact hsilent rfl
  | begins htype hmoves hfrom hchs =>
    rcases hchs with rfl | rfl
    · exact h.keeps hh.tables hstateCh hemitted fun _ ↦ ⟨rfl, rfl⟩
    · exact hsilent rfl
  | @ends st c status ch hfound hst hmoves hrefuses hstatus hch =>
    by_cases hc : ch.campaignID = campaignID
    · have hend : s.mayEnd ev ans = some campaignID := by
        rw [mayEnd, if_neg, hmoves, ← hc, hch.campaignID_eq]
        rintro ⟨htype, hpass⟩
        exact absurd (hrefuses htype) (Bool.eq_false_iff.mp hpass)
      obtain ⟨hcard, hnew⟩ := honce hend
      rw [← hch.cardID_eq] at hcard hnew
      have hterminal : ch.status.isTerminal = true := by
        rw [hch.status_eq]
        rcases hstatus with rfl | rfl <;> rfl
      have hdelta : ch.delta.unfinished = -1 := by
        rw [unfinished_delta (hch.statsFrom_eq ▸ ev.movesFrom_cases ans), hch.statsTo_eq]
        rcases hstatus with rfl | rfl <;> rfl
      exact h.ends hh.tables hstateCh hemitted hc hterminal hdelta hcard hnew
    · exact h.keeps hh.tables hstateCh hemitted fun hc' ↦ absurd hc' hc

theorem Accounted.flush {batch : List CardStateChange}
    {copyWorks : Bool} (hbatch : batch.Subperm s.stateCh) :
    Accounted campaignID cards (s.next cfg (.flush batch copyWorks)) := by
  refine ⟨h.nodup, h.subset, fun ch hch ↦ h.waiting ch (diff_subset _ _ hch), ?_⟩
  obtain ⟨r, hr, hbalance⟩ := h.balance
  refine ⟨r.add (campaignDelta batch campaignID), ?_, ?_⟩
  · change (writeCardStateBatch copyWorks s.tables batch).campaignStats campaignID = _
    rw [campaignStats_writeCardStateBatch, hr, Option.map_some]
  · -- what the batch adds is no longer on its way
    have hsplit := congrArg unfinished (campaignDelta_diff hbatch campaignID)
    rw [unfinished_add] at hsplit
    change unfinished (r.counts + campaignDelta batch campaignID)
      + (campaignDelta (s.stateCh.diff batch) campaignID).unfinished
      + (s.ended campaignID).length = cards.card
    rw [unfinished_add, add_assoc (unfinished r.counts), hsplit, hbalance]

theorem Accounted.control {tables : StateTables}
    (hstats : tables.campaignStats campaignID = s.tables.campaignStats campaignID) :
    Accounted campaignID cards (s.control tables) := by
  refine h.of_eq ?_ h.waiting rfl hstats
  exact congrArg (fun outs ↦ endedBy campaignID (changesOf outs)) (s.outputsOf_control tables)

theorem Accounted.next {a : EngineAction}
    (henabled : s.Enabled cfg a) (hguard : CompletionGuard campaignID cards s a) :
    Accounted campaignID cards (s.next cfg a) := by
  cases a with
  | plan _ | release _ | preloadShard _ _ _ _ | check _ => exact h.of_same (s.same_next cfg trivial)
  | handle ev ans answered => exact h.handle hguard
  | lookup cardID row => exact ⟨h.nodup, h.subset, h.waiting, h.balance⟩
  | flush batch copyWorks => exact h.flush henabled
  | initCampaign c cardIDs step updatedAt =>
    refine h.control ?_
    rw [campaignStats_initializeCampaign, if_neg fun hand ↦ hguard hand.1.symm]
  | reset c cardIDs step updatedAt =>
    obtain ⟨listed, -, hreset⟩ := exists_resetTransaction s.tables c cardIDs step updatedAt
    refine h.control ?_
    rw [hreset, campaignStats_resetTransaction, if_neg fun hc ↦ hguard hc.symm]
  | abort c updatedAt =>
    refine h.control ?_
    rw [campaignStats_abortCampaign, if_neg fun hand ↦ hguard hand.1.symm]

theorem Accounted.ended_of_completionStatus {r : CampaignStatsRow}
    (hr : s.tables.campaignStats campaignID = some r) {status : CampaignStatus}
    (hstatus : completionStatus r = some status) : (s.ended campaignID).toFinset = cards := by
  have hclosed : unfinished r.counts ≤ 0 := by
    rw [completionStatus] at hstatus
    rw [unfinished]
    split_ifs at hstatus <;> omega
  have hdelta := unfinished_campaignDelta_le h.waiting
  obtain ⟨r', hr', hbalance⟩ := h.balance
  obtain rfl := Option.some.inj (hr.symm.trans hr')
  refine Finset.eq_of_subset_of_card_le (fun card hcard ↦ ?_) ?_
  · exact h.subset card (mem_toFinset.mp hcard)
  · rw [toFinset_card_of_nodup h.nodup]
    omega

omit h

theorem Engine.mem_ended {card : UUID} : card ∈ s.ended campaignID ↔
      ∃ ch ∈ s.emitted, ch.pair = (card, campaignID) ∧ ch.status.isTerminal = true := by
  simp only [ended, endedBy, mem_map, mem_filter, decide_eq_true_eq,
    CardStateChange.pair, Prod.mk.injEq]
  constructor
  · rintro ⟨ch, ⟨hmem, hc, hterminal⟩, hcard⟩
    exact ⟨ch, hmem, ⟨hcard, hc⟩, hterminal⟩
  · rintro ⟨ch, hmem, ⟨hcard, hc⟩, hterminal⟩
    exact ⟨ch, ⟨hmem, hc, hterminal⟩, hcard⟩

theorem Engine.completionStatus_of_check
    (h : (s.check campaignID).campaignStatus campaignID ≠ s.campaignStatus campaignID) :
    ∃ r status, s.tables.campaignStats campaignID = some r ∧ completionStatus r = some status := by
  rw [check] at h
  split at h
  · rename_i r _ hr
    split at h
    · exact absurd rfl h
    · rename_i status hstatus
      exact ⟨r, status, hr, hstatus⟩
  · exact absurd rfl h

end Steps

/-- **No campaign is ended early.** In every run whose steps meet the condition, from a state in
which all cards of the campaign are counted as open and none has ended, the checker changes the
status of the campaign only when every card has emitted a terminal transition. -/
theorem check_ends_completed (cfg : EngineConfig) (s : Engine) (campaignID : UUID)
    (cards : Finset UUID) (r : CampaignStatsRow)
    (hstats : s.tables.campaignStats campaignID = some r)
    (hopen : r.counts .pending + r.counts .inProgress = cards.card)
    (hwaiting : ∀ ch ∈ s.stateCh, ch.campaignID ≠ campaignID)
    (hended : s.ended campaignID = []) (acts : List EngineAction)
    (hruns : (engine cfg).RunsUnder (CompletionGuard campaignID cards) s acts)
    (hcheck : (((engine cfg).after s acts).next cfg (.check campaignID)).campaignStatus campaignID
      ≠ ((engine cfg).after s acts).campaignStatus campaignID) :
    ∀ card ∈ cards, ∃ ch ∈ ((engine cfg).after s acts).emitted,
      ch.pair = (card, campaignID) ∧ ch.status.isTerminal = true := by
  have hinit : Accounted campaignID cards s := by
    refine ⟨?_, ?_, fun ch hch hc ↦ absurd hc (hwaiting ch hch), r, hstats, ?_⟩
    · rw [hended]
      exact nodup_nil
    · rw [hended]
      exact forall_mem_nil _
    · rw [campaignDelta_eq_zero hwaiting, hended]
      change r.counts .pending + r.counts .inProgress + 0 + 0 = _
      rw [add_zero, add_zero, hopen]
  have haccounted : Accounted campaignID cards ((engine cfg).after s acts) :=
    hruns.invariant (fun s a hs henabled hguard ↦ hs.next henabled hguard) hinit
  obtain ⟨r', status, hr', hstatus⟩ := completionStatus_of_check hcheck
  intro card hcard
  rw [← haccounted.ended_of_completionStatus hr' hstatus, mem_toFinset] at hcard
  exact mem_ended.mp hcard

/-! ## A response after the end

The first card answers before its delivery report, and is done. The report then reads the state of
the card back as in progress and waits for a response, which a repetition brings: the card ends
twice. -/

namespace EndedTwice

def ctx : CampaignContext := plainContext [1] 1

def cfg : EngineConfig := plainConfig ctx

def activate (cardID : UUID) : CardEvent := plainActivate cardID (.ofDigit 3)

def response (cardID : UUID) : CardEvent := plainResponse cardID (.ofDigit 3)

def delivered : CardEvent := plainReport (.ofDigit 1) (.ofDigit 3) (.ofDigit 6) .delivrd

/-- The table has the initial row of the card. -/
def answers (cardID msgID : UUID) : Answers :=
  .plain ctx msgID (some (initialRow (.ofDigit 3) 1 0 cardID))

/-- The table has the row of the first activation. -/
def answersLate (msgID : UUID) : Answers :=
  .plain ctx msgID (some (activateChange (answers (.ofDigit 1) (.ofDigit 6))
    (activate (.ofDigit 1)) (.ofDigit 3)).toRow)

def start : Engine :=
  (engine cfg).after (.new fun _ ↦ some .running)
    [.initCampaign (.ofDigit 3) [.ofDigit 1, .ofDigit 2] 1 0]

def cards : Finset UUID := {.ofDigit 1, .ofDigit 2}

/-- The first card is activated and its activation written. It answers. -/
def answered : List EngineAction :=
  [.plan (activate (.ofDigit 1)), .plan (activate (.ofDigit 2)),
    .handle (activate (.ofDigit 1)) (answers (.ofDigit 1) (.ofDigit 6)) none,
    .flush [activateChange (answers (.ofDigit 1) (.ofDigit 6)) (activate (.ofDigit 1))
      (.ofDigit 3)] true,
    .handle (response (.ofDigit 1)) (answersLate (.ofDigit 7)) (some (.ofDigit 6))]

def second : List EngineAction :=
  [.handle (activate (.ofDigit 2)) (answers (.ofDigit 2) (.ofDigit 7)) none]

def applied (acts : List EngineAction) : List EngineAction :=
  acts ++ [.flush ((engine cfg).after start acts).stateCh true]

/-- The second card answers as well. -/
def bothAnswered : List EngineAction :=
  applied (answered ++ second ++
    [.handle (response (.ofDigit 2)) (answers (.ofDigit 2) (.ofDigit 8)) (some (.ofDigit 7))])

/-- The report and the repeated response of the first card come in instead. -/
def repeated : List EngineAction :=
  applied (answered ++ [.handle delivered (answersLate (.ofDigit 7)) none,
    .handle (response (.ofDigit 1)) (answersLate (.ofDigit 7)) (some (.ofDigit 6))] ++ second)

end EndedTwice

open EndedTwice in
/-- Both cards answer, and the campaign is completed. -/
theorem check_ends_completed_answered :
    (engine cfg).RunsUnder (CompletionGuard (.ofDigit 3) cards) start bothAnswered ∧
      (((engine cfg).after start bothAnswered).next cfg (.check (.ofDigit 3))).campaignStatus
        (.ofDigit 3) = some .completed ∧
      ∀ card ∈ cards, ∃ ch ∈ ((engine cfg).after start bothAnswered).emitted,
        ch.pair = (card, .ofDigit 3) ∧ ch.status.isTerminal = true := by
  have hruns : (engine cfg).RunsUnder (CompletionGuard (.ofDigit 3) cards) start bothAnswered := by
    decide +kernel
  have hcompleted : (((engine cfg).after start bothAnswered).next cfg
      (.check (.ofDigit 3))).campaignStatus (.ofDigit 3) = some .completed := by decide +kernel
  have hrunning : ((engine cfg).after start bothAnswered).campaignStatus (.ofDigit 3)
      = some .running := by decide +kernel
  refine ⟨hruns, hcompleted, ?_⟩
  refine check_ends_completed cfg start (.ofDigit 3) cards
    ⟨2, fun col ↦ if col = .pending then 2 else 0⟩ rfl (by decide +kernel) (by decide +kernel)
    (by decide +kernel) bothAnswered hruns ?_
  rw [hcompleted, hrunning]
  decide

open EndedTwice in
/-- The campaign is completed while the second card is in progress. -/
theorem check_ends_early :
    start.ended (.ofDigit 3) = [] ∧ (engine cfg).Runs start repeated ∧
      ((engine cfg).after start repeated).campaignStatus (.ofDigit 3) = some .running ∧
      (((engine cfg).after start repeated).next cfg (.check (.ofDigit 3))).campaignStatus
        (.ofDigit 3) = some .completed ∧
      ¬ ∀ card ∈ cards, ∃ ch ∈ ((engine cfg).after start repeated).emitted,
        ch.pair = (card, .ofDigit 3) ∧ ch.status.isTerminal = true := by
  refine ⟨by decide +kernel, ?_, by decide +kernel, by decide +kernel, by decide +kernel⟩
  unfold Machine.Runs
  decide +kernel

end OtaPlatform
