import OtaPlatform.Engine.Statistics

/-!
# What the statistics cannot lose

The counters of a campaign can drift away from its cards, but their sum cannot. Every transition
takes one from a column and adds one to a column, whatever became of the card in the meantime; a
reset and an abort do so in bulk. Only `InitializeCampaign` writes `total`, and `pending` with it,
so it must come while nothing else is counted.
-/

namespace OtaPlatform

open List Function

/-- All columns together. -/
def columnSum (d : StatsDelta) : ℤ :=
  d .pending + d .inProgress + d .completed + d .failed + d .skipped

theorem columnSum_add (d e : StatsDelta) : columnSum (d + e) = columnSum d + columnSum e := by
  simp only [columnSum, Pi.add_apply]
  ring

/-- A campaign is initialized while `pending` is all that is counted. -/
def InitGuard (s : Engine) : EngineAction → Prop
  | .initCampaign campaignID _ _ _ =>
    ∀ r ∈ s.tables.campaignStats campaignID, columnSum r.counts = r.counts .pending
  | _ => True

instance (s : Engine) : (a : EngineAction) → Decidable (InitGuard s a)
  | .initCampaign campaignID _ _ _ => inferInstanceAs (Decidable
      (∀ r ∈ s.tables.campaignStats campaignID, columnSum r.counts = r.counts .pending))
  | .handle .. | .reset .. | .abort .. | .plan _ | .release _ | .lookup .. | .flush ..
  | .preloadShard .. | .check _ => isTrue trivial

structure Conserved (s : Engine) : Prop where
  waiting : ∀ ch ∈ s.stateCh, columnSum ch.delta = 0
  stats : ∀ campaignID, ∀ r ∈ s.tables.campaignStats campaignID, columnSum r.counts = r.total

theorem Emission.columnSum_delta {s : Engine} {ev : CardEvent} {ans : Answers}
    {ch : CardStateChange} (h : Emission s ev ans ch) : columnSum ch.delta = 0 := by
  rw [CardStateChange.delta, h.statsFrom_eq, h.statsTo_eq]
  rcases ev.movesFrom_cases ans with hfrom | hfrom <;>
    rcases h.status_mem with hto | hto | hto <;> rw [hfrom, hto] <;> rfl

theorem columnSum_campaignDelta {chs : List CardStateChange} (campaignID : UUID)
    (h : ∀ ch ∈ chs, columnSum ch.delta = 0) : columnSum (campaignDelta chs campaignID) = 0 := by
  induction chs with
  | nil => rfl
  | cons ch chs ih =>
    rw [campaignDelta_cons, columnSum_add, ih fun ch' hch' ↦ h ch' (mem_cons_of_mem ch hch'),
      add_zero]
    split_ifs
    · exact h ch mem_cons_self
    · rfl

theorem columnSum_upsertPending (n : ℤ) {row : Option CampaignStatsRow}
    (h : ∀ r ∈ row, columnSum r.counts = r.counts .pending) :
    columnSum (upsertPending n row).counts = n := by
  cases row with
  | none => simp [upsertPending, columnSum]
  | some r =>
    have hrest := h r rfl
    simp only [columnSum] at hrest
    simp only [upsertPending, columnSum, update_self, ne_eq, reduceCtorEq, not_false_eq_true,
      update_of_ne]
    omega

theorem Conserved.of_same {s s' : Engine} (h : Conserved s) (hsame : s.Same s') : Conserved s' :=
  ⟨hsame.stateCh ▸ h.waiting, hsame.tables ▸ h.stats⟩

theorem Conserved.next {cfg : EngineConfig} {s : Engine} (h : Conserved s) {a : EngineAction}
    (henabled : s.Enabled cfg a) (hguard : InitGuard s a) : Conserved (s.next cfg a) := by
  cases a with
  | plan _ | release _ | preloadShard _ _ _ _ | check _ =>
    exact h.of_same (s.same_next cfg trivial)
  | lookup cardID row => exact ⟨h.waiting, h.stats⟩
  | handle ev ans answered =>
    obtain ⟨after, outs, counters, hout, hh⟩ := s.handle_cases cfg ev ans answered
    refine ⟨fun ch hch ↦ ?_, hh.tables ▸ h.stats⟩
    rcases mem_append.mp (hh.stateCh ▸ hch) with hch | hch
    · exact h.waiting ch hch
    · rcases hout.effect.emission with hnil | ⟨ch', hone, hemission⟩
      · rw [hnil] at hch
        cases hch
      · rw [hone, mem_singleton] at hch
        exact hch ▸ hemission.columnSum_delta
  | flush batch copyWorks =>
    refine ⟨fun ch hch ↦ h.waiting ch (diff_subset _ _ hch), fun campaignID r hr ↦ ?_⟩
    change r ∈ (writeCardStateBatch copyWorks s.tables batch).campaignStats campaignID at hr
    rw [campaignStats_writeCardStateBatch] at hr
    obtain ⟨r', hr', rfl⟩ := Option.map_eq_some_iff.mp hr
    refine (columnSum_add _ _).trans ?_
    rw [columnSum_campaignDelta campaignID fun ch hch ↦ h.waiting ch (henabled.subset hch),
      add_zero]
    exact h.stats campaignID r' hr'
  | initCampaign campaignID cardIDs step updatedAt =>
    refine ⟨h.waiting, fun c r hr ↦ ?_⟩
    change r ∈ (initializeCampaign ..).campaignStats c at hr
    rw [campaignStats_initializeCampaign] at hr
    split_ifs at hr with hc
    · obtain rfl := Option.some.inj hr
      rw [columnSum_upsertPending _ (hc.1 ▸ hguard)]
      cases s.tables.campaignStats c <;> rfl
    · exact h.stats c r hr
  | reset campaignID cardIDs step updatedAt =>
    obtain ⟨listed, -, hreset⟩ := exists_resetTransaction s.tables campaignID cardIDs step updatedAt
    rw [Engine.next, hreset]
    refine ⟨h.waiting, fun c r hr ↦ ?_⟩
    change r ∈ (resetTransaction ..).campaignStats c at hr
    rw [campaignStats_resetTransaction] at hr
    split_ifs at hr
    · obtain ⟨r', hr', rfl⟩ := Option.map_eq_some_iff.mp hr
      refine (columnSum_add _ _).trans ?_
      rw [h.stats c r' hr']
      simp [columnSum, CampaignStatsRow.add]
    · exact h.stats c r hr
  | abort campaignID updatedAt =>
    refine ⟨h.waiting, fun c r hr ↦ ?_⟩
    change r ∈ (abortCampaign ..).campaignStats c at hr
    rw [campaignStats_abortCampaign] at hr
    split_ifs at hr
    · obtain ⟨r', hr', rfl⟩ := Option.map_eq_some_iff.mp hr
      rw [CampaignStatsRow.skipOpen, ← h.stats c r' hr', columnSum, columnSum]
      ring
    · exact h.stats c r hr

/-- **No card is lost from the statistics.** In every run, the columns of a campaign add up to its
total, whatever is delivered again, retried, reset or aborted and however transitions are batched,
provided that campaigns are initialized while only `pending` is counted. -/
theorem campaignStats_conserved (cfg : EngineConfig)
    (campaignStatus : UUID → Option CampaignStatus) (acts : List EngineAction)
    (hruns : (engine cfg).RunsUnder InitGuard (.new campaignStatus) acts) (campaignID : UUID)
    (r : CampaignStatsRow)
    (hstats : ((engine cfg).after (.new campaignStatus) acts).tables.campaignStats campaignID
      = some r) : columnSum r.counts = r.total := by
  have hnew : Conserved (.new campaignStatus) :=
    ⟨forall_mem_nil _, fun _ _ h ↦ absurd h.symm (Option.some_ne_none _)⟩
  exact (hruns.invariant (fun s a hs ↦ hs.next) hnew).stats campaignID r hstats

open SecondCommand in
/-- The sum survives a second command, although the columns do not. -/
theorem campaignStats_conserved_twice :
    ∃ r, ((engine (cfg [1, 2])).after start twice).tables.campaignStats (.ofDigit 3) = some r ∧
      r.counts .pending = -1 ∧ columnSum r.counts = r.total := by
  have hsome : (((engine (cfg [1, 2])).after start twice).tables.campaignStats (.ofDigit 3)).map
      (fun r ↦ r.counts .pending) = some (-1) := by
    decide +kernel
  obtain ⟨r, hr, hpending⟩ := Option.map_eq_some_iff.mp hsome
  exact ⟨r, hr, hpending, campaignStats_conserved _ _ twice (by decide +kernel) _ r hr⟩

end OtaPlatform
