import OtaPlatform.Engine.Completion
import OtaPlatform.Executor.Progress

/-!
# Terminal outcomes

A card that has reached a terminal state is evicted, and a later report of it is recognised as late
by what the table says. The table is written asynchronously: a report that comes before the terminal
row reads an older row, takes the card for one under way, and moves it again.

* `FinalityGuard`: once a card has emitted a terminal transition, what is read for it from the table
  is terminal.
* `terminal_final`: then nothing is emitted, sent or stored as under way for the card afterwards, in
  every run of reports, responses and whatever happens to other cards.
-/

namespace OtaPlatform

open Engine List Function

/-! ## What is final -/

/-- The output is a transition of the card or a message to it. -/
def Output.isOf (cardID : UUID) : Output → Prop
  | .change ch => ch.cardID = cardID
  | .sms msg _ => msg.cardID = cardID
  | _ => False

/-- After a transition that ends the part of the card nothing more is emitted or sent for it. -/
def SilentAfterEnd (cardID campaignID : UUID) (outs : List Output) : Prop :=
  ∀ before ch after, outs = before ++ .change ch :: after → ch.Ends cardID campaignID →
    ∀ out ∈ after, ¬ out.isOf cardID

structure Final (cardID campaignID : UUID) (s : Engine) : Prop where
  once : (s.ended campaignID).count cardID ≤ 1
  /-- After it neither a transition nor a message followed. -/
  silent : SilentAfterEnd cardID campaignID (outputsOf s.trace)
  stored : cardID ∈ s.ended campaignID →
    ∀ st ∈ s.process.cardState cardID, st.status.isTerminal = true

/-- If the part of the card in the campaign has ended, a state that is read for it is terminal. -/
def Engine.ReadsEnd (s : Engine) (cardID campaignID : UUID)
    (row : Except String (Option ExecutionRow)) : Prop :=
  cardID ∈ s.ended campaignID → s.process.cardState cardID = none →
    ∀ r ∈ selectedRow row, r.status.isTerminal = true

/-- **The condition**: late reports of the card, and lookups for it, read a terminal row. -/
def FinalityGuard (cardID campaignID : UUID) (s : Engine) : EngineAction → Prop
  | .handle ev ans _ => ev.cardID = cardID → s.ReadsEnd cardID campaignID ans.row
  | .lookup card row => card = cardID → s.ReadsEnd cardID campaignID row
  | _ => True

def EngineAction.spares (cardID : UUID) : EngineAction → Prop
  | .handle ev _ _ => ev.cardID = cardID → ev.type ≠ .activate
  | _ => True

instance (s : Engine) (cardID campaignID : UUID) (row : Except String (Option ExecutionRow)) :
    Decidable (s.ReadsEnd cardID campaignID row) :=
  inferInstanceAs (Decidable (_ → _ = none → _))

instance (cardID campaignID : UUID) (s : Engine) :
    (a : EngineAction) → Decidable (FinalityGuard cardID campaignID s a)
  | .handle ev ans _ =>
    inferInstanceAs (Decidable (ev.cardID = cardID → s.ReadsEnd cardID campaignID ans.row))
  | .lookup card row =>
    inferInstanceAs (Decidable (card = cardID → s.ReadsEnd cardID campaignID row))
  | .plan _ | .release _ | .flush _ _ | .preloadShard _ _ _ _ | .initCampaign _ _ _ _
  | .reset _ _ _ _ | .abort _ _ | .check _ => isTrue trivial

instance (cardID : UUID) : (a : EngineAction) → Decidable (a.spares cardID)
  | .handle ev _ _ => inferInstanceAs (Decidable (ev.cardID = cardID → ev.type ≠ .activate))
  | .plan _ | .release _ | .lookup _ _ | .flush _ _ | .preloadShard _ _ _ _
  | .initCampaign _ _ _ _ | .reset _ _ _ _ | .abort _ _ | .check _ => isTrue trivial

/-! ## Outputs -/

section Outputs

variable {cardID campaignID : UUID} {outs more : List Output}

theorem mem_changesOf {ch : CardStateChange} : ch ∈ changesOf outs ↔ .change ch ∈ outs := by
  rw [changesOf, mem_filterMap]
  constructor
  · rintro ⟨out, hout, hch⟩
    cases out with
    | change ch' => exact Option.some.inj hch ▸ hout
    | sms | event | delayed | log => cases hch
  · exact fun h ↦ ⟨_, h, rfl⟩

/-- More may follow if it is silent itself, and about the card if its part has ended. -/
theorem SilentAfterEnd.append (h : SilentAfterEnd cardID campaignID outs)
    (hmore : SilentAfterEnd cardID campaignID more)
    (hended : ∀ ch, .change ch ∈ outs → ch.Ends cardID campaignID →
      ∀ out ∈ more, ¬ out.isOf cardID) : SilentAfterEnd cardID campaignID (outs ++ more) := by
  intro before ch after heq hends out hout
  rcases append_eq_append_iff.mp heq with ⟨rest, rfl, hrest⟩ | ⟨rest, rfl, hrest⟩
  · exact hmore rest ch after hrest hends out hout
  · cases rest with
    | nil => exact hmore [] ch after hrest.symm hends out hout
    | cons x rest =>
      -- the end is in the old part
      obtain ⟨rfl, rfl⟩ := cons_eq_cons.mp hrest
      rcases mem_append.mp hout with hout | hout
      · exact h before ch rest rfl hends out hout
      · exact hended ch (mem_append_right _ mem_cons_self) hends out hout

theorem silentAfterEnd_of_length_le_one (hone : (changesOf outs).length ≤ 1)
    (hchange : ∀ out ∈ outs, out.isOf cardID → ∃ ch, out = .change ch) :
    SilentAfterEnd cardID campaignID outs := by
  rintro before ch after rfl - out hout hof
  obtain ⟨ch', rfl⟩ := hchange out (mem_append_right _ (mem_cons_of_mem _ hout)) hof
  have hsplit : changesOf (before ++ .change ch :: after)
      = changesOf before ++ ch :: changesOf after := changesOf_append ..
  rw [hsplit, length_append, length_cons] at hone
  have hnil : changesOf after = [] := eq_nil_of_length_eq_zero (by omega)
  have hmem := mem_changesOf.mpr hout
  rw [hnil] at hmem
  exact absurd hmem not_mem_nil

theorem mem_visible_of_isOf {out : Output} (hmem : out ∈ outs)
    (hof : out.isOf cardID) : out ∈ visible outs := by
  refine mem_filter.mpr ⟨hmem, ?_⟩
  cases out with
  | log action => exact absurd hof id
  | sms | event | delayed | change => rfl

end Outputs

/-! ## Steps -/

variable {ev : CardEvent}

section Steps

variable {cfg : EngineConfig} {s s' : Engine} {cardID campaignID : UUID}

theorem Engine.mem_ended_of_mem_outputsOf {ch : CardStateChange}
    (hch : .change ch ∈ outputsOf s.trace) (hends : ch.Ends cardID campaignID) :
    cardID ∈ s.ended campaignID :=
  mem_ended.mpr ⟨ch, mem_changesOf.mpr hch, Prod.ext hends.cardID_eq hends.campaignID_eq,
    hends.isTerminal⟩

theorem Final.of_outputsOf (h : Final cardID campaignID s)
    (houts : outputsOf s'.trace = outputsOf s.trace) (hstored : cardID ∈ s.ended campaignID →
      ∀ st ∈ s'.process.cardState cardID, st.status.isTerminal = true) :
    Final cardID campaignID s' := by
  have hended : s'.ended campaignID = s.ended campaignID := by
    rw [ended, emitted, houts]
    rfl
  refine ⟨?_, ?_, ?_⟩
  · rw [hended]
    exact h.once
  · rw [houts]
    exact h.silent
  · rw [hended]
    exact hstored

/-- A call that emits at most one transition of the card and sends nothing to it, and not even that
if its part has ended. -/
theorem Final.of_handles (h : Final cardID campaignID s) {answered : Option UUID}
    {after : Option CardState} {outs : List Output} {counters : CounterStore}
    (hh : s.Handles s' ev answered after outs counters) (hone : (changesOf outs).length ≤ 1)
    (hchange : ∀ out ∈ outs, out.isOf cardID → ∃ ch, out = .change ch)
    (hquiet : cardID ∈ s.ended campaignID → ∀ out ∈ outs, ¬ out.isOf cardID)
    (hstored : cardID ∈ s'.ended campaignID →
      ∀ st ∈ s'.process.cardState cardID, st.status.isTerminal = true) :
    Final cardID campaignID s' := by
  obtain ⟨raw, hraw, htrace⟩ := hh.trace
  have hended : s'.ended campaignID
      = s.ended campaignID ++ endedBy campaignID (changesOf outs) := by
    rw [ended, hh.emitted_eq, endedBy_append]
    rfl
  have hvisible : ∀ out ∈ raw, out.isOf cardID → out ∈ outs := fun out hout hof ↦
    hraw ▸ mem_visible_of_isOf hout hof
  refine ⟨?_, ?_, hstored⟩
  · rw [hended, count_append]
    by_cases hcard : cardID ∈ s.ended campaignID
    · have hzero : (endedBy campaignID (changesOf outs)).count cardID = 0 := by
        refine count_eq_zero.mpr fun hmem ↦ ?_
        obtain ⟨ch, hch, hof⟩ := mem_map.mp hmem
        exact hquiet hcard _ (mem_changesOf.mp (mem_of_mem_filter hch)) hof
      rw [hzero]
      exact h.once
    · rw [count_eq_zero.mpr hcard, zero_add]
      refine count_le_length.trans ?_
      rw [endedBy, length_map]
      exact (length_filter_le _ _).trans hone
  · rw [htrace, outputsOf_append, outputsOf_handled]
    refine h.silent.append ?_ fun ch hch hends out hout hof ↦ ?_
    · refine silentAfterEnd_of_length_le_one ?_ fun out hout hof ↦
        hchange out (hvisible out hout hof) hof
      rwa [changesOf_visible, hraw]
    · exact hquiet (mem_ended_of_mem_outputsOf hch hends) out (hvisible out hout hof) hof

private theorem cardID_of_isOf {ans : Answers} {after : Option CardState} {outs : List Output}
    {counters : CounterStore} (hout : EventOutcome s.process ans ev after outs counters)
    {out : Output} (hmem : out ∈ outs) (hof : out.isOf cardID) :
    ev.cardID = cardID ∧ (ev.type = .activate ∨ ∃ ch, out = .change ch ∧ Emission s ev ans ch) := by
  cases out with
  | change ch =>
    have hch := mem_changesOf.mpr hmem
    rcases hout.effect.emission with hnil | ⟨ch', hone, hemission⟩
    · rw [hnil] at hch
      exact absurd hch not_mem_nil
    · rw [hone] at hch
      obtain rfl := mem_singleton.mp hch
      exact ⟨hemission.cardID_eq.symm.trans hof, Or.inr ⟨ch, rfl, hemission⟩⟩
  | sms msg origin =>
    have hsms : (msg, origin) ∈ smsOf outs := mem_filterMap.mpr ⟨_, hmem, rfl⟩
    rcases hout.smsOf_cases with hnil | ⟨msg', origin', hone, -, htype, hcard, -⟩
    · rw [hnil] at hsms
      exact absurd hsms not_mem_nil
    · rw [hone] at hsms
      obtain ⟨rfl, rfl⟩ := Prod.mk_inj.mp (mem_singleton.mp hsms)
      exact ⟨hcard.symm.trans hof, Or.inl htype⟩
  | event | delayed | log => exact absurd hof id

theorem Final.handle_other (h : Final cardID campaignID s)
    {ans : Answers} {answered : Option UUID} (hcard : ev.cardID ≠ cardID) :
    Final cardID campaignID (s.handle cfg ev ans answered) := by
  obtain ⟨after, outs, counters, hout, hh⟩ := s.handle_cases cfg ev ans answered
  have hnot : ∀ out ∈ outs, ¬ out.isOf cardID := fun out hmem hof ↦
    hcard (cardID_of_isOf hout hmem hof).1
  refine h.of_handles hh ?_ (fun out hmem hof ↦ absurd hof (hnot out hmem)) (fun _ ↦ hnot) ?_
  · rcases hout.effect.emission with hnil | ⟨ch, hone, -⟩
    · exact hnil ▸ Nat.zero_le 1
    · exact hone ▸ le_rfl
  · intro hended st hst
    rw [hh.cardState, update_of_ne (Ne.symm hcard)] at hst
    refine h.stored ?_ st hst
    rw [ended, hh.emitted_eq, endedBy_append] at hended
    rcases mem_append.mp hended with hended | hended
    · exact hended
    · obtain ⟨ch, hch, hof⟩ := mem_map.mp hended
      exact absurd hof (hnot _ (mem_changesOf.mp (mem_of_mem_filter hch)))

private theorem not_isTerminal_of_moves {ans : Answers} {campaignID : UUID}
    (htype : ev.type ≠ .activate) (h : s.moves ev ans = some campaignID) :
    ∃ st, s.process.found ev.cardID ans.row = some st ∧ st.status.isTerminal = false := by
  have hreport : ((s.process.found ev.cardID ans.row).bind fun st ↦
      if ev.Moves st then some (ev.campaignFor st) else none) = some campaignID := by
    rw [moves] at h
    cases htype' : ev.type with
    | activate => exact absurd htype' htype
    | dlrReceived | moReceived =>
      rw [htype'] at h
      exact h
  obtain ⟨st, hfound, hst⟩ := Option.bind_eq_some_iff.mp hreport
  split_ifs at hst with hmoves
  exact ⟨st, hfound, hmoves.not_isTerminal⟩

/-- **A report of the card** that reads a terminal row if its part has ended. -/
theorem Final.handle_report (h : Final ev.cardID campaignID s)
    {ans : Answers} {answered : Option UUID} (htype : ev.type ≠ .activate)
    (hreads : s.ReadsEnd ev.cardID campaignID ans.row) :
    Final ev.cardID campaignID (s.handle cfg ev ans answered) := by
  obtain ⟨after, outs, counters, hout, hh⟩ := s.handle_cases cfg ev ans answered
  have hterminal : ev.cardID ∈ s.ended campaignID → ∀ {st : CardState},
      s.process.found ev.cardID ans.row = some st → st.status.isTerminal = true := by
    intro hended st hfound
    rcases Process.found_cases hfound with hcached | ⟨hmiss, r, hr, rfl⟩
    · exact h.stored hended st hcached
    · exact hreads hended hmiss r hr
  have hquiet : ev.cardID ∈ s.ended campaignID → s.moves ev ans = none := by
    intro hended
    cases hmoves : s.moves ev ans with
    | none => rfl
    | some c =>
      obtain ⟨st, hfound, hst⟩ := not_isTerminal_of_moves htype hmoves
      exact absurd (hst.symm.trans (hterminal hended hfound)) Bool.noConfusion
  have hchange : ∀ out ∈ outs, out.isOf ev.cardID →
      ∃ ch, out = .change ch ∧ Emission s ev ans ch := fun out hmem hof ↦
    (cardID_of_isOf hout hmem hof).2.resolve_left htype
  have heffect := hout.effect
  refine h.of_handles hh ?_ (fun out hmem hof ↦ ?_) (fun hended out hmem hof ↦ ?_) ?_
  · rcases heffect.emission with hnil | ⟨ch, hone, -⟩
    · exact hnil ▸ Nat.zero_le 1
    · exact hone ▸ le_rfl
  · obtain ⟨ch, rfl, -⟩ := hchange out hmem hof
    exact ⟨ch, rfl⟩
  · obtain ⟨ch, -, hemission⟩ := hchange out hmem hof
    exact absurd ((hquiet hended).symm.trans hemission.moves_eq) (Option.some_ne_none _).symm
  · intro hended st hst
    rw [hh.cardState, update_self] at hst
    rw [ended, hh.emitted_eq, endedBy_append, mem_append] at hended
    generalize changesOf outs = chs at heffect hended
    -- where nothing is emitted the part of the card had ended before
    have hbefore : chs = [] → ev.cardID ∈ s.ended campaignID := fun hnil ↦
      hended.resolve_right fun hmem ↦ by
        rw [hnil] at hmem
        exact absurd hmem not_mem_nil
    cases heffect with
    | keeps => exact h.stored (hbefore rfl) st hst
    | reads => exact hterminal (hbefore rfl) hst
    | awaits hfound hst' =>
      have hlive := hst'.not_isTerminal.symm.trans (hterminal (hbefore rfl) hfound)
      exact absurd hlive Bool.noConfusion
    | begins htype' => exact absurd htype' htype
    | ends => exact absurd hst.symm (Option.some_ne_none st)
    | unwritten hfound hmoves =>
      exact absurd ((hquiet (hbefore rfl)).symm.trans hmoves) (Option.some_ne_none _).symm
    | drops => exact absurd hst.symm (Option.some_ne_none st)

/-- **A step under the guard.** -/
theorem Final.next (h : Final cardID campaignID s) {a : EngineAction} (hspares : a.spares cardID)
    (hguard : FinalityGuard cardID campaignID s a) : Final cardID campaignID (s.next cfg a) := by
  cases a with
  | handle ev ans answered =>
    by_cases hcard : ev.cardID = cardID
    · subst hcard
      exact h.handle_report (hspares rfl) (hguard rfl)
    · exact h.handle_other hcard
  | lookup card row =>
    refine h.of_outputsOf rfl fun hended st hst ↦ ?_
    rw [cardState_lookup] at hst
    by_cases hcard : card = cardID
    · subst hcard
      rw [update_self] at hst
      rcases Process.found_cases hst with hcached | ⟨hmiss, r, hr, rfl⟩
      · exact h.stored hended st hcached
      · exact hguard rfl hended hmiss r hr
    · rw [update_of_ne (Ne.symm hcard)] at hst
      exact h.stored hended st hst
  | plan _ | release _ | flush _ _ => exact h.of_outputsOf rfl h.stored
  | initCampaign _ _ _ _ | reset _ _ _ _ | abort _ _ =>
    exact h.of_outputsOf (s.outputsOf_control _) h.stored
  | preloadShard c cardIDs keys rows =>
    refine h.of_outputsOf (s.outputsOf_next cfg fun _ _ _ ↦ EngineAction.noConfusion) ?_
    rw [(s.same_next cfg (show (EngineAction.preloadShard c cardIDs keys rows).isAside from
      trivial)).cardState]
    exact h.stored
  | check c =>
    refine h.of_outputsOf (s.outputsOf_check c) ?_
    rw [(s.same_next cfg (show (EngineAction.check c).isAside from trivial)).cardState]
    exact h.stored

end Steps

/-- **Terminal outcomes are final.** Take any state in which the part of the card in the campaign
has not ended, such as the one after its activation, and any run from there without a further
activation of the card: reports and responses in any order, flushes at any point, whatever other
cards do. If what is read for the card after its end is terminal, then its end is final in every
state reached. -/
theorem terminal_final (cfg : EngineConfig) (s : Engine) (cardID campaignID : UUID)
    (hopen : cardID ∉ s.ended campaignID) {acts : List EngineAction}
    (hfree : ∀ a ∈ acts, a.spares cardID)
    (hrun : (engine cfg).RunsUnder (FinalityGuard cardID campaignID) s acts) :
    Final cardID campaignID ((engine cfg).after s acts) := by
  have hinit : Final cardID campaignID s := by
    refine ⟨(count_eq_zero.mpr hopen).trans_le (Nat.zero_le 1), ?_, fun h ↦ absurd h hopen⟩
    intro before ch after heq hends
    refine absurd (mem_ended_of_mem_outputsOf ?_ hends) hopen
    rw [heq]
    exact mem_append_right _ mem_cons_self
  exact (hrun.and_forall hfree).invariant
    (fun _ _ h _ hguard ↦ Final.next h hguard.2 hguard.1) hinit

/-! ## A late report -/

namespace LateReport

/-- One command that expects a response. -/
def ctx : CampaignContext := plainContext [1] 1

def cfg : EngineConfig := plainConfig ctx

def activate : CardEvent := plainActivate (.ofDigit 1) (.ofDigit 3)

def response : CardEvent := plainResponse (.ofDigit 1) (.ofDigit 3)

def delivered : CardEvent := plainReport (.ofDigit 1) (.ofDigit 3) (.ofDigit 6) .delivrd

def start : Engine := .new fun _ ↦ some .running

/-- The card is activated, and the transition stored. -/
def activated : List EngineAction :=
  let acts : List EngineAction := [.plan activate, .handle activate (.plain ctx (.ofDigit 6)) none]
  acts ++ [.flush ((engine cfg).after start acts).stateCh true]

def sent : Engine := (engine cfg).after start activated

/-- A call that reads the latest row of the card. -/
def answers (s : Engine) (msgID : UUID) : Answers :=
  .plain ctx msgID (latestRow s.tables.executionStates (.ofDigit 1, .ofDigit 3))

/-- The response comes before the delivery report, and completes the card. -/
def answered : List EngineAction :=
  [.handle response (answers sent (.ofDigit 7)) (some (.ofDigit 6))]

/-- The end is written before the report comes. -/
def written : List EngineAction :=
  let acts := answered ++ [.flush ((engine cfg).after sent answered).stateCh true]
  acts ++ [.handle delivered (answers ((engine cfg).after sent acts) (.ofDigit 8)) none,
    .handle response (answers ((engine cfg).after sent acts) (.ofDigit 9)) none]

/-- The report and another response come first. -/
def unwritten : List EngineAction :=
  answered ++ [.handle delivered (answers sent (.ofDigit 8)) none,
    .handle response (answers sent (.ofDigit 9)) none]

end LateReport

open LateReport in
/-- The late report and the late response find a completed card. -/
theorem terminal_final_written :
    (engine cfg).Runs start activated ∧
      ((engine cfg).after sent written).ended (.ofDigit 3) = [.ofDigit 1] ∧
      Final (.ofDigit 1) (.ofDigit 3) ((engine cfg).after sent written) := by
  refine ⟨?_, by decide +kernel, ?_⟩
  · unfold Machine.Runs
    decide +kernel
  · exact terminal_final cfg sent (.ofDigit 1) (.ofDigit 3) (by decide +kernel) (by decide +kernel)
      (by decide +kernel)

open LateReport in
/-- The report reads the row of the activation, the card is awaited again, and the second response
completes it a second time. -/
theorem completed_twice :
    (engine cfg).Runs start (activated ++ unwritten) ∧ .ofDigit 1 ∉ sent.ended (.ofDigit 3) ∧
      ((engine cfg).after sent unwritten).emitted.map (fun ch ↦ (ch.status, ch.transitionSeq))
        = [(.inProgress, 1), (.completed, 2), (.completed, 3)] ∧
      ¬ Final (.ofDigit 1) (.ofDigit 3) ((engine cfg).after sent unwritten) := by
  refine ⟨?_, by decide +kernel, by decide +kernel, fun h ↦ ?_⟩
  · unfold Machine.Runs
    decide +kernel
  · exact absurd h.once (by decide +kernel)

end OtaPlatform
