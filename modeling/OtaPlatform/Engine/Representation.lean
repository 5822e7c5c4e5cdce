import OtaPlatform.Controlplane.RetryFailed
import OtaPlatform.Engine.Emissions
import OtaPlatform.Engine.Messages

/-!
# Every open card is represented

A card of a running campaign that has not ended must be somewhere in the pipeline: in a shard, in a
channel, at a timer, at the gateway, or in the cache as a card that is to respond. Otherwise nothing
will ever move it again, and the campaign never ends.

`Represented` lists these places. It is not an invariant by itself: an event in `DLRCh` or `MOCh`
may be about an old message, and a correlation may be one of too few. `Carried` is the stronger
notion that a step of the pipeline passes on, from one place to the next, when the calls get what
they ask for (`Attentive`). Then no card is lost (`represented_of_attentive`).

The pipeline does lose cards otherwise. The worker pools log an error and drop the event, and a
report with a status that `handleDLR` does not list is dropped without an error
(`unlisted_report_loses_card`).
-/

namespace OtaPlatform

open Option Engine List Function

/-! ## Where a card can be -/

/-- The last transition of the card ended its part in the campaign. -/
def Engine.Ended (s : Engine) (cardID campaignID : UUID) : Prop :=
  ∃ row, s.last (cardID, campaignID) = some row ∧ row.status.isTerminal = true

theorem Engine.not_ended_of_status {s : Engine} {cardID campaignID : UUID} {status : CardStatus}
    (h : (s.last (cardID, campaignID)).map ExecutionRow.status = some status)
    (hopen : status.isTerminal = false) : ¬ s.Ended cardID campaignID := by
  rintro ⟨row, hlast, hstatus⟩
  rw [hlast, map_some, some.injEq] at h
  rw [h, hopen] at hstatus
  cases hstatus

namespace Pipeline

/-- Something in the pipeline stands for the card in the campaign. -/
inductive Represented (s : Pipeline) (cardID campaignID : UUID) : Prop
  /-- An item of a pending or publishing shard. -/
  | item {shard : CampaignShard} {ev : CardEvent} (hshard : shard ∈ s.shards.rows)
      (hopen : shard.isOpen = true) (hev : ev ∈ shard.events) (hcard : ev.cardID = cardID)
      (hcampaign : ev.campaignID = some campaignID)
  /-- An event in `ActivateCh`, `DLRCh` or `MOCh`. -/
  | event {type : EventType} {ev : CardEvent} (hev : ev ∈ s.channel type)
      (hcard : ev.cardID = cardID) (hcampaign : ev.campaignID = some campaignID)
  | retry {ev : CardEvent} (hev : ev ∈ s.engine.delayed) (hcard : ev.cardID = cardID)
      (hcampaign : ev.campaignID = some campaignID)
  | message {msg : SendSMSMessage} (hmsg : msg ∈ s.sendSMSCh) (hcard : msg.cardID = cardID)
      (hcampaign : msg.campaignID = campaignID)
  /-- A submitted message that the gateway has a correlation for. -/
  | submitted {id : String} {entry : CorrelationEntry}
      (hentry : s.gateway.correlations id = some entry) (hcard : entry.mapping.cardID = cardID)
      (hcampaign : entry.mapping.campaignID = campaignID)
  | awaited {st : CardState} (hst : s.engine.process.cardState cardID = some st)
      (hmo : st.AwaitsMO campaignID)

/-- Something in the pipeline will move the card on. -/
inductive Carried (s : Pipeline) (cardID campaignID : UUID) : Prop
  | item {shard : CampaignShard} {ev : CardEvent} (hshard : shard ∈ s.shards.rows)
      (hopen : shard.isOpen = true) (hev : ev ∈ shard.events)
      (hactivates : ev.Activates cardID campaignID)
  | activation {ev : CardEvent} (hev : ev ∈ s.engine.activateCh)
      (hactivates : ev.Activates cardID campaignID)
  | retry {ev : CardEvent} (hev : ev ∈ s.engine.delayed)
      (hactivates : ev.Activates cardID campaignID)
  | message {msg : SendSMSMessage} (hmsg : msg ∈ s.sendSMSCh)
      (hcarries : msg.Carries cardID campaignID)
  | submitted {msgID : UUID} (h : s.gateway.Outstanding msgID cardID campaignID)
  | report {ev : CardEvent} (hev : ev ∈ s.dlrCh) (hreports : ev.Reports cardID campaignID)
  | awaited {st : CardState} (hst : s.engine.process.cardState cardID = some st)
      (hmo : st.AwaitsMO campaignID)

section Carried

variable {s s' : Pipeline} {cardID campaignID : UUID}

theorem Carried.represented (h : s.Carried cardID campaignID) :
    s.Represented cardID campaignID := by
  cases h with
  | item hshard hopen hev hactivates =>
    exact .item hshard hopen hev hactivates.cardID_eq hactivates.campaignID_eq
  | @activation ev hev hactivates =>
    have hchannel : ev ∈ s.channel .activate := hev
    exact .event hchannel hactivates.cardID_eq hactivates.campaignID_eq
  | retry hev hactivates => exact .retry hev hactivates.cardID_eq hactivates.campaignID_eq
  | message hmsg hcarries => exact .message hmsg hcarries.cardID_eq hcarries.campaignID_eq
  | submitted h =>
    obtain ⟨ids, h⟩ := h
    obtain ⟨id, hid⟩ := h.nonempty
    obtain ⟨entry, hentry, hfor⟩ := h.entries id hid
    exact .submitted hentry hfor.cardID_eq hfor.campaignID_eq
  | @report ev hev hreports =>
    have hchannel : ev ∈ s.channel .dlrReceived := hev
    exact .event hchannel hreports.cardID_eq hreports.campaignID_eq
  | awaited hst hmo => exact .awaited hst hmo

theorem Carried.mono (h : s.Carried cardID campaignID)
    (hshards : ∀ shard ∈ s.shards.rows, shard ∈ s'.shards.rows)
    (hactivate : ∀ ev ∈ s.engine.activateCh, ev ∈ s'.engine.activateCh)
    (hdelayed : ∀ ev ∈ s.engine.delayed, ev ∈ s'.engine.delayed)
    (hsms : ∀ msg ∈ s.sendSMSCh, msg ∈ s'.sendSMSCh)
    (hgateway : ∀ msgID, s.gateway.Outstanding msgID cardID campaignID →
      s'.gateway.Outstanding msgID cardID campaignID) (hdlr : ∀ ev ∈ s.dlrCh, ev ∈ s'.dlrCh)
    (hstates : ∀ st, s.engine.process.cardState cardID = some st → st.AwaitsMO campaignID →
      s'.engine.process.cardState cardID = some st) : s'.Carried cardID campaignID := by
  cases h with
  | item hshard hopen hev hactivates => exact .item (hshards _ hshard) hopen hev hactivates
  | activation hev hactivates => exact .activation (hactivate _ hev) hactivates
  | retry hev hactivates => exact .retry (hdelayed _ hev) hactivates
  | message hmsg hcarries => exact .message (hsms _ hmsg) hcarries
  | submitted h => exact .submitted (hgateway _ h)
  | report hev hreports => exact .report (hdlr _ hev) hreports
  | awaited hst hmo => exact .awaited (hstates _ hst hmo) hmo

end Carried

/-- The card has ended, or something will move it on. -/
def Goes (s : Pipeline) (cardID campaignID : UUID) : Prop :=
  s.engine.Ended cardID campaignID ∨ s.Carried cardID campaignID

/-! ## Handler calls -/

/-- A handler call gets what it needs, as far as the campaign is concerned. An activation of the
campaign is answered; one of another campaign does not find a card that is to respond. A report of
the campaign comes late, or it is answered and finds the card waiting. A response to a card that is
to respond is for the campaign, and the writer works. -/
def Attends (cfg : EngineConfig) (campaignID : UUID) (s : Engine) (ev : CardEvent)
    (ans : Answers) : Prop :=
  match ev.type with
  | .activate =>
    (ev.campaignID = some campaignID →
      ActivateAnswered s.process cfg.lib cfg.cryptoProvider ans ev campaignID) ∧
    (ev.campaignID ≠ some campaignID →
      ∀ st, s.process.cardState ev.cardID = some st → ¬ st.AwaitsMO campaignID)
  | .dlrReceived => ev.campaignID = some campaignID →
      s.Ended ev.cardID campaignID ∨
        (DLRAnswered ans ev ∧ ∃ st, s.process.found ev.cardID ans.row = some st ∧
          st.campaignID = campaignID ∧ (st.awaitsReport ∨ st.status = .awaitingMo))
  | .moReceived => ∀ st, s.process.cardState ev.cardID = some st → st.AwaitsMO campaignID →
      ev.campaignFor st = campaignID ∧ ans.writeError = none

section Handle

variable {cfg : PipelineConfig} {s : Pipeline} {ev : CardEvent} {ans : Answers}
  {answered : Option UUID} {after : Option CardState} {outs : List Output}
  {counters : CounterStore} {cardID campaignID : UUID}

variable (h : Handled cfg s ev ans answered after outs counters)

include h

theorem Handled.goes (hgoes : GoesOn ev.cardID campaignID after outs) :
    (s.handle cfg ev ans answered).Goes ev.cardID campaignID := by
  cases hgoes with
  | publishes hev =>
    refine Or.inr (.activation ?_ hev)
    rw [h.handles.activateCh]
    exact mem_append_right _ mem_cons_self
  | waits hev =>
    refine Or.inr (.retry ?_ hev)
    rw [h.handles.delayed]
    exact mem_append_right _ mem_cons_self
  | sends hmsg =>
    refine Or.inr (.message ?_ hmsg)
    rw [h.sendSMSCh]
    exact mem_append_right _ mem_cons_self
  | @awaits st hst =>
    have hcached : (s.handle cfg ev ans answered).engine.process.cardState ev.cardID
        = some st := by
      rw [h.handles.cardState, update_self]
    exact Or.inr (.awaited hcached hst)
  | @ends ch hch =>
    refine Or.inl ⟨ch.toRow, ?_, hch.isTerminal⟩
    have hpair : (ev.cardID, campaignID) = ch.toRow.pair := by
      rw [CardStateChange.pair_toRow, CardStateChange.pair, hch.cardID_eq, hch.campaignID_eq]
    rw [last, h.handles.transitions_eq, hpair]
    exact Ledger.lastOf_append_singleton_self _ _

/-- Only an activation takes a card that has ended back into the campaign. -/
theorem Handled.ended
    (hended : s.engine.Ended cardID campaignID) (hev : ¬ ev.Activates cardID campaignID) :
    (s.handle cfg ev ans answered).engine.Ended cardID campaignID := by
  have hterminal : ∀ ch ∈ changesOf outs, ch.pair = (cardID, campaignID) →
      ch.status.isTerminal = true := by
    intro ch hch hpair
    obtain ⟨hcard, hcampaign⟩ := Prod.mk.inj hpair
    have heffect := h.outcome.effect
    generalize changesOf outs = chs at hch heffect
    cases heffect with
    | keeps | reads | awaits | unwritten | drops => cases hch
    | begins htype hmoves hfrom hchs =>
      rcases hchs with rfl | rfl
      · obtain rfl := mem_singleton.mp hch
        refine absurd ⟨htype, hcard, ?_⟩ hev
        rw [← hcampaign]
        exact campaignID_of_moves htype hmoves
      · cases hch
    | ends hfound hst hmoves hrefuses hstatus hfinish =>
      obtain rfl := mem_singleton.mp hch
      rw [hfinish.status_eq]
      rcases hstatus with rfl | rfl <;> rfl
  obtain ⟨row, hlast, hstatus⟩ := hended
  rw [Ended, last, h.handles.transitions_eq, Ledger.lastOf_append]
  cases hnew : Ledger.lastOf ExecutionRow.pair ((changesOf outs).map CardStateChange.toRow)
      (cardID, campaignID) with
  | none => exact ⟨row, hlast, hstatus⟩
  | some row' =>
    obtain ⟨hmem, hpair⟩ := Ledger.mem_of_lastOf hnew
    obtain ⟨ch, hch, rfl⟩ := mem_map.mp hmem
    exact ⟨ch.toRow, rfl, hterminal ch hch hpair⟩

variable (hattends : Attends cfg.engine campaignID s.engine ev ans)

include hattends

theorem Handled.goes_of_activates (hev : ev.Activates cardID campaignID) :
    (s.handle cfg ev ans answered).Goes cardID campaignID := by
  obtain ⟨htype, rfl, hcampaign⟩ := hev
  rw [Attends, htype] at hattends
  obtain ⟨after', outs', hgoes, hacts⟩ := handleActivate_goesOn (hattends.1 hcampaign)
  rw [← handleCardEvent_activate _ _ _ htype hcampaign] at hacts
  obtain ⟨rfl, rfl⟩ := h.acts.unique hacts
  exact h.goes hgoes

omit hattends in
theorem Handled.cardState_of_report (htype : ev.type = .dlrReceived) {st : CardState}
    (hfound : s.engine.process.found ev.cardID ans.row = some st) (hst : st.status = .awaitingMo)
    (hcached : ev.campaignID = none → s.engine.process.cardState ev.cardID = some st) :
    (s.handle cfg ev ans answered).engine.process.cardState ev.cardID = some st := by
  have hmoves : ¬ ev.Moves st := by
    rw [CardEvent.Moves, CardState.awaitsReport, htype, hst]
    simp
  have hafter : after = some st := by
    have hout := h.outcome
    generalize counters = counters' at hout
    cases hout with
    | activated htype' => cases htype.symm.trans htype'
    | responded htype' => cases htype.symm.trans htype'
    | refused hnone => exact hcached hnone
    | reported htype' hcampaign' hdlr =>
      have hreport := hdlr.report htype hcampaign'
      rw [hfound] at hreport
      cases hreport with
      | quiet => rfl
      | awaits hst' => exact absurd hst' hmoves
      | publishes hst' => exact absurd hst' hmoves
      | finishes hst' => exact absurd hst' hmoves
  rw [h.handles.cardState, hafter, update_self]

/-- A report of the campaign that finds its card, or comes after the end. -/
theorem Handled.goes_of_reports (hev : ev.Reports cardID campaignID) :
    (s.handle cfg ev ans answered).Goes cardID campaignID := by
  obtain ⟨htype, rfl, hcampaign⟩ := hev
  rw [Attends, htype] at hattends
  rcases hattends hcampaign with hended | ⟨hanswered, st, hfound, hst, hlive | hmo⟩
  · refine Or.inl (h.ended hended fun hactivates ↦ ?_)
    cases htype.symm.trans hactivates.type_eq
  · obtain ⟨after', outs', hgoes, hacts⟩ := handleDLR_goesOn hanswered hfound hst hlive
    rw [← handleCardEvent_dlr cfg.engine.lib cfg.engine.cryptoProvider _ htype hcampaign] at hacts
    obtain ⟨rfl, rfl⟩ := h.acts.unique hacts
    exact h.goes hgoes
  · refine Or.inr (.awaited (h.cardState_of_report htype hfound hmo fun hnone ↦ ?_) ⟨hst, hmo⟩)
    cases hcampaign.symm.trans hnone

theorem Handled.goes_of_awaited {st : CardState} (hst : s.engine.process.cardState cardID = some st)
    (hmo : st.AwaitsMO campaignID) : (s.handle cfg ev ans answered).Goes cardID campaignID := by
  by_cases hcard : cardID = ev.cardID
  · subst hcard
    have hfound := Process.found_of_cardState hst ans.row
    cases htype : ev.type with
    | activate =>
      by_cases hcampaign : ev.campaignID = some campaignID
      · exact h.goes_of_activates hattends ⟨htype, rfl, hcampaign⟩
      · rw [Attends, htype] at hattends
        exact absurd hmo (hattends.2 hcampaign st hst)
    | dlrReceived =>
      exact Or.inr (.awaited (h.cardState_of_report htype hfound hmo.status_eq fun _ ↦ hst) hmo)
    | moReceived =>
      rw [Attends, htype] at hattends
      obtain ⟨hcampaign, hwrite⟩ := hattends st hst hmo
      obtain ⟨after', outs', hsettles, hacts⟩ := handleMO_settles hwrite cfg.engine.lib hfound
      rw [← handleCardEvent_mo cfg.engine.lib cfg.engine.cryptoProvider _ htype] at hacts
      obtain ⟨rfl, rfl⟩ := h.acts.unique hacts
      cases hsettles with
      | keeps =>
        have hcached : (s.handle cfg ev ans answered).engine.process.cardState ev.cardID
            = some st := by
          rw [h.handles.cardState, update_self]
        exact Or.inr (.awaited hcached hmo)
      | ends hch =>
        rw [hcampaign] at hch
        exact h.goes (.ends hch)
  · refine Or.inr (.awaited ?_ hmo)
    rw [h.handles.cardState, update_of_ne hcard, hst]

omit hattends

omit h

/-- **A handler call passes every card of the campaign on.** -/
theorem Goes.handle (h : s.Goes cardID campaignID)
    (hattends : Attends cfg.engine campaignID s.engine ev ans) :
    (s.handle cfg ev ans answered).Goes cardID campaignID := by
  obtain ⟨after, outs, counters, hhandled⟩ := exists_handled cfg s ev ans answered
  have hactivates : ev.Activates cardID campaignID →
      (s.handle cfg ev ans answered).Goes cardID campaignID := hhandled.goes_of_activates hattends
  rcases h with hended | hcarried
  · by_cases hev : ev.Activates cardID campaignID
    · exact hactivates hev
    · exact Or.inl (hhandled.ended hended hev)
  · cases hcarried with
    | item hshard hopen hev hactivates => exact Or.inr (.item hshard hopen hev hactivates)
    | @activation ev' hev hactivates' =>
      by_cases heq : ev' = ev
      · exact hactivates (heq ▸ hactivates')
      · refine Or.inr (.activation ?_ hactivates')
        rw [hhandled.handles.activateCh]
        refine mem_append_left _ ?_
        split_ifs
        · exact (mem_erase_of_ne heq).mpr hev
        · exact hev
    | retry hev hactivates =>
      refine Or.inr (.retry ?_ hactivates)
      rw [hhandled.handles.delayed]
      exact mem_append_left _ hev
    | message hmsg hcarries =>
      exact Or.inr (.message (mem_append_left _ hmsg) hcarries)
    | submitted h => exact Or.inr (.submitted h)
    | @report ev' hev hreports =>
      by_cases heq : ev' = ev
      · exact hhandled.goes_of_reports hattends (heq ▸ hreports)
      · refine Or.inr (.report ?_ hreports)
        change ev' ∈ if ev.type = .dlrReceived then s.dlrCh.erase ev else s.dlrCh
        split_ifs
        · exact (mem_erase_of_ne heq).mpr hev
        · exact hev
    | awaited hst hmo => exact hhandled.goes_of_awaited hattends hst hmo

end Handle

/-! ## The other steps -/

section Steps

variable {cfg : PipelineConfig} {s s' : Pipeline} {cardID campaignID : UUID}

private theorem ended_of_trace_eq (htrace : s'.engine.trace = s.engine.trace)
    (h : s.engine.Ended cardID campaignID) : s'.engine.Ended cardID campaignID := by
  rw [Ended, last, transitions, htrace]
  exact h

variable (h : s.Goes cardID campaignID)

include h

theorem Goes.withDatabase {db : Database} {other : UUID} (hdb : s.database.Concerns other db)
    (hne : campaignID ≠ other) : (s.withDatabase db).Goes cardID campaignID := by
  rcases h with ⟨row, hlast, hstatus⟩ | hcarried
  · obtain ⟨added, hrows, hadded⟩ := hdb.rows
    refine Or.inl ⟨row, ?_, hstatus⟩
    have htransitions : (s.withDatabase db).engine.transitions = s.engine.transitions ++ added :=
      transitions_control s.engine hrows
    rw [last, htransitions, Ledger.lastOf_append_of_notMem]
    · exact hlast
    · intro row' hrow' hpair
      exact hne ((Prod.mk.inj hpair).2.symm.trans (hadded row' hrow'))
  · obtain ⟨added, hshards⟩ := hdb.shards
    refine Or.inr (hcarried.mono (fun shard hshard ↦ ?_) (fun _ ↦ id) (fun _ ↦ id) (fun _ ↦ id)
      (fun _ ↦ id) (fun _ ↦ id) fun _ hst _ ↦ hst)
    have hrows : (s.withDatabase db).shards.rows = s.shards.rows ++ added := hshards
    rw [hrows]
    exact mem_append_left _ hshard

theorem Goes.publish {ans : PlannerAnswers}
    (hclaim : IsClaim s.shards cfg.platform.planner.batchSize ans.claimed) :
    (s.publish cfg ans).Goes cardID campaignID := by
  have hactivate : ∀ ev ∈ s.engine.activateCh, ev ∈ (s.publish cfg ans).engine.activateCh :=
    fun _ ↦ mem_append_left _
  rcases h with hended | hcarried
  · exact Or.inl hended
  · right
    cases hcarried with
    | @item shard ev hshard hopen hev hactivates =>
      rcases publishBatch_keeps s.engine.campaignStatus hclaim hshard hopen with
        ⟨shard', hshard', hopen', hitems⟩ | hout
      · refine .item hshard' hopen' ?_ hactivates
        rw [CampaignShard.events, hitems]
        exact hev
      · exact .activation (mem_append_right _ (hout ev hev)) hactivates
    | activation hev hactivates => exact .activation (hactivate _ hev) hactivates
    | retry hev hactivates => exact .retry hev hactivates
    | message hmsg hcarries => exact .message hmsg hcarries
    | submitted h => exact .submitted h
    | report hev hreports => exact .report hev hreports
    | awaited hst hmo => exact .awaited hst hmo

theorem Goes.release {ev : CardEvent} {published : Bool}
    (hpublished : ev.campaignID = some campaignID → published = true) :
    (s.release ev published).Goes cardID campaignID := by
  rcases h with hended | hcarried
  · exact Or.inl hended
  · right
    cases hcarried with
    | item hshard hopen hev hactivates => exact .item hshard hopen hev hactivates
    | activation hev hactivates => exact .activation (mem_append_left _ hev) hactivates
    | @retry ev' hev hactivates =>
      by_cases heq : ev' = ev
      · subst heq
        refine .activation (mem_append_right _ ?_) hactivates
        rw [hpublished hactivates.campaignID_eq]
        exact mem_cons_self
      · exact .retry ((mem_erase_of_ne heq).mpr hev) hactivates
    | message hmsg hcarries => exact .message hmsg hcarries
    | submitted h => exact .submitted h
    | report hev hreports => exact .report hev hreports
    | awaited hst hmo => exact .awaited hst hmo

omit h

variable (cfg) in
theorem Goes.submit (h : s.Goes cardID campaignID) (htracked : s.Tracked) {msg : SendSMSMessage}
    (hmsg : msg ∈ s.sendSMSCh) {results : ℕ → SubmitResult}
    (hfresh : s.gateway.FreshIDs msg results) (eventID : UUID) (now : ℤ) :
    (s.next cfg (.submit msg results eventID now)).Goes cardID campaignID := by
  have hwaiting : msg.msgID ∈ s.waitingIDs := mem_map_of_mem hmsg
  rcases h with hended | hcarried
  · exact Or.inl hended
  · right
    cases hcarried with
    | item hshard hopen hev hactivates => exact .item hshard hopen hev hactivates
    | activation hev hactivates => exact .activation hev hactivates
    | retry hev hactivates => exact .retry hev hactivates
    | @message msg' hmsg' hcarries =>
      by_cases heq : msg' = msg
      · subst heq
        have hnew : s.gateway.multipart msg'.msgID = none := by
          by_contra hparts
          exact (htracked.counted _ hparts).1 hwaiting
        rw [← hcarries.cardID_eq, ← hcarries.campaignID_eq]
        rcases Gateway.handleSendSMS_cases hfresh hcarries.parts_ne_nil hnew with
          ⟨ev, hev, hreports⟩ | hout
        · refine .report (mem_append_right _ ?_) hreports
          rw [hev]
          exact mem_cons_self
        · exact .submitted hout
      · exact .message ((mem_erase_of_ne heq).mpr hmsg') hcarries
    | @submitted msgID h =>
      -- the message that is taken is another one
      refine .submitted (h.handleSendSMS hfresh ?_)
      rintro rfl
      obtain ⟨ids, hids⟩ := h
      obtain ⟨id, hid⟩ := hids.nonempty
      obtain ⟨entry, hentry, hfor⟩ := hids.entries id hid
      exact (htracked.correlated id entry hentry).1 (hfor.msgID_eq ▸ hwaiting)
    | report hev hreports => exact .report (mem_append_left _ hev) hreports
    | awaited hst hmo => exact .awaited hst hmo

variable (cfg) in
theorem Goes.receipt (h : s.Goes cardID campaignID) (htracked : s.Tracked)
    {receipt : Option DLRReceipt} {now : ℤ}
    (hexpires : ∀ r entry, receipt = some r → s.gateway.correlations r.messageID = some entry →
      entry.mapping.campaignID = campaignID → now < entry.expiresAt) (eventID : UUID) :
    (s.next cfg (.receipt receipt eventID now)).Goes cardID campaignID := by
  rcases h with hended | hcarried
  · exact Or.inl hended
  · right
    cases hcarried with
    | item hshard hopen hev hactivates => exact .item hshard hopen hev hactivates
    | activation hev hactivates => exact .activation hev hactivates
    | retry hev hactivates => exact .retry hev hactivates
    | message hmsg hcarries => exact .message hmsg hcarries
    | submitted h =>
      rcases Gateway.handleDLR_cases h (htracked.isFor h) hexpires with ⟨ev, hev, hreports⟩ | hout
      · refine .report (mem_append_right _ ?_) hreports
        rw [hev]
        exact mem_cons_self
      · exact .submitted hout
    | report hev hreports => exact .report (mem_append_left _ hev) hreports
    | awaited hst hmo => exact .awaited hst hmo

end Steps

/-! ## Runs -/

/-- **The condition under which no card of the campaign is lost.** The campaign is not resumed, and
its failed cards are not put back while it runs. A retry that is due can be published. Handler calls
get what they need (`Attends`). The SMSC gives new identifiers, and receipts come before their
correlations expire. -/
def Attentive (cfg : PipelineConfig) (campaignID : UUID) (s : Pipeline) : PipelineAction → Prop
  | .request (.resume c _) => c ≠ campaignID
  | .request (.retryFailed c _) => c = campaignID →
      s.engine.campaignStatus campaignID ≠ some .running
  | .release ev published => ev.campaignID = some campaignID → published = true
  | .handle ev ans _ => Attends cfg.engine campaignID s.engine ev ans
  | .submit msg results _ _ => s.gateway.FreshIDs msg results
  | .receipt receipt _ now => ∀ r entry, receipt = some r →
      s.gateway.correlations r.messageID = some entry →
      entry.mapping.campaignID = campaignID → now < entry.expiresAt
  | .cleanup now => ∀ id entry, s.gateway.correlations id = some entry →
      entry.mapping.campaignID = campaignID → now ≤ entry.expiresAt
  | _ => True

structure NoneLost (campaignID : UUID) (s : Pipeline) : Prop where
  tracked : s.Tracked
  /-- While the campaign runs, its cards have ended or go on. -/
  goes : s.engine.campaignStatus campaignID = some .running →
    ∀ cardID ∈ (s.targets campaignID).cards, s.Goes cardID campaignID

section Requests

variable {cfg : PipelineConfig} {s s' : Pipeline} {campaignID : UUID}

theorem withDatabase_database (s : Pipeline) : s.withDatabase s.database = s := by
  have hmoved : movedBy s.engine.tables s.engine.tables = [] := by
    rw [movedBy, drop_length, map_nil]
  simp [withDatabase, database, Engine.control, hmoved]

theorem Tracked.withDatabase (h : s.Tracked) (db : Database) : (s.withDatabase db).Tracked := by
  refine h.of_eq ?_ rfl rfl
  have hpublished : (s.withDatabase db).engine.published = s.engine.published :=
    congrArg smsOf (outputsOf_control s.engine db.tables)
  rw [messages, hpublished, messages]

theorem goes_startCampaign {gen : Generated} {first : CampaignCommand} {shards : ShardTable}
    {cardID : UUID}
    (hinsert : s.shards.insertAll (startShards cfg.platform.control gen s.database campaignID
      first.sequence) = .ok shards) (hcard : cardID ∈ (s.targets campaignID).cards)
    (hshards : s'.shards = shards) : s'.Goes cardID campaignID := by
  have hev : gen.activation campaignID first.sequence 0 cardID ∈ (startShards
      cfg.platform.control gen s.database campaignID first.sequence).flatMap
        CampaignShard.events := by
    rw [events_startShards]
    exact mem_map_of_mem hcard
  obtain ⟨shard, hshard, hev⟩ := mem_flatMap.mp hev
  refine Or.inr (@Carried.item _ _ _ shard _ ?_ ?_ hev ⟨rfl, rfl, rfl⟩)
  · rw [hshards, rows_insertAll hinsert]
    exact mem_append_right _ hshard
  · rw [CampaignShard.isOpen, (mem_generated hshard).2.1]
    rfl

theorem NoneLost.request (h : NoneLost campaignID s) {a : PlatformAction}
    (ha : a.campaignID = some campaignID) (hattentive : Attentive cfg campaignID s (.request a)) :
    NoneLost campaignID (s.withDatabase (s.database.next cfg.platform a)) := by
  -- the request is refused, or the campaign does not run afterwards
  have hsame : ∀ db, db = s.database → NoneLost campaignID (s.withDatabase db) := by
    rintro db rfl
    rw [withDatabase_database]
    exact h
  have hstopped : ∀ db : Database, db.campaigns campaignID ≠ some .running →
      NoneLost campaignID (s.withDatabase db) := fun db hdb ↦
    ⟨h.tracked.withDatabase db, fun hrunning ↦ absurd hrunning hdb⟩
  have hset : ∀ (db : Database) (status : CampaignStatus), status ≠ .running →
      (db.setStatus campaignID status).campaigns campaignID ≠ some .running := by
    intro db status hne hrunning
    have hstatus : (db.setStatus campaignID status).campaigns campaignID = some status :=
      update_self _ _ _
    exact hne (some.inj (hstatus.symm.trans hrunning))
  cases a with
  | create c commands targets =>
    obtain rfl := some.inj ha
    exact hstopped _ (hset _ .pending (by decide))
  | start c gen =>
    obtain rfl := some.inj ha
    change NoneLost c (s.withDatabase (startCampaign cfg.platform.control gen s.database c).2)
    have hout := startCampaign_outcome cfg.platform.control gen s.database c
    generalize (startCampaign cfg.platform.control gen s.database c).2 = db at hout ⊢
    cases hout with
    | refused => exact hsame _ rfl
    | failed hpending =>
      refine hstopped _ fun hrunning ↦ ?_
      cases hpending.symm.trans hrunning
    | started hpending hcommands hinsert =>
      refine ⟨h.tracked.withDatabase _, fun _ cardID hcard ↦ ?_⟩
      exact goes_startCampaign hinsert hcard rfl
  | pause c =>
    obtain rfl := some.inj ha
    rcases pauseCampaign_cases s.database c with heq | heq
    · exact hsame _ heq
    · refine hstopped _ ?_
      change (pauseCampaign s.database c).2.campaigns c ≠ some .running
      rw [heq]
      exact hset _ .paused (by decide)
  | resume c gen => exact absurd (some.inj ha) hattentive
  | abort c gen =>
    obtain rfl := some.inj ha
    rcases abortCampaignRequest_cases gen s.database c with heq | heq
    · exact hsame _ heq
    · refine hstopped _ ?_
      change (abortCampaignRequest gen s.database c).2.campaigns c ≠ some .running
      rw [heq]
      exact hset _ .aborted (by decide)
  | retryFailed c gen =>
    obtain rfl := some.inj ha
    have hnot : s.database.campaigns c ≠ some .running := hattentive rfl
    refine hstopped _ ?_
    change (retryFailedCards gen s.database c).2.campaigns c ≠ some .running
    rcases retryFailedCards_cases gen s.database c with heq | ⟨first, campaigns, hcampaigns, heq⟩
    · rw [heq]
      exact hnot
    · rw [heq]
      rcases hcampaigns with rfl | rfl
      · exact hnot
      · exact hset s.database .pending (by decide)
  | check c =>
    obtain rfl := some.inj ha
    rcases checkCompletion_cases s.database c with heq | ⟨status, hne, heq⟩
    · exact hsame _ heq
    · refine hstopped _ ?_
      change (checkCompletion s.database c).campaigns c ≠ some .running
      rw [heq]
      exact hset _ status hne
  | flush _ _ | publish _ | recover _ _ _ => cases ha

end Requests

section Runs

variable {cfg : PipelineConfig} {s s' : Pipeline} {campaignID : UUID}

theorem NoneLost.of_goes (h : NoneLost campaignID s) (htracked : s'.Tracked)
    (hstatus : s'.engine.campaignStatus = s.engine.campaignStatus)
    (htargets : s'.targets = s.targets)
    (hgoes : ∀ cardID, s.Goes cardID campaignID → s'.Goes cardID campaignID) :
    NoneLost campaignID s' where
  tracked := htracked
  goes hrunning cardID hcard := by
    rw [hstatus] at hrunning
    rw [htargets] at hcard
    exact hgoes cardID (h.goes hrunning cardID hcard)

/-- **One step loses no card.** -/
theorem NoneLost.next (h : NoneLost campaignID s) {a : PipelineAction}
    (henabled : (pipeline cfg).Enabled s a) (hattentive : Attentive cfg campaignID s a) :
    NoneLost campaignID ((pipeline cfg).next s a) := by
  cases a with
  | request a =>
    obtain ⟨c, ha⟩ := PlatformAction.exists_campaignID henabled.1
    by_cases hc : c = campaignID
    · subst hc
      exact h.request ha hattentive
    · have hdb := concerns_next cfg.platform s.database ha
      refine ⟨h.tracked.withDatabase _, fun hrunning cardID hcard ↦ ?_⟩
      refine Goes.withDatabase (h.goes ?_ cardID ?_) hdb (Ne.symm hc)
      · exact (hdb.campaigns campaignID (Ne.symm hc)).symm.trans hrunning
      · have htargets : _ = s.targets campaignID := hdb.targets campaignID (Ne.symm hc)
        rw [← htargets]
        exact hcard
  | publish ans =>
    exact h.of_goes (h.tracked.of_eq rfl rfl rfl) rfl rfl fun cardID hgoes ↦ hgoes.publish henabled
  | preloadShard c cardIDs keys rows =>
    refine h.of_goes (h.tracked.of_eq ?_ rfl rfl) ?_ rfl fun cardID hgoes ↦ ?_
    · cases keys <;> rfl
    · cases keys <;> rfl
    · cases keys with
      | none => exact hgoes
      | some keys =>
        refine hgoes.imp (ended_of_trace_eq rfl) fun hcarried ↦ ?_
        exact hcarried.mono (fun _ ↦ id) (fun _ ↦ id) (fun _ ↦ id) (fun _ ↦ id) (fun _ ↦ id)
          (fun _ ↦ id) fun _ hst _ ↦ hst
  | release ev published =>
    exact h.of_goes (h.tracked.of_eq rfl rfl rfl) rfl rfl fun cardID hgoes ↦
      hgoes.release hattentive
  | handle ev ans answered =>
    exact h.of_goes (h.tracked.handle henabled.2 answered) rfl rfl fun cardID hgoes ↦
      hgoes.handle hattentive
  | submit msg results eventID now =>
    exact h.of_goes (h.tracked.submit cfg henabled results eventID now) rfl rfl fun cardID hgoes ↦
      hgoes.submit cfg h.tracked henabled hattentive eventID now
  | receipt receipt eventID now =>
    exact h.of_goes (h.tracked.receipt cfg receipt eventID now) rfl rfl fun cardID hgoes ↦
      hgoes.receipt cfg h.tracked hattentive eventID
  | incoming resolved row sourceAddr payload eventID now =>
    refine h.of_goes (h.tracked.of_eq rfl rfl rfl) rfl rfl fun cardID hgoes ↦
      hgoes.imp (ended_of_trace_eq rfl) fun hcarried ↦ ?_
    exact hcarried.mono (fun _ ↦ id) (fun _ ↦ id) (fun _ ↦ id) (fun _ ↦ id) (fun _ ↦ id)
      (fun _ ↦ id) fun _ hst _ ↦ Gateway.cardState_handleMO hst _ _ _ _ _ _
  | cleanup now =>
    refine h.of_goes (h.tracked.cleanup cfg now) rfl rfl fun cardID hgoes ↦
      hgoes.imp (ended_of_trace_eq rfl) fun hcarried ↦ ?_
    exact hcarried.mono (fun _ ↦ id) (fun _ ↦ id) (fun _ ↦ id) (fun _ ↦ id)
      (fun _ hout ↦ hout.cleanupCorrelations hattentive) (fun _ ↦ id) fun _ hst _ ↦ hst
  | flush batch copyWorks =>
    refine h.of_goes (h.tracked.of_eq rfl rfl rfl) rfl rfl fun cardID hgoes ↦
      hgoes.imp (ended_of_trace_eq rfl) fun hcarried ↦ ?_
    exact hcarried.mono (fun _ ↦ id) (fun _ ↦ id) (fun _ ↦ id) (fun _ ↦ id) (fun _ ↦ id)
      (fun _ ↦ id) fun _ hst _ ↦ hst

theorem noneLost_new (campaignID : UUID) : NoneLost campaignID new where
  tracked := ⟨nodup_nil, forall_mem_nil _, nodup_nil,
    fun _ _ h ↦ (some_ne_none _ h.symm).elim, fun _ h ↦ absurd rfl h⟩
  goes h := (some_ne_none _ h.symm).elim

end Runs

end Pipeline

/-- **No card is lost.** In a run all of whose steps are attentive for the campaign, every target
card of the campaign that has not ended is represented in the pipeline while the campaign runs. -/
theorem represented_of_attentive (cfg : PipelineConfig) (campaignID : UUID)
    (acts : List PipelineAction)
    (h : (pipeline cfg).RunsUnder (Pipeline.Attentive cfg campaignID) Pipeline.new acts)
    (hrunning : ((pipeline cfg).after Pipeline.new acts).engine.campaignStatus campaignID
      = some .running) (cardID : UUID)
    (hcard : cardID ∈ (((pipeline cfg).after Pipeline.new acts).targets campaignID).cards)
    (hopen : ¬ ((pipeline cfg).after Pipeline.new acts).engine.Ended cardID campaignID) :
    ((pipeline cfg).after Pipeline.new acts).Represented cardID campaignID := by
  have hinv : Pipeline.NoneLost campaignID ((pipeline cfg).after Pipeline.new acts) :=
    h.invariant (fun _ _ hs henabled hattentive ↦ hs.next henabled hattentive)
      (Pipeline.noneLost_new campaignID)
  exact ((hinv.goes hrunning cardID hcard).resolve_left hopen).represented

/-! ## A report with a status that is not listed -/

namespace UnlistedReport

def cfg : PipelineConfig := ⟨plainConfig (plainContext [1] 3), smallPlatform 2 (by decide)⟩

def campaign : UUID := .ofDigit 1

def card : UUID := .ofDigit 2

/-- A campaign of one card is created, started and published. -/
def published : List PipelineAction :=
  let create := .request (.create campaign (plainContext [1] 3).commands singleTarget)
  let start := .request (.start campaign plainGenerated)
  [create, start,
    .publish { claimed := ((pipeline cfg).after .new [create, start]).shards.rows }]

/-- What the calls are answered: nothing fails, and the card has the row it was started with. -/
def answers (msgID : UUID) : Answers :=
  .plain (plainContext [1] 3) msgID (some (initialRow campaign 1 0 card))

def activated : List PipelineAction :=
  published ++ [.handle (plainGenerated.activation campaign 1 0 card) (answers (.ofDigit 5)) none]

/-- The message is submitted, and a receipt says that it is on its way. -/
def reported : List PipelineAction :=
  activated ++
    (((pipeline cfg).after .new activated).sendSMSCh.map fun msg ↦
      .submit msg (fun _ ↦ .accepted "m") (.ofDigit 6) 0) ++
    [.receipt (some ⟨"m", .acceptd, ""⟩) (.ofDigit 7) 1]

def handled : List PipelineAction :=
  reported ++ (((pipeline cfg).after .new reported).dlrCh.map fun ev ↦
    .handle ev (answers (.ofDigit 8)) none)

end UnlistedReport

open UnlistedReport in
/-- The card that was activated is represented by its message. -/
theorem represented_of_attentive_activated :
    ((pipeline cfg).after .new activated).Represented card campaign := by
  refine represented_of_attentive cfg campaign activated ?_ (by decide +kernel) card
    (by decide +kernel) ?_
  · have hpublished : (pipeline cfg).RunsUnder (Pipeline.Attentive cfg campaign) .new published :=
      ⟨⟨by decide +kernel, trivial⟩, ⟨by decide +kernel, trivial⟩, ⟨by decide +kernel, trivial⟩,
        trivial⟩
    refine Machine.runsUnder_append.mpr ⟨hpublished, ⟨by decide +kernel, fun _ ↦ ?_, ?_⟩, trivial⟩
    · exact .sent ⟨rfl, rfl, rfl, rfl, rfl, rfl, rfl⟩ rfl rfl
    · exact fun hne ↦ absurd rfl hne
  · exact not_ended_of_status (show _ = some .inProgress by decide +kernel) rfl

open UnlistedReport in
/-- **A card can be lost.** No call fails, and the campaign runs on with a card that nothing will
move. -/
theorem unlisted_report_loses_card :
    (pipeline cfg).Runs .new handled ∧
      ((pipeline cfg).after .new handled).engine.campaignStatus campaign = some .running ∧
      card ∈ (((pipeline cfg).after .new handled).targets campaign).cards ∧
      ¬ ((pipeline cfg).after .new handled).engine.Ended card campaign ∧
      ¬ ((pipeline cfg).after .new handled).Represented card campaign := by
  refine ⟨?_, by decide +kernel, by decide +kernel, ?_, ?_⟩
  · unfold Machine.Runs
    decide +kernel
  · exact not_ended_of_status (show _ = some .inProgress by decide +kernel) rfl
  · intro h
    cases h with
    | item hshard hopen hev hcard hcampaign =>
      have hclosed : ∀ shard ∈ ((pipeline cfg).after .new handled).shards.rows,
          shard.isOpen = false := by decide +kernel
      cases (hclosed _ hshard).symm.trans hopen
    | @event type ev hev hcard hcampaign =>
      have hnil : ((pipeline cfg).after .new handled).channel type = [] := by
        cases type <;> decide +kernel
      rw [hnil] at hev
      cases hev
    | retry hev hcard hcampaign =>
      have hnil : ((pipeline cfg).after .new handled).engine.delayed = [] := by decide +kernel
      rw [hnil] at hev
      cases hev
    | message hmsg hcard hcampaign =>
      have hnil : ((pipeline cfg).after .new handled).sendSMSCh = [] := by decide +kernel
      rw [hnil] at hmsg
      cases hmsg
    | @submitted id entry hentry hcard hcampaign =>
      -- the only correlation was removed with the receipt
      have hremoved : ∃ entry, ((pipeline cfg).after .new handled).gateway.correlations
          = update (update (fun _ ↦ none) "m" entry) "m" none := ⟨_, rfl⟩
      obtain ⟨entry', hremoved⟩ := hremoved
      rw [hremoved, update_idem, update_eq_self] at hentry
      cases hentry
    | @awaited st hst hmo =>
      have hstatus : (((pipeline cfg).after .new handled).engine.process.cardState card).map
          CardState.status = some .awaitingDlr := by decide +kernel
      rw [hst, map_some, some.injEq, hmo.status_eq] at hstatus
      cases hstatus

end OtaPlatform
