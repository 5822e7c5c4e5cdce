import OtaPlatform.Engine.Pipeline
import OtaPlatform.Transport.Outstanding

/-!
# Messages in the pipeline

A message is published under a new identifier, waits in `SendSMSCh`, and is taken by the gateway,
which remembers it by its correlations. So an identifier stands for one message, and what the
gateway knows under it belongs to that message (`Tracked`).
-/

namespace OtaPlatform

open List

namespace Pipeline

def messages (s : Pipeline) : List SendSMSMessage := s.engine.published.map Prod.fst

/-- The identifiers of the messages that the gateway has not taken yet. -/
def waitingIDs (s : Pipeline) : List UUID := s.sendSMSCh.map SendSMSMessage.msgID

structure Tracked (s : Pipeline) : Prop where
  nodup : (s.messages.map SendSMSMessage.msgID).Nodup
  waiting : ∀ msg ∈ s.sendSMSCh, msg ∈ s.messages
  nodup_waiting : s.waitingIDs.Nodup
  correlated : ∀ id entry, s.gateway.correlations id = some entry →
    entry.mapping.msgID ∉ s.waitingIDs ∧
      ∃ msg ∈ s.messages, entry.IsFor msg.msgID msg.cardID msg.campaignID
  counted : ∀ msgID, s.gateway.multipart msgID ≠ none →
    msgID ∉ s.waitingIDs ∧ msgID ∈ s.messages.map SendSMSMessage.msgID

section Messages

variable {cfg : PipelineConfig} {s s' : Pipeline} {cardID campaignID msgID : UUID}

theorem Tracked.isFor (h : s.Tracked) (hout : s.gateway.Outstanding msgID cardID campaignID) :
    ∀ id entry, s.gateway.correlations id = some entry → entry.mapping.msgID = msgID →
      entry.IsFor msgID cardID campaignID := by
  intro id entry hentry hid
  obtain ⟨ids, hids⟩ := hout
  obtain ⟨id', hid'⟩ := hids.nonempty
  obtain ⟨entry', hentry', hfor'⟩ := hids.entries id' hid'
  obtain ⟨-, msg, hmsg, hfor⟩ := h.correlated id entry hentry
  obtain ⟨-, msg', hmsg', hfor''⟩ := h.correlated id' entry' hentry'
  have hsame : msg.msgID = msg'.msgID := by
    rw [← hfor.msgID_eq, hid, ← hfor'.msgID_eq, hfor''.msgID_eq]
  obtain rfl := inj_on_of_nodup_map h.nodup hmsg hmsg' hsame
  refine ⟨hid, ?_, ?_⟩
  · rw [hfor.cardID_eq, ← hfor''.cardID_eq, hfor'.cardID_eq]
  · rw [hfor.campaignID_eq, ← hfor''.campaignID_eq, hfor'.campaignID_eq]

theorem Tracked.of_eq (h : s.Tracked) (hmessages : s'.messages = s.messages)
    (hsms : s'.sendSMSCh = s.sendSMSCh) (hgateway : s'.gateway = s.gateway) : s'.Tracked where
  nodup := hmessages ▸ h.nodup
  waiting msg hmsg := hmessages ▸ h.waiting msg (hsms ▸ hmsg)
  nodup_waiting := by
    rw [waitingIDs, hsms]
    exact h.nodup_waiting
  correlated id entry hentry := by
    rw [hmessages, waitingIDs, hsms]
    exact h.correlated id entry (hgateway ▸ hentry)
  counted msgID hparts := by
    rw [hmessages, waitingIDs, hsms]
    exact h.counted msgID (hgateway ▸ hparts)

theorem Tracked.handle (h : s.Tracked) {ev : CardEvent} {ans : Answers}
    (hanswerable : s.engine.Answerable cfg.engine ev ans) (answered : Option UUID) :
    (s.handle cfg ev ans answered).Tracked := by
  obtain ⟨after, outs, counters, hhandled⟩ := exists_handled cfg s ev ans answered
  have hmessages : (s.handle cfg ev ans answered).messages
      = s.messages ++ (smsOf outs).map Prod.fst := by
    rw [messages, hhandled.handles.published_eq, map_append, messages]
  have hsms := hhandled.sendSMSCh
  rcases hhandled.outcome.smsOf_cases with hnil | ⟨msg, origin, hone, hid, -⟩
  · rw [hnil, map_nil, append_nil] at hmessages hsms
    exact h.of_eq hmessages hsms rfl
  · rw [hone, map_singleton] at hmessages hsms
    have hfresh : msg.msgID ∉ s.messages.map SendSMSMessage.msgID := by
      rw [hid, messages, map_map]
      exact hanswerable.2.2
    have hids : (s.handle cfg ev ans answered).waitingIDs = s.waitingIDs ++ [msg.msgID] := by
      rw [waitingIDs, hsms, map_append, map_singleton, waitingIDs]
    have hwaiting : ∀ id ∈ s.waitingIDs, id ∈ s.messages.map SendSMSMessage.msgID := by
      intro id hmem
      obtain ⟨msg', hmsg', rfl⟩ := mem_map.mp hmem
      exact mem_map_of_mem (h.waiting msg' hmsg')
    -- what the gateway knows about was published before
    have hkeep : ∀ id, id ∉ s.waitingIDs → id ∈ s.messages.map SendSMSMessage.msgID →
        id ∉ s.waitingIDs ++ [msg.msgID] := by
      intro id hnot hold hmem
      rcases mem_append.mp hmem with hmem | hmem
      · exact hnot hmem
      · exact hfresh (mem_singleton.mp hmem ▸ hold)
    refine ⟨?_, ?_, ?_, ?_, ?_⟩
    · rw [hmessages, map_append, map_singleton, ← concat_eq_append]
      exact h.nodup.concat hfresh
    · rw [hmessages, hsms]
      intro msg' hmsg'
      exact (mem_append.mp hmsg').elim
        (fun hold ↦ mem_append_left _ (h.waiting msg' hold)) (mem_append_right _)
    · rw [hids, ← concat_eq_append]
      exact h.nodup_waiting.concat fun hmem ↦ hfresh (hwaiting _ hmem)
    · intro id entry hentry
      obtain ⟨hnot, msg', hmsg', hfor⟩ := h.correlated id entry hentry
      rw [hids, hmessages]
      refine ⟨hkeep _ hnot ?_, msg', mem_append_left _ hmsg', hfor⟩
      exact hfor.msgID_eq ▸ mem_map_of_mem hmsg'
    · intro msgID hparts
      obtain ⟨hnot, hmem⟩ := h.counted msgID hparts
      rw [hids, hmessages, map_append]
      exact ⟨hkeep _ hnot hmem, mem_append_left _ hmem⟩

private theorem msgID_notMem_erase {msgs : List SendSMSMessage} {msg : SendSMSMessage}
    (hnodup : (msgs.map SendSMSMessage.msgID).Nodup) (hmsg : msg ∈ msgs) :
    msg.msgID ∉ (msgs.erase msg).map SendSMSMessage.msgID := by
  intro hmem
  obtain ⟨msg', hmsg', hid⟩ := mem_map.mp hmem
  obtain rfl := inj_on_of_nodup_map hnodup (mem_of_mem_erase hmsg') hmsg hid
  exact hnodup.of_map.not_mem_erase hmsg'

variable (cfg) in
theorem Tracked.submit (h : s.Tracked) {msg : SendSMSMessage} (hmsg : msg ∈ s.sendSMSCh)
    (results : ℕ → SubmitResult) (eventID : UUID) (now : ℤ) :
    (s.next cfg (.submit msg results eventID now)).Tracked := by
  have hsub : ((s.sendSMSCh.erase msg).map SendSMSMessage.msgID).Sublist s.waitingIDs :=
    erase_sublist.map _
  have hnot := msgID_notMem_erase h.nodup_waiting hmsg
  have hpublished := h.waiting msg hmsg
  refine ⟨h.nodup, fun msg' hmsg' ↦ h.waiting msg' (mem_of_mem_erase hmsg'),
    hsub.nodup h.nodup_waiting, fun id entry hentry ↦ ?_, fun msgID hparts ↦ ?_⟩
  · have hentry : (s.gateway.handleSendSMS msg results eventID now).1.correlations id
        = some entry := hentry
    rw [Gateway.handleSendSMS_eq] at hentry
    rcases Gateway.correlations_submitParts (g := s.gateway.track msg) id with hold | ⟨-, hnew⟩
    · rw [hold, Gateway.correlations_track] at hentry
      obtain ⟨hwaiting, hfor⟩ := h.correlated id entry hentry
      exact ⟨fun hmem ↦ hwaiting (hsub.subset hmem), hfor⟩
    · obtain rfl := Option.some.inj (hnew.symm.trans hentry)
      exact ⟨hnot, msg, hpublished, rfl, rfl, rfl⟩
  · have hparts : (s.gateway.handleSendSMS msg results eventID now).1.multipart msgID ≠ none :=
      hparts
    rw [Gateway.handleSendSMS_eq, Gateway.multipart_submitParts] at hparts
    by_cases hid : msgID = msg.msgID
    · subst hid
      exact ⟨hnot, mem_map_of_mem hpublished⟩
    · rw [Gateway.multipart_track_of_ne hid] at hparts
      obtain ⟨hwaiting, hold⟩ := h.counted msgID hparts
      exact ⟨fun hmem ↦ hwaiting (hsub.subset hmem), hold⟩

variable (cfg) in
theorem Tracked.receipt (h : s.Tracked) (receipt : Option DLRReceipt) (eventID : UUID) (now : ℤ) :
    (s.next cfg (.receipt receipt eventID now)).Tracked := by
  by_cases hknown : ∃ r entry, receipt = some r ∧ s.gateway.correlations r.messageID = some entry
  · obtain ⟨r, entry, rfl, hentry⟩ := hknown
    obtain ⟨hcorrelations, hmultipart⟩ := Gateway.handleDLR_frame eventID now hentry
    refine ⟨h.nodup, h.waiting, h.nodup_waiting, fun id entry' hentry' ↦ ?_, fun msgID hparts ↦ ?_⟩
    · refine h.correlated id entry' ?_
      have hentry' : (s.gateway.handleDLR (some r) eventID now).1.correlations id = some entry' :=
        hentry'
      rw [hcorrelations] at hentry'
      by_cases hid : id = r.messageID
      · subst hid
        rw [Function.update_self] at hentry'
        cases hentry'
      · rwa [Function.update_of_ne hid] at hentry'
    · by_cases hid : msgID = entry.mapping.msgID
      · subst hid
        obtain ⟨hwaiting, msg, hmsg, hfor⟩ := h.correlated _ entry hentry
        exact ⟨hwaiting, hfor.msgID_eq ▸ mem_map_of_mem hmsg⟩
      · refine h.counted msgID ?_
        rw [← hmultipart msgID hid]
        exact hparts
  · refine h.of_eq rfl rfl ?_
    exact congrArg Prod.fst (Gateway.handleDLR_of_unknown fun r hr ↦
      Option.eq_none_iff_forall_ne_some.mpr fun entry hentry ↦ hknown ⟨r, entry, hr, hentry⟩)

variable (cfg) in
theorem Tracked.cleanup (h : s.Tracked) (now : ℤ) : (s.next cfg (.cleanup now)).Tracked := by
  refine ⟨h.nodup, h.waiting, h.nodup_waiting, fun id entry hentry ↦ ?_, h.counted⟩
  exact h.correlated id entry (Option.filter_eq_some_iff.mp hentry).1

end Messages

end Pipeline

end OtaPlatform
