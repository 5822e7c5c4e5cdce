import OtaPlatform.Engine.Representation

/-!
# What a report is about

A report on `DLRCh` names a message, a card and a campaign. The gateway has them from the
correlation of a part, or from the message it could not submit. Receipts may be lost, come late or
twice and in any order: in every run of the pipeline a report is about a message that the executor
published, for the card and the campaign it was published for.
-/

namespace OtaPlatform

open List

namespace Gateway

variable {g : Gateway} {eventID : UUID} {now : ℤ} {ev : CardEvent}

theorem eq_dlrEvent {receipt : Option DLRReceipt}
    (h : (g.handleDLR receipt eventID now).2 = some ev) :
    ∃ id entry r, g.correlations id = some entry ∧ ev = dlrEvent entry.mapping r eventID now := by
  cases receipt with
  | none => cases h
  | some r =>
    cases hentry : g.correlations r.messageID with
    | none => simp [handleDLR, hentry] at h
    | some entry =>
      simp only [handleDLR, hentry] at h
      split_ifs at h
      split at h
      all_goals cases h
      all_goals exact ⟨_, entry, _, hentry, rfl⟩

end Gateway

namespace Pipeline

/-- The event reports on a message that was published, for its card and its campaign. -/
def Reported (s : Pipeline) (ev : CardEvent) : Prop :=
  ∃ msg ∈ s.messages, ev.msgID = some msg.msgID ∧ ev.Reports msg.cardID msg.campaignID

structure Attributed (s : Pipeline) : Prop where
  tracked : s.Tracked
  reports : ∀ ev ∈ s.dlrCh, s.Reported ev

variable {cfg : PipelineConfig} {s : Pipeline}

theorem Attributed.next (h : s.Attributed) {a : PipelineAction}
    (henabled : (pipeline cfg).Enabled s a) : ((pipeline cfg).next s a).Attributed := by
  cases a with
  | request a =>
    have hmessages : ((pipeline cfg).next s (.request a)).messages = s.messages :=
      congrArg (fun outs ↦ (smsOf outs).map Prod.fst) (Engine.outputsOf_control ..)
    refine ⟨h.tracked.withDatabase _, ?_⟩
    simp only [Reported, hmessages]
    exact h.reports
  | publish _ | release _ _ | incoming _ _ _ _ _ _ | flush _ _ =>
    exact ⟨h.tracked.of_eq rfl rfl rfl, h.reports⟩
  | preloadShard c cardIDs keys rows =>
    cases keys <;> exact ⟨h.tracked.of_eq rfl rfl rfl, h.reports⟩
  | cleanup now => exact ⟨h.tracked.cleanup cfg now, h.reports⟩
  | handle ev ans answered =>
    obtain ⟨after, outs, counters, hhandled⟩ := exists_handled cfg s ev ans answered
    refine ⟨h.tracked.handle henabled.2 answered, fun ev' hev' ↦ ?_⟩
    have hsub : (s.handle cfg ev ans answered).dlrCh ⊆ s.dlrCh := by
      rw [handle]
      split
      · exact erase_subset
      · exact Subset.refl _
    obtain ⟨msg, hmsg, hfor⟩ := h.reports ev' (hsub hev')
    refine ⟨msg, ?_, hfor⟩
    change msg ∈ (s.handle cfg ev ans answered).messages
    rw [messages, hhandled.handles.published_eq, map_append]
    exact mem_append_left _ hmsg
  | submit msg results eventID now =>
    refine ⟨h.tracked.submit cfg henabled results eventID now, fun ev hev ↦ ?_⟩
    rcases mem_append.mp hev with hev | hev
    · exact h.reports ev hev
    · obtain ⟨n, err, rfl⟩ := Gateway.eq_handleSubmitFailure (Option.mem_toList.mp hev)
      exact ⟨msg, h.tracked.waiting msg henabled, rfl, rfl, rfl, rfl⟩
  | receipt receipt eventID now =>
    refine ⟨h.tracked.receipt cfg receipt eventID now, fun ev hev ↦ ?_⟩
    rcases mem_append.mp hev with hev | hev
    · exact h.reports ev hev
    · obtain ⟨id, entry, r, hentry, rfl⟩ := Gateway.eq_dlrEvent (Option.mem_toList.mp hev)
      obtain ⟨-, msg, hmsg, hid, hcard, hcampaign⟩ := h.tracked.correlated id entry hentry
      exact ⟨msg, hmsg, congrArg some hid, rfl, hcard, congrArg some hcampaign⟩

end Pipeline

/-- **Every report is about a published message**, in every run of the pipeline: it names a message
that the executor published, under an identifier that is not given twice, and the card and the
campaign of that message. -/
theorem reports_published (cfg : PipelineConfig) (acts : List PipelineAction)
    (h : (pipeline cfg).Runs .new acts) :
    let s := (pipeline cfg).after .new acts
    (s.messages.map SendSMSMessage.msgID).Nodup ∧ ∀ ev ∈ s.dlrCh, s.Reported ev := by
  have hnew : Pipeline.new.Attributed :=
    ⟨(Pipeline.noneLost_new (.ofDigit 0)).tracked, forall_mem_nil _⟩
  have hinv := h.invariant (fun _ _ hs henabled _ ↦ Pipeline.Attributed.next hs henabled) hnew
  exact ⟨hinv.tracked.nodup, hinv.reports⟩

open UnlistedReport in
/-- The receipt of the only message is reported. -/
theorem reports_published_receipt :
    let s := (pipeline cfg).after .new reported
    s.dlrCh.length = 1 ∧ ∀ ev ∈ s.dlrCh, s.Reported ev := by
  have hruns : (pipeline cfg).Runs .new reported := by
    unfold Machine.Runs
    decide +kernel
  exact ⟨by decide +kernel, (reports_published cfg reported hruns).2⟩

end OtaPlatform
