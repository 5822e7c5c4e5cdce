import Mathlib.Data.Finset.Card
import OtaPlatform.Executor.Progress
import OtaPlatform.Transport.Gateway

/-!
# Messages the gateway waits for

A submitted message is outstanding while the gateway has correlations for it, and as many as it
takes: a message of several parts is reported when the last of its receipts is in, so it is not
enough that one correlation is left (`Gateway.Outstanding`).

Then a receipt either is the one that is reported, or leaves the message outstanding
(`handleDLR_cases`). Correlations are lost in two ways only: they expire, and the SMSC gives an
identifier a second time.
-/

namespace OtaPlatform

open Function

structure CardEvent.Reports (ev : CardEvent) (cardID campaignID : UUID) : Prop where
  type_eq : ev.type = .dlrReceived
  cardID_eq : ev.cardID = cardID
  campaignID_eq : ev.campaignID = some campaignID

structure CorrelationEntry.IsFor (entry : CorrelationEntry) (msgID cardID campaignID : UUID) :
    Prop where
  msgID_eq : entry.mapping.msgID = msgID
  cardID_eq : entry.mapping.cardID = cardID
  campaignID_eq : entry.mapping.campaignID = campaignID

namespace Gateway

/-- The gateway has enough correlations of the message to report it. -/
structure Awaits (g : Gateway) (msgID cardID campaignID : UUID) (ids : Finset String) : Prop where
  nonempty : ids.Nonempty
  entries : ∀ id ∈ ids, ∃ entry, g.correlations id = some entry ∧
    entry.IsFor msgID cardID campaignID
  parts : ∀ state, g.multipart msgID = some state → state.total ≤ state.resolved + ids.card

/-- The message was submitted and will be reported. -/
def Outstanding (g : Gateway) (msgID cardID campaignID : UUID) : Prop :=
  ∃ ids, g.Awaits msgID cardID campaignID ids

/-! ## Submitting -/

/-- The SMSC gives identifiers that are not in use, a different one for each part. -/
structure FreshIDs (g : Gateway) (msg : SendSMSMessage) (results : ℕ → SubmitResult) : Prop where
  unused : ∀ i < msg.parts.length, ∀ id, results i = .accepted id → g.correlations id = none
  different : ∀ i < msg.parts.length, ∀ j < msg.parts.length, ∀ id,
    results i = .accepted id → results j = .accepted id → i = j

section Submit

variable {g : Gateway} {msg : SendSMSMessage} {results : ℕ → SubmitResult} {eventID : UUID}
  {now : ℤ} {parts : List SMSPart} {i : ℕ}

theorem multipart_submitParts :
    (submitParts msg results eventID now parts i g).1.multipart = g.multipart := by
  induction parts generalizing i g with
  | nil => rfl
  | cons part parts ih =>
    rw [submitParts]
    cases results i with
    | transportError _ | rejected _ => rfl
    | accepted id => exact ih

theorem correlations_submitParts (id : String) :
    (submitParts msg results eventID now parts i g).1.correlations id = g.correlations id ∨
      (∃ k < parts.length, results (i + k) = .accepted id) ∧
        (submitParts msg results eventID now parts i g).1.correlations id
          = some (entryOf msg now) := by
  induction parts generalizing i g with
  | nil => exact Or.inl rfl
  | cons part parts ih =>
    rw [submitParts]
    cases hresult : results i with
    | transportError _ | rejected _ => exact Or.inl rfl
    | accepted id' =>
      simp only
      rcases ih (i := i + 1) (g := g.correlate msg id' now) with hold | ⟨⟨k, hk, haccepted⟩, hnew⟩
      · by_cases hid : id = id'
        · subst hid
          refine Or.inr ⟨⟨0, Nat.succ_pos _, hresult⟩, hold.trans ?_⟩
          exact update_self _ _ _
        · exact Or.inl (hold.trans (update_of_ne hid _ _))
      · refine Or.inr ⟨⟨k + 1, Nat.succ_lt_succ hk, ?_⟩, hnew⟩
        rw [Nat.add_comm k 1, ← Nat.add_assoc]
        exact haccepted

theorem accepted_of_submitParts (h : (submitParts msg results eventID now parts i g).2 = none) :
    ∀ k < parts.length, ∃ id, results (i + k) = .accepted id ∧
      (submitParts msg results eventID now parts i g).1.correlations id
        = some (entryOf msg now) := by
  induction parts generalizing i g with
  | nil => exact fun k hk ↦ absurd hk (Nat.not_lt_zero k)
  | cons part parts ih =>
    rw [submitParts] at h ⊢
    cases hresult : results i with
    | transportError _ | rejected _ =>
      rw [hresult] at h
      cases h
    | accepted id =>
      rw [hresult] at h
      simp only at h ⊢
      intro k hk
      cases k with
      | zero =>
        refine ⟨id, hresult, ?_⟩
        refine (correlations_submitParts id).elim (fun hold ↦ hold.trans ?_) And.right
        exact update_self _ _ _
      | succ k =>
        obtain ⟨id', haccepted, hentry⟩ := ih h k (Nat.lt_of_succ_lt_succ hk)
        refine ⟨id', ?_, hentry⟩
        rw [Nat.add_comm k 1, ← Nat.add_assoc]
        exact haccepted

theorem eq_handleSubmitFailure {ev : CardEvent}
    (h : (submitParts msg results eventID now parts i g).2 = some ev) :
    ∃ n err, ev = handleSubmitFailure msg n err eventID now := by
  induction parts generalizing i g with
  | nil => cases h
  | cons part parts ih =>
    rw [submitParts] at h
    cases hresult : results i with
    | transportError _ | rejected _ =>
      rw [hresult] at h
      exact ⟨_, _, (Option.some.inj h).symm⟩
    | accepted id =>
      rw [hresult] at h
      exact ih h

theorem reports_of_submitParts {ev : CardEvent}
    (h : (submitParts msg results eventID now parts i g).2 = some ev) :
    ev.Reports msg.cardID msg.campaignID := by
  obtain ⟨n, err, rfl⟩ := eq_handleSubmitFailure h
  exact ⟨rfl, rfl, rfl⟩

/-- The gateway before the parts of a message are submitted. -/
def track (g : Gateway) (msg : SendSMSMessage) : Gateway :=
  if msg.parts.length > 1 then
    { g with
      multipart := update g.multipart msg.msgID (some ⟨msg.parts.length, 0, false⟩) }
  else g

theorem handleSendSMS_eq (g : Gateway) (msg : SendSMSMessage) (results : ℕ → SubmitResult)
    (eventID : UUID) (now : ℤ) : g.handleSendSMS msg results eventID now
      = submitParts msg results eventID now msg.parts 0 (g.track msg) := rfl

theorem correlations_track (g : Gateway) (msg : SendSMSMessage) :
    (g.track msg).correlations = g.correlations := by
  rw [track]
  split_ifs <;> rfl

theorem multipart_track_self (h : msg.parts.length > 1) :
    (g.track msg).multipart msg.msgID = some ⟨msg.parts.length, 0, false⟩ := by
  rw [track, if_pos h]
  exact update_self ..

theorem multipart_track_of_ne {msgID : UUID} (h : msgID ≠ msg.msgID) :
    (g.track msg).multipart msgID = g.multipart msgID := by
  rw [track]
  split_ifs
  · exact update_of_ne h _ _
  · rfl

theorem Outstanding.handleSendSMS {msgID cardID campaignID : UUID}
    (h : g.Outstanding msgID cardID campaignID) (hfresh : g.FreshIDs msg results)
    (hne : msgID ≠ msg.msgID) :
    (g.handleSendSMS msg results eventID now).1.Outstanding msgID cardID campaignID := by
  obtain ⟨ids, h⟩ := h
  refine ⟨ids, h.nonempty, fun id hid ↦ ?_, fun state hstate ↦ h.parts state ?_⟩
  · obtain ⟨entry, hentry, hfor⟩ := h.entries id hid
    refine ⟨entry, ?_, hfor⟩
    rw [handleSendSMS_eq]
    rcases correlations_submitParts (g := g.track msg) id with hold | ⟨⟨k, hk, haccepted⟩, -⟩
    · rw [hold, correlations_track, hentry]
    · -- the identifier would have been in use
      rw [Nat.zero_add] at haccepted
      cases hentry.symm.trans (hfresh.unused k hk id haccepted)
  · rw [← hstate, handleSendSMS_eq, multipart_submitParts, multipart_track_of_ne hne]

/-- **A submitted message is reported or outstanding.** -/
theorem handleSendSMS_cases (hfresh : g.FreshIDs msg results) (hparts : msg.parts ≠ [])
    (hnew : g.multipart msg.msgID = none) :
    (∃ ev, (g.handleSendSMS msg results eventID now).2 = some ev ∧
        ev.Reports msg.cardID msg.campaignID) ∨
      (g.handleSendSMS msg results eventID now).1.Outstanding msg.msgID msg.cardID
        msg.campaignID := by
  rw [handleSendSMS_eq]
  cases hreport : (submitParts msg results eventID now msg.parts 0 (g.track msg)).2 with
  | some ev => exact Or.inl ⟨ev, rfl, reports_of_submitParts hreport⟩
  | none =>
    refine Or.inr ?_
    have haccepted := accepted_of_submitParts hreport
    simp only [Nat.zero_add] at haccepted
    choose! idOf hid hentry using haccepted
    -- one identifier for each part
    have hinj : Set.InjOn idOf (Finset.range msg.parts.length) := by
      intro i hi j hj hij
      rw [Finset.coe_range, Set.mem_Iio] at hi hj
      exact hfresh.different i hi j hj (idOf i) (hid i hi) (hij ▸ hid j hj)
    have hcard : ((Finset.range msg.parts.length).image idOf).card = msg.parts.length := by
      rw [Finset.card_image_of_injOn hinj, Finset.card_range]
    refine ⟨(Finset.range msg.parts.length).image idOf, ?_, ?_, ?_⟩
    · rw [← Finset.card_pos, hcard]
      exact List.length_pos_iff.mpr hparts
    · intro id hmem
      obtain ⟨k, hk, rfl⟩ := Finset.mem_image.mp hmem
      exact ⟨_, hentry k (Finset.mem_range.mp hk), rfl, rfl, rfl⟩
    · intro state hstate
      rw [multipart_submitParts, track] at hstate
      split_ifs at hstate
      · dsimp only at hstate
        rw [update_self] at hstate
        obtain rfl := Option.some.inj hstate
        rw [hcard]
        exact Nat.le_add_left _ _
      · cases hnew.symm.trans hstate

end Submit

/-! ## Receipts -/

section Receipts

variable {g : Gateway} {eventID : UUID} {now : ℤ} {msgID cardID campaignID : UUID}

theorem handleDLR_of_unknown {receipt : Option DLRReceipt}
    (h : ∀ r, receipt = some r → g.correlations r.messageID = none) :
    g.handleDLR receipt eventID now = (g, none) := by
  cases receipt with
  | none => rfl
  | some r => simp [handleDLR, h r rfl]

/-- A receipt removes its correlation, and touches the tracking of its message only. -/
theorem handleDLR_frame (eventID : UUID) (now : ℤ) {r : DLRReceipt} {entry : CorrelationEntry}
    (hentry : g.correlations r.messageID = some entry) :
    (g.handleDLR (some r) eventID now).1.correlations = update g.correlations r.messageID none ∧
      ∀ m ≠ entry.mapping.msgID,
        (g.handleDLR (some r) eventID now).1.multipart m = g.multipart m := by
  by_cases hnow : now < entry.expiresAt
  · cases hstate : g.multipart entry.mapping.msgID with
    | none => simp [handleDLR, hentry, hnow, recordPartDLR, hstate]
    | some state =>
      by_cases hlast : state.resolved + 1 ≥ state.total
      · cases hfailed : (state.anyFailed || !decide (r.status = .delivrd)) with
        | true | false =>
          simp only [handleDLR, hentry, hnow, recordPartDLR, hstate, hlast, hfailed, if_true]
          exact ⟨trivial, fun m hm ↦ update_of_ne hm _ _⟩
      · simp only [handleDLR, hentry, hnow, recordPartDLR, hstate, hlast, if_true, if_false]
        exact ⟨trivial, fun m hm ↦ update_of_ne hm _ _⟩
  · simp [handleDLR, hentry, hnow]

theorem Awaits.erase_of_ne {g' : Gateway} {ids : Finset String}
    (h : g.Awaits msgID cardID campaignID ids) {id : String} {entry : CorrelationEntry}
    (hentry : g.correlations id = some entry) (hne : entry.mapping.msgID ≠ msgID)
    (hcorrelations : g'.correlations = update g.correlations id none)
    (hmultipart : g'.multipart msgID = g.multipart msgID) :
    g'.Awaits msgID cardID campaignID ids := by
  refine ⟨h.nonempty, fun id' hid' ↦ ?_, fun state hstate ↦ h.parts state ?_⟩
  · obtain ⟨entry', hentry', hfor⟩ := h.entries id' hid'
    refine ⟨entry', ?_, hfor⟩
    rw [hcorrelations, update_of_ne ?_, hentry']
    rintro rfl
    obtain rfl := Option.some.inj (hentry.symm.trans hentry')
    exact hne hfor.msgID_eq
  · exact hmultipart.symm.trans hstate

theorem Awaits.erase {ids : Finset String} (h : g.Awaits msgID cardID campaignID ids)
    (id : String) {state : MultipartState} (hstate : g.multipart msgID = some state)
    (hmore : state.resolved + 1 < state.total) (anyFailed : Bool) :
    (⟨update g.correlations id none, update g.multipart msgID
      (some ⟨state.total, state.resolved + 1, anyFailed⟩)⟩ : Gateway).Awaits msgID cardID
      campaignID (ids.erase id) := by
  have hparts := h.parts state hstate
  have hcard := Finset.pred_card_le_card_erase (s := ids) (a := id)
  refine ⟨?_, fun id' hid' ↦ ?_, fun state' hstate' ↦ ?_⟩
  · rw [← Finset.card_pos]
    omega
  · obtain ⟨hne, hmem⟩ := Finset.mem_erase.mp hid'
    obtain ⟨entry, hentry, hfor⟩ := h.entries id' hmem
    exact ⟨entry, (update_of_ne hne _ _).trans hentry, hfor⟩
  · dsimp only at hstate'
    rw [update_self] at hstate'
    obtain rfl := Option.some.inj hstate'
    change state.total ≤ state.resolved + 1 + (ids.erase id).card
    omega

/-- **A receipt reports an outstanding message or leaves it outstanding**, unless it comes too
late. -/
theorem handleDLR_cases (h : g.Outstanding msgID cardID campaignID)
    (hsame : ∀ id entry, g.correlations id = some entry → entry.mapping.msgID = msgID →
      entry.IsFor msgID cardID campaignID) {receipt : Option DLRReceipt}
    (hexpires : ∀ r entry, receipt = some r → g.correlations r.messageID = some entry →
      entry.mapping.campaignID = campaignID → now < entry.expiresAt) :
    (∃ ev, (g.handleDLR receipt eventID now).2 = some ev ∧ ev.Reports cardID campaignID) ∨
      (g.handleDLR receipt eventID now).1.Outstanding msgID cardID campaignID := by
  cases receipt with
  | none => exact Or.inr h
  | some r =>
    obtain ⟨ids, hids⟩ := h
    cases hentry : g.correlations r.messageID with
    | none =>
      rw [handleDLR]
      simp only [hentry]
      exact Or.inr ⟨ids, hids⟩
    | some entry =>
      by_cases hmsg : entry.mapping.msgID = msgID
      · have hfor := hsame _ entry hentry hmsg
        have hnow := hexpires r entry rfl hentry hfor.campaignID_eq
        have hreports : ∀ receipt, (dlrEvent entry.mapping receipt eventID now).Reports cardID
            campaignID := fun _ ↦ ⟨rfl, hfor.cardID_eq, congrArg some hfor.campaignID_eq⟩
        cases hstate : g.multipart msgID with
        | none =>
          refine Or.inl ⟨_, ?_, hreports r⟩
          simp [handleDLR, hentry, hnow, recordPartDLR, hmsg, hstate]
        | some state =>
          by_cases hlast : state.resolved + 1 ≥ state.total
          · by_cases hfailed : (state.anyFailed || !decide (r.status = .delivrd)) = true
            · refine Or.inl ⟨_, ?_, hreports
                { r with status := .undeliv, errorCode := "multipart_partial_failure" }⟩
              simp [handleDLR, hentry, hnow, recordPartDLR, hmsg, hstate, hlast, hfailed]
            · refine Or.inl ⟨_, ?_, hreports { r with status := .delivrd, errorCode := "" }⟩
              rw [Bool.not_eq_true] at hfailed
              simp [handleDLR, hentry, hnow, recordPartDLR, hmsg, hstate, hlast, hfailed]
          · refine Or.inr ⟨ids.erase r.messageID, ?_⟩
            have herase := hids.erase r.messageID hstate (not_le.mp hlast)
              (state.anyFailed || !decide (r.status = .delivrd))
            simpa [handleDLR, hentry, hnow, recordPartDLR, hmsg, hstate, hlast] using herase
      · obtain ⟨hcorrelations, hmultipart⟩ := handleDLR_frame eventID now hentry
        exact Or.inr ⟨ids, hids.erase_of_ne hentry hmsg hcorrelations
          (hmultipart msgID (Ne.symm hmsg))⟩

theorem Outstanding.cleanupCorrelations (h : g.Outstanding msgID cardID campaignID)
    (hexpires : ∀ id entry, g.correlations id = some entry →
      entry.mapping.campaignID = campaignID → now ≤ entry.expiresAt) :
    (g.cleanupCorrelations now).Outstanding msgID cardID campaignID := by
  obtain ⟨ids, h⟩ := h
  refine ⟨ids, h.nonempty, fun id hid ↦ ?_, h.parts⟩
  obtain ⟨entry, hentry, hfor⟩ := h.entries id hid
  refine ⟨entry, ?_, hfor⟩
  change (g.correlations id).filter _ = some entry
  rw [hentry, Option.filter_some, if_pos]
  exact decide_eq_true (hexpires id entry hentry hfor.campaignID_eq)

end Receipts

end Gateway

end OtaPlatform
