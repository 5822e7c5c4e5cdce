import OtaPlatform.Transition.Machine
import OtaPlatform.Transport.Outstanding

/-!
# One message between sender and receipts

`HandleSendSMS` submits the parts of a message one after the other, while the SMPP read loop handles
the delivery receipts of the parts that are already out. Here the two run interleaved: that the SMSC
accepts a part and that its correlation is stored are two steps, and between any two steps receipts
may be handled, other senders may work on their messages and expired correlations may be removed.

The state keeps, besides what the code has, what happened to the message: the parts that were stored
and the receipts that came in for each of them since. Nothing in the step reads this history.

* `Delivery.oneOutcome_of_runs`: what is sent for the message is decided by its history: nothing,
  the report of a failed submission, or the outcome when every part has been reported in time.
* `Delivery.after_sending_start`: the steps of the submit loop lead to what `handleSendSMS` returns.
* `Delivery.attributes_iff_of_runs`: a receipt in time is attributed to its message exactly if the
  correlation has been stored and it is the first since then. A receipt that overtakes its
  correlation is lost.
-/

namespace OtaPlatform

open Gateway List Function

/-- A part whose correlation was stored, with the receipts for it since then: status and time. -/
structure StoredPart where
  id : String
  expiresAt : ℤ
  receipts : List (DLRStatus × ℤ)
deriving DecidableEq, Repr

/-- What the first receipt of the part says, if it came in time. -/
def StoredPart.report (p : StoredPart) : Option DLRStatus :=
  (p.receipts.head?.filter fun r ↦ r.2 < p.expiresAt).map Prod.fst

def StoredPart.hear (r : DLRReceipt) (now : ℤ) (p : StoredPart) : StoredPart :=
  if p.id = r.messageID then { p with receipts := p.receipts ++ [(r.status, now)] } else p

/-- A message that is being sent, in a gateway with other traffic. -/
structure Delivery where
  gateway : Gateway
  rest : List SMSPart
  /-- The identifier of a part that was accepted and not stored yet, and when it was. -/
  accepted : Option (String × ℤ)
  /-- The sender has returned because a part was not accepted. -/
  failed : Bool
  sent : List CardEvent
  clock : ℤ
  /-- History: the parts that were stored. -/
  parts : List StoredPart

inductive DeliveryAction
  /-- The SMSC answers to the submission of the next part. -/
  | submit (result : SubmitResult) (eventID : UUID) (now : ℤ)
  /-- The correlation of the accepted part is stored. -/
  | store (now : ℤ)
  | receipt (r : DLRReceipt) (eventID : UUID) (now : ℤ)
  /-- Another sender begins with its message. -/
  | track (other : SendSMSMessage) (now : ℤ)
  /-- Another sender stores the correlation of a part. -/
  | correlate (other : SendSMSMessage) (id : String) (now : ℤ)
  | cleanup (now : ℤ)

def DeliveryAction.now : DeliveryAction → ℤ
  | submit _ _ now | store now | receipt _ _ now | track _ now | correlate _ _ now
  | cleanup now => now

/-- The error with which the submit loop ends at a part that is not accepted. -/
def SubmitResult.error? (part : SMSPart) : SubmitResult → Option String
  | .accepted _ => none
  | .transportError err => some ("submit part " ++ toString part.sequence ++ ": " ++ err)
  | .rejected err => some ("submit part " ++ toString part.sequence ++ " error: " ++ err)

namespace Delivery

variable (msg : SendSMSMessage)

/-- The SMSC has not given the identifier to anyone. -/
def Unused (s : Delivery) (id : String) : Prop :=
  s.gateway.correlations id = none ∧ (∀ p ∈ s.parts, p.id ≠ id) ∧
    s.accepted.map Prod.fst ≠ some id

instance (s : Delivery) (id : String) : Decidable (s.Unused id) :=
  inferInstanceAs (Decidable (_ ∧ _ ∧ _))

/-- What can happen. Identifiers are unique, and time does not run backwards. -/
def Enabled (s : Delivery) (a : DeliveryAction) : Prop :=
  s.clock ≤ a.now ∧
  match a with
  | .submit result _ _ => s.failed = false ∧ s.accepted = none ∧ s.rest ≠ [] ∧
      ∀ id, result = .accepted id → s.Unused id
  | .store _ => s.accepted ≠ none
  | .track other _ => other.msgID ≠ msg.msgID
  | .correlate other id _ => other.msgID ≠ msg.msgID ∧ s.Unused id
  | .receipt _ _ _ | .cleanup _ => True

/-- The SMSC answers to the submission of a part. -/
def submit (s : Delivery) (result : SubmitResult) (eventID : UUID) (now : ℤ) : Delivery :=
  match s.rest, result with
  | [], _ => s
  | _ :: rest, .accepted id => { s with rest, accepted := some (id, now) }
  | part :: _, result => { s with
      failed := true
      sent := s.sent ++ [handleSubmitFailure msg s.parts.length
        ((result.error? part).getD "") eventID now] }

/-- The correlation of the accepted part is stored. -/
def store (s : Delivery) (now : ℤ) : Delivery :=
  match s.accepted with
  | none => s
  | some (id, _) => { s with
      gateway := s.gateway.correlate msg id now
      accepted := none
      parts := s.parts ++ [⟨id, now + correlationTTL, []⟩] }

def receipt (s : Delivery) (r : DLRReceipt) (eventID : UUID) (now : ℤ) : Delivery :=
  let answer := s.gateway.handleDLR (some r) eventID now
  { s with
    gateway := answer.1
    sent := s.sent ++ answer.2.toList
    parts := s.parts.map (StoredPart.hear r now) }

def step (s : Delivery) : DeliveryAction → Delivery
  | .submit result eventID now => s.submit msg result eventID now
  | .store now => s.store msg now
  | .receipt r eventID now => s.receipt r eventID now
  | .track other _ => { s with gateway := s.gateway.track other }
  | .correlate other id now => { s with gateway := s.gateway.correlate other id now }
  | .cleanup now => { s with gateway := s.gateway.cleanupCorrelations now }

def next (s : Delivery) (a : DeliveryAction) : Delivery :=
  { s.step msg a with clock := a.now }

/-- The sender begins with the message. -/
def start (g : Gateway) (clock : ℤ) : Delivery where
  gateway := g.track msg
  rest := msg.parts
  accepted := none
  failed := false
  sent := []
  clock := clock
  parts := []

end Delivery

/-- The delivery of a message as a transition system. -/
def delivery (msg : SendSMSMessage) : Machine Delivery DeliveryAction where
  Enabled := Delivery.Enabled msg
  next := Delivery.next msg

structure Gateway.New (g : Gateway) (msgID : UUID) : Prop where
  untracked : g.multipart msgID = none
  uncorrelated : ∀ id entry, g.correlations id = some entry → entry.mapping.msgID ≠ msgID

/-! ## What a receipt does to the gateway -/

namespace Gateway

section Receipts

variable {g : Gateway} {r : DLRReceipt} {entry : CorrelationEntry} {eventID : UUID} {now : ℤ}

def forget (g : Gateway) (id : String) : Gateway :=
  { g with correlations := update g.correlations id none }

theorem handleDLR_of_le (eventID : UUID) (hentry : g.correlations r.messageID = some entry)
    (hlate : entry.expiresAt ≤ now) :
    g.handleDLR (some r) eventID now = (g.forget r.messageID, none) := by
  simp [handleDLR, hentry, not_lt.mpr hlate, forget]

theorem handleDLR_untracked (eventID : UUID) (hentry : g.correlations r.messageID = some entry)
    (hnow : now < entry.expiresAt) (htracker : g.multipart entry.mapping.msgID = none) :
    g.handleDLR (some r) eventID now
      = (g.forget r.messageID, some (dlrEvent entry.mapping r eventID now)) := by
  simp [handleDLR, hentry, hnow, recordPartDLR, htracker, forget]

theorem handleDLR_more (eventID : UUID) (hentry : g.correlations r.messageID = some entry)
    (hnow : now < entry.expiresAt) {state : MultipartState}
    (htracker : g.multipart entry.mapping.msgID = some state)
    (hmore : state.resolved + 1 < state.total) : g.handleDLR (some r) eventID now
      = ({ g.forget r.messageID with
          multipart := update g.multipart entry.mapping.msgID (some ⟨state.total,
            state.resolved + 1, state.anyFailed || !decide (r.status = .delivrd)⟩) }, none) := by
  simp [handleDLR, hentry, hnow, recordPartDLR, htracker, not_le.mpr hmore, forget]

theorem handleDLR_last (eventID : UUID) (hentry : g.correlations r.messageID = some entry)
    (hnow : now < entry.expiresAt) {state : MultipartState}
    (htracker : g.multipart entry.mapping.msgID = some state)
    (hlast : state.total ≤ state.resolved + 1) : ∃ errorCode, g.handleDLR (some r) eventID now
      = ({ g.forget r.messageID with
          multipart := update g.multipart entry.mapping.msgID none },
        some (dlrEvent entry.mapping { r with
          status := if state.anyFailed || !decide (r.status = .delivrd) then .undeliv else .delivrd
          errorCode } eventID now)) := by
  cases hfailed : (state.anyFailed || !decide (r.status = .delivrd)) with
  | true =>
    refine ⟨"multipart_partial_failure", ?_⟩
    simp [handleDLR, hentry, hnow, recordPartDLR, htracker, hlast, hfailed, forget]
  | false =>
    refine ⟨"", ?_⟩
    simp [handleDLR, hentry, hnow, recordPartDLR, htracker, hlast, hfailed, forget]

theorem msgID_of_handleDLR (hentry : g.correlations r.messageID = some entry) {ev : CardEvent}
    (h : (g.handleDLR (some r) eventID now).2 = some ev) : ev.msgID = some entry.mapping.msgID := by
  rcases lt_or_ge now entry.expiresAt with hnow | hlate
  · cases htracker : g.multipart entry.mapping.msgID with
    | none =>
      rw [handleDLR_untracked eventID hentry hnow htracker] at h
      exact (Option.some.inj h) ▸ rfl
    | some state =>
      rcases lt_or_ge (state.resolved + 1) state.total with hmore | hlast
      · rw [handleDLR_more eventID hentry hnow htracker hmore] at h
        cases h
      · obtain ⟨errorCode, heq⟩ := handleDLR_last eventID hentry hnow htracker hlast
        rw [heq] at h
        exact (Option.some.inj h) ▸ rfl
  · rw [handleDLR_of_le eventID hentry hlate] at h
    cases h

end Receipts

/-! ## What cleaning up removes -/

section Cleanup

variable {g : Gateway} {id : String} {entry : CorrelationEntry} {now : ℤ}

theorem cleanupCorrelations_none (now : ℤ) (h : g.correlations id = none) :
    (g.cleanupCorrelations now).correlations id = none := by
  simp [cleanupCorrelations, h]

theorem cleanupCorrelations_some (h : g.correlations id = some entry)
    (hnow : now ≤ entry.expiresAt) : (g.cleanupCorrelations now).correlations id = some entry := by
  simp [cleanupCorrelations, h, hnow]

end Cleanup

end Gateway

/-! ## Reports -/

section Reports

variable {r : DLRReceipt} {now : ℤ} {p : StoredPart} {parts : List StoredPart}

theorem StoredPart.id_hear (r : DLRReceipt) (now : ℤ) (p : StoredPart) :
    (p.hear r now).id = p.id := by
  rw [hear]
  split_ifs <;> rfl

theorem StoredPart.hear_of_ne (h : p.id ≠ r.messageID) : p.hear r now = p := if_neg h

theorem StoredPart.report_hear_of_ne_nil (h : p.receipts ≠ []) :
    (p.hear r now).report = p.report := by
  rw [hear]
  split_ifs
  · rw [report, report, head?_append_of_ne_nil _ h]
  · rfl

theorem StoredPart.report_hear_of_nil (hid : p.id = r.messageID) (h : p.receipts = []) :
    (p.hear r now).report = if now < p.expiresAt then some r.status else none := by
  rw [hear, if_pos hid, report, h]
  by_cases hnow : now < p.expiresAt
  · simp [hnow]
  · simp [hnow, not_lt.mp hnow]

def reports (parts : List StoredPart) : List DLRStatus := parts.filterMap StoredPart.report

theorem exists_map_hear (now : ℤ) (hnodup : (parts.map StoredPart.id).Nodup) (hp : p ∈ parts)
    (hid : p.id = r.messageID) : ∃ before after, parts = before ++ p :: after ∧
      parts.map (StoredPart.hear r now) = before ++ p.hear r now :: after := by
  obtain ⟨before, after, rfl⟩ := append_of_mem hp
  refine ⟨before, after, rfl, ?_⟩
  rw [map_append, map_cons, nodup_append] at hnodup
  have hne : ∀ q, q ∈ before ∨ q ∈ after → q.hear r now = q := by
    rintro q (hq | hq)
    · refine StoredPart.hear_of_ne fun heq ↦ ?_
      exact hnodup.2.2 _ (mem_map_of_mem hq) _ mem_cons_self (heq.trans hid.symm)
    · refine StoredPart.hear_of_ne fun heq ↦ ?_
      refine (nodup_cons.mp hnodup.2.1).1 ?_
      rw [hid, ← heq]
      exact mem_map_of_mem hq
  rw [map_append, map_cons]
  congr 1
  · exact map_congr_left (g := id) (fun q hq ↦ hne q (Or.inl hq)) |>.trans (map_id _)
  · congr 1
    exact map_congr_left (g := id) (fun q hq ↦ hne q (Or.inr hq)) |>.trans (map_id _)

theorem exists_reports_hear (hnodup : (parts.map StoredPart.id).Nodup) (hp : p ∈ parts)
    (hid : p.id = r.messageID) (hnil : p.receipts = []) (hnow : now < p.expiresAt) :
    ∃ before after, reports parts = before ++ after ∧
      reports (parts.map (StoredPart.hear r now)) = before ++ r.status :: after := by
  obtain ⟨before, after, hparts, hmap⟩ := exists_map_hear now hnodup hp hid
  refine ⟨reports before, reports after, ?_, ?_⟩
  · have hreport : p.report = none := by
      rw [StoredPart.report, hnil]
      rfl
    rw [hparts, reports, filterMap_append, filterMap_cons_none hreport]
    rfl
  · have hreport : (p.hear r now).report = some r.status := by
      rw [StoredPart.report_hear_of_nil hid hnil, if_pos hnow]
    rw [hmap, reports, filterMap_append, filterMap_cons_some hreport]
    rfl

end Reports

/-! ## What is to be sent -/

/-- What the reports of all parts come to: of a single part its own status, of several parts whether
they were all delivered. -/
def outcome : List DLRStatus → DLRStatus
  | [status] => status
  | statuses => if statuses.all (· = .delivrd) then .delivrd else .undeliv

theorem outcome_of_many {statuses : List DLRStatus} (h : 1 < statuses.length) : outcome statuses
      = if statuses.any fun status ↦ !decide (status = .delivrd) then .undeliv else .delivrd := by
  have heq : outcome statuses = if statuses.all (· = .delivrd) then .delivrd else .undeliv := by
    rcases statuses with _ | ⟨status, _ | ⟨status', statuses⟩⟩
    · exact absurd h (by decide)
    · exact absurd h (by simp)
    · rfl
  rw [heq, all_eq_not_any_not]
  cases statuses.any fun status ↦ !decide (status = .delivrd) <;> rfl

theorem outcome_eq_delivrd_iff {statuses : List DLRStatus} (h : statuses ≠ []) :
    outcome statuses = .delivrd ↔ ∀ status ∈ statuses, status = .delivrd := by
  rcases statuses with _ | ⟨status, _ | ⟨status', statuses⟩⟩
  · exact absurd rfl h
  · simp [outcome]
  · simp [outcome]

variable {rest : List SMSPart}

namespace Delivery

variable (msg : SendSMSMessage)

/-- What is to be sent for the message: the report of a failed submission, or the outcome once all
parts are reported. -/
def expected (s : Delivery) : List DLRStatus :=
  if s.failed then [if s.parts.length > 0 then .failedPartialSubmit else .failedSubmit]
  else if msg.parts ≠ [] ∧ (reports s.parts).length = msg.parts.length then
    [outcome (reports s.parts)]
  else []

/-- What the gateway is to have for a message of several parts. -/
def tracker (s : Delivery) : Option MultipartState :=
  if msg.parts.length ≤ 1 ∨ (reports s.parts).length = msg.parts.length then none
  else some ⟨msg.parts.length, (reports s.parts).length,
    (reports s.parts).any fun status ↦ !decide (status = .delivrd)⟩

def sentFor (s : Delivery) : List CardEvent :=
  s.sent.filter fun ev ↦ ev.type = .dlrReceived ∧ ev.msgID = some msg.msgID

def entryFor (expiresAt : ℤ) : CorrelationEntry :=
  ⟨⟨msg.msgID, msg.campaignID, msg.cardID, msg.msisdn⟩, expiresAt⟩

/-- **The invariant.** The memory of the gateway and the events agree with the history. -/
structure Consistent (s : Delivery) : Prop where
  nodup : (s.parts.map StoredPart.id).Nodup
  /-- A part is correlated until its first receipt, unless the correlation has expired. -/
  correlated : ∀ p ∈ s.parts, p.receipts = [] →
    s.gateway.correlations p.id = some (entryFor msg p.expiresAt) ∨
      p.expiresAt < s.clock ∧ s.gateway.correlations p.id = none
  heard : ∀ p ∈ s.parts, p.receipts ≠ [] → s.gateway.correlations p.id = none
  own : ∀ id entry, s.gateway.correlations id = some entry →
    entry.mapping.msgID = msg.msgID → ∃ p ∈ s.parts, p.id = id
  fresh : ∀ id acceptedAt, s.accepted = some (id, acceptedAt) →
    s.gateway.correlations id = none ∧ ∀ p ∈ s.parts, p.id ≠ id
  count : s.parts.length + s.accepted.toList.length + s.rest.length = msg.parts.length
  fails : s.failed = true → s.rest ≠ [] ∧ s.accepted = none
  tracked : s.gateway.multipart msg.msgID = s.tracker msg
  sent : (s.sentFor msg).map CardEvent.dlrStatus = s.expected msg

section Steps

variable {msg} {s s' : Delivery}

theorem length_reports_le (parts : List StoredPart) : (reports parts).length ≤ parts.length :=
  length_filterMap_le _ _

theorem reports_concat_nil (parts : List StoredPart) (id : String) (expiresAt : ℤ) :
    reports (parts ++ [⟨id, expiresAt, []⟩]) = reports parts := by
  rw [reports, filterMap_append]
  exact append_nil _

theorem consistent_start {g : Gateway} (hnew : g.New msg.msgID) (clock : ℤ) :
    Consistent msg (start msg g clock) where
  nodup := nodup_nil
  correlated p hp := absurd hp not_mem_nil
  heard p hp := absurd hp not_mem_nil
  own id entry hentry hmsg := by
    rw [start, correlations_track] at hentry
    exact absurd hmsg (hnew.uncorrelated id entry hentry)
  fresh id acceptedAt h := by cases h
  count := by simp [start]
  fails h := by cases h
  tracked := by
    rw [start, tracker, track]
    by_cases hone : 1 < msg.parts.length
    · have hne : ¬ 0 = msg.parts.length := by omega
      simp [hone, not_le.mpr hone, reports, hne]
    · simp [hone, not_lt.mp hone, hnew.untracked]
  sent := by
    have hempty : ¬ (msg.parts ≠ [] ∧ (reports []).length = msg.parts.length) := by
      rintro ⟨hne, hlength⟩
      exact hne (length_eq_zero_iff.mp hlength.symm)
    change [] = if msg.parts ≠ [] ∧ (reports []).length = msg.parts.length then _ else []
    rw [if_neg hempty]

theorem Consistent.tick (h : Consistent msg s) {now : ℤ} (hnow : s.clock ≤ now) :
    Consistent msg { s with clock := now } :=
  { h with
    correlated := fun p hp hnil ↦ (h.correlated p hp hnil).imp_right
      (And.imp_left fun hexpired ↦ lt_of_lt_of_le hexpired hnow) }

theorem next_eq (s : Delivery) (a : DeliveryAction) :
    s.next msg a = { s with clock := a.now }.step msg a := by
  obtain ⟨gateway, rest, accepted, failed, sent, clock, parts⟩ := s
  cases a with
  | submit result eventID now =>
    rcases rest with _ | ⟨part, rest⟩
    · rfl
    · cases result <;> rfl
  | store now => rcases accepted with _ | ⟨id, acceptedAt⟩ <;> rfl
  | _ => rfl

theorem submit_accepted {part : SMSPart} (hrest : s.rest = part :: rest)
    (id : String) (eventID : UUID) (now : ℤ) :
    s.submit msg (.accepted id) eventID now = { s with rest, accepted := some (id, now) } := by
  obtain ⟨gateway, _, accepted, failed, sent, clock, parts⟩ := s
  cases hrest
  rfl

theorem submit_refused {part : SMSPart} (hrest : s.rest = part :: rest) {result : SubmitResult}
    {err : String} (herr : result.error? part = some err) (eventID : UUID) (now : ℤ) :
    s.submit msg result eventID now = { s with
      failed := true
      sent := s.sent ++ [handleSubmitFailure msg s.parts.length err eventID now] } := by
  obtain ⟨gateway, _, accepted, failed, sent, clock, parts⟩ := s
  cases hrest
  cases result with
  | accepted id => cases herr
  | transportError _ | rejected _ => cases herr; rfl

variable (h : Consistent msg s)

include h

theorem Consistent.accept {id : String} {now : ℤ} {part : SMSPart} (hrest : s.rest = part :: rest)
    (hnone : s.accepted = none) (hunused : s.Unused id) (hgoing : s.failed = false) :
    Consistent msg { s with rest, accepted := some (id, now) } :=
  { h with
    fresh := by
      intro id' acceptedAt heq
      obtain ⟨rfl, -⟩ := Prod.mk.inj (Option.some.inj heq)
      exact ⟨hunused.1, hunused.2.1⟩
    count := by
      have hcount := h.count
      rw [hrest, hnone] at hcount
      simpa [Nat.add_assoc, Nat.add_comm 1] using hcount
    fails := fun hfailed ↦ absurd (hgoing.symm.trans hfailed) Bool.false_ne_true }

theorem Consistent.refuse {part : SMSPart}
    (hrest : s.rest = part :: rest) (hnone : s.accepted = none) (hgoing : s.failed = false)
    (err : String) (eventID : UUID) (now : ℤ) :
    Consistent msg { s with
      failed := true
      sent := s.sent ++
        [handleSubmitFailure msg s.parts.length err eventID now] } where
  nodup := h.nodup
  correlated := h.correlated
  heard := h.heard
  own := h.own
  fresh := h.fresh
  count := h.count
  fails _ := by
    refine ⟨?_, hnone⟩
    change s.rest ≠ []
    rw [hrest]
    exact cons_ne_nil _ _
  tracked := h.tracked
  sent := by
    have hcount := h.count
    rw [hrest, length_cons] at hcount
    -- a part is missing, so nothing was sent before
    have hmissing : ¬ (msg.parts ≠ [] ∧ (reports s.parts).length = msg.parts.length) := by
      rintro ⟨-, hlength⟩
      have hle := length_reports_le s.parts
      omega
    have hbefore : (s.sentFor msg).map CardEvent.dlrStatus = [] := by
      rw [h.sent, expected, hgoing, if_neg Bool.false_ne_true, if_neg hmissing]
    have hnil : s.sentFor msg = [] := map_eq_nil_iff.mp hbefore
    rw [sentFor] at hnil
    rw [sentFor, filter_append, hnil]
    simp [handleSubmitFailure, expected]

theorem Consistent.store {id : String} {acceptedAt : ℤ}
    (hacc : s.accepted = some (id, acceptedAt)) (now : ℤ) :
    Consistent msg { s with
      gateway := s.gateway.correlate msg id now
      accepted := none
      parts := s.parts ++ [⟨id, now + correlationTTL, []⟩] } := by
  obtain ⟨hnone, hdifferent⟩ := h.fresh id acceptedAt hacc
  have hself : (s.gateway.correlate msg id now).correlations id
      = some (entryFor msg (now + correlationTTL)) := update_self _ _ _
  have hother : ∀ id' ≠ id, (s.gateway.correlate msg id now).correlations id'
      = s.gateway.correlations id' := fun id' hne ↦ update_of_ne hne _ _
  have hgoing : s.failed = false := by
    by_contra hfailed
    cases hacc.symm.trans (h.fails (Bool.eq_true_of_not_eq_false hfailed)).2
  refine ⟨?_, ?_, ?_, ?_, ?_, ?_, ?_, ?_, ?_⟩
  · rw [map_append, map_singleton, ← concat_eq_append]
    refine h.nodup.concat fun hmem ↦ ?_
    obtain ⟨p, hp, hid⟩ := mem_map.mp hmem
    exact hdifferent p hp hid
  · intro p hp hnil
    rcases mem_append.mp hp with hp | hp
    · rw [hother p.id (hdifferent p hp)]
      exact h.correlated p hp hnil
    · obtain rfl := mem_singleton.mp hp
      exact Or.inl hself
  · intro p hp hne
    rcases mem_append.mp hp with hp | hp
    · rw [hother p.id (hdifferent p hp)]
      exact h.heard p hp hne
    · obtain rfl := mem_singleton.mp hp
      exact absurd rfl hne
  · intro id' entry hentry hmsg
    by_cases hid : id' = id
    · exact ⟨_, mem_append_right _ mem_cons_self, hid.symm⟩
    · rw [hother id' hid] at hentry
      obtain ⟨p, hp, hpid⟩ := h.own id' entry hentry hmsg
      exact ⟨p, mem_append_left _ hp, hpid⟩
  · intro id' acceptedAt' heq
    cases heq
  · have hcount := h.count
    rw [hacc] at hcount
    simpa [Nat.add_assoc] using hcount
  · intro hfailed
    cases hgoing.symm.trans hfailed
  · change s.gateway.multipart msg.msgID = _
    rw [h.tracked, tracker, tracker, reports_concat_nil]
  · change (s.sentFor msg).map CardEvent.dlrStatus = _
    rw [h.sent, expected, expected, reports_concat_nil, hgoing]
    rfl

/-- Steps of others, which leave the correlations of the parts alone or remove expired ones. -/
theorem Consistent.of_gateway {g : Gateway}
    (hparts : ∀ p ∈ s.parts, g.correlations p.id = s.gateway.correlations p.id ∨
      p.expiresAt < s.clock ∧ g.correlations p.id = none)
    (hfresh : ∀ id acceptedAt, s.accepted = some (id, acceptedAt) →
      s.gateway.correlations id = none → g.correlations id = none)
    (hown : ∀ id entry, g.correlations id = some entry → entry.mapping.msgID = msg.msgID →
      s.gateway.correlations id = some entry)
    (htracked : g.multipart msg.msgID = s.gateway.multipart msg.msgID) :
    Consistent msg { s with gateway := g } where
  nodup := h.nodup
  correlated p hp hnil := by
    rcases hparts p hp with heq | hremoved
    · change g.correlations p.id = _ ∨ _ ∧ g.correlations p.id = _
      rw [heq]
      exact h.correlated p hp hnil
    · exact Or.inr hremoved
  heard p hp hne := by
    rcases hparts p hp with heq | hremoved
    · exact heq.trans (h.heard p hp hne)
    · exact hremoved.2
  own id entry hentry hmsg := h.own id entry (hown id entry hentry hmsg) hmsg
  fresh id acceptedAt hacc :=
    ⟨hfresh id acceptedAt hacc (h.fresh id acceptedAt hacc).1, (h.fresh id acceptedAt hacc).2⟩
  count := h.count
  fails := h.fails
  tracked := htracked.trans h.tracked
  sent := h.sent

theorem Consistent.hear {r : DLRReceipt} {now : ℤ} {g : Gateway} {sent : List CardEvent}
    (hcorrelations : g.correlations = update s.gateway.correlations r.messageID none)
    (hs' : s' = { s with
      gateway := g
      sent := sent
      parts := s.parts.map (StoredPart.hear r now) })
    (htracked : g.multipart msg.msgID = s'.tracker msg)
    (hsent : (s'.sentFor msg).map CardEvent.dlrStatus = s'.expected msg) : Consistent msg s' := by
  have hother : ∀ id ≠ r.messageID, g.correlations id = s.gateway.correlations id := by
    intro id hne
    rw [hcorrelations, update_of_ne hne]
  have hself : g.correlations r.messageID = none := by
    rw [hcorrelations, update_self]
  have hids : (s.parts.map (StoredPart.hear r now)).map StoredPart.id
      = s.parts.map StoredPart.id := by
    rw [map_map]
    exact map_congr_left fun p _ ↦ StoredPart.id_hear r now p
  subst hs'
  refine ⟨?_, ?_, ?_, ?_, ?_, ?_, h.fails, htracked, hsent⟩
  · rw [hids]
    exact h.nodup
  · intro q hq hnil
    obtain ⟨p, hp, rfl⟩ := mem_map.mp hq
    by_cases hid : p.id = r.messageID
    · rw [StoredPart.hear, if_pos hid] at hnil
      exact absurd hnil (append_ne_nil_of_right_ne_nil _ (cons_ne_nil _ _))
    · rw [StoredPart.hear_of_ne hid] at hnil ⊢
      rw [hother p.id hid]
      exact h.correlated p hp hnil
  · intro q hq hne
    obtain ⟨p, hp, rfl⟩ := mem_map.mp hq
    rw [StoredPart.id_hear]
    by_cases hid : p.id = r.messageID
    · exact hid ▸ hself
    · rw [StoredPart.hear_of_ne hid] at hne
      rw [hother p.id hid]
      exact h.heard p hp hne
  · intro id entry hentry hmsg
    have hid : id ≠ r.messageID := by
      rintro rfl
      cases hself.symm.trans hentry
    rw [hother id hid] at hentry
    obtain ⟨p, hp, hpid⟩ := h.own id entry hentry hmsg
    exact ⟨p.hear r now, mem_map_of_mem hp, (StoredPart.id_hear r now p).trans hpid⟩
  · intro id acceptedAt hacc
    obtain ⟨hnone, hdifferent⟩ := h.fresh id acceptedAt hacc
    refine ⟨?_, fun q hq ↦ ?_⟩
    · by_cases hid : id = r.messageID
      · exact hid ▸ hself
      · rw [hother id hid, hnone]
    · obtain ⟨p, hp, rfl⟩ := mem_map.mp hq
      rw [StoredPart.id_hear]
      exact hdifferent p hp
  · rw [length_map]
    exact h.count

theorem Consistent.receipt_quiet {r : DLRReceipt} {now : ℤ} {g : Gateway} {sent : List CardEvent}
    (hcorrelations : g.correlations = update s.gateway.correlations r.messageID none)
    (htracked : g.multipart msg.msgID = s.gateway.multipart msg.msgID)
    (hsent : ∀ ev ∈ sent, ev.msgID ≠ some msg.msgID)
    (hreports : ∀ p ∈ s.parts, (p.hear r now).report = p.report) :
    Consistent msg { s with
      gateway := g
      sent := s.sent ++ sent
      parts := s.parts.map (StoredPart.hear r now) } := by
  have heq : reports (s.parts.map (StoredPart.hear r now)) = reports s.parts := by
    rw [reports, filterMap_map]
    exact filterMap_congr hreports
  refine h.hear hcorrelations rfl ?_ ?_
  · rw [htracked, h.tracked, tracker, tracker, heq]
  · have hnone :
        sent.filter (fun ev ↦ ev.type = .dlrReceived ∧ ev.msgID = some msg.msgID) = [] := by
      rw [filter_eq_nil_iff]
      intro ev hev hid
      exact hsent ev hev (of_decide_eq_true hid).2
    have hsame : (s.sentFor msg).map CardEvent.dlrStatus = s.expected msg := h.sent
    rw [sentFor] at hsame
    rw [sentFor, filter_append, hnone, append_nil, hsame, expected, expected, heq, length_map]

omit h

/-! ### The first receipt of a part, in time -/

/-- The receipt adds its status to the reports. -/
private structure AddsReport (s : Delivery) (r : DLRReceipt) (now : ℤ)
    (before after : List DLRStatus) : Prop where
  old : reports s.parts = before ++ after
  new : reports (s.parts.map (StoredPart.hear r now)) = before ++ r.status :: after

section FirstReceipt

variable {r : DLRReceipt} {eventID : UUID} {now expiresAt : ℤ} {before after : List DLRStatus}
  (hadds : AddsReport s r now before after)

include hadds

private theorem AddsReport.length_eq :
    (reports (s.parts.map (StoredPart.hear r now))).length = (reports s.parts).length + 1 := by
  rw [hadds.new, hadds.old]
  simp [Nat.add_assoc]

private theorem tracker_receipt : (s.receipt r eventID now).tracker msg = if msg.parts.length ≤ 1 ∨
      (reports s.parts).length + 1 = msg.parts.length then none
      else some ⟨msg.parts.length, (reports s.parts).length + 1,
        ((reports s.parts).any fun status ↦ !decide (status = .delivrd)) ||
          !decide (r.status = .delivrd)⟩ := by
  change tracker msg { s with parts := s.parts.map (StoredPart.hear r now) } = _
  rw [tracker, hadds.length_eq, hadds.new, hadds.old]
  simp [Bool.or_comm, Bool.or_left_comm]

variable (h : Consistent msg s)

include h

theorem Consistent.length_reports_lt : (reports s.parts).length < msg.parts.length := by
  have hle : (reports s.parts).length + 1 ≤ s.parts.length := by
    rw [← hadds.length_eq, ← length_map (f := StoredPart.hear r now)]
    exact length_reports_le _
  have hcount := h.count
  omega

variable (hall : (reports s.parts).length + 1 = msg.parts.length)

include hall

theorem Consistent.not_failed : s.failed = false := by
  have hle : (reports (s.parts.map (StoredPart.hear r now))).length ≤ _ := length_reports_le _
  rw [hadds.length_eq, length_map] at hle
  have hcount := h.count
  by_contra hfailed
  have hrest := length_pos_iff.mpr (h.fails (Bool.eq_true_of_not_eq_false hfailed)).1
  omega

theorem Consistent.expected_receipt :
    (s.receipt r eventID now).expected msg = [outcome (before ++ r.status :: after)] := by
  have hne : msg.parts ≠ [] := by
    intro hempty
    rw [hempty] at hall
    exact absurd hall (Nat.succ_ne_zero _)
  change expected msg { s with parts := s.parts.map (StoredPart.hear r now) } = _
  rw [expected]
  simp only [h.not_failed hadds hall, Bool.false_eq_true, if_false]
  rw [if_pos ⟨hne, hadds.length_eq.trans hall⟩, hadds.new]

theorem Consistent.sentFor_receipt {ev : CardEvent}
    (hev : (s.gateway.handleDLR (some r) eventID now).2 = some ev)
    (htype : ev.type = .dlrReceived) (hmsg : ev.msgID = some msg.msgID) :
    ((s.receipt r eventID now).sentFor msg).map CardEvent.dlrStatus = [ev.dlrStatus] := by
  have hlt := h.length_reports_lt hadds
  have hnothing : s.sentFor msg = [] := by
    refine map_eq_nil_iff.mp (h.sent.trans ?_)
    rw [expected, h.not_failed hadds hall, if_neg Bool.false_ne_true,
      if_neg fun hand ↦ hlt.ne hand.2]
  rw [sentFor] at hnothing
  rw [sentFor, receipt, hev, filter_append, hnothing]
  simp [htype, hmsg]

omit hall

variable (hnow : now < expiresAt)
  (hentry : s.gateway.correlations r.messageID = some (entryFor msg expiresAt))

include hnow hentry

theorem Consistent.receipt_more (hopen : (reports s.parts).length + 1 < msg.parts.length) :
    Consistent msg (s.receipt r eventID now) := by
  have htracked := h.tracked
  rw [tracker, if_neg (by omega)] at htracked
  have heq := handleDLR_more eventID hentry hnow htracked hopen
  have hmulti := congrArg (fun answer ↦ answer.1.multipart msg.msgID) heq
  refine h.hear (handleDLR_frame eventID now hentry).1 rfl ?_ ?_
  · rw [tracker_receipt hadds, if_neg (by omega)]
    exact hmulti.trans (update_self _ _ _)
  · have hquiet : (s.receipt r eventID now).sentFor msg = s.sentFor msg := by
      rw [sentFor, receipt, heq]
      simp [sentFor]
    rw [hquiet, h.sent]
    change _ = expected msg { s with parts := s.parts.map (StoredPart.hear r now) }
    have hbefore : ¬ (msg.parts ≠ [] ∧ (reports s.parts).length = msg.parts.length) :=
      fun hand ↦ (h.length_reports_lt hadds).ne hand.2
    have hafter : ¬ (msg.parts ≠ [] ∧ (reports s.parts).length + 1 = msg.parts.length) :=
      fun hand ↦ hopen.ne hand.2
    rw [expected, expected, hadds.length_eq, length_map, if_neg hbefore, if_neg hafter]

theorem Consistent.receipt_last
    (hmany : 1 < msg.parts.length) (hall : (reports s.parts).length + 1 = msg.parts.length) :
    Consistent msg (s.receipt r eventID now) := by
  have htracked := h.tracked
  rw [tracker, if_neg (by omega)] at htracked
  obtain ⟨errorCode, heq⟩ := handleDLR_last eventID hentry hnow htracked hall.ge
  have hmulti := congrArg (fun answer ↦ answer.1.multipart msg.msgID) heq
  refine h.hear (handleDLR_frame eventID now hentry).1 rfl ?_ ?_
  · rw [tracker_receipt hadds, if_pos (Or.inr hall)]
    exact hmulti.trans (update_self _ _ _)
  · rw [h.sentFor_receipt hadds hall (congrArg Prod.snd heq) rfl rfl, h.expected_receipt hadds hall]
    have hlen : (before ++ r.status :: after).length = msg.parts.length := by
      rw [← hadds.new, hadds.length_eq, hall]
    rw [outcome_of_many (hlen ▸ hmany), hadds.old]
    simp [dlrEvent, Bool.or_comm, Bool.or_left_comm]

theorem Consistent.receipt_only
    (hone : msg.parts.length ≤ 1) : Consistent msg (s.receipt r eventID now) := by
  have hlt := h.length_reports_lt hadds
  have hall : (reports s.parts).length + 1 = msg.parts.length := by omega
  have htracked := h.tracked
  rw [tracker, if_pos (Or.inl hone)] at htracked
  have heq := handleDLR_untracked eventID hentry hnow htracked
  refine h.hear (handleDLR_frame eventID now hentry).1 rfl ?_ ?_
  · rw [heq, tracker_receipt hadds, if_pos (Or.inl hone)]
    exact htracked
  · rw [h.sentFor_receipt hadds hall (congrArg Prod.snd heq) rfl rfl, h.expected_receipt hadds hall]
    have hempty : (before ++ after).length = 0 := by
      rw [← hadds.old]
      omega
    obtain ⟨hb, ha⟩ := append_eq_nil_iff.mp (length_eq_zero_iff.mp hempty)
    rw [hb, ha]
    rfl

end FirstReceipt

/-- **The first receipt of a part, in time.** -/
theorem Consistent.receipt_timely (h : Consistent msg s) {r : DLRReceipt} {eventID : UUID} {now : ℤ}
    {p : StoredPart} (hp : p ∈ s.parts) (hid : p.id = r.messageID) (hnil : p.receipts = [])
    (hnow : now < p.expiresAt)
    (hentry : s.gateway.correlations r.messageID = some (entryFor msg p.expiresAt)) :
    Consistent msg (s.receipt r eventID now) := by
  obtain ⟨before, after, hold, hnew⟩ := exists_reports_hear h.nodup hp hid hnil hnow
  have hadds : AddsReport s r now before after := ⟨hold, hnew⟩
  rcases Nat.lt_or_ge 1 msg.parts.length with hmany | hone
  · rcases Nat.lt_or_ge ((reports s.parts).length + 1) msg.parts.length with hopen | hlast
    · exact h.receipt_more hadds hnow hentry hopen
    · have hlt := h.length_reports_lt hadds
      exact h.receipt_last hadds hnow hentry hmany (by omega)
  · exact h.receipt_only hadds hnow hentry hone

theorem report_hear_of_late {p : StoredPart} {r : DLRReceipt} {now : ℤ}
    (h : p.id = r.messageID → p.receipts = [] → p.expiresAt ≤ now) :
    (p.hear r now).report = p.report := by
  by_cases hid : p.id = r.messageID
  · by_cases hnil : p.receipts = []
    · rw [StoredPart.report_hear_of_nil hid hnil, if_neg (not_lt.mpr (h hid hnil)),
        StoredPart.report, hnil]
      rfl
    · exact StoredPart.report_hear_of_ne_nil hnil
  · rw [StoredPart.hear_of_ne hid]

theorem Consistent.receipt (h : Consistent msg s) (r : DLRReceipt) (eventID : UUID) {now : ℤ}
    (hclock : s.clock ≤ now) : Consistent msg (s.receipt r eventID now) := by
  cases hcorr : s.gateway.correlations r.messageID with
  | none =>
    -- the part has been heard of, or its correlation has expired
    have heq : s.gateway.handleDLR (some r) eventID now = (s.gateway, none) := by
      refine handleDLR_of_unknown fun r' hr' ↦ ?_
      obtain rfl := Option.some.inj hr'
      exact hcorr
    rw [Delivery.receipt, heq]
    refine h.receipt_quiet ?_ rfl (forall_mem_nil _) fun p hp ↦ ?_
    · rw [← hcorr, update_eq_self]
    · refine report_hear_of_late fun hid hnil ↦ ?_
      rcases h.correlated p hp hnil with hentry | ⟨hexpired, -⟩
      · rw [hid, hcorr] at hentry
        cases hentry
      · exact (lt_of_lt_of_le hexpired hclock).le
  | some entry =>
    have hopen : ∀ p ∈ s.parts, p.id = r.messageID →
        p.receipts = [] ∧ entry = entryFor msg p.expiresAt := by
      intro p hp hid
      have hnil : p.receipts = [] := by
        by_contra hne
        have hnone := h.heard p hp hne
        rw [hid, hcorr] at hnone
        cases hnone
      rcases h.correlated p hp hnil with hentry | ⟨-, hnone⟩
      · rw [hid, hcorr] at hentry
        exact ⟨hnil, Option.some.inj hentry⟩
      · rw [hid, hcorr] at hnone
        cases hnone
    obtain ⟨hcorrelations, hmultipart⟩ := handleDLR_frame eventID now hcorr
    by_cases hown : entry.mapping.msgID = msg.msgID
    · obtain ⟨p, hp, hid⟩ := h.own _ entry hcorr hown
      obtain ⟨hnil, rfl⟩ := hopen p hp hid
      rcases lt_or_ge now p.expiresAt with hnow | hlate
      · exact h.receipt_timely hp hid hnil hnow hcorr
      · have heq := handleDLR_of_le eventID hcorr hlate
        refine h.receipt_quiet hcorrelations ?_ ?_ fun q hq ↦ ?_
        · rw [heq]
          rfl
        · rw [heq]
          exact forall_mem_nil _
        · refine report_hear_of_late fun hqid _ ↦ ?_
          have hexpires : p.expiresAt = q.expiresAt :=
            congrArg CorrelationEntry.expiresAt (hopen q hq hqid).2
          exact hexpires ▸ hlate
    · refine h.receipt_quiet hcorrelations (hmultipart _ (Ne.symm hown)) ?_ fun q hq ↦ ?_
      · intro ev hev hmsg
        have hid := msgID_of_handleDLR hcorr (Option.mem_toList.mp hev)
        exact hown (Option.some.inj (hid.symm.trans hmsg))
      · refine report_hear_of_late fun hqid _ ↦ absurd ?_ hown
        rw [(hopen q hq hqid).2]
        rfl

theorem Consistent.step (h : Consistent msg s) {a : DeliveryAction} (ha : Enabled msg s a)
    (hclock : s.clock = a.now) : Consistent msg (s.step msg a) := by
  obtain ⟨-, ha⟩ := ha
  cases a with
  | submit result eventID now =>
    obtain ⟨hgoing, hnone, hne, hunused⟩ := ha
    obtain ⟨part, rest, hrest⟩ := exists_cons_of_ne_nil hne
    rw [Delivery.step]
    cases result with
    | accepted id =>
      rw [submit_accepted hrest]
      exact h.accept hrest hnone (hunused id rfl) hgoing
    | transportError _ | rejected _ =>
      rw [submit_refused hrest rfl]
      exact h.refuse hrest hnone hgoing _ eventID now
  | store now =>
    obtain ⟨⟨id, acceptedAt⟩, hacc⟩ := Option.ne_none_iff_exists'.mp ha
    rw [Delivery.step, Delivery.store, hacc]
    exact h.store hacc now
  | receipt r eventID now => exact h.receipt r eventID hclock.le
  | track other now =>
    refine h.of_gateway (fun p _ ↦ Or.inl ?_) (fun id acceptedAt _ hnone ↦ ?_)
      (fun id entry hentry _ ↦ ?_) (multipart_track_of_ne (Ne.symm ha))
    · rw [correlations_track]
    · rw [correlations_track, hnone]
    · rwa [correlations_track] at hentry
  | correlate other id now =>
    obtain ⟨hmsg, hnone, hdifferent, hacc⟩ := ha
    have hother : ∀ id' ≠ id, (s.gateway.correlate other id now).correlations id'
        = s.gateway.correlations id' := fun id' hne ↦ update_of_ne hne _ _
    refine h.of_gateway (fun p hp ↦ Or.inl (hother _ (hdifferent p hp)))
      (fun id' acceptedAt heq hnone' ↦ ?_) (fun id' entry hentry hmsg' ↦ ?_) rfl
    · refine (hother id' fun hid ↦ hacc ?_).trans hnone'
      rw [heq, hid]
      rfl
    · by_cases hid : id' = id
      · have hself : (s.gateway.correlate other id now).correlations id = some _ :=
          update_self _ _ _
        rw [hid, hself] at hentry
        rw [← Option.some.inj hentry] at hmsg'
        exact absurd hmsg' hmsg
      · exact (hother id' hid).symm.trans hentry
  | cleanup now =>
    refine h.of_gateway (fun p hp ↦ ?_) (fun id acceptedAt _ hnone ↦ ?_)
      (fun id entry hentry _ ↦ (Option.filter_eq_some_iff.mp hentry).1) rfl
    · by_cases hnil : p.receipts = []
      · rcases h.correlated p hp hnil with hentry | ⟨hexpired, hnone⟩
        · by_cases hkept : now ≤ p.expiresAt
          · exact Or.inl ((cleanupCorrelations_some hentry hkept).trans hentry.symm)
          · refine Or.inr ⟨?_, by simp [cleanupCorrelations, entryFor, hentry, not_le.mp hkept]⟩
            rw [hclock]
            exact not_le.mp hkept
        · exact Or.inr ⟨hexpired, cleanupCorrelations_none now hnone⟩
      · have hnone := h.heard p hp hnil
        exact Or.inl ((cleanupCorrelations_none now hnone).trans hnone.symm)
    · exact cleanupCorrelations_none now hnone

theorem Consistent.next (h : Consistent msg s) {a : DeliveryAction} (ha : Enabled msg s a) :
    Consistent msg (s.next msg a) := by
  rw [next_eq]
  refine (h.tick ha.1).step ⟨le_rfl, ?_⟩ rfl
  cases a <;> exact ha.2

theorem consistent_of_runs {g : Gateway} (hnew : g.New msg.msgID) {clock : ℤ}
    {acts : List DeliveryAction} (hrun : (delivery msg).Runs (start msg g clock) acts) :
    Consistent msg ((delivery msg).after (start msg g clock) acts) :=
  hrun.invariant (fun _ _ h ha _ ↦ h.next ha) (consistent_start hnew clock)

end Steps

/-! ## One outcome -/

/-- All parts have been submitted, and the first receipt of each came in time. -/
def Complete (s : Delivery) : Prop :=
  s.rest = [] ∧ s.accepted = none ∧ s.parts ≠ [] ∧ ∀ p ∈ s.parts, p.report ≠ none

/-- What is sent for a message. `s.parts` are the parts that were submitted. -/
structure OneOutcome (s : Delivery) : Prop where
  atMostOne : (s.sentFor msg).length ≤ 1
  /-- Unless the submission fails, it is there exactly when all parts are reported. -/
  reported : s.failed = false → ((s.sentFor msg).length = 1 ↔ s.Complete)
  /-- It says whether all parts were delivered, or what became of the only part. -/
  status : s.Complete → ∃ ev, s.sentFor msg = [ev] ∧
    (ev.dlrStatus = .delivrd ↔ ∀ p ∈ s.parts, p.report = some .delivrd) ∧
    ∀ p, s.parts = [p] → p.report = some ev.dlrStatus
  /-- A submission that fails is reported at once. -/
  failure : s.failed = true → ∃ ev, s.sentFor msg = [ev] ∧
    ev.dlrStatus = if s.parts.length = 0 then .failedSubmit else .failedPartialSubmit

section Outcome

variable {msg} {s : Delivery}

theorem Consistent.complete_iff (h : Consistent msg s) :
    s.Complete ↔ msg.parts ≠ [] ∧ (reports s.parts).length = msg.parts.length := by
  have hcount := h.count
  have hle := length_reports_le s.parts
  have hall : (reports s.parts).length = s.parts.length ↔ ∀ p ∈ s.parts, p.report ≠ none := by
    rw [reports, filterMap_length_eq_length]
    simp only [Option.isSome_iff_ne_none]
  constructor
  · rintro ⟨hrest, hacc, hne, hreports⟩
    rw [hrest, hacc] at hcount
    have hlength : s.parts.length = msg.parts.length := hcount
    refine ⟨fun hempty ↦ hne ?_, (hall.mpr hreports).trans hlength⟩
    rw [hempty] at hlength
    exact length_eq_zero_iff.mp hlength
  · rintro ⟨hne, hlength⟩
    have hpos := length_pos_iff.mpr hne
    refine ⟨length_eq_zero_iff.mp (by omega), ?_, ?_, hall.mp (by omega)⟩
    · exact Option.toList_eq_nil_iff.mp (length_eq_zero_iff.mp (by omega))
    · exact length_pos_iff.mp (by omega)

theorem outcome_spec {parts : List StoredPart} (hne : parts ≠ [])
    (hreports : ∀ p ∈ parts, p.report ≠ none) :
    (outcome (reports parts) = .delivrd ↔ ∀ p ∈ parts, p.report = some .delivrd) ∧
      ∀ p, parts = [p] → p.report = some (outcome (reports parts)) := by
  have hmem : ∀ status, status ∈ reports parts ↔ ∃ p ∈ parts, p.report = some status := by
    intro status
    rw [reports, mem_filterMap]
  have hexists : ∀ p ∈ parts, ∃ status, p.report = some status := fun p hp ↦
    Option.ne_none_iff_exists'.mp (hreports p hp)
  have hsome : reports parts ≠ [] := by
    obtain ⟨p, hp⟩ := exists_mem_of_ne_nil parts hne
    obtain ⟨status, hstatus⟩ := hexists p hp
    exact ne_nil_of_mem ((hmem status).mpr ⟨p, hp, hstatus⟩)
  refine ⟨?_, ?_⟩
  · rw [outcome_eq_delivrd_iff hsome]
    constructor
    · intro hall p hp
      obtain ⟨status, hstatus⟩ := hexists p hp
      rw [hstatus, hall status ((hmem status).mpr ⟨p, hp, hstatus⟩)]
    · intro hall status hstatus
      obtain ⟨p, hp, hreport⟩ := (hmem status).mp hstatus
      exact Option.some.inj (hreport.symm.trans (hall p hp))
  · rintro p rfl
    obtain ⟨status, hstatus⟩ := hexists p mem_cons_self
    rw [reports, filterMap_cons_some hstatus, hstatus]
    rfl

theorem Consistent.oneOutcome (h : Consistent msg s) : OneOutcome msg s := by
  have hsent := h.sent
  have hlength : (s.sentFor msg).length = (s.expected msg).length := by
    rw [← hsent, length_map]
  have hone : ∀ status, s.expected msg = [status] →
      ∃ ev, s.sentFor msg = [ev] ∧ ev.dlrStatus = status := by
    intro status hexpected
    rw [hexpected] at hsent
    obtain ⟨ev, hev, hstatus⟩ := map_eq_singleton_iff.mp hsent
    exact ⟨ev, hev, hstatus⟩
  have hcomplete : s.Complete → s.expected msg = [outcome (reports s.parts)] := by
    intro hcomplete
    have hgoing : s.failed = false := by
      by_contra hfailed
      exact (h.fails (Bool.eq_true_of_not_eq_false hfailed)).1 hcomplete.1
    rw [expected, hgoing, if_neg Bool.false_ne_true, if_pos (h.complete_iff.mp hcomplete)]
  refine ⟨?_, fun hgoing ↦ ⟨fun hcount ↦ ?_, fun hdone ↦ ?_⟩, fun hdone ↦ ?_, fun hfailed ↦ ?_⟩
  · rw [hlength, expected]
    split_ifs <;> simp
  · by_contra hopen
    rw [hlength, expected, hgoing, if_neg Bool.false_ne_true,
      if_neg (mt h.complete_iff.mpr hopen)] at hcount
    cases hcount
  · rw [hlength, hcomplete hdone]
    rfl
  · obtain ⟨ev, hev, hstatus⟩ := hone _ (hcomplete hdone)
    refine ⟨ev, hev, ?_⟩
    rw [hstatus]
    exact outcome_spec hdone.2.2.1 hdone.2.2.2
  · obtain ⟨ev, hev, hstatus⟩ := hone (if s.parts.length > 0 then .failedPartialSubmit
      else .failedSubmit) (by rw [expected, if_pos hfailed])
    refine ⟨ev, hev, ?_⟩
    rw [hstatus]
    by_cases hnone : s.parts.length = 0
    · rw [if_pos hnone, if_neg (by omega)]
    · rw [if_neg hnone, if_pos (by omega)]

/-- **One outcome for each message.** Whatever the interleaving of the submission with receipts of
its parts, repeated or not, and with other traffic: at most one event is sent for the message. When
all parts are submitted there is one from the receipt on with which the last part is reported, and
when a submission fails that is the one. -/
theorem oneOutcome_of_runs {g : Gateway} (hnew : g.New msg.msgID) {clock : ℤ}
    {acts : List DeliveryAction} (hrun : (delivery msg).Runs (start msg g clock) acts) :
    OneOutcome msg ((delivery msg).after (start msg g clock) acts) :=
  (consistent_of_runs hnew hrun).oneOutcome

end Outcome

namespace TwoParts

/-- A gateway that has just been started. -/
def gateway : Gateway := ⟨fun _ ↦ none, fun _ ↦ none⟩

theorem gateway_new (msgID : UUID) : gateway.New msgID := by
  refine ⟨rfl, fun id entry hentry ↦ ?_⟩
  cases hentry

def message : SendSMSMessage :=
  ⟨.ofDigit 7, .ofDigit 1, .ofDigit 2, "46700000001", 1, 1, 4, 127, 64,
    [⟨1, 2, 0, [1]⟩, ⟨2, 2, 0, [2]⟩]⟩

/-- The first part is reported, twice, while the second one is being submitted. -/
def acts : List DeliveryAction :=
  [.submit (.accepted "a") (.ofDigit 1) 0, .store 1, .receipt ⟨"a", .delivrd, ""⟩ (.ofDigit 3) 2,
    .submit (.accepted "b") (.ofDigit 2) 3, .receipt ⟨"a", .delivrd, ""⟩ (.ofDigit 4) 4, .store 5,
    .receipt ⟨"b", .undeliv, "1"⟩ (.ofDigit 5) 6]

theorem runs : (delivery message).Runs (start message gateway 0) acts := by
  refine ⟨⟨⟨by decide, rfl, rfl, by decide, ?_⟩, trivial⟩,
    ⟨⟨by decide, by decide⟩, trivial⟩, ⟨⟨by decide, trivial⟩, trivial⟩,
    ⟨⟨by decide, rfl, rfl, by decide, ?_⟩, trivial⟩, ⟨⟨by decide, trivial⟩, trivial⟩,
    ⟨⟨by decide, by decide⟩, trivial⟩, ⟨⟨by decide, trivial⟩, trivial⟩, trivial⟩
  · rintro id ⟨⟩
    decide +kernel
  · rintro id ⟨⟩
    decide +kernel

end TwoParts

open TwoParts

theorem oneOutcome_of_runs_twoParts :
    OneOutcome message ((delivery message).after (start message TwoParts.gateway 0) acts) ∧
    ((((delivery message).after (start message TwoParts.gateway 0) acts).sentFor message).map
      CardEvent.dlrStatus) = [.undeliv] :=
  ⟨oneOutcome_of_runs (gateway_new _) runs, by decide +kernel⟩

/-! ## The submit loop -/

/-- The steps of the submit loop, from part number `i`, when nothing else happens. -/
def sending (results : ℕ → SubmitResult) (eventID : UUID) (now : ℤ) :
    List SMSPart → ℕ → List DeliveryAction
  | [], _ => []
  | _ :: parts, i => .submit (results i) eventID now :: match results i with
    | .accepted _ => .store now :: sending results eventID now parts (i + 1)
    | _ => []

theorem after_sending (results : ℕ → SubmitResult) (eventID : UUID) (now : ℤ) (s : Delivery)
    (hnone : s.accepted = none) :
    ((delivery msg).after s (sending results eventID now s.rest s.parts.length)).gateway
        = (submitParts msg results eventID now s.rest s.parts.length s.gateway).1 ∧
      ((delivery msg).after s (sending results eventID now s.rest s.parts.length)).sent = s.sent ++
        (submitParts msg results eventID now s.rest s.parts.length s.gateway).2.toList := by
  generalize hrest : s.rest = parts
  induction parts generalizing s with
  | nil => simp [sending, submitParts]
  | cons part parts ih =>
    cases hresult : results s.parts.length with
    | accepted id =>
      have hboth : (s.next msg (.submit (.accepted id) eventID now)).next msg (.store now)
          = { s with
            gateway := s.gateway.correlate msg id now
            rest := parts
            accepted := none
            clock := now
            parts := s.parts ++ [⟨id, now + correlationTTL, []⟩] } := by
        obtain ⟨gateway, _, accepted, failed, sent, clock, stored⟩ := s
        cases hrest
        rfl
      have h := ih _ (congrArg accepted hboth) (congrArg rest hboth)
      rw [hboth] at h
      simp only [length_append, length_singleton] at h
      simp only [sending, hresult, submitParts, Machine.after_cons]
      change ((delivery msg).after ((s.next msg _).next msg _) _).gateway = _ ∧
        ((delivery msg).after ((s.next msg _).next msg _) _).sent = _
      rw [hboth]
      exact h
    | transportError _ | rejected _ =>
      simp only [sending, hresult, submitParts, Machine.after_cons, Machine.after_nil]
      change ({ s.submit msg _ eventID now with clock := now } : Delivery).gateway = _ ∧
        ({ s.submit msg _ eventID now with clock := now } : Delivery).sent = _
      rw [submit_refused hrest rfl]
      exact ⟨rfl, rfl⟩

/-- **The steps of the sender make `handleSendSMS`**, when nothing comes in between. -/
theorem after_sending_start (results : ℕ → SubmitResult) (eventID : UUID) (now clock : ℤ)
    (g : Gateway) :
    let s := (delivery msg).after (start msg g clock) (sending results eventID now msg.parts 0)
    (s.gateway, s.sent) = ((g.handleSendSMS msg results eventID now).1,
      (g.handleSendSMS msg results eventID now).2.toList) := by
  have h := after_sending msg results eventID now (start msg g clock) rfl
  rw [handleSendSMS_eq]
  exact Prod.ext h.1 h.2

/-! ## Receipts that are attributed -/

/-- The receipt is attributed to the message: it is reported or counted. -/
def Attributes (g : Gateway) (r : DLRReceipt) (eventID : UUID) (now : ℤ) (msgID : UUID) : Prop :=
  (∃ ev, (g.handleDLR (some r) eventID now).2 = some ev ∧ ev.msgID = some msgID) ∨
    ∃ state state', g.multipart msgID = some state ∧
      (g.handleDLR (some r) eventID now).1.multipart msgID = some state' ∧
      state'.resolved = state.resolved + 1

/-- The receipt is for a part that the SMSC has accepted, and within the lifetime of a
correlation. -/
def Due (s : Delivery) (r : DLRReceipt) (now : ℤ) : Prop :=
  (∃ p ∈ s.parts, p.id = r.messageID ∧ now < p.expiresAt) ∨
    ∃ acceptedAt, s.accepted = some (r.messageID, acceptedAt) ∧ now < acceptedAt + correlationTTL

section Attribution

variable {msg} {g : Gateway} {r : DLRReceipt} {now : ℤ}

theorem not_attributes_of_unknown (eventID msgID : UUID) (h : g.correlations r.messageID = none) :
    ¬ Attributes g r eventID now msgID := by
  have heq : g.handleDLR (some r) eventID now = (g, none) := by
    refine handleDLR_of_unknown fun r' hr' ↦ ?_
    obtain rfl := Option.some.inj hr'
    exact h
  rw [Attributes, heq]
  rintro (⟨ev, hev, -⟩ | ⟨state, state', hstate, hstate', hcount⟩)
  · cases hev
  · obtain rfl := Option.some.inj (hstate.symm.trans hstate')
    exact Nat.succ_ne_self _ hcount.symm

theorem attributes_of_correlated {entry : CorrelationEntry} (eventID : UUID)
    (hentry : g.correlations r.messageID = some entry) (hnow : now < entry.expiresAt) :
    Attributes g r eventID now entry.mapping.msgID := by
  cases htracker : g.multipart entry.mapping.msgID with
  | none =>
    have heq := handleDLR_untracked eventID hentry hnow htracker
    exact Or.inl ⟨_, congrArg Prod.snd heq, rfl⟩
  | some state =>
    rcases lt_or_ge (state.resolved + 1) state.total with hmore | hlast
    · have heq := handleDLR_more eventID hentry hnow htracker hmore
      have hcounted := (congrArg (fun answer ↦ answer.1.multipart entry.mapping.msgID) heq).trans
        (update_self _ _ _)
      exact Or.inr ⟨state, _, htracker, hcounted, rfl⟩
    · obtain ⟨errorCode, heq⟩ := handleDLR_last eventID hentry hnow htracker hlast
      exact Or.inl ⟨_, congrArg Prod.snd heq, rfl⟩

/-- **Which receipts are attributed.** A receipt that is due is attributed to the message exactly if
the correlation of its part has been stored and the receipt is the first since then. -/
theorem attributes_iff_of_runs (hnew : g.New msg.msgID) {clock : ℤ} {acts : List DeliveryAction}
    (hrun : (delivery msg).Runs (start msg g clock) acts) (eventID : UUID)
    (hclock : ((delivery msg).after (start msg g clock) acts).clock ≤ now)
    (hdue : ((delivery msg).after (start msg g clock) acts).Due r now) :
    Attributes ((delivery msg).after (start msg g clock) acts).gateway r eventID now msg.msgID ↔
      ∃ p ∈ ((delivery msg).after (start msg g clock) acts).parts,
        p.id = r.messageID ∧ p.receipts = [] := by
  have h := consistent_of_runs hnew hrun
  generalize (delivery msg).after (start msg g clock) acts = s at h hclock hdue
  constructor
  · intro hattributes
    by_contra hnot
    refine not_attributes_of_unknown eventID msg.msgID ?_ hattributes
    rcases hdue with ⟨p, hp, hid, -⟩ | ⟨acceptedAt, hacc, -⟩
    · rw [← hid]
      exact h.heard p hp fun hnil ↦ hnot ⟨p, hp, hid, hnil⟩
    · exact (h.fresh _ _ hacc).1
  · rintro ⟨p, hp, hid, hnil⟩
    have hnow : now < p.expiresAt := by
      rcases hdue with ⟨q, hq, hqid, hnow⟩ | ⟨acceptedAt, hacc, -⟩
      · rwa [inj_on_of_nodup_map h.nodup hp hq (hid.trans hqid.symm)]
      · exact absurd hid ((h.fresh _ _ hacc).2 p hp)
    rcases h.correlated p hp hnil with hentry | ⟨hexpired, -⟩
    · rw [hid] at hentry
      exact attributes_of_correlated eventID hentry hnow
    · omega

end Attribution

namespace TwoParts

theorem runs_take (n : ℕ) : (delivery message).Runs (start message gateway 0) (acts.take n) := by
  have h := runs
  rw [← take_append_drop n acts] at h
  exact (Machine.runsUnder_append.mp h).1

end TwoParts

/-- The first receipt after the correlation was stored is attributed. -/
theorem attributes_iff_of_runs_twoParts :
    Attributes ((delivery message).after (start message TwoParts.gateway 0)
      (acts.take 2)).gateway ⟨"a", .delivrd, ""⟩ (.ofDigit 3) 2 message.msgID :=
  (attributes_iff_of_runs (gateway_new _) (runs_take 2) (.ofDigit 3) (by decide)
    (Or.inl ⟨_, mem_cons_self, rfl, by decide⟩)).mpr ⟨_, mem_cons_self, rfl, rfl⟩

/-- **A receipt can overtake its correlation.** The SMSC has accepted the first part; its receipt is
handled before the sender goes on, and is lost. -/
theorem receipt_overtakes_correlation :
    (delivery message).Runs (start message TwoParts.gateway 0) (acts.take 1) ∧
      ((delivery message).after (start message TwoParts.gateway 0)
        (acts.take 1)).Due ⟨"a", .delivrd, ""⟩ 1 ∧
      ¬ Attributes ((delivery message).after (start message TwoParts.gateway 0)
        (acts.take 1)).gateway ⟨"a", .delivrd, ""⟩ (.ofDigit 3) 1 message.msgID :=
  ⟨runs_take 1, Or.inr ⟨0, rfl, by decide⟩, not_attributes_of_unknown _ _ rfl⟩

end Delivery

end OtaPlatform
