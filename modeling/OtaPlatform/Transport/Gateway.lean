import OtaPlatform.Executor.Handlers

/-!
# The in-process gateway

The gateway submits the parts of a message to the SMSC, remembers which message an SMSC identifier
belongs to, and turns delivery receipts and incoming messages into events for the card worker.

Receipts are parsed outside, so a receipt here is the parsed record, or `none` when parsing failed.
Telemetry and log lines are left out.
-/

namespace OtaPlatform

open List Function

structure SMPPMapping where
  msgID : UUID
  campaignID : UUID
  cardID : UUID
  msisdn : String
deriving DecidableEq, Repr

structure CorrelationEntry where
  mapping : SMPPMapping
  expiresAt : ℤ
deriving DecidableEq, Repr

/-- The receipts of a message of several parts. -/
structure MultipartState where
  total : ℕ
  resolved : ℕ
  anyFailed : Bool
deriving DecidableEq, Repr

structure Gateway where
  correlations : String → Option CorrelationEntry
  multipart : UUID → Option MultipartState

/-- Five minutes, in nanoseconds. -/
def correlationTTL : ℤ := 5 * 60 * 10 ^ 9

/-- What the SMSC answers to a part. -/
inductive SubmitResult
  | accepted (messageID : String)
  | transportError (err : String)
  | rejected (err : String)
deriving DecidableEq, Repr

structure DLRReceipt where
  messageID : String
  status : DLRStatus
  errorCode : String
deriving DecidableEq, Repr

namespace Gateway

/-! ## Sending -/

/-- The report of a message that could not be submitted. -/
def handleSubmitFailure (msg : SendSMSMessage) (submittedParts : ℕ) (submitErr : String)
    (eventID : UUID) (now : ℤ) : CardEvent where
  type := .dlrReceived
  eventID := eventID
  cardID := msg.cardID
  campaignID := msg.campaignID
  msgID := msg.msgID
  dlrStatus := if submittedParts > 0 then .failedPartialSubmit else .failedSubmit
  errorCode := submitErr
  timestamp := now

/-- The identifier of a part is remembered. -/
def correlate (g : Gateway) (msg : SendSMSMessage) (messageID : String) (now : ℤ) : Gateway :=
  { g with
    correlations := update g.correlations messageID
      (some ⟨⟨msg.msgID, msg.campaignID, msg.cardID, msg.msisdn⟩, now + correlationTTL⟩) }

/-- The submit loop, from part number `i`. It ends at the first part that is not accepted. -/
def submitParts (msg : SendSMSMessage) (submit : ℕ → SubmitResult) (eventID : UUID) (now : ℤ) :
    List SMSPart → ℕ → Gateway → Gateway × Option CardEvent
  | [], _, g => (g, none)
  | part :: parts, i, g =>
    match submit i with
    | .transportError err => (g, some (handleSubmitFailure msg i
        ("submit part " ++ toString part.sequence ++ ": " ++ err) eventID now))
    | .rejected err => (g, some (handleSubmitFailure msg i
        ("submit part " ++ toString part.sequence ++ " error: " ++ err) eventID now))
    | .accepted messageID =>
      submitParts msg submit eventID now parts (i + 1) (g.correlate msg messageID now)

/-- Submits the parts of a message. Several parts are tracked from before the first one is
submitted. -/
def handleSendSMS (g : Gateway) (msg : SendSMSMessage) (submit : ℕ → SubmitResult)
    (eventID : UUID) (now : ℤ) : Gateway × Option CardEvent :=
  submitParts msg submit eventID now msg.parts 0
    (if msg.parts.length > 1 then
      { g with
        multipart := update g.multipart msg.msgID (some ⟨msg.parts.length, 0, false⟩) }
    else g)

/-! ## Receiving -/

/-- Records the receipt of one part; `none` is "no multipart tracking", otherwise the answer says
whether all parts are resolved and whether one failed. -/
def recordPartDLR (g : Gateway) (msgID : UUID) (delivered : Bool) :
    Gateway × Option (Bool × Bool) :=
  match g.multipart msgID with
  | none => (g, none)
  | some state =>
    let resolved := state.resolved + 1
    let anyFailed := state.anyFailed || !delivered
    if resolved ≥ state.total then
      ({ g with multipart := update g.multipart msgID none }, some (true, anyFailed))
    else
      ({ g with
        multipart := update g.multipart msgID (some ⟨state.total, resolved, anyFailed⟩) },
        some (false, false))

/-- The event of a delivery receipt. It does not carry the step. -/
def dlrEvent (mapping : SMPPMapping) (receipt : DLRReceipt) (eventID : UUID) (now : ℤ) :
    CardEvent where
  type := .dlrReceived
  eventID := eventID
  cardID := mapping.cardID
  campaignID := mapping.campaignID
  msgID := mapping.msgID
  smppMessageID := receipt.messageID
  dlrStatus := receipt.status
  errorCode := receipt.errorCode
  timestamp := now

/-- Processes a delivery receipt. -/
def handleDLR (g : Gateway) (receipt : Option DLRReceipt) (eventID : UUID) (now : ℤ) :
    Gateway × Option CardEvent :=
  match receipt with
  | none => (g, none)
  | some receipt =>
    match g.correlations receipt.messageID with
    | none => (g, none)
    | some entry =>
      let g := { g with correlations := update g.correlations receipt.messageID none }
      if now < entry.expiresAt then
        match g.recordPartDLR entry.mapping.msgID (receipt.status = .delivrd) with
        | (g, none) => (g, some (dlrEvent entry.mapping receipt eventID now))
        | (g, some (false, _)) => (g, none)
        | (g, some (true, true)) => (g, some (dlrEvent entry.mapping
            { receipt with status := .undeliv, errorCode := "multipart_partial_failure" }
            eventID now))
        | (g, some (true, false)) => (g, some (dlrEvent entry.mapping
            { receipt with status := .delivrd, errorCode := "" } eventID now))
      else (g, none)

/-- The event of an incoming message. -/
def moEvent (cardID : UUID) (campaignID : Option UUID) (sourceAddr : String) (payload : Bytes)
    (eventID : UUID) (now : ℤ) : CardEvent where
  type := .moReceived
  eventID := eventID
  cardID := cardID
  campaignID := campaignID
  sourceMSISDN := sourceAddr
  payloadHex := hexEncode payload
  timestamp := now

/-- Processes an incoming message: `resolved` is the card of the number, `row` what the database
has for it. The campaign is that of the card state, if there is one. -/
def handleMO (resolved : Except String (Option UUID)) (row : Except String (Option ExecutionRow))
    (sourceAddr : String) (payload : Bytes) (eventID : UUID) (now : ℤ) :
    Worker (Option CardEvent) :=
  match resolved with
  | .error _ | .ok none => return none
  | .ok (some cardID) => do
    match ← Worker.getCardState cardID row with
    | .error _ | .ok none => return some (moEvent cardID none sourceAddr payload eventID now)
    | .ok (some ref) => do
      let state ← Worker.load cardID ref
      return some (moEvent cardID state.campaignID sourceAddr payload eventID now)

/-- **An incoming message of a known number is passed on**, with its octets as they came. -/
theorem value_handleMO (cardID : UUID) (row : Except String (Option ExecutionRow))
    (sourceAddr : String) (payload : Bytes) (eventID : UUID) (now : ℤ) (s : Process) :
    ∃ campaignID, ((handleMO (.ok (some cardID)) row sourceAddr payload eventID now).run
      workerSemantics s).value
        = some (moEvent cardID campaignID sourceAddr payload eventID now) := by
  rw [handleMO, Program.run_bind]
  cases ((Worker.getCardState cardID row).run workerSemantics s).value with
  | error err => exact ⟨none, rfl⟩
  | ok found =>
    cases found with
    | none => exact ⟨none, rfl⟩
    | some ref =>
      rw [Program.run_bind]
      exact ⟨_, rfl⟩

/-- Removes the entries that have expired. Multipart tracking is left as it is. -/
def cleanupCorrelations (g : Gateway) (now : ℤ) : Gateway :=
  { g with correlations := fun id ↦ (g.correlations id).filter fun entry ↦ now ≤ entry.expiresAt }

/-! ## A message that is delivered -/

/-- Processes several receipts, one after the other. -/
def handleDLRs (eventID : UUID) (now : ℤ) :
    List DLRReceipt → Gateway → Gateway × List CardEvent
  | [], g => (g, [])
  | receipt :: receipts, g =>
    let r := g.handleDLR (some receipt) eventID now
    let rest := handleDLRs eventID now receipts r.1
    (rest.1, r.2.toList ++ rest.2)

/-- The receipts of `n` parts that were all delivered. -/
def delivered (messageID : ℕ → String) (n : ℕ) : List DLRReceipt :=
  (range n).map fun i ↦ ⟨messageID i, .delivrd, ""⟩

/-- What is remembered of a message. -/
def entryOf (msg : SendSMSMessage) (now : ℤ) : CorrelationEntry :=
  ⟨⟨msg.msgID, msg.campaignID, msg.cardID, msg.msisdn⟩, now + correlationTTL⟩

theorem submitParts_accepted (msg : SendSMSMessage) (messageID : ℕ → String) (eventID : UUID)
    (now : ℤ) (parts : List SMSPart) (i : ℕ) (g : Gateway) :
    (submitParts msg (fun i ↦ .accepted (messageID i)) eventID now parts i g).2 = none ∧
      (submitParts msg (fun i ↦ .accepted (messageID i)) eventID now parts i g).1.multipart
        = g.multipart ∧ ∀ id, g.correlations id = some (entryOf msg now) ∨
          (∃ j, i ≤ j ∧ j < i + parts.length ∧ messageID j = id) →
        (submitParts msg (fun i ↦ .accepted (messageID i)) eventID now parts i g).1.correlations id
          = some (entryOf msg now) := by
  induction parts generalizing i g with
  | nil =>
    refine ⟨rfl, rfl, fun id h ↦ h.resolve_right ?_⟩
    rintro ⟨j, hij, hj, -⟩
    rw [length_nil] at hj
    omega
  | cons part parts ih =>
    obtain ⟨hnone, hmulti, hcorr⟩ := ih (i + 1) (g.correlate msg (messageID i) now)
    refine ⟨hnone, hmulti, fun id h ↦ hcorr id ?_⟩
    by_cases hid : id = messageID i
    · left
      rw [hid]
      exact update_self ..
    · rcases h with h | ⟨j, hij, hj, hjd⟩
      · exact Or.inl ((update_of_ne hid _ _).trans h)
      · rw [length_cons] at hj
        have hne : i ≠ j := by
          rintro rfl
          exact hid hjd.symm
        exact Or.inr ⟨j, by omega, by omega, hjd⟩

/-- The receipts of a tracked message give one report, when the last of them comes in. -/
theorem handleDLRs_tracked {entry : CorrelationEntry} {eventID : UUID} {now : ℤ}
    (hnow : now < entry.expiresAt) {total : ℕ} (receipts : List DLRReceipt) (g : Gateway)
    (resolved : ℕ) (hne : receipts ≠ []) (hids : (receipts.map DLRReceipt.messageID).Nodup)
    (hall : ∀ r ∈ receipts, r.status = .delivrd ∧ g.correlations r.messageID = some entry)
    (hstate : g.multipart entry.mapping.msgID = some ⟨total, resolved, false⟩)
    (hcount : resolved + receipts.length = total) :
    ∃ messageID, (handleDLRs eventID now receipts g).2
        = [dlrEvent entry.mapping ⟨messageID, .delivrd, ""⟩ eventID now] ∧
      (handleDLRs eventID now receipts g).1.multipart
        = update g.multipart entry.mapping.msgID none := by
  induction receipts generalizing g resolved with
  | nil => exact absurd rfl hne
  | cons r rs ih =>
    obtain ⟨hdelivered, hcorr⟩ := hall r mem_cons_self
    rw [length_cons] at hcount
    rw [map_cons, nodup_cons] at hids
    cases rs with
    | nil =>
      refine ⟨r.messageID, ?_⟩
      have hlast : resolved + 1 ≥ total := by rw [← hcount, length_nil]
      simp [handleDLRs, handleDLR, hcorr, hnow, recordPartDLR, hstate, hdelivered, hlast]
    | cons r' rs =>
      have hearlier : ¬ (resolved + 1 ≥ total) := by
        rw [← hcount, length_cons]
        omega
      -- the first receipt only counts
      have hstep : g.handleDLR (some r) eventID now =
          (⟨update g.correlations r.messageID none,
            update g.multipart entry.mapping.msgID
              (some ⟨total, resolved + 1, false⟩)⟩, none) := by
        simp [handleDLR, hcorr, hnow, recordPartDLR, hstate, hdelivered, hearlier]
      obtain ⟨messageID, hevents, hmulti⟩ := ih
        ⟨update g.correlations r.messageID none,
          update g.multipart entry.mapping.msgID (some ⟨total, resolved + 1, false⟩)⟩
        (resolved + 1) (cons_ne_nil _ _) hids.2 (fun q hq ↦ by
          refine ⟨(hall q (mem_cons_of_mem _ hq)).1, ?_⟩
          have hqr : q.messageID ≠ r.messageID := fun h ↦
            hids.1 (h ▸ mem_map_of_mem hq)
          exact (update_of_ne hqr _ _).trans (hall q (mem_cons_of_mem _ hq)).2)
        (update_self ..) (by omega)
      refine ⟨messageID, ?_, ?_⟩
      · rw [handleDLRs, hstep]
        exact hevents
      · rw [handleDLRs, hstep]
        exact hmulti.trans (update_idem ..)

/-- **A message that is delivered gives one report.** All parts are accepted under identifiers of
their own and all receipts come in before they expire. -/
theorem handleDLRs_handleSendSMS (g : Gateway) (msg : SendSMSMessage) {messageID : ℕ → String}
    (hinj : Injective messageID) (eventID eventID' : UUID) {sent received : ℤ}
    (htime : received < sent + correlationTTL) (hparts : msg.parts ≠ [])
    (hfresh : g.multipart msg.msgID = none) :
    (g.handleSendSMS msg (fun i ↦ .accepted (messageID i)) eventID sent).2 = none ∧
    ∃ id, (handleDLRs eventID' received (delivered messageID msg.parts.length)
        (g.handleSendSMS msg (fun i ↦ .accepted (messageID i)) eventID sent).1).2
        = [dlrEvent (entryOf msg sent).mapping ⟨id, .delivrd, ""⟩ eventID' received] ∧
      (handleDLRs eventID' received (delivered messageID msg.parts.length)
        (g.handleSendSMS msg (fun i ↦ .accepted (messageID i)) eventID sent).1).1.multipart
        = g.multipart := by
  obtain ⟨hnone, hmulti, hcorr⟩ := submitParts_accepted msg messageID eventID sent msg.parts 0
    (if msg.parts.length > 1 then
      { g with
        multipart := update g.multipart msg.msgID (some ⟨msg.parts.length, 0, false⟩) }
    else g)
  rw [← handleSendSMS] at hnone hmulti hcorr
  refine ⟨hnone, ?_⟩
  set g₁ := (g.handleSendSMS msg (fun i ↦ .accepted (messageID i)) eventID sent).1
  have hids : ((delivered messageID msg.parts.length).map DLRReceipt.messageID).Nodup := by
    rw [delivered, map_map]
    exact Nodup.map hinj nodup_range
  have hall : ∀ r ∈ delivered messageID msg.parts.length,
      r.status = .delivrd ∧ g₁.correlations r.messageID = some (entryOf msg sent) := by
    intro r hr
    obtain ⟨j, hj, rfl⟩ := mem_map.mp hr
    refine ⟨rfl, hcorr _ (Or.inr ⟨j, Nat.zero_le j, ?_, rfl⟩)⟩
    rw [Nat.zero_add]
    exact mem_range.mp hj
  by_cases hmany : msg.parts.length > 1
  · rw [if_pos hmany] at hmulti
    have hne : delivered messageID msg.parts.length ≠ [] := by
      rw [Ne, delivered, map_eq_nil_iff, range_eq_nil]
      omega
    have hlength : 0 + (delivered messageID msg.parts.length).length = msg.parts.length := by
      rw [delivered, length_map, length_range, Nat.zero_add]
    have hstate : g₁.multipart msg.msgID = some ⟨msg.parts.length, 0, false⟩ := by
      rw [hmulti]
      exact update_self ..
    obtain ⟨id, hevents, hgone⟩ := handleDLRs_tracked htime _ g₁ 0 hne hids hall hstate hlength
    refine ⟨id, hevents, hgone.trans ?_⟩
    rw [hmulti]
    exact (update_idem ..).trans (update_eq_self_iff.mpr hfresh.symm)
  · have hone : msg.parts.length = 1 := by
      have := length_pos_of_ne_nil hparts
      omega
    rw [if_neg hmany] at hmulti
    have hreceipts : delivered messageID msg.parts.length = [⟨messageID 0, .delivrd, ""⟩] := by
      rw [hone]
      rfl
    have hcorr₀ : g₁.correlations (messageID 0) = some (entryOf msg sent) :=
      (hall ⟨messageID 0, .delivrd, ""⟩ (by rw [hreceipts]; exact mem_cons_self)).2
    have hfresh₁ : g₁.multipart (entryOf msg sent).mapping.msgID = none := by
      rw [hmulti]
      exact hfresh
    have htime' : received < (entryOf msg sent).expiresAt := htime
    rw [hreceipts]
    refine ⟨messageID 0, ?_, ?_⟩
    · simp [handleDLRs, handleDLR, hcorr₀, htime', recordPartDLR, hfresh₁]
    · rw [← hmulti]
      simp [handleDLRs, handleDLR, hcorr₀, htime', recordPartDLR, hfresh₁]

end Gateway

end OtaPlatform
