import OtaPlatform.Smsframe.Frame

/-!
# Identifiers, statuses and events

The values that travel between the planner, the executor, the gateway and the batched writers.

## Identifiers

Card, campaign, message and event identifiers are strings in the source, always produced by
`uuid.UUID.String()` and parsed back where a database column needs a UUID. A `UUID` is such a
canonical string together with the proof that it is one, so `uuid.Parse` never fails on it and two
different identifiers never denote the same row. Where the source uses the empty string for a
missing identifier the field is an `Option`.

## Statuses

A status is a string in the source and an enumeration here. The column types are free text, so
`other` keeps every remaining string, and only those: a string that has a constructor of its own is
excluded by its type. The empty string, which stands for "no statistics change", is `blank`.

Web-socket payloads, log lines and telemetry carry no state and are left out.
-/

namespace OtaPlatform

/-! ## Identifiers -/

/-- The 36-character lower-case form that `uuid.UUID.String()` produces. -/
def isCanonicalUUID (text : String) : Bool :=
  text.toList.length == 36 && text.toList.zipIdx.all fun (c, i) ↦
    if i == 8 || i == 13 || i == 18 || i == 23 then c == '-'
    else c.isDigit || ('a' ≤ c && c ≤ 'f')

@[ext] structure UUID where
  text : String
  canonical : isCanonicalUUID text = true
deriving DecidableEq, Repr

/-- A UUID whose last digit is that of the given number, for concrete runs. -/
def UUID.ofDigit (n : ℕ) : UUID where
  text := "00000000-0000-4000-8000-00000000000" ++ toString (n % 10)
  canonical := by
    have hdigit : ∀ d < 10, isCanonicalUUID
        ("00000000-0000-4000-8000-00000000000" ++ toString d) = true := by decide
    exact hdigit _ (Nat.mod_lt n (by decide))

theorem UUID.colon_notMem (id : UUID) : ':' ∉ id.text.toList := by
  intro hmem
  have hcanon := id.canonical
  rw [isCanonicalUUID, Bool.and_eq_true, List.all_eq_true] at hcanon
  obtain ⟨i, hi, hget⟩ := List.getElem_of_mem hmem
  have hall := hcanon.2 (':', i) (by
    rw [List.mem_zipIdx_iff_getElem?, List.getElem?_eq_getElem hi, hget])
  have hdash : (':' == '-') = false := by decide
  have hdigit : (':'.isDigit || ('a' ≤ ':' && ':' ≤ 'f')) = false := by decide
  simp only [hdash, hdigit] at hall
  split at hall <;> exact Bool.noConfusion hall

/-! ## Statuses -/

def cardStatusNames : List String :=
  ["pending", "activating", "in_progress", "awaiting_dlr", "awaiting_mo", "completed", "failed",
    "skipped"]

inductive CardStatus
  | pending
  | activating
  | inProgress
  | awaitingDlr
  | awaitingMo
  | completed
  | failed
  | skipped
  | other (text : { text : String // text ∉ cardStatusNames })
deriving DecidableEq, Repr

theorem empty_notMem_cardStatusNames : "" ∉ cardStatusNames := by decide

def CardStatus.blank : CardStatus := .other ⟨"", empty_notMem_cardStatusNames⟩

/-- The statuses after which a card needs no further work. -/
def CardStatus.isTerminal : CardStatus → Bool
  | completed | failed | skipped => true
  | _ => false

inductive CampaignStatus
  | pending
  | running
  | paused
  | completed
  | completedWithErrors
  | failed
  | aborted
deriving DecidableEq, Repr

def dlrStatusNames : List String :=
  ["DELIVRD", "FAILED_PARTIAL_SUBMIT", "FAILED_SUBMIT", "FAILED", "UNDELIV", "EXPIRED", "DELETED",
    "REJECTD"]

inductive DLRStatus
  | delivrd
  | failedPartialSubmit
  | failedSubmit
  | failed
  | undeliv
  | expired
  | deleted
  | rejectd
  | other (text : { text : String // text ∉ dlrStatusNames })
deriving DecidableEq, Repr

theorem unnamed_notMem_dlrStatusNames : "" ∉ dlrStatusNames ∧ "ACCEPTD" ∉ dlrStatusNames := by
  decide

def DLRStatus.blank : DLRStatus := .other ⟨"", unnamed_notMem_dlrStatusNames.1⟩

/-- A status that the executor does not know. -/
def DLRStatus.acceptd : DLRStatus := .other ⟨"ACCEPTD", unnamed_notMem_dlrStatusNames.2⟩

/-- The status string as the reports spell it. -/
def DLRStatus.text : DLRStatus → String
  | delivrd => "DELIVRD"
  | failedPartialSubmit => "FAILED_PARTIAL_SUBMIT"
  | failedSubmit => "FAILED_SUBMIT"
  | failed => "FAILED"
  | undeliv => "UNDELIV"
  | expired => "EXPIRED"
  | deleted => "DELETED"
  | rejectd => "REJECTD"
  | other text => text.1

/-! ## Events -/

inductive EventType
  | activate
  | dlrReceived
  | moReceived
deriving DecidableEq, Repr

/-- The unified event type of the card state machine. A field that a kind of event does not use has
its zero value, as in the source. -/
structure CardEvent where
  /-- `card.activate`, `card.dlr_received` or `card.mo_received`. -/
  type : EventType
  eventID : UUID
  cardID : UUID
  /-- The campaign; a mobile-originated event may not know it. -/
  campaignID : Option UUID
  /-- The step to send, for an activation. -/
  step : ℤ := 0
  retryCount : ℤ := 0
  /-- The message reported on, for a delivery report. -/
  msgID : Option UUID := none
  /-- The identifier the SMSC gave it, for a delivery report. -/
  smppMessageID : String := ""
  /-- The reported status, for a delivery report. -/
  dlrStatus : DLRStatus := .blank
  /-- The reported error, for a delivery report. -/
  errorCode : String := ""
  /-- The sender, for a mobile-originated message. -/
  sourceMSISDN : String := ""
  /-- The payload in hexadecimal, for a mobile-originated message. -/
  payloadHex : String := ""
  timestamp : ℤ := 0
deriving DecidableEq, Repr

/-- One transition of the card state machine, as sent to the batched writer. -/
structure CardStateChange where
  campaignID : UUID
  cardID : UUID
  status : CardStatus
  currentStep : ℤ := 0
  retryCount : ℤ := 0
  lastMsgID : Option UUID := none
  lastSMPPID : String := ""
  lastError : String := ""
  timestamp : ℤ
  transitionSeq : ℤ
  statsFrom : CardStatus
  statsTo : CardStatus
deriving DecidableEq, Repr

structure SMSPart where
  sequence : ℕ
  total : ℕ
  /-- Always zero: the reference in use is inside the payload. -/
  refNum : ℕ
  payload : Bytes
deriving DecidableEq, Repr

structure SendSMSMessage where
  msgID : UUID
  campaignID : UUID
  cardID : UUID
  msisdn : String
  ton : UInt8
  npi : UInt8
  dataCoding : UInt8
  protocolID : UInt8
  esmClass : UInt8
  parts : List SMSPart
deriving DecidableEq, Repr

structure MessageLogEntry where
  id : UUID
  campaignID : UUID
  cardID : UUID
  /-- `MT` or `MO`. -/
  direction : String
  createdAt : ℤ
  rawPayload : Bytes
  securedPayload : Bytes := []
  /-- The counter in the packet, for an outgoing message. -/
  counterHex : String := ""
  status : String
deriving DecidableEq, Repr

/-- The columns a handler updates on a logged message. -/
inductive MessageLogUpdate
  | dlr (status : DLRStatus) (smppMessageID : String)
  | por (statusCode : UInt8) (data : Bytes)
deriving DecidableEq, Repr

inductive MessageLogAction
  | create (log : MessageLogEntry)
  | update (id : UUID) (updates : MessageLogUpdate)
deriving DecidableEq, Repr

end OtaPlatform
