import Mathlib.Data.Fintype.Pi
import Mathlib.Data.List.AList
import OtaPlatform.Pipeline.Types

/-!
# The message log

The table `message_history` and the statements of the message writer on it. A row has columns that
are written once and columns that updates may write; an update is a map from column names to values,
in which names outside the list of allowed columns may occur.

A value has the type of its column, as in the updates the executor sends. `updated_at` is one of the
columns: `MessageRow.content` is a row without it.
-/

namespace OtaPlatform

open Function

inductive LogColumn
  | status
  | smppMessageID
  | dlrStatus
  | counterHex
  | porStatusCode
  | porData
  | errorCode
  | updatedAt
deriving DecidableEq, Repr

instance : Fintype LogColumn :=
  Fintype.ofList [.status, .smppMessageID, .dlrStatus, .counterHex, .porStatusCode, .porData,
    .errorCode, .updatedAt] fun c ↦ by cases c <;> decide

def LogColumn.Value : LogColumn → Type
  | .porStatusCode | .updatedAt => ℤ
  | .porData => Bytes
  | .status | .smppMessageID | .dlrStatus | .counterHex | .errorCode => String

instance : (c : LogColumn) → DecidableEq c.Value
  | .porStatusCode | .updatedAt => inferInstanceAs (DecidableEq ℤ)
  | .porData => inferInstanceAs (DecidableEq Bytes)
  | .status | .smppMessageID | .dlrStatus | .counterHex | .errorCode =>
    inferInstanceAs (DecidableEq String)

inductive LogField
  | column (c : LogColumn)
  | unknown (name : String)
deriving DecidableEq

/-- What an update gives for a key. -/
def LogField.Value : LogField → Type
  | .column c => c.Value
  | .unknown _ => String

structure LogUpdates where
  fields : AList LogField.Value

namespace LogUpdates

def get (u : LogUpdates) (c : LogColumn) : Option c.Value :=
  AList.lookup (LogField.column c) u.fields

/-- The later fields replace the earlier ones. -/
def merge (existing u : LogUpdates) : LogUpdates := ⟨u.fields ∪ existing.fields⟩

def isEmpty (u : LogUpdates) : Bool := u.fields.entries.isEmpty

theorem get_merge (existing u : LogUpdates) (c : LogColumn) :
    (existing.merge u).get c = (u.get c).or (existing.get c) := by
  by_cases hmem : LogField.column c ∈ u.fields
  · have hleft : AList.lookup _ (u.fields ∪ existing.fields) = _ := AList.lookup_union_left hmem
    obtain ⟨v, hv⟩ := Option.isSome_iff_exists.mp (AList.lookup_isSome.mpr hmem)
    rw [get, merge, get, hleft, hv]
    rfl
  · have hright : AList.lookup _ (u.fields ∪ existing.fields) = _ := AList.lookup_union_right hmem
    rw [get, merge, get, hright, AList.lookup_eq_none.mpr hmem]
    rfl

theorem get_of_isEmpty {u : LogUpdates} (h : u.isEmpty = true) (c : LogColumn) :
    u.get c = none := by
  have hnot : LogField.column c ∉ u.fields := by
    rw [AList.mem_keys, AList.keys, List.isEmpty_iff.mp h]
    exact List.not_mem_nil
  exact AList.lookup_eq_none.mpr hnot

end LogUpdates

/-- A message as it is logged. Times that are not set are filled in by the writer. -/
structure LogEntry where
  id : UUID
  campaignID : Option UUID
  cardID : UUID
  /-- `MT` or `MO`. -/
  direction : String
  createdAt : Option ℤ
  updatedAt : Option ℤ
  rawPayload : Bytes
  securedPayload : Bytes
  counterHex : String
  status : String
  smppMessageID : String
deriving DecidableEq

inductive LogAction
  | create (log : Option LogEntry)
  | update (id : Option UUID) (updates : LogUpdates)

def LogAction.messageID : LogAction → Option UUID
  | .create log => log.map LogEntry.id
  | .update id _ => id

structure MessageRow where
  id : UUID
  campaignID : Option UUID
  cardID : UUID
  /-- `MT` or `MO`. -/
  direction : String
  rawPayload : Bytes
  securedPayload : Bytes
  createdAt : ℤ
  values : (c : LogColumn) → Option c.Value
deriving DecidableEq

/-- The row without `updated_at`. -/
def MessageRow.content (row : MessageRow) : MessageRow :=
  { row with values := update row.values .updatedAt none }

/-- The columns that are written once. -/
def MessageRow.head (row : MessageRow) :
    UUID × Option UUID × UUID × String × Bytes × Bytes × ℤ :=
  (row.id, row.campaignID, row.cardID, row.direction, row.rawPayload, row.securedPayload,
    row.createdAt)

theorem MessageRow.head_content (row : MessageRow) : row.content.head = row.head := rfl

theorem MessageRow.values_content (row : MessageRow) {c : LogColumn} (hc : c ≠ .updatedAt) :
    row.content.values c = row.values c := update_of_ne hc _ _

theorem MessageRow.content_eq_iff {row row' : MessageRow} : row.content = row'.content ↔
      row.head = row'.head ∧ ∀ c ≠ .updatedAt, row.values c = row'.values c := by
  constructor
  · intro h
    refine ⟨?_, fun c hc ↦ ?_⟩
    · rw [← head_content row, h, head_content]
    · rw [← values_content row hc, h, values_content row' hc]
  · rintro ⟨hhead, hvalues⟩
    obtain ⟨id, campaignID, cardID, direction, rawPayload, securedPayload, createdAt, values⟩ := row
    obtain ⟨id', campaignID', cardID', direction', rawPayload', securedPayload', createdAt',
      values'⟩ := row'
    simp only [head, Prod.mk.injEq] at hhead
    obtain ⟨rfl, rfl, rfl, rfl, rfl, rfl, rfl⟩ := hhead
    have heq : update values .updatedAt none
        = update values' .updatedAt none := by
      funext c
      by_cases hc : c = .updatedAt
      · subst hc
        rw [update_self, update_self]
      · rw [update_of_ne hc, update_of_ne hc]
        exact hvalues c hc
    simp only [content, heq]

/-! ## The statements -/

/-- `UPDATE`: the allowed columns among the fields are set, and `updated_at`. Nothing is done when
there are none. -/
def MessageRow.update (fields : LogUpdates) (now : ℤ) (row : MessageRow) : MessageRow :=
  if ∀ c, fields.get c = none then row
  else { row with
    values := fun c ↦ (fields.get c).or (Function.update row.values .updatedAt (some now) c) }

/-- `UPDATE message_history ... WHERE id = ?`. -/
def updateMessage (id : UUID) (fields : LogUpdates) (now : ℤ) (table : Multiset MessageRow) :
    Multiset MessageRow :=
  table.map fun row ↦ if row.id = id then row.update fields now else row

section Update

variable {row : MessageRow} {fields : LogUpdates} {now : ℤ}

@[simp] theorem MessageRow.id_update : (row.update fields now).id = row.id := by
  rw [update]
  split_ifs <;> rfl

theorem MessageRow.values_update {c : LogColumn} (hc : c ≠ .updatedAt) :
    (row.update fields now).values c = (fields.get c).or (row.values c) := by
  rw [update]
  split_ifs with h
  · rw [h c]
    rfl
  · exact congrArg (Option.or (fields.get c)) (update_of_ne hc _ _)

@[simp] theorem MessageRow.head_update : (row.update fields now).head = row.head := by
  rw [update]
  split_ifs <;> rfl

end Update

/-! ## What the executor sends -/

def MessageLogUpdate.fields : MessageLogUpdate → LogUpdates
  | .dlr status smppMessageID =>
    ⟨((∅ : AList LogField.Value).insert (.column .smppMessageID) smppMessageID).insert
      (.column .dlrStatus) status.text⟩
  | .por statusCode data =>
    ⟨(((∅ : AList LogField.Value).insert (.column .status) "processed").insert
      (.column .porData) data).insert (.column .porStatusCode) (statusCode.toNat : ℤ)⟩

/-- The entry of a message created by a handler. -/
def MessageLogEntry.entry (log : MessageLogEntry) : LogEntry where
  id := log.id
  campaignID := log.campaignID
  cardID := log.cardID
  direction := log.direction
  createdAt := log.createdAt
  updatedAt := log.createdAt
  rawPayload := log.rawPayload
  securedPayload := log.securedPayload
  counterHex := log.counterHex
  status := log.status
  smppMessageID := ""

/-- An action of a handler, as the writer gets it. -/
def MessageLogAction.action : MessageLogAction → LogAction
  | .create log => .create log.entry
  | .update id updates => .update id updates.fields

end OtaPlatform
