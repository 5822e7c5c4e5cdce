import OtaPlatform.Pgstore.CardStateWriter
import OtaPlatform.Pgstore.MessageWriter
import OtaPlatform.Sql.BulkInsert

/-!
# The statements of the bulk insertions

The writer of the card states and the writer of the messages insert with `COPY`, and with bulk
`INSERT` statements when `COPY` is unavailable or fails. The two functions are the same loop over
rows of ten and of eleven columns; each is given here by its layout, with the texts of the source.

Every row is bound once, in order and within the limit of the database
(`fallbacks_bind_every_row`). So executing the statements does what the rest of the development
takes the insertions for: `execute_insert_eq` for the card states, `foldl_fallback_eq` for the
messages.
-/

namespace OtaPlatform

open List BulkInsert

/-- An argument of a statement. A null pointer is `none`. -/
inductive BindValue
  | uuid (v : Option UUID)
  | text (v : Option String)
  | status (v : CardStatus)
  | number (v : ℤ)
  | bytes (v : Bytes)
  | time (v : ℤ)

/-! ## Card states -/

namespace ExecutionRow

/-- The row as `writeCardStateBatch` lists it. -/
def values (row : ExecutionRow) : List BindValue :=
  [.uuid row.cardID, .uuid row.campaignID, .status row.status, .number row.currentStep,
    .number row.retryCount, .uuid row.lastMsgID, .text row.lastSMPPID, .text row.lastError,
    .number row.transitionSeq, .time row.updatedAt]

/-- The row that a tuple stands for. -/
def ofTuple : List (Option BindValue) → Option ExecutionRow
  | [some (.uuid (some cardID)), some (.uuid (some campaignID)), some (.status status),
      some (.number currentStep), some (.number retryCount), some (.uuid lastMsgID),
      some (.text (some lastSMPPID)), some (.text (some lastError)), some (.number transitionSeq),
      some (.time updatedAt)] =>
    some { cardID, campaignID, status, currentStep, retryCount, lastMsgID, lastSMPPID, lastError,
           transitionSeq, updatedAt }
  | _ => none

end ExecutionRow

def cardStatesLayout : Layout ExecutionRow BindValue where
  cols := 10
  values := ExecutionRow.values
  before := "INSERT INTO card_execution_states\n\t\t\t(card_id, campaign_id, status, current_step, "
    ++ "retry_count,\n\t\t\t last_msg_id, last_smpp_id, last_error, transition_seq, updated_at)"
    ++ "\n\t\t\tVALUES "
  after := "\n\t\t\tON CONFLICT (card_id, campaign_id, transition_seq) DO NOTHING"
  length_values _ := rfl
  cols_le := Nat.le_of_ble_eq_true rfl
  cols_pos := Nat.succ_pos 9

/-- The text and the arguments of an `INSERT`. -/
def Statement.query : Statement → Option (Query BindValue)
  | .insert chunk => some (cardStatesLayout.insert chunk)
  | .copy _ | .updateStats _ _ => none

theorem query_flushCardStatesFallback (rows : List ExecutionRow) :
    (flushCardStatesFallback rows).filterMap Statement.query
      = cardStatesLayout.statements rows := by
  have hloop : ∀ fuel rows, (fallbackLoop fuel rows).filterMap Statement.query
      = (Batches.cut (65535 / 10) fuel rows).map cardStatesLayout.insert := by
    intro fuel
    induction fuel with
    | zero => exact fun _ ↦ rfl
    | succ fuel ih =>
      rintro (_ | ⟨row, rows⟩)
      · rfl
      · exact congrArg _ (ih _)
  exact hloop _ _

/-! ## Messages -/

namespace MsgWriterRow

def values (row : MsgWriterRow) : List BindValue :=
  [.uuid row.id, .uuid row.campaignID, .uuid row.cardID, .text row.direction, .text row.status,
    .bytes row.rawPayload, .bytes row.securedPayload, .text row.counterHex,
    .text row.smppMessageID, .time row.createdAt, .time row.updatedAt]

/-- The row that a tuple stands for. -/
def ofTuple : List (Option BindValue) → Option MsgWriterRow
  | [some (.uuid (some id)), some (.uuid campaignID), some (.uuid (some cardID)),
      some (.text (some direction)), some (.text (some status)), some (.bytes rawPayload),
      some (.bytes securedPayload), some (.text counterHex), some (.text smppMessageID),
      some (.time createdAt), some (.time updatedAt)] =>
    some { id, campaignID, cardID, direction, status, rawPayload, securedPayload, counterHex,
           smppMessageID, createdAt, updatedAt }
  | _ => none

end MsgWriterRow

def messageCreatesLayout : Layout MsgWriterRow BindValue where
  cols := 11
  values := MsgWriterRow.values
  before := "INSERT INTO message_history\n\t\t\t(id, campaign_id, card_id, direction, status,"
    ++ "\n\t\t\t raw_payload, secured_payload, counter_hex, smpp_message_id,"
    ++ "\n\t\t\t created_at, updated_at)\n\t\t\tVALUES "
  after := "\n\t\t\tON CONFLICT (id, created_at) DO NOTHING"
  length_values _ := rfl
  cols_le := Nat.le_of_ble_eq_true rfl
  cols_pos := Nat.succ_pos 10

/-- The statements for the rows of the map, in the order the map was walked in. They are executed in
turn; the first error ends the loop. -/
def flushMessageCreatesFallback (rows : List MsgWriterRow) : List (Query BindValue) :=
  messageCreatesLayout.statements rows

/-! ## What the statements do -/

/-- **Both fallbacks bind every row once**, whatever the number of rows: card states in the order of
the slice, messages in the order of the walk over the map. No statement has more than 65535
parameters, and each tuple stands for the values of its row. -/
theorem fallbacks_bind_every_row :
    (∀ copyRows : List ExecutionRow, cardStatesLayout.Binds copyRows
      ((flushCardStatesFallback copyRows).filterMap Statement.query)) ∧
    ∀ rows : List MsgWriterRow, messageCreatesLayout.Binds rows
      (flushMessageCreatesFallback rows) := by
  refine ⟨fun copyRows ↦ ?_, fun rows ↦ messageCreatesLayout.binds_statements rows⟩
  rw [query_flushCardStatesFallback]
  exact cardStatesLayout.binds_statements copyRows

-- the tuples of two rows, as the format string of the source prints them
example : Query.sql ⟨"VALUES ", [0, 1].map cardStatesLayout.tuple, "", ([] : List BindValue)⟩
    = "VALUES ($1,$2,$3,$4,$5,$6,$7,$8,$9,$10),($11,$12,$13,$14,$15,$16,$17,$18,$19,$20)" := by
  decide +kernel

/-- Executing an `INSERT` inserts the rows that its tuples stand for. -/
theorem execute_insert_eq (copyWorks : Bool) (t : StateTables) (chunk : List ExecutionRow) :
    (t.execute copyWorks (.insert chunk)).1.executionStates
      = ((cardStatesLayout.insert chunk).bound.filterMap ExecutionRow.ofTuple).foldl insertRow
          t.executionStates := by
  rw [cardStatesLayout.filterMap_bound_insert ExecutionRow.ofTuple fun _ ↦ rfl]
  rfl

/-- `PRIMARY KEY (id, created_at)`. -/
def MessageRow.primaryKey (row : MessageRow) : UUID × ℤ := (row.id, row.createdAt)

/-- `ON CONFLICT (id, created_at) DO NOTHING`. -/
def insertMessage (table : Multiset MessageRow) (row : MsgWriterRow) : Multiset MessageRow :=
  if row.toRow.primaryKey ∈ table.map MessageRow.primaryKey then table else table + {row.toRow}

theorem foldl_insertMessage_eq {rows : List MsgWriterRow} {table : Multiset MessageRow}
    (hkeys : ((flushMessageCreates rows table).map MessageRow.primaryKey).Nodup) :
    rows.foldl insertMessage table = flushMessageCreates rows table := by
  induction rows generalizing table with
  | nil => exact (add_zero table).symm
  | cons row rows ih =>
    have hcons : flushMessageCreates (row :: rows) table
        = flushMessageCreates rows (table + {row.toRow}) := by
      rw [flushMessageCreates, flushMessageCreates, map_cons, ← Multiset.cons_coe,
        ← Multiset.singleton_add, add_assoc]
    rw [hcons] at hkeys ⊢
    have hnew : row.toRow.primaryKey ∉ table.map MessageRow.primaryKey := by
      rw [flushMessageCreates, Multiset.map_add, Multiset.map_add] at hkeys
      have hdisjoint := (Multiset.nodup_add.mp (Multiset.nodup_add.mp hkeys).1).2.2
      exact fun hmem ↦ Multiset.disjoint_left.mp hdisjoint hmem (Multiset.mem_singleton_self _)
    rw [foldl_cons, insertMessage, if_neg hnew]
    exact ih hkeys

/-- Where no row conflicts with another or with a stored one, the statements insert what `COPY`
inserts. -/
theorem foldl_fallback_eq (rows : List MsgWriterRow) (table : Multiset MessageRow)
    (hkeys : ((flushMessageCreates rows table).map MessageRow.primaryKey).Nodup) :
    (flushMessageCreatesFallback rows).foldl
        (fun table q ↦ (q.bound.filterMap MsgWriterRow.ofTuple).foldl insertMessage table) table
      = flushMessageCreates rows table := by
  rw [flushMessageCreatesFallback, Layout.statements, foldl_map]
  simp only [messageCreatesLayout.filterMap_bound_insert MsgWriterRow.ofTuple fun _ ↦ rfl]
  rw [← foldl_flatten, Batches.flatten_batches messageCreatesLayout.maxRows_pos,
    foldl_insertMessage_eq hkeys]

/-- A message of card 1 that was sent at the given time. -/
def sentMessage (createdAt : ℤ) : MsgWriterRow :=
  ⟨.ofDigit 5, none, .ofDigit 1, "MT", "sent", [], [], none, none, createdAt, createdAt⟩

/-- The same identifier at two times is no conflict. -/
theorem foldl_fallback_eq_two :
    (flushMessageCreatesFallback [sentMessage 0, sentMessage 1]).foldl
        (fun table q ↦ (q.bound.filterMap MsgWriterRow.ofTuple).foldl insertMessage table) 0
      = {(sentMessage 0).toRow, (sentMessage 1).toRow} :=
  foldl_fallback_eq [sentMessage 0, sentMessage 1] 0 (by decide)

end OtaPlatform
