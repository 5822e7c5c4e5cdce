import OtaPlatform.Pgstore.MessageLog

/-!
# The batched message writer

`RunMessageWriter` collects the creates and updates of the message log and writes them in batches.
An update takes one of three ways: it is merged into a create that has not been written yet, merged
into an earlier update that has not been executed yet, or executed. The reference is `applyAction`,
which does each action at once.

* `applyUpdatesToRow`, the first way, knows three columns only. What an update says about the others
  is dropped: `values_applyUpdatesToRow`.
* `runMessageWriter_eq_iff`: the table is in the end what it would be without batching exactly if
  whatever was dropped is said again by a later update.
-/

namespace OtaPlatform

open List Function

structure MsgWriterRow where
  id : UUID
  campaignID : Option UUID
  cardID : UUID
  /-- `MT` or `MO`. -/
  direction : String
  status : String
  rawPayload : Bytes
  securedPayload : Bytes
  counterHex : Option String
  smppMessageID : Option String
  createdAt : ℤ
  updatedAt : ℤ
deriving DecidableEq

def convertLogEntry (now : ℤ) (entry : LogEntry) : MsgWriterRow where
  id := entry.id
  campaignID := entry.campaignID
  cardID := entry.cardID
  direction := entry.direction
  status := entry.status
  rawPayload := entry.rawPayload
  securedPayload := entry.securedPayload
  counterHex := if entry.counterHex ≠ "" then some entry.counterHex else none
  smppMessageID := if entry.smppMessageID ≠ "" then some entry.smppMessageID else none
  createdAt := entry.createdAt.getD now
  updatedAt := entry.updatedAt.getD (entry.createdAt.getD now)

/-- Merges update fields into a row that is to be inserted. -/
def applyUpdatesToRow (row : MsgWriterRow) (updates : LogUpdates) : MsgWriterRow :=
  { row with
    status := (updates.get .status).getD row.status
    smppMessageID := Option.or (updates.get .smppMessageID) row.smppMessageID
    counterHex := Option.or (updates.get .counterHex) row.counterHex }

/-- The row as it is inserted. The columns that are not listed are null. -/
def MsgWriterRow.toRow (row : MsgWriterRow) : MessageRow where
  id := row.id
  campaignID := row.campaignID
  cardID := row.cardID
  direction := row.direction
  rawPayload := row.rawPayload
  securedPayload := row.securedPayload
  createdAt := row.createdAt
  values
    | .status => some row.status
    | .counterHex => row.counterHex
    | .smppMessageID => row.smppMessageID
    | .updatedAt => some row.updatedAt
    | .dlrStatus | .porStatusCode | .porData | .errorCode => none

def LogColumn.unmerged : LogColumn → Bool
  | .dlrStatus | .porStatusCode | .porData | .errorCode => true
  | .status | .smppMessageID | .counterHex | .updatedAt => false

/-- `COPY message_history`. -/
def flushMessageCreates (rows : List MsgWriterRow) (table : Multiset MessageRow) :
    Multiset MessageRow :=
  table + (rows.map MsgWriterRow.toRow : List MessageRow)

/-- The pending updates are executed, one after the other. -/
def flushMessageUpdates (updates : AList fun _ : UUID ↦ LogUpdates) (now : ℤ)
    (table : Multiset MessageRow) : Multiset MessageRow :=
  updates.entries.foldl (fun table e ↦ updateMessage e.1 e.2 now table) table

/-! ## The loop -/

structure MessageWriter where
  /-- The rows to insert, at most one for each message. -/
  creates : List MsgWriterRow
  /-- The fields to update, by message. -/
  updates : AList fun _ : UUID ↦ LogUpdates

def MessageWriter.Creating (w : MessageWriter) (id : UUID) : Prop :=
  ∃ row ∈ w.creates, row.id = id

instance (w : MessageWriter) (id : UUID) : Decidable (w.Creating id) :=
  inferInstanceAs (Decidable (∃ row ∈ w.creates, row.id = id))

def MessageWriter.mergeUpdate (w : MessageWriter) (id : UUID) (u : LogUpdates) : MessageWriter :=
  { w with
    creates := w.creates.map fun row ↦ if row.id = id then applyUpdatesToRow row u else row }

def MessageWriter.keepUpdate (w : MessageWriter) (id : UUID) (u : LogUpdates) : MessageWriter :=
  { w with updates := w.updates.insert id (((w.updates.lookup id).getD ⟨∅⟩).merge u) }

/-- An action is taken from the channel. -/
def MessageWriter.receive (w : MessageWriter) (now : ℤ) : LogAction → MessageWriter
  | .create none | .update none _ => w
  | .create (some log) =>
    let row := convertLogEntry now log
    { creates := (match w.updates.lookup log.id with
        | some pending => applyUpdatesToRow row pending
        | none => row) :: w.creates.filter fun row ↦ row.id ≠ log.id
      updates := w.updates.erase log.id }
  | .update (some id) updates =>
    if updates.isEmpty then w
    else if w.Creating id then w.mergeUpdate id updates
    else w.keepUpdate id updates

structure MessageLog where
  writer : MessageWriter
  table : Multiset MessageRow

inductive WriterEvent
  | receive (action : LogAction) (now : ℤ)
  | tick (now : ℤ)

namespace MessageLog

/-- Everything is written, the creates first. -/
def flush (s : MessageLog) (now : ℤ) : MessageLog where
  writer := ⟨[], ∅⟩
  table := flushMessageUpdates s.writer.updates now (flushMessageCreates s.writer.creates s.table)

/-- One round of the loop. A full batch is written at once. -/
def step (maxBatch : ℕ) (s : MessageLog) : WriterEvent → MessageLog
  | .tick now => s.flush now
  | .receive action now =>
    let s := { s with writer := s.writer.receive now action }
    match action with
    | .create (some _) => if s.writer.creates.length ≥ maxBatch then s.flush now else s
    | .update (some _) updates =>
      if updates.isEmpty = false ∧ s.writer.updates.entries.length ≥ maxBatch then s.flush now
      else s
    | .create none | .update none _ => s

/-- A writer that has just been started. -/
def start (table : Multiset MessageRow) : MessageLog := ⟨⟨[], ∅⟩, table⟩

def after (maxBatch : ℕ) (table : Multiset MessageRow) (events : List WriterEvent) : MessageLog :=
  events.foldl (step maxBatch) (start table)

end MessageLog

/-- The table when the channel is closed after the events. -/
def runMessageWriter (maxBatch : ℕ) (table : Multiset MessageRow) (events : List WriterEvent)
    (now : ℤ) : Multiset MessageRow :=
  ((MessageLog.after maxBatch table events).flush now).table

/-! ## Without batching -/

def applyAction (now : ℤ) (table : Multiset MessageRow) : LogAction → Multiset MessageRow
  | .create none | .update none _ => table
  | .create (some log) => (convertLogEntry now log).toRow ::ₘ table
  | .update (some id) updates => updateMessage id updates now table

/-- The table after the actions among the events. -/
def applyActions (table : Multiset MessageRow) (events : List WriterEvent) : Multiset MessageRow :=
  events.foldl (fun table e ↦ match e with
    | .receive action now => applyAction now table action
    | .tick _ => table) table

/-! ## The functions of the writer -/

variable (row : MsgWriterRow) (u : LogUpdates) {c : LogColumn}

/-- **What merging does to a column.** -/
theorem values_applyUpdatesToRow (hc : c ≠ .updatedAt) : (applyUpdatesToRow row u).toRow.values c
      = if c.unmerged then none else (u.get c).or (row.toRow.values c) := by
  cases c with
  | status =>
    change some ((u.get .status).getD row.status) = (u.get .status).or (some row.status)
    cases u.get .status <;> rfl
  | updatedAt => exact absurd rfl hc
  | _ => rfl

theorem values_toRow_of_unmerged (hc : c.unmerged = true) : row.toRow.values c = none := by
  cases c with
  | status | smppMessageID | counterHex | updatedAt => cases hc
  | _ => rfl

@[simp] theorem head_applyUpdatesToRow : (applyUpdatesToRow row u).toRow.head = row.toRow.head :=
  rfl

theorem flushMessageUpdates_eq (updates : AList fun _ : UUID ↦ LogUpdates) (now : ℤ)
    (table : Multiset MessageRow) : flushMessageUpdates updates now table = table.map fun row ↦
      match updates.lookup row.id with
      | some fields => row.update fields now
      | none => row := by
  obtain ⟨entries, hnodup⟩ := updates
  change entries.foldl _ table = table.map fun row ↦ match entries.dlookup row.id with
    | some fields => row.update fields now
    | none => row
  induction entries generalizing table with
  | nil => simp
  | cons e entries ih =>
    obtain ⟨id, fields⟩ := e
    rw [nodupKeys_cons] at hnodup
    rw [foldl_cons, ih _ hnodup.2, updateMessage, Multiset.map_map]
    refine Multiset.map_congr rfl fun row _ ↦ ?_
    by_cases hid : row.id = id
    · -- it is not pending twice
      subst hid
      have hnone : entries.dlookup row.id = none := dlookup_eq_none.mpr hnodup.1
      rw [comp_apply, if_pos rfl, MessageRow.id_update, hnone, dlookup_cons_eq]
    · rw [comp_apply, if_neg hid, dlookup_cons_ne _ _ hid]

/-! ## One row -/

/-- How a row of the reference corresponds to a row of the writer, when `pending` is still to be
updated and the updates of the columns in `lost` were dropped. -/
structure RowTracks (pending : (c : LogColumn) → Option c.Value) (lost : LogColumn → Prop)
    (row row' : MessageRow) : Prop where
  head_eq : row.head = row'.head
  pending_eq : ∀ c ≠ .updatedAt, ∀ v, pending c = some v → row.values c = some v ∧ ¬ lost c
  values_eq : ∀ c ≠ .updatedAt, pending c = none → ¬ lost c → row.values c = row'.values c
  missing : ∀ c ≠ .updatedAt, pending c = none → lost c →
    row'.values c = none ∧ row.values c ≠ none

namespace RowTracks

variable {pending pending' : (c : LogColumn) → Option c.Value} {lost lost' : LogColumn → Prop}
  {row row' : MessageRow}

variable (h : RowTracks pending lost row row')

include h

theorem id_eq : row.id = row'.id :=
  congrArg Prod.fst h.head_eq

omit h in
theorem refl (hpending : ∀ c, pending c = none) (hlost : ∀ c, ¬ lost c) (row : MessageRow) :
    RowTracks pending lost row row where
  head_eq := rfl
  pending_eq c _ v hv := by
    rw [hpending c] at hv
    cases hv
  values_eq _ _ _ _ := rfl
  missing c _ _ h := absurd h (hlost c)

theorem congr (hpending : ∀ c, pending' c = pending c)
    (hlost : ∀ c, lost' c ↔ lost c) : RowTracks pending' lost' row row' := by
  rwa [show pending' = pending from funext hpending,
    show lost' = lost from funext fun c ↦ propext (hlost c)]

omit h in
theorem merge {new : MsgWriterRow} (h : RowTracks pending lost row new.toRow)
    (hpending : ∀ c, pending c = none) (u : LogUpdates) (now : ℤ)
    (hlost : ∀ c, lost' c ↔ u.get c ≠ none ∧ c.unmerged = true ∨ lost c ∧ u.get c = none) :
    RowTracks pending lost' (row.update u now) (applyUpdatesToRow new u).toRow where
  head_eq := by
    rw [MessageRow.head_update, head_applyUpdatesToRow]
    exact h.head_eq
  pending_eq c _ v hv := by
    rw [hpending c] at hv
    cases hv
  values_eq c hc hnone hnot := by
    rw [hlost, not_or, not_and, not_and] at hnot
    rw [MessageRow.values_update hc, values_applyUpdatesToRow new u hc]
    cases hget : u.get c with
    | none =>
      have heq := h.values_eq c hc hnone fun hlost ↦ hnot.2 hlost hget
      rw [Option.none_or, Option.none_or, heq]
      split_ifs with hunmerged
      · exact values_toRow_of_unmerged new hunmerged
      · rfl
    | some v =>
      have hmerged : ¬ c.unmerged = true := hnot.1 (hget ▸ Option.some_ne_none v)
      rw [if_neg hmerged, Option.some_or, Option.some_or]
  missing c hc hnone hlost' := by
    rw [MessageRow.values_update hc, values_applyUpdatesToRow new u hc]
    rcases (hlost c).mp hlost' with ⟨hget, hunmerged⟩ | ⟨hbefore, hget⟩
    · obtain ⟨v, hv⟩ := Option.ne_none_iff_exists'.mp hget
      rw [if_pos hunmerged, hv]
      exact ⟨rfl, Option.some_ne_none v⟩
    · obtain ⟨hnull, hvalue⟩ := h.missing c hc hnone hbefore
      rw [hget, Option.none_or, Option.none_or, hnull, ite_self]
      exact ⟨rfl, hvalue⟩

theorem keep (u : LogUpdates) (now : ℤ) (hpending : ∀ c, pending' c = (u.get c).or (pending c))
    (hlost : ∀ c, lost' c ↔ lost c ∧ u.get c = none) :
    RowTracks pending' lost' (row.update u now) row' where
  head_eq := by
    rw [MessageRow.head_update]
    exact h.head_eq
  pending_eq c hc v hv := by
    rw [hpending c] at hv
    rw [MessageRow.values_update hc, hlost]
    cases hget : u.get c with
    | none =>
      rw [hget, Option.none_or] at hv
      obtain ⟨hvalue, hnot⟩ := h.pending_eq c hc v hv
      exact ⟨hvalue, fun hlost ↦ hnot hlost.1⟩
    | some v' =>
      rw [hget, Option.some_or] at hv
      exact ⟨hv, fun hlost ↦ Option.some_ne_none v' hlost.2⟩
  values_eq c hc hnone hnot := by
    rw [hpending c, Option.or_eq_none_iff] at hnone
    rw [hlost] at hnot
    rw [MessageRow.values_update hc, hnone.1, Option.none_or]
    exact h.values_eq c hc hnone.2 fun hbefore ↦ hnot ⟨hbefore, hnone.1⟩
  missing c hc hnone hlost' := by
    rw [hpending c, Option.or_eq_none_iff] at hnone
    rw [MessageRow.values_update hc, hnone.1, Option.none_or]
    exact h.missing c hc hnone.2 ((hlost c).mp hlost').1

theorem execute (fields : LogUpdates) (now : ℤ) (hfields : ∀ c, fields.get c = pending c)
    (hpending : ∀ c, pending' c = none) : RowTracks pending' lost row (row'.update fields now) where
  head_eq := by
    rw [MessageRow.head_update]
    exact h.head_eq
  pending_eq c _ v hv := by
    rw [hpending c] at hv
    cases hv
  values_eq c hc _ hnot := by
    rw [MessageRow.values_update hc, hfields c]
    cases hv : pending c with
    | none => exact h.values_eq c hc hv hnot
    | some v => exact (h.pending_eq c hc v hv).1
  missing c hc _ hlost := by
    rw [MessageRow.values_update hc, hfields c]
    cases hv : pending c with
    | none => exact h.missing c hc hv hlost
    | some v => exact absurd hlost (h.pending_eq c hc v hv).2

end RowTracks

/-! ## All rows -/

/-- Merging, seen at the row that is inserted. -/
def MessageRow.merge (u : LogUpdates) (row : MessageRow) : MessageRow :=
  { row with values := fun c ↦
      if c.unmerged ∨ c = .updatedAt then row.values c else (u.get c).or (row.values c) }

open MessageRow

def MessageRow.mergeAt (id : UUID) (u : LogUpdates) (row : MessageRow) : MessageRow :=
  if row.id = id then row.merge u else row

theorem toRow_applyUpdatesToRow : (applyUpdatesToRow row u).toRow = row.toRow.merge u := by
  have hvalues : (applyUpdatesToRow row u).toRow.values = (row.toRow.merge u).values := by
    funext c
    by_cases hc : c = .updatedAt
    · subst hc
      rfl
    · rw [values_applyUpdatesToRow row u hc]
      by_cases hunmerged : c.unmerged = true
      · rw [if_pos hunmerged, ← values_toRow_of_unmerged row hunmerged]
        exact (if_pos (Or.inl hunmerged)).symm
      · rw [if_neg hunmerged]
        exact (if_neg (not_or.mpr ⟨hunmerged, hc⟩)).symm
  exact congrArg (fun values ↦ { row.toRow with values := values }) hvalues

def MessageWriter.pending (w : MessageWriter) (id : UUID) (c : LogColumn) : Option c.Value :=
  (w.updates.lookup id).bind fun fields ↦ fields.get c

section Writer

variable {w : MessageWriter} {id : UUID} {u : LogUpdates}

theorem receive_update_creating (now : ℤ) (hu : u.isEmpty = false) (hid : w.Creating id) :
    w.receive now (.update (some id) u) = w.mergeUpdate id u := by
  rw [MessageWriter.receive, hu, if_neg Bool.false_ne_true, if_pos hid]

theorem receive_update_written (now : ℤ) (hu : u.isEmpty = false) (hid : ¬ w.Creating id) :
    w.receive now (.update (some id) u) = w.keepUpdate id u := by
  rw [MessageWriter.receive, hu, if_neg Bool.false_ne_true, if_neg hid]

theorem receive_update_empty (now : ℤ) (hu : u.isEmpty = true) :
    w.receive now (.update (some id) u) = w := by
  rw [MessageWriter.receive, if_pos hu]

theorem creating_mergeUpdate {id' : UUID} : (w.mergeUpdate id u).Creating id' ↔ w.Creating id' := by
  have hid : ∀ row : MsgWriterRow,
      (if row.id = id then applyUpdatesToRow row u else row).id = row.id := by
    intro row
    split_ifs <;> rfl
  constructor
  · rintro ⟨row, hrow, rfl⟩
    obtain ⟨row', hrow', rfl⟩ := mem_map.mp hrow
    exact ⟨row', hrow', (hid row').symm⟩
  · rintro ⟨row, hrow, rfl⟩
    exact ⟨_, mem_map_of_mem hrow, hid row⟩

theorem toRow_mergeUpdate : (w.mergeUpdate id u).creates.map MsgWriterRow.toRow
      = (w.creates.map MsgWriterRow.toRow).map (mergeAt id u) := by
  rw [MessageWriter.mergeUpdate, map_map, map_map]
  refine map_congr_left fun row _ ↦ ?_
  rw [comp_apply, comp_apply]
  by_cases hid : row.id = id
  · rw [if_pos hid, mergeAt, if_pos (show row.toRow.id = id from hid), toRow_applyUpdatesToRow]
  · rw [if_neg hid, mergeAt, if_neg (show ¬ row.toRow.id = id from hid)]

theorem pending_keepUpdate (c : LogColumn) :
    (w.keepUpdate id u).pending id c = (u.get c).or (w.pending id c) := by
  rw [MessageWriter.pending, MessageWriter.keepUpdate, AList.lookup_insert, Option.bind_some,
    LogUpdates.get_merge, MessageWriter.pending]
  cases w.updates.lookup id <;> rfl

theorem lookup_keepUpdate_of_ne {id' : UUID} (h : id' ≠ id) :
    (w.keepUpdate id u).updates.lookup id' = w.updates.lookup id' := AList.lookup_insert_ne h

end Writer

/-- The rows of the table and those that are to be inserted. -/
def MessageLog.rows (s : MessageLog) : Multiset MessageRow :=
  s.table + (s.writer.creates.map MsgWriterRow.toRow : List MessageRow)

/-- **The invariant.** The rows correspond to those of the reference. -/
structure LogSim (lost : UUID → LogColumn → Prop) (known : UUID → Prop)
    (reference : Multiset MessageRow) (s : MessageLog) : Prop where
  pairs : ∃ pairs : Multiset (MessageRow × MessageRow), pairs.map Prod.fst = reference ∧
    pairs.map Prod.snd = s.rows ∧
    ∀ p ∈ pairs, RowTracks (s.writer.pending p.1.id) (lost p.1.id) p.1 p.2
  apart : ∀ id, s.writer.Creating id → s.writer.updates.lookup id = none
  unwritten : ∀ row ∈ s.table, ¬ s.writer.Creating row.id
  known_rows : ∀ row ∈ s.rows, known row.id
  known_updates : ∀ id, s.writer.updates.lookup id ≠ none → known id
  known_lost : ∀ id c, lost id c → ∃ row ∈ s.rows, row.id = id

theorem mem_rows {s : MessageLog} {row : MessageRow} :
    row ∈ s.rows ↔ row ∈ s.table ∨ ∃ new ∈ s.writer.creates, new.toRow = row := by
  rw [MessageLog.rows, Multiset.mem_add, Multiset.mem_coe, mem_map]

namespace LogSim

variable {lost lost' : UUID → LogColumn → Prop} {known known' : UUID → Prop}
  {reference : Multiset MessageRow} {s : MessageLog}

variable (h : LogSim lost known reference s)

include h

theorem not_creating {id : UUID} (hid : ¬ known id) : ¬ s.writer.Creating id := by
  rintro ⟨row, hrow, rfl⟩
  exact hid (h.known_rows row.toRow (mem_rows.mpr (Or.inr ⟨row, hrow, rfl⟩)))

omit h in
theorem start (table : Multiset MessageRow) :
    LogSim (fun _ _ ↦ False) (fun id ↦ ∃ row ∈ table, row.id = id) table (.start table) where
  pairs := by
    refine ⟨table.map fun row ↦ (row, row), ?_, ?_, ?_⟩
    · rw [Multiset.map_map]
      exact Multiset.map_id' table
    · rw [Multiset.map_map]
      exact (Multiset.map_id' table).trans (add_zero table).symm
    · intro p hp
      obtain ⟨row, -, rfl⟩ := Multiset.mem_map.mp hp
      exact RowTracks.refl (fun _ ↦ rfl) (fun _ ↦ not_false) row
  apart id h := by
    obtain ⟨row, hrow, -⟩ := h
    exact absurd hrow not_mem_nil
  unwritten row _ h := by
    obtain ⟨row, hrow, -⟩ := h
    exact absurd hrow not_mem_nil
  known_rows row hrow := by
    rcases mem_rows.mp hrow with hrow | ⟨new, hnew, -⟩
    · exact ⟨row, hrow, rfl⟩
    · exact absurd hnew not_mem_nil
  known_updates id h := absurd rfl h
  known_lost id c h := h.elim

/-- A step that changes the rows of either side in place. -/
private theorem of_map {s' : MessageLog} (f : MessageRow → MessageRow) {g : MessageRow → MessageRow}
    (hrows : s'.rows = s.rows.map g) (hid : ∀ row, (g row).id = row.id)
    (htracks : ∀ row, ∀ row' ∈ s.rows, RowTracks (s.writer.pending row.id) (lost row.id) row row' →
      RowTracks (s'.writer.pending (f row).id) (lost' (f row).id) (f row) (g row'))
    (hapart : ∀ id, s'.writer.Creating id → s'.writer.updates.lookup id = none)
    (hunwritten : ∀ row ∈ s'.table, ¬ s'.writer.Creating row.id)
    (hknown : ∀ id, known id → known' id)
    (hupdates : ∀ id, s'.writer.updates.lookup id ≠ none → known' id)
    (hlost : ∀ id c, lost' id c → ∃ row ∈ s.rows, row.id = id) :
    LogSim lost' known' (reference.map f) s' := by
  obtain ⟨pairs, hfst, hsnd, hpairs⟩ := h.pairs
  refine ⟨⟨pairs.map fun p ↦ (f p.1, g p.2), ?_, ?_, ?_⟩, hapart, hunwritten, ?_, hupdates, ?_⟩
  · rw [← hfst, Multiset.map_map, Multiset.map_map]
    rfl
  · rw [hrows, ← hsnd, Multiset.map_map, Multiset.map_map]
    rfl
  · intro q hq
    obtain ⟨p, hp, rfl⟩ := Multiset.mem_map.mp hq
    exact htracks p.1 p.2 (hsnd ▸ Multiset.mem_map_of_mem Prod.snd hp) (hpairs p hp)
  · intro row hrow
    rw [hrows] at hrow
    obtain ⟨row', hrow', rfl⟩ := Multiset.mem_map.mp hrow
    rw [hid]
    exact hknown _ (h.known_rows row' hrow')
  · intro id c hlost'
    obtain ⟨row, hrow, rfl⟩ := hlost id c hlost'
    rw [hrows]
    exact ⟨g row, Multiset.mem_map_of_mem g hrow, hid row⟩

theorem flush (now : ℤ) : LogSim lost known reference (s.flush now) := by
  set exec : MessageRow → MessageRow := fun row ↦
    match s.writer.updates.lookup row.id with
    | some fields => row.update fields now
    | none => row with hexec
  have hid : ∀ row, (exec row).id = row.id := by
    intro row
    simp only [hexec]
    split
    · exact id_update
    · rfl
  have hrows : (s.flush now).rows = s.rows.map exec := by
    rw [MessageLog.rows, MessageLog.flush, flushMessageUpdates_eq]
    exact add_zero _
  rw [← Multiset.map_id reference]
  refine h.of_map id hrows hid (fun row row' _ htrack ↦ ?_) ?_ ?_ (fun _ ↦ id)
    (fun id hne ↦ absurd rfl hne) h.known_lost
  · cases hlookup : s.writer.updates.lookup row'.id with
    | some fields =>
      have heq : exec row' = row'.update fields now := by simp only [hexec, hlookup]
      rw [heq]
      refine htrack.execute fields now (fun c ↦ ?_) fun c ↦ rfl
      rw [MessageWriter.pending, htrack.id_eq, hlookup]
      rfl
    | none =>
      have heq : exec row' = row' := by simp only [hexec, hlookup]
      rw [heq]
      refine htrack.congr (fun c ↦ ?_) fun c ↦ Iff.rfl
      rw [MessageWriter.pending, MessageWriter.pending, htrack.id_eq, hlookup]
      rfl
  · rintro id ⟨row, hrow, -⟩
    exact absurd hrow not_mem_nil
  · rintro row - ⟨new, hnew, -⟩
    exact absurd hnew not_mem_nil

theorem create (log : LogEntry) (now : ℤ)
    (hnew : ¬ known log.id) (hknown : ∀ id, known id → known' id) (hlog : known' log.id) :
    LogSim lost known' ((convertLogEntry now log).toRow ::ₘ reference)
      { s with writer := s.writer.receive now (.create (some log)) } := by
  have hnone : s.writer.updates.lookup log.id = none := by
    by_contra hne
    exact hnew (h.known_updates log.id hne)
  have hfilter : s.writer.creates.filter (fun row ↦ row.id ≠ log.id) = s.writer.creates := by
    refine filter_eq_self.mpr fun row hrow ↦ decide_eq_true fun hid ↦ ?_
    exact h.not_creating hnew ⟨row, hrow, hid⟩
  have hreceive : s.writer.receive now (.create (some log))
      = ⟨convertLogEntry now log :: s.writer.creates, s.writer.updates.erase log.id⟩ := by
    rw [MessageWriter.receive, hnone, hfilter]
  have hlookup : ∀ id, (s.writer.updates.erase log.id).lookup id = s.writer.updates.lookup id := by
    intro id
    by_cases hid : id = log.id
    · rw [hid, AList.lookup_erase, hnone]
    · exact AList.lookup_erase_ne hid
  rw [hreceive]
  have hrows : MessageLog.rows { s with
      writer := ⟨convertLogEntry now log :: s.writer.creates, s.writer.updates.erase log.id⟩ }
      = (convertLogEntry now log).toRow ::ₘ s.rows := by
    rw [MessageLog.rows, map_cons, ← Multiset.cons_coe, Multiset.add_cons, MessageLog.rows]
  have hcreating : ∀ id, MessageWriter.Creating
      ⟨convertLogEntry now log :: s.writer.creates, s.writer.updates.erase log.id⟩ id →
      log.id = id ∨ s.writer.Creating id := by
    rintro id ⟨row, hrow, rfl⟩
    rcases mem_cons.mp hrow with rfl | hrow
    · exact Or.inl rfl
    · exact Or.inr ⟨row, hrow, rfl⟩
  refine ⟨?_, ?_, ?_, ?_, ?_, ?_⟩
  · obtain ⟨pairs, hfst, hsnd, htracks⟩ := h.pairs
    refine ⟨((convertLogEntry now log).toRow, (convertLogEntry now log).toRow) ::ₘ pairs, ?_, ?_,
      ?_⟩
    · rw [Multiset.map_cons, hfst]
    · rw [Multiset.map_cons, hsnd, hrows]
    · intro p hp
      rcases Multiset.mem_cons.mp hp with rfl | hp
      · refine RowTracks.refl (fun c ↦ ?_) (fun c hlost ↦ ?_) _
        · exact congrArg (Option.bind · _) ((hlookup log.id).trans hnone)
        · obtain ⟨row, hrow, hid⟩ := h.known_lost log.id c hlost
          exact hnew (hid ▸ h.known_rows row hrow)
      · refine (htracks p hp).congr (fun c ↦ ?_) fun c ↦ Iff.rfl
        exact congrArg (Option.bind · _) (hlookup p.1.id)
  · intro id hid
    rw [hlookup id]
    rcases hcreating id hid with rfl | hid
    · exact hnone
    · exact h.apart id hid
  · intro row hrow hid
    rcases hcreating row.id hid with heq | hid
    · exact hnew (heq ▸ h.known_rows row (mem_rows.mpr (Or.inl hrow)))
    · exact h.unwritten row hrow hid
  · intro row hrow
    rw [hrows] at hrow
    rcases Multiset.mem_cons.mp hrow with rfl | hrow
    · exact hlog
    · exact hknown _ (h.known_rows row hrow)
  · intro id hne
    rw [hlookup id] at hne
    exact hknown id (h.known_updates id hne)
  · intro id c hlost
    obtain ⟨row, hrow, hid⟩ := h.known_lost id c hlost
    rw [hrows]
    exact ⟨row, Multiset.mem_cons_of_mem hrow, hid⟩

theorem merge {id : UUID} (hid : s.writer.Creating id)
    {u : LogUpdates} (hu : u.isEmpty = false) (now : ℤ) (hknown : ∀ id, known id → known' id)
    (hlost : ∀ c, lost' id c ↔ u.get c ≠ none ∧ c.unmerged = true ∨ lost id c ∧ u.get c = none)
    (hother : ∀ id' ≠ id, ∀ c, lost' id' c ↔ lost id' c) :
    LogSim lost' known' (updateMessage id u now reference)
      { s with writer := s.writer.receive now (.update (some id) u) } := by
  rw [receive_update_creating now hu hid]
  have htable : s.table.map (mergeAt id u) = s.table := by
    refine (Multiset.map_congr rfl fun row hrow ↦ if_neg fun heq ↦ ?_).trans (Multiset.map_id' _)
    exact h.unwritten row hrow (heq ▸ hid)
  have hrows : MessageLog.rows { s with writer := s.writer.mergeUpdate id u }
      = s.rows.map (mergeAt id u) := by
    rw [MessageLog.rows, toRow_mergeUpdate, MessageLog.rows, Multiset.map_add, htable,
      Multiset.map_coe]
  have hsame : ∀ row : MessageRow, (row.mergeAt id u).id = row.id := fun row ↦ by
    rw [mergeAt]
    split_ifs <;> rfl
  refine h.of_map _ hrows hsame (fun row row' hmem htrack ↦ ?_)
    (fun id' hid' ↦ h.apart id' (creating_mergeUpdate.mp hid'))
    (fun row hrow hid' ↦ h.unwritten row hrow (creating_mergeUpdate.mp hid')) hknown
    (fun id' hne ↦ hknown id' (h.known_updates id' hne)) fun id' c hlost' ↦ ?_
  · by_cases hrow : row.id = id
    · -- the row is still to be inserted
      have hrow' : row'.id = id := htrack.id_eq ▸ hrow
      rcases mem_rows.mp hmem with hmem | ⟨new, hnew, rfl⟩
      · exact absurd (hrow' ▸ hid) (h.unwritten row' hmem)
      · rw [hrow] at htrack
        rw [if_pos hrow, mergeAt, if_pos hrow', ← toRow_applyUpdatesToRow, id_update, hrow]
        exact htrack.merge (fun c ↦ congrArg (Option.bind · _) (h.apart id hid)) u now hlost
    · rw [if_neg hrow, mergeAt, if_neg (htrack.id_eq ▸ hrow)]
      exact htrack.congr (fun c ↦ rfl) (hother row.id hrow)
  · by_cases hid' : id' = id
    · obtain ⟨new, hnew, heq⟩ := hid
      exact ⟨new.toRow, mem_rows.mpr (Or.inr ⟨new, hnew, rfl⟩), heq.trans hid'.symm⟩
    · exact h.known_lost id' c ((hother id' hid' c).mp hlost')

theorem keep {id : UUID} (hid : ¬ s.writer.Creating id)
    {u : LogUpdates} (hu : u.isEmpty = false) (now : ℤ) (hknown : ∀ id, known id → known' id)
    (hlog : known' id) (hlost : ∀ c, lost' id c ↔ lost id c ∧ u.get c = none)
    (hother : ∀ id' ≠ id, ∀ c, lost' id' c ↔ lost id' c) :
    LogSim lost' known' (updateMessage id u now reference)
      { s with writer := s.writer.receive now (.update (some id) u) } := by
  rw [receive_update_written now hu hid]
  refine h.of_map _ (Multiset.map_id _).symm (fun _ ↦ rfl) (fun row row' _ htrack ↦ ?_)
    (fun id' hid' ↦ ?_) h.unwritten hknown (fun id' hne ↦ ?_) fun id' c hlost' ↦ ?_
  · by_cases hrow : row.id = id
    · rw [hrow] at htrack
      rw [if_pos hrow, id_update, hrow]
      exact htrack.keep u now pending_keepUpdate hlost
    · rw [if_neg hrow]
      refine htrack.congr (fun c ↦ ?_) (hother row.id hrow)
      exact congrArg (Option.bind · _) (lookup_keepUpdate_of_ne hrow)
  · have hne : id' ≠ id := fun heq ↦ hid (heq ▸ hid')
    exact (lookup_keepUpdate_of_ne hne).trans (h.apart id' hid')
  · by_cases heq : id' = id
    · exact heq ▸ hlog
    · exact hknown id' (h.known_updates id' fun hnone ↦
        hne ((lookup_keepUpdate_of_ne heq).trans hnone))
  · by_cases heq : id' = id
    · subst heq
      exact h.known_lost id' c ((hlost c).mp hlost').1
    · exact h.known_lost id' c ((hother id' heq c).mp hlost')

theorem skip (hknown : ∀ id, known id → known' id)
    (hlost : ∀ id c, lost' id c ↔ lost id c) : LogSim lost' known' reference s := by
  have heq : lost' = lost := funext fun id ↦ funext fun c ↦ propext (hlost id c)
  rw [heq]
  exact ⟨h.pairs, h.apart, h.unwritten, fun row hrow ↦ hknown _ (h.known_rows row hrow),
    fun id hne ↦ hknown id (h.known_updates id hne), h.known_lost⟩

end LogSim

/-! ## Whole runs -/

namespace WriterEvent

def messageID : WriterEvent → Option UUID
  | .receive action _ => action.messageID
  | .tick _ => none

def Creates (id : UUID) : WriterEvent → Prop
  | .receive (.create (some log)) _ => log.id = id
  | _ => False

def Names (id : UUID) (c : LogColumn) : WriterEvent → Prop
  | .receive (.update (some id') u) _ => id' = id ∧ u.get c ≠ none
  | _ => False

end WriterEvent

/-- Each message is created before anything else is done with it. -/
structure CreatesFirst (table : Multiset MessageRow) (events : List WriterEvent) : Prop where
  /-- It is created once, and not updated before. -/
  pairwise : events.Pairwise fun e e' ↦ ∀ id, e'.Creates id → e.messageID ≠ some id
  fresh : ∀ row ∈ table, ∀ e ∈ events, ¬ e.Creates row.id

variable {events : List WriterEvent}

section Runs

variable (maxBatch : ℕ) (table : Multiset MessageRow)

/-- The last update of the column was received while the create of the message was pending, and the
column is not merged. -/
def Lost (events : List WriterEvent) (id : UUID) (c : LogColumn) : Prop :=
  c.unmerged = true ∧ ∃ before e after, events = before ++ e :: after ∧ e.Names id c ∧
    (MessageLog.after maxBatch table before).writer.Creating id ∧ ∀ e' ∈ after, ¬ e'.Names id c

variable {maxBatch table}

theorem lost_concat {e : WriterEvent} {id : UUID} : Lost maxBatch table (events ++ [e]) id c ↔
      e.Names id c ∧ c.unmerged = true ∧
        (MessageLog.after maxBatch table events).writer.Creating id ∨
      Lost maxBatch table events id c ∧ ¬ e.Names id c := by
  constructor
  · rintro ⟨hc, before, x, after, heq, hnames, hpending, hafter⟩
    rcases eq_nil_or_concat after with rfl | ⟨after, y, rfl⟩
    · obtain ⟨rfl, hx⟩ := append_inj' heq rfl
      obtain rfl := head_eq_of_cons_eq hx
      exact Or.inl ⟨hnames, hc, hpending⟩
    · rw [concat_eq_append] at heq hafter
      rw [← cons_append, ← append_assoc] at heq
      obtain ⟨rfl, hy⟩ := append_inj' heq rfl
      obtain rfl := head_eq_of_cons_eq hy
      refine Or.inr ⟨⟨hc, before, x, after, rfl, hnames, hpending, fun e' he' ↦ ?_⟩, ?_⟩
      · exact hafter e' (mem_append_left _ he')
      · exact hafter e (mem_append_right _ mem_cons_self)
  · rintro (⟨hnames, hc, hpending⟩ | ⟨⟨hc, before, x, after, rfl, hnames, hpending, hafter⟩, hnot⟩)
    · exact ⟨hc, events, e, [], rfl, hnames, hpending, forall_mem_nil _⟩
    · refine ⟨hc, before, x, after ++ [e], by simp, hnames, hpending, fun e' he' ↦ ?_⟩
      rcases mem_append.mp he' with he' | he'
      · exact hafter e' he'
      · rwa [mem_singleton.mp he']

theorem not_lost_nil (id : UUID) (c : LogColumn) : ¬ Lost maxBatch table [] id c := by
  rintro ⟨-, before, e, after, heq, -⟩
  exact absurd heq.symm (append_ne_nil_of_right_ne_nil _ (cons_ne_nil _ _))

def Known (table : Multiset MessageRow) (events : List WriterEvent) (id : UUID) : Prop :=
  (∃ row ∈ table, row.id = id) ∨ ∃ e ∈ events, e.messageID = some id

theorem Known.concat {id : UUID} (h : Known table events id)
    (e : WriterEvent) : Known table (events ++ [e]) id :=
  h.imp_right fun ⟨e', he', hid⟩ ↦ ⟨e', mem_append_left _ he', hid⟩

theorem lost_concat_of_not_names {e : WriterEvent}
    (he : ∀ id c, ¬ e.Names id c) (id : UUID) (c : LogColumn) :
    Lost maxBatch table (events ++ [e]) id c ↔ Lost maxBatch table events id c := by
  rw [lost_concat]
  simp [he id c]

theorem LogSim.receive (action : LogAction) (now : ℤ)
    (h : LogSim (Lost maxBatch table events) (Known table events) (applyActions table events)
      (MessageLog.after maxBatch table events))
    (hfirst : ∀ id, (WriterEvent.receive action now).Creates id → ¬ Known table events id) :
    LogSim (Lost maxBatch table (events ++ [.receive action now]))
      (Known table (events ++ [.receive action now]))
      (applyAction now (applyActions table events) action)
      { MessageLog.after maxBatch table events with
        writer := (MessageLog.after maxBatch table events).writer.receive now action } := by
  have hknown : ∀ id, Known table events id →
      Known table (events ++ [.receive action now]) id := fun id hid ↦ hid.concat _
  cases action with
  | create log =>
    have hnames : ∀ id c, ¬ (WriterEvent.receive (.create log) now).Names id c :=
      fun _ _ h ↦ h
    cases log with
    | none => exact h.skip hknown (lost_concat_of_not_names hnames)
    | some log =>
      refine (h.create log now (hfirst log.id rfl) hknown ?_).skip (fun _ hid ↦ hid)
        (lost_concat_of_not_names hnames)
      exact Or.inr ⟨_, mem_append_right _ mem_cons_self, rfl⟩
  | update id u =>
    cases id with
    | none => exact h.skip hknown (lost_concat_of_not_names fun _ _ h ↦ h)
    | some id =>
      have hnames : ∀ id' c, (WriterEvent.receive (.update (some id) u) now).Names id' c ↔
          id = id' ∧ u.get c ≠ none := fun _ _ ↦ Iff.rfl
      have hother : ∀ id' ≠ id, ∀ c, Lost maxBatch table
          (events ++ [.receive (.update (some id) u) now]) id' c ↔
          Lost maxBatch table events id' c := by
        intro id' hne c
        rw [lost_concat, hnames]
        simp [Ne.symm hne]
      cases hu : u.isEmpty with
      | true =>
        -- an update that says nothing
        have hget := LogUpdates.get_of_isEmpty hu
        rw [receive_update_empty now hu]
        have hsame : updateMessage id u now (applyActions table events)
            = applyActions table events := by
          refine (Multiset.map_congr rfl fun row _ ↦ ?_).trans (Multiset.map_id' _)
          rw [MessageRow.update, if_pos hget, ite_self]
        rw [applyAction, hsame]
        refine h.skip hknown (lost_concat_of_not_names fun id' c hname ↦ ?_)
        exact hname.2 (hget c)
      | false =>
        by_cases hid : (MessageLog.after maxBatch table events).writer.Creating id
        · refine h.merge hid hu now hknown (fun c ↦ ?_) hother
          rw [lost_concat, hnames]
          simp [hid]
        · refine h.keep hid hu now hknown ?_ (fun c ↦ ?_) hother
          · exact Or.inr ⟨_, mem_append_right _ mem_cons_self, rfl⟩
          · rw [lost_concat, hnames]
            simp [hid]

theorem LogSim.flush_ite {lost : UUID → LogColumn → Prop} {known : UUID → Prop}
    {reference : Multiset MessageRow} {s : MessageLog} (h : LogSim lost known reference s)
    (full : Prop) [Decidable full] (now : ℤ) :
    LogSim lost known reference (if full then s.flush now else s) := by
  split_ifs
  · exact h.flush now
  · exact h

variable (maxBatch) in
theorem sim_after (h : CreatesFirst table events) :
    LogSim (Lost maxBatch table events) (Known table events) (applyActions table events)
      (MessageLog.after maxBatch table events) := by
  induction events using reverseRecOn with
  | nil =>
    exact (LogSim.start table).skip (fun id hid ↦ Or.inl hid) fun id c ↦
      ⟨not_lost_nil id c, False.elim⟩
  | append_singleton events e ih =>
    have hpairwise := pairwise_append.mp h.pairwise
    have hbefore := ih ⟨hpairwise.1, fun row hrow e he ↦
      h.fresh row hrow e (mem_append_left _ he)⟩
    rw [applyActions, MessageLog.after, foldl_append, foldl_append, ← applyActions,
      ← MessageLog.after]
    cases e with
    | tick now =>
      exact (hbefore.flush now).skip (fun _ hid ↦ hid.concat _)
        (lost_concat_of_not_names fun _ _ h ↦ h)
    | receive action now =>
      have hreceive := LogSim.receive action now hbefore fun id hid ↦ ?_
      · cases action with
        | create log =>
          cases log with
          | none => exact hreceive
          | some log => exact hreceive.flush_ite _ now
        | update id u =>
          cases id with
          | none => exact hreceive
          | some id => exact hreceive.flush_ite _ now
      · rintro (⟨row, hrow, rfl⟩ | ⟨e, he, heq⟩)
        · exact h.fresh row hrow _ (mem_append_right _ mem_cons_self) hid
        · exact hpairwise.2.2 e he _ mem_cons_self id hid heq

/-- **When batching is transparent.** The table is in the end what it would be if every action was
done at once, up to `updated_at`, exactly if for no message and no column that is not merged the
last update was received while the create was pending. -/
theorem runMessageWriter_eq_iff (maxBatch : ℕ) (table : Multiset MessageRow)
    (events : List WriterEvent) (now : ℤ) (h : CreatesFirst table events) :
    (runMessageWriter maxBatch table events now).map content
        = (applyActions table events).map content ↔
      ∀ id c, ¬ Lost maxBatch table events id c := by
  have hsim := (sim_after maxBatch h).flush now
  obtain ⟨pairs, hfst, hsnd, htracks⟩ := hsim.pairs
  have hrows : runMessageWriter maxBatch table events now = pairs.map Prod.snd := by
    rw [hsnd]
    exact (add_zero _).symm
  rw [hrows, ← hfst]
  constructor
  · intro heq id c hlost
    have hc : c ≠ .updatedAt := by
      rintro rfl
      cases hlost.1
    -- a row of the message has no value in the column
    obtain ⟨row, hrow, rfl⟩ := hsim.known_lost id c hlost
    rw [← hsnd] at hrow
    obtain ⟨p, hp, rfl⟩ := Multiset.mem_map.mp hrow
    rw [← (htracks p hp).id_eq] at hlost
    have hnull := ((htracks p hp).missing c hc rfl hlost).1
    -- no row of the reference is like that
    have hmem : p.2.content ∈ (pairs.map Prod.fst).map content := by
      rw [← heq]
      exact Multiset.mem_map_of_mem _ hrow
    obtain ⟨row, hrow, hcontent⟩ := Multiset.mem_map.mp hmem
    obtain ⟨q, hq, rfl⟩ := Multiset.mem_map.mp hrow
    obtain ⟨hhead, hvalues⟩ := content_eq_iff.mp hcontent
    have hid : q.1.id = p.1.id := (congrArg Prod.fst hhead).trans (htracks p hp).id_eq.symm
    refine ((htracks q hq).missing c hc rfl (hid ▸ hlost)).2 ?_
    rw [hvalues c hc, hnull]
  · intro hnot
    rw [Multiset.map_map, Multiset.map_map]
    refine Multiset.map_congr rfl fun p hp ↦ (content_eq_iff.mpr ⟨?_, ?_⟩).symm
    · exact (htracks p hp).head_eq
    · exact fun c hc ↦ (htracks p hp).values_eq c hc rfl (hnot p.1.id c)

end Runs

namespace EarlyReport

def log : MessageLogEntry where
  id := .ofDigit 7
  campaignID := .ofDigit 3
  cardID := .ofDigit 1
  direction := "MT"
  createdAt := 0
  rawPayload := [1]
  status := "sent"

def create : WriterEvent := .receive (MessageLogAction.create log).action 0

def report : WriterEvent :=
  .receive (MessageLogAction.update (.ofDigit 7) (.dlr .delivrd "a")).action 1

theorem createsFirst_written : CreatesFirst 0 [create, .tick 1, report] :=
  ⟨by simp [create, report, MessageLogAction.action, WriterEvent.Creates],
    fun row hrow ↦ absurd hrow (Multiset.notMem_zero row)⟩

theorem createsFirst_pending : CreatesFirst 0 [create, report] :=
  ⟨by simp [create, report, MessageLogAction.action, WriterEvent.Creates],
    fun row hrow ↦ absurd hrow (Multiset.notMem_zero row)⟩

theorem not_lost_written (id : UUID) (c : LogColumn) :
    ¬ Lost 10 0 [create, .tick 1, report] id c := by
  have hcreate : ∀ id c, ¬ create.Names id c := fun _ _ h ↦ h
  have htick : ∀ id c, ¬ (WriterEvent.tick 1).Names id c := fun _ _ h ↦ h
  have hbefore : ¬ Lost 10 0 (([] ++ [create]) ++ [.tick 1]) id c := by
    rw [lost_concat_of_not_names htick, lost_concat_of_not_names hcreate]
    exact not_lost_nil id c
  rw [show [create, .tick 1, report] = ([create] ++ [.tick 1]) ++ [report] from rfl, lost_concat]
  rintro (⟨-, -, row, hrow, -⟩ | ⟨hlost, -⟩)
  · exact absurd hrow not_mem_nil
  · exact hbefore hlost

end EarlyReport

open EarlyReport in
/-- The report comes in after the create was written. -/
theorem runMessageWriter_eq_iff_written :
    (runMessageWriter 10 0 [create, .tick 1, report] 2).map content
      = (applyActions 0 [create, .tick 1, report]).map content :=
  (runMessageWriter_eq_iff 10 0 _ 2 createsFirst_written).mpr not_lost_written

open EarlyReport in
/-- **The report comes in before.** The delivery status is not in the table in the end. -/
theorem merged_report_loses_status :
    CreatesFirst 0 [create, report] ∧
      (runMessageWriter 10 0 [create, report] 2).map (fun row ↦ row.values .dlrStatus)
        = {none} ∧
      (applyActions 0 [create, report]).map (fun row ↦ row.values .dlrStatus)
        = {some "DELIVRD"} ∧
      (runMessageWriter 10 0 [create, report] 2).map content
        ≠ (applyActions 0 [create, report]).map content := by
  refine ⟨createsFirst_pending, ?_, ?_, ?_⟩
  · decide +kernel
  · decide +kernel
  · decide +kernel

end OtaPlatform
