import OtaPlatform.Pgstore.MessageWriter
import OtaPlatform.Transition.Machine

/-!
# Several message writers

The writers of a pool take their actions from one channel and write to one table. A flush is not one
step here: the creates are inserted by one statement and every update is a statement of its own, so
the flushes of different writers interleave.

An `UPDATE` that matches no row is no error. If the create of a message and an update of it are
taken by different writers, the update may be executed before the row is there, and is lost.

* `Pool.reflected_of_careful`: in a run in which no update is executed while the create of its
  message is pending, and none is received that would be merged in part or that another writer holds
  too, every update is in its row when all writers have flushed.
-/

namespace OtaPlatform

open MessageWriter List Function

structure Pool (ι : Type) where
  channel : List LogAction
  writers : ι → MessageWriter
  flushing : ι → Bool
  table : Multiset MessageRow
  /-- History: the actions that were received. -/
  received : List LogAction

inductive PoolAction (ι : Type)
  | send (action : LogAction)
  | receive (i : ι) (now : ℤ)
  /-- A writer begins to flush: the creates are inserted. -/
  | copy (i : ι)
  | execute (i : ι) (id : UUID) (now : ℤ)
  | finish (i : ι)

def LogAction.Creates (id : UUID) : LogAction → Prop
  | .create (some log) => log.id = id
  | _ => False

instance (id : UUID) : (a : LogAction) → Decidable (a.Creates id)
  | .create (some log) => inferInstanceAs (Decidable (log.id = id))
  | .create none | .update _ _ => inferInstanceAs (Decidable False)

def LogAction.gives (id : UUID) (c : LogColumn) : LogAction → Option c.Value
  | .update (some id') u => if id' = id then u.get c else none
  | _ => none

theorem LogAction.messageID_of_creates {id : UUID} {a : LogAction} (h : a.Creates id) :
    a.messageID = some id := by
  cases a with
  | create log =>
    cases log with
    | none => exact h.elim
    | some log => exact congrArg some h
  | update id' u => exact h.elim

theorem LogAction.gives_of_messageID_ne {id : UUID} {c : LogColumn} {a : LogAction}
    (h : a.messageID ≠ some id) : a.gives id c = none := by
  cases a with
  | create log => rfl
  | update id' u =>
    cases id' with
    | none => rfl
    | some id' => exact if_neg fun heq ↦ h (congrArg some heq)

namespace Pool

variable {ι : Type} [DecidableEq ι]

def sent (s : Pool ι) : List LogAction := s.received ++ s.channel

/-- What can happen. A message is created once. -/
def Enabled (s : Pool ι) : PoolAction ι → Prop
  | .send action => ∀ id, action.Creates id →
      (∀ a ∈ s.sent, ¬ a.Creates id) ∧ ∀ row ∈ s.table, row.id ≠ id
  | .receive i _ => s.channel ≠ [] ∧ s.flushing i = false
  | .copy i => s.flushing i = false
  | .execute i id _ => s.flushing i = true ∧ (s.writers i).updates.lookup id ≠ none
  | .finish i => s.flushing i = true ∧ (s.writers i).updates = ∅

def next (s : Pool ι) : PoolAction ι → Pool ι
  | .send action => { s with channel := s.channel ++ [action] }
  | .receive i now =>
    match s.channel with
    | [] => s
    | action :: rest => { s with
        channel := rest
        writers := update s.writers i ((s.writers i).receive now action)
        received := s.received ++ [action] }
  | .copy i => { s with
      writers := update s.writers i { s.writers i with creates := [] }
      flushing := update s.flushing i true
      table := flushMessageCreates (s.writers i).creates s.table }
  | .execute i id now =>
    match (s.writers i).updates.lookup id with
    | none => s
    | some fields => { s with
        writers := update s.writers i
          { s.writers i with updates := (s.writers i).updates.erase id }
        table := updateMessage id fields now s.table }
  | .finish i => { s with flushing := update s.flushing i false }

def start (ι : Type) (table : Multiset MessageRow) : Pool ι where
  channel := []
  writers _ := ⟨[], ∅⟩
  flushing _ := false
  table := table
  received := []

def Flushed (s : Pool ι) : Prop :=
  s.channel = [] ∧ ∀ i, (s.writers i).creates = [] ∧ (s.writers i).updates = ∅

end Pool

/-- A pool of writers as a transition system. -/
def pool (ι : Type) [DecidableEq ι] : Machine (Pool ι) (PoolAction ι) where
  Enabled := Pool.Enabled
  next := Pool.next

/-! ## One column of one message -/

/-- What was given last for the column since the message was created. -/
def lastGiven (id : UUID) (c : LogColumn) (actions : List LogAction) : Option c.Value :=
  actions.foldl (fun v a ↦ if a.Creates id then none else (a.gives id c).or v) none

theorem lastGiven_concat (id : UUID) (c : LogColumn) (actions : List LogAction) (a : LogAction) :
    lastGiven id c (actions ++ [a])
      = if a.Creates id then none else (a.gives id c).or (lastGiven id c actions) := by
  rw [lastGiven, foldl_append]
  rfl

theorem receive_frame {w : MessageWriter} {id : UUID} (now : ℤ) {a : LogAction}
    (h : a.messageID ≠ some id) : (∀ new : MsgWriterRow, new.id = id →
      (new ∈ (w.receive now a).creates ↔ new ∈ w.creates)) ∧
      (w.receive now a).updates.lookup id = w.updates.lookup id := by
  cases a with
  | create log =>
    cases log with
    | none => exact ⟨fun _ _ ↦ Iff.rfl, rfl⟩
    | some log =>
      have hne : id ≠ log.id := fun heq ↦ h (congrArg some heq.symm)
      refine ⟨fun new hnew ↦ ?_, AList.lookup_erase_ne hne⟩
      have hother : new.id ≠ log.id := hnew ▸ hne
      rw [MessageWriter.receive, mem_cons, mem_filter]
      constructor
      · rintro (rfl | hmem)
        · refine absurd ?_ hother
          split <;> rfl
        · exact hmem.1
      · exact fun hmem ↦ Or.inr ⟨hmem, decide_eq_true hother⟩
  | update id' u =>
    cases id' with
    | none => exact ⟨fun _ _ ↦ Iff.rfl, rfl⟩
    | some id' =>
      have hne : id ≠ id' := fun heq ↦ h (congrArg some heq.symm)
      cases hu : u.isEmpty with
      | true =>
        rw [receive_update_empty now hu]
        exact ⟨fun _ _ ↦ Iff.rfl, rfl⟩
      | false =>
        by_cases hid : w.Creating id'
        · rw [receive_update_creating now hu hid]
          refine ⟨fun new hnew ↦ ?_, rfl⟩
          rw [mergeUpdate, mem_map]
          constructor
          · rintro ⟨row, hrow, rfl⟩
            split_ifs at hnew ⊢ with hrowid
            · exact absurd (hnew.symm.trans hrowid) hne
            · exact hrow
          · intro hmem
            exact ⟨new, hmem, if_neg (hnew ▸ hne)⟩
        · rw [receive_update_written now hu hid]
          exact ⟨fun _ _ ↦ Iff.rfl, lookup_keepUpdate_of_ne hne⟩

section Update

variable {w : MessageWriter} {id : UUID} {c : LogColumn} {u : LogUpdates}

theorem creating_receive_update (now : ℤ) :
    (w.receive now (.update (some id) u)).Creating id ↔ w.Creating id := by
  cases hu : u.isEmpty with
  | true => rw [receive_update_empty now hu]
  | false =>
    by_cases hid : w.Creating id
    · rw [receive_update_creating now hu hid]
      exact creating_mergeUpdate
    · rw [receive_update_written now hu hid]
      exact Iff.rfl

theorem updates_receive_update (now : ℤ) (hid : w.Creating id) :
    (w.receive now (.update (some id) u)).updates = w.updates := by
  cases hu : u.isEmpty with
  | true => rw [receive_update_empty now hu]
  | false =>
    rw [receive_update_creating now hu hid]
    rfl

/-- What is pending when an update was taken for a message that is not to be inserted. -/
theorem pending_receive_update (now : ℤ) (hid : ¬ w.Creating id) :
    (w.receive now (.update (some id) u)).pending id c = (u.get c).or (w.pending id c) := by
  cases hu : u.isEmpty with
  | true => rw [receive_update_empty now hu, LogUpdates.get_of_isEmpty hu, Option.none_or]
  | false =>
    rw [receive_update_written now hu hid]
    exact pending_keepUpdate c

/-- An update that is merged as a whole is in the row that is to be inserted. -/
theorem values_receive_update (now : ℤ) (hc : c ≠ .updatedAt)
    (hmerged : c.unmerged = true → u.get c = none) {new : MsgWriterRow}
    (hnew : new ∈ (w.receive now (.update (some id) u)).creates) (hid : new.id = id) :
    ∃ old ∈ w.creates, old.id = id ∧ new.toRow.values c = (u.get c).or (old.toRow.values c) := by
  cases hu : u.isEmpty with
  | true =>
    rw [receive_update_empty now hu] at hnew
    exact ⟨new, hnew, hid, by rw [LogUpdates.get_of_isEmpty hu, Option.none_or]⟩
  | false =>
    by_cases hcreating : w.Creating id
    · rw [receive_update_creating now hu hcreating] at hnew
      obtain ⟨old, hold, rfl⟩ := mem_map.mp hnew
      by_cases holdid : old.id = id
      · refine ⟨old, hold, holdid, ?_⟩
        rw [if_pos holdid, values_applyUpdatesToRow old u hc]
        split_ifs with hunmerged
        · rw [hmerged hunmerged, Option.none_or, values_toRow_of_unmerged old hunmerged]
        · rfl
      · rw [if_neg holdid] at hid
        exact absurd hid holdid
    · rw [receive_update_written now hu hcreating] at hnew
      exact absurd ⟨new, hnew, hid⟩ hcreating

end Update

variable {rest : List LogAction}

namespace Pool

variable {ι : Type}

/-- The row is in the table or to be inserted. -/
def Holds (s : Pool ι) (row : MessageRow) : Prop :=
  row ∈ s.table ∨ ∃ i, ∃ new ∈ (s.writers i).creates, new.toRow = row

/-- **The invariant.** Where the row of a message is, and what was given last for a column of
it. -/
structure Settled (id : UUID) (c : LogColumn) (s : Pool ι) : Prop where
  once : s.sent.Pairwise fun a b ↦ a.Creates id → ¬ b.Creates id
  created : (∃ a ∈ s.received, a.Creates id) →
    (∃ i, (s.writers i).Creating id) ∨ ∃ row ∈ s.table, row.id = id
  made : ∀ i, (s.writers i).Creating id → ∃ a ∈ s.received, a.Creates id
  coming : (∃ a ∈ s.channel, a.Creates id) → ∀ row ∈ s.table, row.id ≠ id
  only : ∀ i j, (s.writers i).Creating id → (s.writers j).Creating id → i = j
  unwritten : ∀ i, (s.writers i).Creating id → ∀ row ∈ s.table, row.id ≠ id
  apart : ∀ i, (s.writers i).Creating id → (s.writers i).updates.lookup id = none
  /-- A writer that is in a flush has inserted its rows. -/
  flushed : ∀ i, s.flushing i = true → (s.writers i).creates = []
  pending_eq : ∀ v, lastGiven id c s.received = some v →
    ∀ i v', (s.writers i).pending id c = some v' → v' = v
  /-- If no update is kept, the last one is in the row. -/
  values_eq : ∀ v, lastGiven id c s.received = some v →
    (∃ i, (s.writers i).pending id c = some v) ∨
      ∀ row, s.Holds row → row.id = id → row.values c = some v

section Steps

variable {id : UUID} {c : LogColumn} {s s' : Pool ι}

theorem settled_start (table : Multiset MessageRow) : Settled id c (start ι table) where
  once := Pairwise.nil
  created h := by
    obtain ⟨a, ha, -⟩ := h
    exact absurd ha not_mem_nil
  made i h := by
    obtain ⟨row, hrow, -⟩ := h
    exact absurd hrow not_mem_nil
  coming h := by
    obtain ⟨a, ha, -⟩ := h
    exact absurd ha not_mem_nil
  only i j h := by
    obtain ⟨row, hrow, -⟩ := h
    exact absurd hrow not_mem_nil
  unwritten i h := by
    obtain ⟨row, hrow, -⟩ := h
    exact absurd hrow not_mem_nil
  apart i _ := rfl
  flushed i _ := rfl
  pending_eq v h := by cases h
  values_eq v h := by cases h

theorem Settled.frame (h : Settled id c s) (hwriters : ∀ i, (∀ new : MsgWriterRow, new.id = id →
      (new ∈ (s'.writers i).creates ↔ new ∈ (s.writers i).creates)) ∧
      (s'.writers i).updates.lookup id = (s.writers i).updates.lookup id)
    (htable : ∀ row, row.id = id → (row ∈ s'.table ↔ row ∈ s.table))
    (hflushed : ∀ i, s'.flushing i = true → (s'.writers i).creates = [])
    (hgiven : lastGiven id c s'.received = lastGiven id c s.received)
    (hreceived : (∃ a ∈ s'.received, a.Creates id) ↔ ∃ a ∈ s.received, a.Creates id)
    (honce : s'.sent.Pairwise fun a b ↦ a.Creates id → ¬ b.Creates id)
    (hcoming : (∃ a ∈ s'.channel, a.Creates id) → ∀ row ∈ s.table, row.id ≠ id) :
    Settled id c s' := by
  have hcreating : ∀ i, (s'.writers i).Creating id ↔ (s.writers i).Creating id := by
    intro i
    constructor
    · rintro ⟨new, hnew, rfl⟩
      exact ⟨new, ((hwriters i).1 new rfl).mp hnew, rfl⟩
    · rintro ⟨new, hnew, rfl⟩
      exact ⟨new, ((hwriters i).1 new rfl).mpr hnew, rfl⟩
  have hpending : ∀ i, (s'.writers i).pending id c = (s.writers i).pending id c := fun i ↦
    congrArg (Option.bind · _) (hwriters i).2
  have hholds : ∀ row, row.id = id → s'.Holds row → s.Holds row := by
    rintro row hid (hrow | ⟨i, new, hnew, rfl⟩)
    · exact Or.inl ((htable row hid).mp hrow)
    · exact Or.inr ⟨i, new, ((hwriters i).1 new hid).mp hnew, rfl⟩
  refine ⟨honce, fun hcreate ↦ ?_, fun i hi ↦ ?_, fun hcreate row hrow hid ↦ ?_,
    fun i j hi hj ↦ ?_, fun i hi row hrow hid ↦ ?_, fun i hi ↦ ?_, hflushed, fun v hv i v' hv' ↦ ?_,
    fun v hv ↦ ?_⟩
  · rcases h.created (hreceived.mp hcreate) with ⟨i, hi⟩ | ⟨row, hrow, hid⟩
    · exact Or.inl ⟨i, (hcreating i).mpr hi⟩
    · exact Or.inr ⟨row, (htable row hid).mpr hrow, hid⟩
  · exact hreceived.mpr (h.made i ((hcreating i).mp hi))
  · exact hcoming hcreate row ((htable row hid).mp hrow) hid
  · exact h.only i j ((hcreating i).mp hi) ((hcreating j).mp hj)
  · exact h.unwritten i ((hcreating i).mp hi) row ((htable row hid).mp hrow) hid
  · rw [(hwriters i).2]
    exact h.apart i ((hcreating i).mp hi)
  · rw [hgiven] at hv
    rw [hpending i] at hv'
    exact h.pending_eq v hv i v' hv'
  · rw [hgiven] at hv
    rcases h.values_eq v hv with ⟨i, hi⟩ | hrows
    · exact Or.inl ⟨i, (hpending i).trans hi⟩
    · exact Or.inr fun row hrow hid ↦ hrows row (hholds row hid hrow) hid

theorem Settled.not_received (h : Settled id c s) (hcreate : ∃ a ∈ s.channel, a.Creates id) :
    ¬ ∃ a ∈ s.received, a.Creates id := by
  rintro ⟨a, ha, hid⟩
  obtain ⟨b, hb, hid'⟩ := hcreate
  exact (pairwise_append.mp h.once).2.2 a ha b hb hid hid'

variable [DecidableEq ι]

theorem Settled.send (h : Settled id c s) {action : LogAction} (ha : s.Enabled (.send action)) :
    Settled id c (s.next (.send action)) := by
  have hsent : (s.next (.send action)).sent = s.sent ++ [action] := (append_assoc _ _ _).symm
  refine h.frame (fun i ↦ ⟨fun _ _ ↦ Iff.rfl, rfl⟩) (fun _ _ ↦ Iff.rfl) h.flushed rfl Iff.rfl ?_ ?_
  · rw [hsent, pairwise_append]
    refine ⟨h.once, pairwise_singleton _ _, fun a ha' b hb hid hid' ↦ ?_⟩
    rw [mem_singleton.mp hb] at hid'
    exact (ha id hid').1 a ha' hid
  · rintro ⟨a, ha', hid⟩
    rcases mem_append.mp ha' with ha' | ha'
    · exact h.coming ⟨a, ha', hid⟩
    · rw [mem_singleton.mp ha'] at hid
      exact (ha id hid).2

theorem Settled.copy (h : Settled id c s) (i : ι) : Settled id c (s.next (.copy i)) := by
  have hself : (s.next (.copy i)).writers i = { s.writers i with creates := [] } :=
    update_self _ _ _
  have hother : ∀ j ≠ i, (s.next (.copy i)).writers j = s.writers j := fun j hj ↦
    update_of_ne hj _ _
  have hcreating : ∀ j, ((s.next (.copy i)).writers j).Creating id →
      j ≠ i ∧ (s.writers j).Creating id := by
    intro j hj
    by_cases hji : j = i
    · rw [hji, hself] at hj
      obtain ⟨row, hrow, -⟩ := hj
      exact absurd hrow not_mem_nil
    · rw [hother j hji] at hj
      exact ⟨hji, hj⟩
  have hupdates : ∀ j, ((s.next (.copy i)).writers j).updates = (s.writers j).updates := by
    intro j
    by_cases hji : j = i
    · rw [hji, hself]
    · rw [hother j hji]
  have hpending : ∀ j,
      ((s.next (.copy i)).writers j).pending id c = (s.writers j).pending id c := by
    intro j
    rw [pending, pending, hupdates j]
  have hmem : ∀ row, row ∈ (s.next (.copy i)).table ↔
      row ∈ s.table ∨ ∃ new ∈ (s.writers i).creates, new.toRow = row := by
    intro row
    change row ∈ flushMessageCreates _ _ ↔ _
    rw [flushMessageCreates, Multiset.mem_add, Multiset.mem_coe, mem_map]
  refine ⟨h.once, fun hcreate ↦ ?_, fun j hj ↦ h.made j (hcreating j hj).2,
    fun hcreate row hrow hid ↦ ?_, fun j k hj hk ↦ h.only j k (hcreating j hj).2 (hcreating k hk).2,
    fun j hj row hrow hid ↦ ?_, fun j hj ↦ ?_, fun j hj ↦ ?_, fun v hv j v' hv' ↦ ?_,
    fun v hv ↦ ?_⟩
  · rcases h.created hcreate with ⟨j, hj⟩ | ⟨row, hrow, hid⟩
    · by_cases hji : j = i
      · obtain ⟨new, hnew, hid⟩ := hj
        exact Or.inr ⟨new.toRow, (hmem _).mpr (Or.inr ⟨new, hji ▸ hnew, rfl⟩), hid⟩
      · exact Or.inl ⟨j, (hother j hji).symm ▸ hj⟩
    · exact Or.inr ⟨row, (hmem row).mpr (Or.inl hrow), hid⟩
  · rcases (hmem row).mp hrow with hrow | ⟨new, hnew, rfl⟩
    · exact h.coming hcreate row hrow hid
    · exact h.not_received hcreate (h.made i ⟨new, hnew, hid⟩)
  · obtain ⟨hji, hj⟩ := hcreating j hj
    rcases (hmem row).mp hrow with hrow | ⟨new, hnew, rfl⟩
    · exact h.unwritten j hj row hrow hid
    · exact hji (h.only j i hj ⟨new, hnew, hid⟩)
  · rw [hupdates j]
    exact h.apart j (hcreating j hj).2
  · by_cases hji : j = i
    · rw [hji, hself]
    · rw [hother j hji]
      exact h.flushed j ((update_of_ne hji _ _).symm.trans hj)
  · rw [hpending j] at hv'
    exact h.pending_eq v hv j v' hv'
  · rcases h.values_eq v hv with ⟨j, hj⟩ | hrows
    · exact Or.inl ⟨j, (hpending j).trans hj⟩
    · refine Or.inr fun row hrow hid ↦ hrows row ?_ hid
      rcases hrow with hrow | ⟨j, new, hnew, rfl⟩
      · rcases (hmem row).mp hrow with hrow | ⟨new, hnew, rfl⟩
        · exact Or.inl hrow
        · exact Or.inr ⟨i, new, hnew, rfl⟩
      · obtain ⟨hji, -⟩ := hcreating j ⟨new, hnew, hid⟩
        rw [hother j hji] at hnew
        exact Or.inr ⟨j, new, hnew, rfl⟩

private theorem exists_of_mem_updateMessage {fields : LogUpdates} {now : ℤ}
    {table : Multiset MessageRow} {row : MessageRow}
    (hrow : row ∈ updateMessage id fields now table) (hid : row.id = id) :
    ∃ row' ∈ table, row'.id = id ∧ row'.update fields now = row := by
  obtain ⟨row', hrow', rfl⟩ := Multiset.mem_map.mp hrow
  by_cases hid' : row'.id = id
  · exact ⟨row', hrow', hid', (if_pos hid').symm⟩
  · rw [if_neg hid'] at hid
    exact absurd hid hid'

theorem Settled.execute (h : Settled id c s) {i : ι} {fields : LogUpdates} {now : ℤ}
    (hc : c ≠ .updatedAt) (hfields : (s.writers i).updates.lookup id = some fields)
    (hwritten : ∀ j, ¬ (s.writers j).Creating id) :
    Settled id c { s with
      writers := update s.writers i
        { s.writers i with updates := (s.writers i).updates.erase id }
      table := updateMessage id fields now s.table } := by
  set writers := update s.writers i
    { s.writers i with updates := (s.writers i).updates.erase id } with hwriters
  have hother : ∀ j ≠ i, writers j = s.writers j := fun j hj ↦ update_of_ne hj _ _
  have hcreates : ∀ j, (writers j).creates = (s.writers j).creates := by
    intro j
    by_cases hji : j = i
    · rw [hwriters, hji, update_self]
    · rw [hother j hji]
  have hcreating : ∀ j, ¬ (writers j).Creating id := by
    rintro j ⟨row, hrow, hid⟩
    rw [hcreates j] at hrow
    exact hwritten j ⟨row, hrow, hid⟩
  have hpending : ∀ j v,
      (writers j).pending id c = some v → (s.writers j).pending id c = some v := by
    intro j v hv
    by_cases hji : j = i
    · rw [pending, hwriters, hji, update_self, AList.lookup_erase] at hv
      cases hv
    · rwa [hother j hji] at hv
  refine ⟨h.once, fun hcreate ↦ Or.inr ?_, fun j hj ↦ absurd hj (hcreating j), ?_,
    fun j k hj ↦ absurd hj (hcreating j), fun j hj ↦ absurd hj (hcreating j),
    fun j hj ↦ absurd hj (hcreating j), fun j hj ↦ (hcreates j).trans (h.flushed j hj),
    fun v hv j v' hv' ↦ h.pending_eq v hv j v' (hpending j v' hv'), fun v hv ↦ ?_⟩
  · rcases h.created hcreate with ⟨j, hj⟩ | ⟨row, hrow, hid⟩
    · exact absurd hj (hwritten j)
    · refine ⟨_, Multiset.mem_map_of_mem _ hrow, ?_⟩
      rw [if_pos hid, MessageRow.id_update, hid]
  · intro hcreate row hrow hid
    obtain ⟨row', hrow', hid', -⟩ := exists_of_mem_updateMessage hrow hid
    exact h.coming hcreate row' hrow' hid'
  · -- the value is here, with another writer, or in the rows
    have hget : (s.writers i).pending id c = fields.get c := by
      rw [pending, hfields]
      rfl
    have hrows : (∀ row' ∈ s.table, row'.id = id → (fields.get c).or (row'.values c) = some v) →
        ∀ row, Holds { s with
          writers := writers
          table := updateMessage id fields now s.table } row → row.id = id →
          row.values c = some v := by
      rintro hvalues row (hrow | ⟨j, new, hnew, rfl⟩) hid
      · obtain ⟨row', hrow', hid', rfl⟩ := exists_of_mem_updateMessage hrow hid
        rw [MessageRow.values_update hc]
        exact hvalues row' hrow' hid'
      · exact absurd ⟨new, hnew, hid⟩ (hcreating j)
    cases hv' : fields.get c with
    | some v' =>
      obtain rfl := h.pending_eq v hv i v' (hget.trans hv')
      refine Or.inr (hrows fun row' _ _ ↦ ?_)
      rw [hv', Option.some_or]
    | none =>
      rcases h.values_eq v hv with ⟨j, hj⟩ | hvalues
      · have hji : j ≠ i := by
          rintro rfl
          rw [hget, hv'] at hj
          cases hj
        exact Or.inl ⟨j, (congrArg (pending · id c) (hother j hji)).trans hj⟩
      · refine Or.inr (hrows fun row' hrow' hid' ↦ ?_)
        rw [hv', Option.none_or]
        exact hvalues row' (Or.inl hrow') hid'

/-- The state after a writer has taken an action. -/
def take (s : Pool ι) (i : ι) (now : ℤ) (action : LogAction) (rest : List LogAction) : Pool ι :=
  { s with
    channel := rest
    writers := update s.writers i ((s.writers i).receive now action)
    received := s.received ++ [action] }

theorem writers_take_self (s : Pool ι) (i : ι) (now : ℤ) (action : LogAction)
    (rest : List LogAction) :
    (s.take i now action rest).writers i = (s.writers i).receive now action :=
  update_self _ _ _

theorem writers_take_of_ne (s : Pool ι) {i j : ι} (h : j ≠ i) (now : ℤ) (action : LogAction)
    (rest : List LogAction) : (s.take i now action rest).writers j = s.writers j :=
  update_of_ne h _ _

theorem sent_take {i : ι} {now : ℤ} {action : LogAction}
    (hchannel : s.channel = action :: rest) : (s.take i now action rest).sent = s.sent := by
  rw [sent, sent, hchannel]
  exact append_cons _ _ _ ▸ rfl

theorem flushed_take (h : Settled id c s) {i : ι} (hflushing : s.flushing i = false) (now : ℤ)
    (action : LogAction) (rest : List LogAction) (j : ι) (hj : s.flushing j = true) :
    ((s.take i now action rest).writers j).creates = [] := by
  have hji : j ≠ i := by
    rintro rfl
    cases hflushing.symm.trans hj
  rw [writers_take_of_ne s hji]
  exact h.flushed j hj

theorem Settled.take_other (h : Settled id c s) {i : ι} {action : LogAction}
    (hchannel : s.channel = action :: rest) (hflushing : s.flushing i = false) (now : ℤ)
    (hwriter : (∀ new : MsgWriterRow, new.id = id →
      (new ∈ ((s.writers i).receive now action).creates ↔ new ∈ (s.writers i).creates)) ∧
      ((s.writers i).receive now action).updates.lookup id = (s.writers i).updates.lookup id)
    (hcreates : ¬ action.Creates id) (hgives : action.gives id c = none) :
    Settled id c (s.take i now action rest) := by
  refine h.frame (fun j ↦ ?_) (fun _ _ ↦ Iff.rfl) (flushed_take h hflushing now action rest) ?_ ?_
    ?_ ?_
  · by_cases hji : j = i
    · rw [hji, writers_take_self]
      exact hwriter
    · rw [writers_take_of_ne s hji]
      exact ⟨fun _ _ ↦ Iff.rfl, rfl⟩
  · change lastGiven id c (s.received ++ [action]) = _
    rw [lastGiven_concat, if_neg hcreates, hgives, Option.none_or]
  · constructor
    · rintro ⟨a, ha, hid⟩
      rcases mem_append.mp ha with ha | ha
      · exact ⟨a, ha, hid⟩
      · rw [mem_singleton.mp ha] at hid
        exact absurd hid hcreates
    · rintro ⟨a, ha, hid⟩
      exact ⟨a, mem_append_left _ ha, hid⟩
  · rw [sent_take hchannel]
    exact h.once
  · rintro ⟨a, ha, hid⟩
    exact h.coming ⟨a, hchannel ▸ mem_cons_of_mem _ ha, hid⟩

theorem Settled.take_create (h : Settled id c s) {i : ι} {log : LogEntry}
    (hchannel : s.channel = .create (some log) :: rest) (hflushing : s.flushing i = false)
    (now : ℤ) (hid : log.id = id) : Settled id c (s.take i now (.create (some log)) rest) := by
  have hcreates : (LogAction.create (some log)).Creates id := hid
  have hmem : ∃ a ∈ s.channel, a.Creates id := ⟨_, hchannel ▸ mem_cons_self, hcreates⟩
  have hbefore : ∀ j, ¬ (s.writers j).Creating id := fun j hj ↦
    h.not_received hmem (h.made j hj)
  have hself : ∀ j, ((s.take i now (.create (some log)) rest).writers j).Creating id → j = i := by
    intro j hj
    by_contra hji
    rw [writers_take_of_ne s hji] at hj
    exact hbefore j hj
  have hcreated : ∃ a ∈ s.received ++ [.create (some log)], a.Creates id :=
    ⟨_, mem_append_right _ mem_cons_self, hcreates⟩
  have hgiven : lastGiven id c (s.received ++ [.create (some log)]) = none := by
    rw [lastGiven_concat, if_pos hcreates]
  refine ⟨?_, fun _ ↦ Or.inl ⟨i, ?_⟩, fun _ _ ↦ hcreated, ?_, fun j k hj hk ↦ ?_,
    fun _ _ ↦ h.coming hmem, fun j hj ↦ ?_, flushed_take h hflushing now _ rest, fun v hv ↦ ?_,
    fun v hv ↦ ?_⟩
  · rw [sent_take hchannel]
    exact h.once
  · rw [writers_take_self, MessageWriter.receive]
    refine ⟨_, mem_cons_self, ?_⟩
    split <;> exact hid
  · rintro ⟨b, hb, hid'⟩
    have hpairwise := (pairwise_append.mp h.once).2.1
    rw [hchannel, pairwise_cons] at hpairwise
    exact absurd hid' (hpairwise.1 b hb hid)
  · exact (hself j hj).trans (hself k hk).symm
  · rw [hself j hj, writers_take_self, MessageWriter.receive, ← hid]
    exact AList.lookup_erase _ _
  · cases hgiven.symm.trans hv
  · cases hgiven.symm.trans hv

/-! ### An update of the message is taken -/

section TakeUpdate

variable {i : ι} {u : LogUpdates} (now : ℤ) (rest : List LogAction)

theorem creating_take_update (j : ι) :
    ((s.take i now (.update (some id) u) rest).writers j).Creating id
      ↔ (s.writers j).Creating id := by
  by_cases hji : j = i
  · rw [hji, writers_take_self]
    exact creating_receive_update now
  · rw [writers_take_of_ne s hji]

theorem created_take_update :
    (∃ a ∈ (s.take i now (.update (some id) u) rest).received, a.Creates id)
      ↔ ∃ a ∈ s.received, a.Creates id := by
  have hnot : ¬ (LogAction.update (some id) u).Creates id := not_false
  rw [take]
  simp only [mem_append, mem_singleton, or_and_right, exists_or, exists_eq_left, hnot, or_false]

theorem lastGiven_take_update : lastGiven id c (s.take i now (.update (some id) u) rest).received
      = (u.get c).or (lastGiven id c s.received) := by
  have hnot : ¬ (LogAction.update (some id) u).Creates id := not_false
  rw [take, lastGiven_concat, if_neg hnot, LogAction.gives, if_pos rfl]

theorem pending_take_update (hid : ¬ (s.writers i).Creating id) :
    ((s.take i now (.update (some id) u) rest).writers i).pending id c
      = (u.get c).or ((s.writers i).pending id c) := by
  rw [writers_take_self]
  exact pending_receive_update now hid

variable (h : Settled id c s)

include h

theorem Settled.apart_take_update (j : ι)
    (hj : ((s.take i now (.update (some id) u) rest).writers j).Creating id) :
    ((s.take i now (.update (some id) u) rest).writers j).updates.lookup id = none := by
  replace hj := (creating_take_update now rest j).mp hj
  by_cases hji : j = i
  · subst hji
    rw [writers_take_self, updates_receive_update now hj]
    exact h.apart j hj
  · rw [writers_take_of_ne s hji]
    exact h.apart j hj

/-- What is kept afterwards is what the update gives, or was given before. -/
theorem Settled.pending_eq_take_update
    (hothers : u.get c ≠ none → ∀ j ≠ i, (s.writers j).pending id c = none) {v : c.Value}
    (hv : (u.get c).or (lastGiven id c s.received) = some v) (j : ι) {v' : c.Value}
    (hv' : ((s.take i now (.update (some id) u) rest).writers j).pending id c = some v') :
    v' = v := by
  have hid : ¬ (s.writers j).Creating id := by
    intro hid
    have hnone : ((s.take i now (.update (some id) u) rest).writers j).updates.lookup id = none :=
      h.apart_take_update now rest j ((creating_take_update now rest j).mpr hid)
    cases (congrArg (Option.bind · _) hnone).symm.trans hv'
  by_cases hji : j = i
  · subst hji
    rw [pending_take_update now rest hid] at hv'
    cases hget : u.get c with
    | some w =>
      rw [hget, Option.some_or] at hv hv'
      exact Option.some_inj.mp (hv'.symm.trans hv)
    | none =>
      rw [hget, Option.none_or] at hv hv'
      exact h.pending_eq v hv j v' hv'
  · rw [writers_take_of_ne s hji] at hv'
    cases hget : u.get c with
    | some w =>
      have hnone := hothers (hget ▸ Option.some_ne_none w) j hji
      cases hnone.symm.trans hv'
    | none =>
      rw [hget, Option.none_or] at hv
      exact h.pending_eq v hv j v' hv'

omit h in
/-- A row that the taking writer is to insert has what the update gives, or what it had. -/
private theorem values_take_update (hc : c ≠ .updatedAt)
    (hmerged : (s.writers i).Creating id → c.unmerged = true → u.get c = none) {new : MsgWriterRow}
    (hnew : new ∈ ((s.take i now (.update (some id) u) rest).writers i).creates)
    (hid : new.id = id) : ∃ old ∈ (s.writers i).creates, old.id = id ∧
      new.toRow.values c = (u.get c).or (old.toRow.values c) := by
  have hcreating := (creating_take_update now rest i).mp ⟨new, hnew, hid⟩
  rw [writers_take_self] at hnew
  exact values_receive_update now hc (hmerged hcreating) hnew hid

/-- An update that gives the column is kept, or is in the one row that is to be inserted; one that
does not leaves what was given before where it was. -/
theorem Settled.values_eq_take_update (hc : c ≠ .updatedAt)
    (hmerged : (s.writers i).Creating id → c.unmerged = true → u.get c = none) {v : c.Value}
    (hv : (u.get c).or (lastGiven id c s.received) = some v) :
    (∃ j, ((s.take i now (.update (some id) u) rest).writers j).pending id c = some v) ∨
      ∀ row, (s.take i now (.update (some id) u) rest).Holds row → row.id = id →
        row.values c = some v := by
  cases hget : u.get c with
  | some w =>
    rw [hget, Option.some_or] at hv
    by_cases hid : (s.writers i).Creating id
    · refine Or.inr ?_
      rintro row (hrow | ⟨j, new, hnew, rfl⟩) hrowid
      · exact absurd hrowid (h.unwritten i hid row hrow)
      · have hj := (creating_take_update now rest j).mp ⟨new, hnew, hrowid⟩
        obtain rfl := h.only j i hj hid
        obtain ⟨old, -, -, hvalues⟩ := values_take_update now rest hc hmerged hnew hrowid
        rw [hvalues, hget, Option.some_or, hv]
    · refine Or.inl ⟨i, ?_⟩
      rw [pending_take_update now rest hid, hget, Option.some_or, hv]
  | none =>
    rw [hget, Option.none_or] at hv
    rcases h.values_eq v hv with ⟨j, hj⟩ | hrows
    · refine Or.inl ⟨j, ?_⟩
      by_cases hji : j = i
      · subst hji
        have hid : ¬ (s.writers j).Creating id := by
          intro hid
          cases (congrArg (Option.bind · _) (h.apart j hid)).symm.trans hj
        rw [pending_take_update now rest hid, hget, Option.none_or, hj]
      · rw [writers_take_of_ne s hji, hj]
    · refine Or.inr ?_
      rintro row (hrow | ⟨j, new, hnew, rfl⟩) hrowid
      · exact hrows row (Or.inl hrow) hrowid
      · by_cases hji : j = i
        · subst hji
          obtain ⟨old, hold, holdid, hvalues⟩ :=
            values_take_update now rest hc hmerged hnew hrowid
          rw [hvalues, hget, Option.none_or]
          exact hrows old.toRow (Or.inr ⟨j, old, hold, rfl⟩) holdid
        · rw [writers_take_of_ne s hji] at hnew
          exact hrows new.toRow (Or.inr ⟨j, new, hnew, rfl⟩) hrowid

/-- **An update of the message is taken.** -/
theorem Settled.take_update
    (hchannel : s.channel = .update (some id) u :: rest) (hflushing : s.flushing i = false)
    (hc : c ≠ .updatedAt) (hmerged : (s.writers i).Creating id → c.unmerged = true → u.get c = none)
    (hothers : u.get c ≠ none → ∀ j ≠ i, (s.writers j).pending id c = none) :
    Settled id c (s.take i now (.update (some id) u) rest) := by
  have hcreating : ∀ j, ((s.take i now (.update (some id) u) rest).writers j).Creating id
      ↔ (s.writers j).Creating id := creating_take_update now rest
  refine ⟨?_, fun hcreate ↦ ?_,
    fun j hj ↦ (created_take_update now rest).mpr (h.made j ((hcreating j).mp hj)),
    fun hcreate ↦ ?_, fun j k hj hk ↦ h.only j k ((hcreating j).mp hj) ((hcreating k).mp hk),
    fun j hj ↦ h.unwritten j ((hcreating j).mp hj), h.apart_take_update now rest,
    flushed_take h hflushing now _ rest, fun v hv j v' hv' ↦ ?_, fun v hv ↦ ?_⟩
  · rw [sent_take hchannel]
    exact h.once
  · rcases h.created ((created_take_update now rest).mp hcreate) with ⟨j, hj⟩ | hrow
    · exact Or.inl ⟨j, (hcreating j).mpr hj⟩
    · exact Or.inr hrow
  · obtain ⟨a, ha, hid⟩ := hcreate
    exact h.coming ⟨a, hchannel ▸ mem_cons_of_mem _ ha, hid⟩
  · rw [lastGiven_take_update] at hv
    exact h.pending_eq_take_update now rest hothers hv j hv'
  · rw [lastGiven_take_update] at hv
    exact h.values_eq_take_update now rest hc hmerged hv

end TakeUpdate

theorem Settled.execute_other (h : Settled id c s) {i : ι} {id' : UUID} {fields : LogUpdates}
    {now : ℤ} (hne : id ≠ id') :
    Settled id c { s with
      writers := update s.writers i
        { s.writers i with updates := (s.writers i).updates.erase id' }
      table := updateMessage id' fields now s.table } := by
  refine h.frame (fun j ↦ ?_) (fun row hid ↦ ?_) (fun j hj ↦ ?_) rfl Iff.rfl h.once h.coming
  · by_cases hji : j = i
    · rw [hji]
      simp only [update_self]
      exact ⟨fun _ _ ↦ trivial, AList.lookup_erase_ne hne⟩
    · simp only [update_of_ne hji]
      exact ⟨fun _ _ ↦ trivial, trivial⟩
  · rw [updateMessage, Multiset.mem_map]
    constructor
    · rintro ⟨row', hrow', rfl⟩
      split_ifs at hid ⊢ with hid'
      · rw [MessageRow.id_update] at hid
        exact absurd (hid.symm.trans hid') hne
      · exact hrow'
    · intro hrow
      exact ⟨row, hrow, if_neg (hid ▸ hne)⟩
  · by_cases hji : j = i
    · simp only [hji, update_self]
      exact h.flushed i (hji ▸ hj)
    · simp only [update_of_ne hji]
      exact h.flushed j hj

theorem Settled.finish (h : Settled id c s) (i : ι) : Settled id c (s.next (.finish i)) := by
  refine h.frame (fun j ↦ ⟨fun _ _ ↦ Iff.rfl, rfl⟩) (fun _ _ ↦ Iff.rfl) (fun j hj ↦ ?_) rfl Iff.rfl
    h.once h.coming
  by_cases hji : j = i
  · have hfalse : (s.next (.finish i)).flushing i = false := update_self _ _ _
    rw [hji, hfalse] at hj
    cases hj
  · exact h.flushed j ((update_of_ne hji _ _).symm.trans hj)

end Steps

/-! ## Careful runs -/

/-- **The condition.** An update is taken only if it can be merged as a whole, or need not be, and
if no other writer has an earlier value of one of its columns; it is executed only if the row of its
message is not still to be inserted. -/
def Careful (s : Pool ι) : PoolAction ι → Prop
  | .receive i _ => ∀ id u rest, s.channel = .update (some id) u :: rest →
      ((s.writers i).Creating id → ∀ c : LogColumn, c.unmerged = true → u.get c = none) ∧
        ∀ j ≠ i, ∀ c ≠ .updatedAt, u.get c ≠ none → (s.writers j).pending id c = none
  | .execute _ id _ => ∀ j, ¬ (s.writers j).Creating id
  | .send _ | .copy _ | .finish _ => True

variable [DecidableEq ι]

theorem Settled.next {id : UUID} {c : LogColumn} (hc : c ≠ .updatedAt) {s : Pool ι}
    {a : PoolAction ι} (h : Settled id c s) (ha : s.Enabled a) (hcareful : s.Careful a) :
    Settled id c (s.next a) := by
  cases a with
  | send action => exact h.send ha
  | receive i now =>
    cases hchannel : s.channel with
    | nil => exact absurd hchannel ha.1
    | cons action rest =>
      have hnext : s.next (.receive i now) = s.take i now action rest := by
        rw [Pool.next, hchannel]
        rfl
      rw [hnext]
      by_cases hid : action.messageID = some id
      · cases action with
        | create log =>
          cases log with
          | none => cases hid
          | some log => exact h.take_create hchannel ha.2 now (Option.some.inj hid)
        | update id' u =>
          obtain rfl : id' = some id := hid
          obtain ⟨hmerged, hothers⟩ := hcareful id u rest hchannel
          exact h.take_update now _ hchannel ha.2 hc (fun hcreating ↦ hmerged hcreating c)
            fun hget j hj ↦ hothers j hj c hc hget
      · refine h.take_other hchannel ha.2 now (receive_frame now hid) ?_ ?_
        · exact fun hcreates ↦ hid (LogAction.messageID_of_creates hcreates)
        · exact LogAction.gives_of_messageID_ne hid
  | copy i => exact h.copy i
  | execute i id' now =>
    obtain ⟨fields, hfields⟩ := Option.ne_none_iff_exists'.mp ha.2
    rw [Pool.next, hfields]
    by_cases hid : id = id'
    · subst hid
      exact h.execute hc hfields hcareful
    · exact h.execute_other hid
  | finish i => exact h.finish i

theorem lastGiven_split {id : UUID} {c : LogColumn} {u : LogUpdates} (before : List LogAction)
    {after : List LogAction} (hcreates : ∀ a ∈ after, ¬ a.Creates id)
    (hgives : ∀ a ∈ after, a.gives id c = none) {v : c.Value} (hv : u.get c = some v) :
    lastGiven id c (before ++ .update (some id) u :: after) = some v := by
  induction after using reverseRecOn with
  | nil =>
    have hnot : ¬ (LogAction.update (some id) u).Creates id := not_false
    rw [lastGiven_concat, if_neg hnot, LogAction.gives, if_pos rfl, hv, Option.some_or]
  | append_singleton after a ih =>
    have hmem : a ∈ after ++ [a] := mem_append_right _ mem_cons_self
    rw [← cons_append, ← append_assoc, lastGiven_concat, if_neg (hcreates a hmem),
      hgives a hmem, Option.none_or]
    exact ih (fun b hb ↦ hcreates b (mem_append_left _ hb))
      fun b hb ↦ hgives b (mem_append_left _ hb)

/-- **No update is lost in a careful run.** When everything is written, there is a row for every
message that was created, and in each of its columns stands what was sent last after the create. -/
theorem reflected_of_careful {table : Multiset MessageRow} {acts : List (PoolAction ι)}
    (hrun : (pool ι).RunsUnder Careful (start ι table) acts)
    (hflushed : ((pool ι).after (start ι table) acts).Flushed) {before after : List LogAction}
    {id : UUID} {u : LogUpdates}
    (hsent : ((pool ι).after (start ι table) acts).sent = before ++ .update (some id) u :: after)
    (hcreate : ∃ a ∈ before, a.Creates id) {c : LogColumn} (hc : c ≠ .updatedAt) {v : c.Value}
    (hv : u.get c = some v) (hlast : ∀ a ∈ after, a.gives id c = none) :
    (∃ row ∈ ((pool ι).after (start ι table) acts).table, row.id = id) ∧
      ∀ row ∈ ((pool ι).after (start ι table) acts).table, row.id = id →
        row.values c = some v := by
  have h : Settled id c ((pool ι).after (start ι table) acts) :=
    hrun.invariant (fun _ _ ↦ Settled.next hc) (settled_start table)
  generalize (pool ι).after (start ι table) acts = s at h hflushed hsent
  obtain ⟨hchannel, hwriters⟩ := hflushed
  have hreceived : s.received = before ++ .update (some id) u :: after := by
    rw [← hsent, sent, hchannel, append_nil]
  have hcreating : ∀ i, ¬ (s.writers i).Creating id := by
    rintro i ⟨row, hrow, -⟩
    rw [(hwriters i).1] at hrow
    exact absurd hrow not_mem_nil
  obtain ⟨a, ha, hid⟩ := hcreate
  refine ⟨?_, ?_⟩
  · rcases h.created ⟨a, hreceived ▸ mem_append_left _ ha, hid⟩ with ⟨i, hi⟩ | hrow
    · exact absurd hi (hcreating i)
    · exact hrow
  · have honce := h.once
    rw [hsent] at honce
    have hcreates : ∀ b ∈ after, ¬ b.Creates id := fun b hb ↦
      (pairwise_append.mp honce).2.2 a ha b (mem_cons_of_mem _ hb) hid
    have hgiven : lastGiven id c s.received = some v := by
      rw [hreceived]
      exact lastGiven_split before hcreates hlast hv
    rcases h.values_eq v hgiven with ⟨i, hi⟩ | hrows
    · rw [pending, (hwriters i).2] at hi
      cases hi
    · exact fun row hrow ↦ hrows row (Or.inl hrow)

namespace TwoWriters

open EarlyReport (log)

def create : LogAction := (MessageLogAction.create log).action

/-- What its delivery report says. -/
def fields : LogUpdates := (MessageLogUpdate.dlr .delivrd "a").fields

def report : LogAction := .update (some log.id) fields

/-- The create is written before the other writer takes the report. -/
def written : List (PoolAction Bool) :=
  [.send create, .receive true 0, .copy true, .finish true, .send report, .receive false 1,
    .copy false, .execute false log.id 2, .finish false]

def overtaken : List (PoolAction Bool) :=
  [.send create, .send report, .receive true 0, .receive false 1, .copy false,
    .execute false log.id 2, .finish false, .copy true, .finish true]

theorem enabled_send_create : (start Bool 0).Enabled (.send create) := fun _ _ ↦
  ⟨forall_mem_nil _, fun row hrow ↦ absurd hrow (Multiset.notMem_zero row)⟩

theorem careful_receive_create {s : Pool Bool}
    (hchannel : s.channel = create :: rest) (i : Bool) (now : ℤ) : s.Careful (.receive i now) := by
  intro id u rest' hupdate
  have hcreate := (cons.inj (hchannel.symm.trans hupdate)).1
  rw [create, MessageLogAction.action] at hcreate
  cases hcreate

theorem runs_written : (pool Bool).RunsUnder Careful (start Bool 0) written := by
  refine ⟨⟨enabled_send_create, trivial⟩,
    ⟨⟨cons_ne_nil _ _, rfl⟩, careful_receive_create rfl true 0⟩, ⟨rfl, trivial⟩,
    ⟨⟨rfl, rfl⟩, trivial⟩, ⟨fun id hid ↦ hid.elim, trivial⟩, ⟨⟨cons_ne_nil _ _, rfl⟩, ?_⟩,
    ⟨rfl, trivial⟩, ⟨⟨rfl, by decide +kernel⟩, ?_⟩, ⟨⟨rfl, rfl⟩, trivial⟩, trivial⟩
  · intro id u rest hchannel
    refine ⟨fun hcreating ↦ ?_, fun j hj c _ _ ↦ ?_⟩
    · obtain ⟨row, hrow, -⟩ := hcreating
      exact absurd hrow not_mem_nil
    · cases j with
      | false => exact absurd rfl hj
      | true => rfl
  · rintro (_ | _) ⟨row, hrow, -⟩
    · exact absurd hrow not_mem_nil
    · exact absurd hrow not_mem_nil

theorem runs_overtaken : (pool Bool).Runs (start Bool 0) overtaken :=
  ⟨⟨enabled_send_create, trivial⟩, ⟨fun _ hid ↦ hid.elim, trivial⟩,
    ⟨⟨cons_ne_nil _ _, rfl⟩, trivial⟩, ⟨⟨cons_ne_nil _ _, rfl⟩, trivial⟩,
    ⟨rfl, trivial⟩, ⟨⟨rfl, by decide +kernel⟩, trivial⟩, ⟨⟨rfl, rfl⟩, trivial⟩,
    ⟨rfl, trivial⟩, ⟨⟨rfl, rfl⟩, trivial⟩, trivial⟩

end TwoWriters

open TwoWriters in
theorem reflected_of_careful_written :
    (∃ row ∈ ((pool Bool).after (start Bool 0) written).table, row.id = EarlyReport.log.id) ∧
      ∀ row ∈ ((pool Bool).after (start Bool 0) written).table, row.id = EarlyReport.log.id →
        row.values .dlrStatus = some "DELIVRD" := by
  have hsent : ((pool Bool).after (start Bool 0) written).sent = [create] ++ report :: [] := rfl
  refine reflected_of_careful (c := .dlrStatus) runs_written ⟨rfl, ?_⟩ hsent
    ⟨create, mem_cons_self, rfl⟩ (by decide) rfl (forall_mem_nil _)
  rintro (_ | _)
  · exact ⟨rfl, rfl⟩
  · exact ⟨rfl, rfl⟩

open TwoWriters in
/-- **The report overtakes the create.** Its writer executes the update before the row is there. -/
theorem report_overtakes_create :
    (pool Bool).Runs (start Bool 0) overtaken ∧
      ((pool Bool).after (start Bool 0) overtaken).Flushed ∧
      ((pool Bool).after (start Bool 0) overtaken).sent = [create, report] ∧
      create.Creates EarlyReport.log.id ∧ fields.get .dlrStatus = some "DELIVRD" ∧
      ((pool Bool).after (start Bool 0) overtaken).table.map (fun row ↦ row.values .dlrStatus)
        = {none} := by
  refine ⟨runs_overtaken, ⟨rfl, ?_⟩, rfl, rfl, rfl, by decide +kernel⟩
  rintro (_ | _)
  · exact ⟨rfl, rfl⟩
  · exact ⟨rfl, rfl⟩

end Pool

end OtaPlatform
