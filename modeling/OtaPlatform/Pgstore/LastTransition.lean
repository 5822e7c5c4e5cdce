import OtaPlatform.Pgstore.Coordination
import OtaPlatform.Transition.Ledger

/-!
# What a cache miss reads

On a miss `GetCardState` takes a row of the card with the highest sequence number. The numbers start
again with every campaign, so the highest number of a card says which of its campaigns was the
longest, not which was the last.

The row written last is read exactly if its number is above all numbers of the card's other
campaigns (`getCardState_last_iff`). A card that starts its second campaign is read as being at the
end of its first.

## Histories

A history is the transitions of one card in the order they were written. `Flushed` is what the
batched writer guarantees once it has written everything: rows of the history, with the newest of
each campaign among them, though not every row that a later one of the same batch replaced.
-/

namespace OtaPlatform

open List Ledger

/-- The transitions of one card, each campaign numbering its own upwards. -/
structure CardHistory (cardID : UUID) (history : List ExecutionRow) : Prop where
  card : ∀ row ∈ history, row.cardID = cardID
  numbered : Ascending ExecutionRow.campaignID ExecutionRow.transitionSeq [] history

/-- The history has been written: the rows of the card are transitions of it, and every transition
has a row of its campaign that is not older. -/
structure Flushed (cardID : UUID) (history table : List ExecutionRow) : Prop where
  sound : ∀ row ∈ table, row.cardID = cardID → row ∈ history
  complete : ∀ row ∈ history, ∃ row' ∈ table, row'.cardID = cardID ∧
    row'.campaignID = row.campaignID ∧ row.transitionSeq ≤ row'.transitionSeq

structure Reports (state : CardState) (row : ExecutionRow) : Prop where
  campaignID : state.campaignID = row.campaignID
  currentStep : state.currentStep = row.currentStep
  status : state.status = row.status
  retryCount : state.retryCount = row.retryCount
  transitionSeq : state.transitionSeq = row.transitionSeq

section History

variable {cardID : UUID} {history table : List ExecutionRow} {last : ExecutionRow}

theorem CardHistory.eq_or_lt (h : CardHistory cardID (history ++ [last])) {row : ExecutionRow}
    (hrow : row ∈ history ++ [last]) (hcampaign : row.campaignID = last.campaignID) :
    row = last ∨ row.transitionSeq < last.transitionSeq := by
  refine h.numbered.eq_or_lt (k := last.campaignID) ?_ hrow hcampaign
  rw [lastOf, filter_append, filter_cons_of_pos (by simp), filter_nil, getLast?_concat]

theorem Flushed.last_mem (hflushed : Flushed cardID (history ++ [last]) table)
    (h : CardHistory cardID (history ++ [last])) : last ∈ table := by
  obtain ⟨row, hrow, hcard, hcampaign, hle⟩ :=
    hflushed.complete last (mem_append_right _ mem_cons_self)
  rcases h.eq_or_lt (hflushed.sound row hrow hcard) hcampaign with rfl | hlt
  · exact hrow
  · omega

/-- A row of another campaign that is not below the last transition keeps it from being the only
choice: some row of another campaign may be selected. -/
theorem exists_selected_of_not_below (hflushed : Flushed cardID (history ++ [last]) table)
    (h : CardHistory cardID (history ++ [last])) {row : ExecutionRow} (hrow : row ∈ history)
    (hcampaign : row.campaignID ≠ last.campaignID) (hle : last.transitionSeq ≤ row.transitionSeq) :
    ∃ selected, isSelected table cardID (some selected) ∧
      selected.campaignID ≠ last.campaignID := by
  obtain ⟨row', hrow', hcard', hcampaign', hle'⟩ :=
    hflushed.complete row (mem_append_left _ hrow)
  -- the highest row of the card that is not of the last campaign
  have hmem' : row' ∈ table.filter fun r ↦ r.cardID = cardID ∧ r.campaignID ≠ last.campaignID := by
    rw [mem_filter, decide_eq_true_iff, hcampaign']
    exact ⟨hrow', hcard', hcampaign⟩
  obtain ⟨selected, hselected⟩ : ∃ selected, selected ∈ (table.filter fun r ↦
      r.cardID = cardID ∧ r.campaignID ≠ last.campaignID).argmax ExecutionRow.transitionSeq := by
    refine Option.ne_none_iff_exists'.mp fun hnone ↦ ?_
    rw [argmax_eq_none.mp hnone] at hmem'
    exact not_mem_nil hmem'
  have hin := argmax_mem hselected
  rw [mem_filter, decide_eq_true_iff] at hin
  refine ⟨selected, ⟨hin.1, hin.2.1, fun r hr hcard ↦ ?_⟩, hin.2.2⟩
  by_cases hother : r.campaignID = last.campaignID
  · have hhighest := le_of_mem_argmax hmem' hselected
    rcases h.eq_or_lt (hflushed.sound r hr hcard) hother with rfl | hlt
    · exact hle.trans (hle'.trans hhighest)
    · exact hlt.le.trans (hle.trans (hle'.trans hhighest))
  · refine le_of_mem_argmax ?_ hselected
    rw [mem_filter, decide_eq_true_iff]
    exact ⟨hr, hcard, hother⟩

end History

/-- **A cache miss reads the last transition** exactly if its number is above all numbers of the
card's other campaigns: for every history of a card and every table it has been written to,
whichever row the statement selects, the state returned is that of the transition written last, if
and only if no transition of another campaign has a number as high. -/
theorem getCardState_last_iff (s : CardStateStore) (cardID : UUID)
    (history table : List ExecutionRow) (last : ExecutionRow)
    (hempty : s.cardStates cardID = none) (hhistory : CardHistory cardID (history ++ [last]))
    (hflushed : Flushed cardID (history ++ [last]) table) :
    (∀ row, isSelected table cardID row →
        ∃ state, s.found cardID row = some state ∧ Reports state last) ↔
      ∀ row ∈ history, row.campaignID ≠ last.campaignID →
        row.transitionSeq < last.transitionSeq := by
  have hmiss : s.cardState cardID = none := by
    rw [CardStateStore.cardState, hempty, Option.map_none]
  have hlast := hflushed.last_mem hhistory
  have hcard := hhistory.card last (mem_append_right _ mem_cons_self)
  constructor
  · intro hreads row hrow hcampaign
    by_contra hnot
    obtain ⟨selected, hselected, hother⟩ :=
      exists_selected_of_not_below hflushed hhistory hrow hcampaign (not_lt.mp hnot)
    obtain ⟨state, hfound, hreports⟩ := hreads (some selected) hselected
    rw [CardStateStore.found, hmiss] at hfound
    obtain rfl := Option.some.inj hfound
    exact hother hreports.campaignID
  · intro hbelow row hselected
    cases row with
    | none => exact absurd hcard (hselected last hlast)
    | some row =>
      obtain ⟨hrow, hrowCard, hmax⟩ := hselected
      have hle := hmax last hlast hcard
      have hmem := hflushed.sound row hrow hrowCard
      have hrowLast : row = last := by
        by_cases hcampaign : row.campaignID = last.campaignID
        · rcases hhistory.eq_or_lt hmem hcampaign with heq | hlt
          · exact heq
          · omega
        · rcases mem_append.mp hmem with hmem | hmem
          · have hlt := hbelow row hmem hcampaign
            omega
          · exact mem_singleton.mp hmem
      subst hrowLast
      refine ⟨row.toCardState, ?_, rfl, rfl, rfl, rfl, rfl⟩
      rw [CardStateStore.found, hmiss]
      rfl

/-! ## Two campaigns of one card -/

/-- A process that has evicted the states it held. -/
def noCardStates : CardStateStore where
  objects := fun _ _ ↦ { campaignID := .ofDigit 0, status := .pending, transitionSeq := 0 }
  count := fun _ ↦ 1
  cardStates := fun _ ↦ none
  allocated := fun _ _ h ↦ absurd h (Option.some_ne_none _).symm

/-- A transition of the card, of the given campaign and number. -/
def transitionOf (campaignID : UUID) (status : CardStatus) (transitionSeq : ℤ) : ExecutionRow where
  cardID := .ofDigit 1
  campaignID := campaignID
  status := status
  currentStep := 0
  retryCount := 0
  lastMsgID := none
  lastSMPPID := ""
  lastError := ""
  transitionSeq := transitionSeq
  updatedAt := 0

/-- A first campaign that is done after one more transition. -/
def firstCampaign : List ExecutionRow :=
  [transitionOf (.ofDigit 2) .pending 0, transitionOf (.ofDigit 2) .completed 1]

theorem flushed_self {cardID : UUID} {history : List ExecutionRow}
    (h : ∀ row ∈ history, row.cardID = cardID) : Flushed cardID history history :=
  ⟨fun _ hrow _ ↦ hrow, fun row hrow ↦ ⟨row, hrow, h row hrow, rfl, le_rfl⟩⟩

/-- A second campaign that has gone further than the first is read. -/
theorem getCardState_last_iff_longer :
    ∃ state, noCardStates.found (.ofDigit 1) (some (transitionOf (.ofDigit 3) .completed 2))
        = some state ∧ Reports state (transitionOf (.ofDigit 3) .completed 2) :=
  (getCardState_last_iff noCardStates (.ofDigit 1)
    (firstCampaign ++ [transitionOf (.ofDigit 3) .pending 0,
      transitionOf (.ofDigit 3) .activating 1]) _ (transitionOf (.ofDigit 3) .completed 2) rfl
    ⟨by decide, ⟨by decide, by decide⟩⟩ (flushed_self (by decide))).mpr (by decide) _ (by decide)

/-- A second campaign at its first transition is read as the end of the first. -/
theorem getCardState_reads_first_campaign :
    ∃ row, CardHistory (.ofDigit 1) (firstCampaign ++ [transitionOf (.ofDigit 3) .pending 0]) ∧
      isSelected (firstCampaign ++ [transitionOf (.ofDigit 3) .pending 0]) (.ofDigit 1) row ∧
      ∃ state, noCardStates.found (.ofDigit 1) row = some state ∧
        state.campaignID = .ofDigit 2 ∧ state.status = .completed ∧
        ¬Reports state (transitionOf (.ofDigit 3) .pending 0) := by
  refine ⟨some (transitionOf (.ofDigit 2) .completed 1), ⟨by decide, by decide, by decide⟩,
    by decide, _, rfl, rfl, rfl, fun h ↦ ?_⟩
  exact absurd h.campaignID (by decide)

end OtaPlatform
