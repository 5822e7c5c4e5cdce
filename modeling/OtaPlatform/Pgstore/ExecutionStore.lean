import Mathlib.Algebra.BigOperators.Ring.Finset
import OtaPlatform.Globalplatform.Apdu
import OtaPlatform.Pgstore.CardStateWriter

/-!
# Updating a card by a map of fields

`UpdateCampaignCard` reads the latest row of a card in a campaign, overrides fields with the entries
of a map, inserts the result as a new row and moves one card from the old column of `campaign_stats`
to the new one, all in one transaction.

## A card without a row

If there is no row to read, the record that the row would have been read into keeps its zero values,
its identifiers among them; only the status is set. The new row is then not one of the named card
(`updateCampaignCard_appends_iff`).

## What GORM does

`Create` stores the default of the column for a zero value: an empty status becomes `pending`, and a
zero `UpdatedAt` becomes the time of the statement.
-/

namespace OtaPlatform

open List Function

/-! ## The update map -/

/-- A value of the map, by its dynamic type. -/
inductive UpdateValue
  | string (v : String)
  | int (v : ℤ)
  | time (v : ℤ)
  | uuid (v : Option UUID)
  | other
deriving DecidableEq

/-- A map of fields. -/
abbrev Updates := String → Option UpdateValue

namespace Updates

variable (updates : Updates) (key : String)

/-- `updates[key].(string)`. -/
def string : Option String :=
  match updates key with
  | some (.string v) => some v
  | _ => none

/-- `updates[key].(int)`. -/
def int : Option ℤ :=
  match updates key with
  | some (.int v) => some v
  | _ => none

/-- `updates[key].(time.Time)`. -/
def time : Option ℤ :=
  match updates key with
  | some (.time v) => some v
  | _ => none

/-- `updates[key].(*uuid.UUID)`. -/
def uuid : Option (Option UUID) :=
  match updates key with
  | some (.uuid v) => some v
  | _ => none

end Updates

def CardStatus.ofString (text : String) : CardStatus :=
  if h : text ∈ cardStatusNames then
    match text with
    | "pending" => .pending
    | "activating" => .activating
    | "in_progress" => .inProgress
    | "awaiting_dlr" => .awaitingDlr
    | "awaiting_mo" => .awaitingMo
    | "completed" => .completed
    | "failed" => .failed
    | _ => .skipped
  else .other ⟨text, h⟩

/-! ## The source -/

theorem isCanonicalUUID_nil : isCanonicalUUID "00000000-0000-0000-0000-000000000000" = true :=
  by decide

def UUID.nil : UUID := ⟨"00000000-0000-0000-0000-000000000000", isCanonicalUUID_nil⟩

def zeroTime : ℤ := 0

def zeroRow : ExecutionRow where
  cardID := .nil
  campaignID := .nil
  status := .blank
  currentStep := 0
  retryCount := 0
  lastMsgID := none
  lastSMPPID := ""
  lastError := ""
  transitionSeq := 0
  updatedAt := zeroTime

/-- The counter column of a status, `pending` for an unknown one. -/
def statusColumnOrPending (status : CardStatus) : StatsColumn := (statusColumn status).getD .pending

/-- The record the latest row is read into. -/
def currentRow (t : StateTables) (campaignID cardID : UUID) : ExecutionRow :=
  match latestRow t.executionStates (cardID, campaignID) with
  | some row => row
  | none => { zeroRow with status := .pending }

/-- The new row, as it is handed to `Create`. -/
def newRow (current : ExecutionRow) (updates : Updates) (now : ℤ) : ExecutionRow :=
  { current with
    transitionSeq := wrapInt (current.transitionSeq + 1)
    updatedAt := (updates.time "updated_at").getD now
    status := ((updates.string "status").map CardStatus.ofString).getD current.status
    currentStep := (updates.int "current_step").getD current.currentStep
    retryCount := (updates.int "retry_count").getD current.retryCount
    lastError := (updates.string "last_error").getD current.lastError
    lastSMPPID := (updates.string "last_smpp_id").getD current.lastSMPPID }

/-- `Create` fills in the defaults of zero values. -/
def ExecutionRow.withDefaults (row : ExecutionRow) (now : ℤ) : ExecutionRow :=
  { row with
    status := if row.status = .blank then .pending else row.status
    updatedAt := if row.updatedAt = zeroTime then now else row.updatedAt }

/-- `SET old = old - 1, new = new + 1`. -/
def columnMove (oldCol newCol : StatsColumn) : StatsDelta := fun col ↦
  if col = oldCol then -1 else if col = newCol then 1 else 0

/-- Appends a row and adjusts the statistics. -/
def updateCampaignCard (t : StateTables) (campaignID cardID : UUID) (updates : Updates) (now : ℤ) :
    Except String StateTables :=
  let current := currentRow t campaignID cardID
  let oldCol := statusColumnOrPending current.status
  let row := (newRow current updates now).withDefaults now
  if t.executionStates.any row.conflicts then
    .error "insert card execution state: duplicate key value violates unique constraint"
  else
    let newCol := statusColumnOrPending row.status
    .ok
      { executionStates := t.executionStates ++ [row]
        campaignStats :=
          if oldCol ≠ newCol then
            update t.campaignStats campaignID
              ((t.campaignStats campaignID).map (·.add (columnMove oldCol newCol)))
          else t.campaignStats }

/-! ## What is expected -/

/-- The latest row of the card in the campaign, or the defaults of a card that is pending. -/
def latestOrPending (t : StateTables) (campaignID cardID : UUID) : ExecutionRow :=
  (latestRow t.executionStates (cardID, campaignID)).getD
    { zeroRow with cardID := cardID, campaignID := campaignID, status := .pending }

/-- The row with the entries of the map in place of its fields: those under the name of a column
whose value has the type of the field. The time is that of the call if there is no entry for it. -/
def ExecutionRow.overriddenBy (row : ExecutionRow) (updates : Updates) (now : ℤ) : ExecutionRow :=
  { row with
    status := ((updates.string "status").map CardStatus.ofString).getD row.status
    currentStep := (updates.int "current_step").getD row.currentStep
    retryCount := (updates.int "retry_count").getD row.retryCount
    lastMsgID := (updates.uuid "last_msg_id").getD row.lastMsgID
    lastSMPPID := (updates.string "last_smpp_id").getD row.lastSMPPID
    lastError := (updates.string "last_error").getD row.lastError
    updatedAt := (updates.time "updated_at").getD now }

/-- The column of a card in a campaign; a card without a row is pending. -/
def cardColumn (t : StateTables) (campaignID cardID : UUID) : StatsColumn :=
  ((latestRow t.executionStates (cardID, campaignID)).map fun row ↦
    statusColumnOrPending row.status).getD .pending

/-- The statistics of the campaign say how many of the cards are in each column. -/
def CountsCards (t : StateTables) (campaignID : UUID) (cards : Finset UUID) : Prop :=
  ∀ stats, t.campaignStats campaignID = some stats → ∀ col,
    stats.counts col = (cards.filter fun cardID ↦ cardColumn t campaignID cardID = col).card

/-- **One row is appended, for the named card.** `cards` are the cards of each campaign. -/
structure AppendsFor (t t' : StateTables) (campaignID cardID : UUID) (updates : Updates) (now : ℤ) :
    Prop where
  /-- The row is the latest one with the entries of the map, under a higher number. -/
  row : ∃ row, t'.executionStates = t.executionStates ++ [row] ∧
    row.pair = (cardID, campaignID) ∧
    (∀ r ∈ t.executionStates, r.pair = (cardID, campaignID) →
      r.transitionSeq < row.transitionSeq) ∧
    row = { (latestOrPending t campaignID cardID).overriddenBy updates now with
      transitionSeq := row.transitionSeq }
  others : ∀ pair, pair ≠ (cardID, campaignID) →
    t'.executionStates.filter (·.pair = pair) = t.executionStates.filter (·.pair = pair)
  /-- Accurate statistics stay accurate. -/
  stats : ∀ cards : UUID → Finset UUID, cardID ∈ cards campaignID → ∀ c,
    CountsCards t c (cards c) → CountsCards t' c (cards c)

/-- **The condition.** The card has a row in the campaign, unless both identifiers are zero; its
number can be increased; the map does not change the last message, and what it leaves as status and
time is not a zero value. -/
structure AppendsWhen (t : StateTables) (campaignID cardID : UUID) (updates : Updates) (now : ℤ) :
    Prop where
  known : (latestRow t.executionStates (cardID, campaignID)).isSome ∨
    (cardID = .nil ∧ campaignID = .nil)
  seq : (latestOrPending t campaignID cardID).transitionSeq < 2 ^ 63 - 1
  lastMsgID : ∀ id, updates.uuid "last_msg_id" = some id →
    id = (latestOrPending t campaignID cardID).lastMsgID
  status : ((latestOrPending t campaignID cardID).overriddenBy updates now).status ≠ .blank
  updatedAt : ((latestOrPending t campaignID cardID).overriddenBy updates now).updatedAt
    = zeroTime → now = zeroTime

/-! ## The inserted row -/

section Row

variable {t t' : StateTables} {campaignID cardID : UUID} {updates : Updates} {now : ℤ}

theorem updateCampaignCard_eq_ok (h : updateCampaignCard t campaignID cardID updates now = .ok t') :
    ∃ row, row = (newRow (currentRow t campaignID cardID) updates now).withDefaults now ∧
      t'.executionStates = t.executionStates ++ [row] ∧ t'.campaignStats =
        if cardColumn t campaignID cardID ≠ statusColumnOrPending row.status then
          update t.campaignStats campaignID ((t.campaignStats campaignID).map
            (·.add (columnMove (cardColumn t campaignID cardID)
              (statusColumnOrPending row.status)))) else t.campaignStats := by
  have hcolumn : statusColumnOrPending (currentRow t campaignID cardID).status
      = cardColumn t campaignID cardID := by
    rw [currentRow, cardColumn]
    cases latestRow t.executionStates (cardID, campaignID) with
    | none | some _ => rfl
  rw [updateCampaignCard] at h
  simp only at h
  split at h
  · cases h
  · cases h
    exact ⟨_, rfl, rfl, by rw [hcolumn]⟩

theorem pair_inserted (row : ExecutionRow) :
    ((newRow row updates now).withDefaults now).pair = row.pair := rfl

theorem currentRow_eq (h : (latestRow t.executionStates (cardID, campaignID)).isSome ∨
    (cardID = .nil ∧ campaignID = .nil)) :
    currentRow t campaignID cardID = latestOrPending t campaignID cardID := by
  rw [currentRow, latestOrPending]
  cases hlatest : latestRow t.executionStates (cardID, campaignID) with
  | some row => rfl
  | none =>
    rw [hlatest] at h
    rcases h with h | ⟨rfl, rfl⟩
    · cases h
    · rfl

theorem pair_latestOrPending :
    (latestOrPending t campaignID cardID).pair = (cardID, campaignID) := by
  rw [latestOrPending]
  cases hlatest : latestRow t.executionStates (cardID, campaignID) with
  | some row => exact (mem_of_latestRow hlatest).2
  | none => rfl

theorem known_of_pair_currentRow
    (h : (currentRow t campaignID cardID).pair = (cardID, campaignID)) :
    (latestRow t.executionStates (cardID, campaignID)).isSome ∨
      (cardID = .nil ∧ campaignID = .nil) := by
  rw [currentRow] at h
  cases hlatest : latestRow t.executionStates (cardID, campaignID) with
  | some row => exact Or.inl rfl
  | none =>
    rw [hlatest] at h
    cases h
    exact Or.inr ⟨rfl, rfl⟩

theorem lt_wrapInt_add_one_iff (n : ℤ) : n < wrapInt (n + 1) ↔ n < 2 ^ 63 - 1 := by
  rw [wrapInt, Int.bmod_def]
  omega

theorem forall_lt_next_iff : (∀ r ∈ t.executionStates, r.pair = (cardID, campaignID) →
        r.transitionSeq < wrapInt ((latestOrPending t campaignID cardID).transitionSeq + 1)) ↔
      (latestOrPending t campaignID cardID).transitionSeq < 2 ^ 63 - 1 := by
  rw [← lt_wrapInt_add_one_iff]
  cases hlatest : latestRow t.executionStates (cardID, campaignID) with
  | some row =>
    have hbase : latestOrPending t campaignID cardID = row := by rw [latestOrPending, hlatest]; rfl
    rw [hbase]
    constructor
    · intro h
      exact h row (mem_of_latestRow hlatest).1 (mem_of_latestRow hlatest).2
    · intro h r hr hpair
      exact lt_of_le_of_lt (le_of_latestRow hlatest hr hpair) h
  | none =>
    have hbase : (latestOrPending t campaignID cardID).transitionSeq = 0 := by
      rw [latestOrPending, hlatest]
      rfl
    have hnone : ∀ r ∈ t.executionStates, r.pair ≠ (cardID, campaignID) := by
      rw [latestRow, argmax_eq_none, filter_eq_nil_iff] at hlatest
      simpa using hlatest
    rw [hbase]
    refine iff_of_true (fun r hr hpair ↦ absurd hpair (hnone r hr)) ?_
    decide

/-- The row that is stored is the expected one if and only if the map leaves the last message alone
and `Create` finds no zero value. -/
theorem inserted_eq_iff (base : ExecutionRow) : (newRow base updates now).withDefaults now =
        { base.overriddenBy updates now with transitionSeq := wrapInt (base.transitionSeq + 1) } ↔
      (∀ id, updates.uuid "last_msg_id" = some id → id = base.lastMsgID) ∧
        (base.overriddenBy updates now).status ≠ .blank ∧
        ((base.overriddenBy updates now).updatedAt = zeroTime → now = zeroTime) := by
  set status := ((updates.string "status").map CardStatus.ofString).getD base.status with hstatus
  set updatedAt := (updates.time "updated_at").getD now with hupdatedAt
  have hfields : (newRow base updates now).withDefaults now =
        { base.overriddenBy updates now with transitionSeq := wrapInt (base.transitionSeq + 1) } ↔
      base.lastMsgID = (updates.uuid "last_msg_id").getD base.lastMsgID ∧
        (if status = .blank then CardStatus.pending else status) = status ∧
        (if updatedAt = zeroTime then now else updatedAt) = updatedAt := by
    simp only [ExecutionRow.withDefaults, newRow, ExecutionRow.overriddenBy,
      ExecutionRow.mk.injEq, true_and]
    tauto
  rw [hfields]
  refine and_congr ?_ (and_congr ?_ ?_)
  · cases updates.uuid "last_msg_id" with
    | none => simp
    | some id => simp [eq_comm]
  · change _ ↔ status ≠ .blank
    split_ifs with hempty
    · simp [hempty, CardStatus.blank]
    · simp [hempty]
  · change _ ↔ (updatedAt = zeroTime → now = zeroTime)
    split_ifs with hzero
    · simp [hzero]
    · simp [hzero]

end Row

/-! ## The statistics -/

section Statistics

variable {t t' : StateTables} {row : ExecutionRow}

theorem latestRow_append_self (h : ∀ r ∈ t.executionStates, r.pair = row.pair →
    r.transitionSeq < row.transitionSeq) :
    latestRow (t.executionStates ++ [row]) row.pair = some row := by
  refine latestRow_eq_of_forall (by simp) ?_
  intro x hx hpair hle
  rcases mem_append.mp hx with hx | hx
  · exact absurd (h x hx hpair) (not_lt.mpr hle)
  · exact mem_singleton.mp hx

theorem filter_append_other {pair : UUID × UUID} (h : pair ≠ row.pair) :
    (t.executionStates ++ [row]).filter (·.pair = pair)
      = t.executionStates.filter (·.pair = pair) := by
  rw [filter_append, filter_cons_of_neg, filter_nil, append_nil]
  simpa using Ne.symm h

theorem latestRow_append_other {pair : UUID × UUID} (h : pair ≠ row.pair) :
    latestRow (t.executionStates ++ [row]) pair = latestRow t.executionStates pair := by
  rw [latestRow, latestRow, filter_append_other h]

theorem cardColumn_append (hrows : t'.executionStates = t.executionStates ++ [row])
    (h : ∀ r ∈ t.executionStates, r.pair = row.pair → r.transitionSeq < row.transitionSeq) :
    cardColumn t' row.campaignID = update (cardColumn t row.campaignID) row.cardID
        (statusColumnOrPending row.status) := by
  refine funext fun cardID ↦ ?_
  rw [cardColumn, hrows]
  by_cases hcard : cardID = row.cardID
  · subst hcard
    have hself : latestRow (t.executionStates ++ [row]) (row.cardID, row.campaignID) = some row :=
      latestRow_append_self h
    rw [hself, update_self]
    rfl
  · have hpair : (cardID, row.campaignID) ≠ row.pair := fun heq ↦ hcard (Prod.mk.inj heq).1
    rw [latestRow_append_other hpair, update_of_ne hcard]
    rfl

theorem card_filter_update {α β : Type} [DecidableEq α] [DecidableEq β] {s : Finset α} {a : α}
    (ha : a ∈ s) (f : α → β) (b y : β) : ((s.filter fun x ↦ update f a b x = y).card : ℤ)
      = (s.filter fun x ↦ f x = y).card - (if f a = y then 1 else 0)
        + (if b = y then 1 else 0) := by
  have hrest : ∑ x ∈ s.erase a, (if update f a b x = y then (1 : ℤ) else 0)
      = ∑ x ∈ s.erase a, if f x = y then 1 else 0 := by
    refine Finset.sum_congr rfl fun x hx ↦ ?_
    rw [update_of_ne (Finset.ne_of_mem_erase hx)]
  rw [Finset.natCast_card_filter, Finset.natCast_card_filter, ← Finset.add_sum_erase s _ ha,
    ← Finset.add_sum_erase s (fun x ↦ if f x = y then (1 : ℤ) else 0) ha, hrest, update_self]
  ring

theorem columnMove_eq {oldCol newCol : StatsColumn} (h : oldCol ≠ newCol) (col : StatsColumn) :
    columnMove oldCol newCol col
      = -(if oldCol = col then 1 else 0) + (if newCol = col then 1 else 0) := by
  rw [columnMove]
  by_cases hold : col = oldCol
  · subst hold
    rw [if_pos rfl, if_pos rfl, if_neg (Ne.symm h), add_zero]
  · rw [if_neg hold, if_neg (Ne.symm hold), neg_zero, zero_add]
    simp only [eq_comm]

theorem CountsCards.append {cards : Finset UUID} (hcounts : CountsCards t row.campaignID cards)
    (hcard : row.cardID ∈ cards) (hrows : t'.executionStates = t.executionStates ++ [row])
    (hseq : ∀ r ∈ t.executionStates, r.pair = row.pair → r.transitionSeq < row.transitionSeq)
    (hstats : t'.campaignStats =
      if cardColumn t row.campaignID row.cardID ≠ statusColumnOrPending row.status then
        update t.campaignStats row.campaignID ((t.campaignStats row.campaignID).map
          (·.add (columnMove (cardColumn t row.campaignID row.cardID)
            (statusColumnOrPending row.status))))
      else t.campaignStats) : CountsCards t' row.campaignID cards := by
  intro stats hsome col
  simp only [cardColumn_append hrows hseq]
  rw [card_filter_update hcard]
  by_cases hmoves : cardColumn t row.campaignID row.cardID ≠ statusColumnOrPending row.status
  · rw [hstats, if_pos hmoves, update_self] at hsome
    obtain ⟨before, hbefore, rfl⟩ := Option.map_eq_some_iff.mp hsome
    change before.counts col + columnMove _ _ col = _
    rw [hcounts before hbefore col, columnMove_eq hmoves]
    ring
  · rw [hstats, if_neg hmoves] at hsome
    rw [hcounts stats hsome col, not_not.mp hmoves]
    ring

theorem CountsCards.append_other {cards : Finset UUID} {c : UUID} (hcounts : CountsCards t c cards)
    (hne : c ≠ row.campaignID) (hrows : t'.executionStates = t.executionStates ++ [row])
    (hstats : t'.campaignStats c = t.campaignStats c) : CountsCards t' c cards := by
  intro stats hsome col
  rw [hstats] at hsome
  have hcolumn : ∀ cardID, cardColumn t' c cardID = cardColumn t c cardID := by
    intro cardID
    have hpair : (cardID, c) ≠ row.pair := fun heq ↦ hne (Prod.mk.inj heq).2
    rw [cardColumn, hrows, latestRow_append_other hpair, cardColumn]
  simp only [hcolumn]
  exact hcounts stats hsome col

end Statistics

/-! ## The whole call -/

/-- A map that completes a card. -/
def completing : Updates := fun key ↦
  if key = "status" then some (.string "completed") else none

/-- The tables of a campaign of one pending card, with the given rows. -/
def onePending (rows : List ExecutionRow) : StateTables where
  executionStates := rows
  campaignStats campaignID :=
    if campaignID = .ofDigit 9 then some ⟨1, fun col ↦ if col = .pending then 1 else 0⟩ else none

def firstRow : ExecutionRow :=
  { zeroRow with cardID := .ofDigit 1, campaignID := .ofDigit 9, status := .pending }

/-- **When `UpdateCampaignCard` appends for the named card.** A call that returns without an error
appends one row for the named card and campaign, with a higher number and the fields of the latest
row or the pending defaults overridden by the map, leaves the rows of others alone and keeps the
statistics accurate, if and only if the card had a row (or both identifiers are zero), its number
could be increased, and the map has no last message and no zero value. -/
theorem updateCampaignCard_appends_iff (t t' : StateTables) (campaignID cardID : UUID)
    (updates : Updates) (now : ℤ)
    (h : updateCampaignCard t campaignID cardID updates now = .ok t') :
    AppendsFor t t' campaignID cardID updates now ↔
      AppendsWhen t campaignID cardID updates now := by
  obtain ⟨row, hrow, hrows, hstats⟩ := updateCampaignCard_eq_ok h
  constructor
  · rintro ⟨⟨row', hrows', hpair, hseq, hfields⟩, -, -⟩
    obtain rfl : row = row' := by
      have heq := hrows.symm.trans hrows'
      simpa using heq
    have hknown := known_of_pair_currentRow (by rw [← hpair, hrow, pair_inserted])
    rw [currentRow_eq hknown] at hrow
    have hnumber : row.transitionSeq
        = wrapInt ((latestOrPending t campaignID cardID).transitionSeq + 1) := by rw [hrow]; rfl
    rw [hnumber] at hfields
    have hinserted := (inserted_eq_iff _).mp (hrow.symm.trans hfields)
    refine ⟨hknown, ?_, hinserted.1, hinserted.2.1, hinserted.2.2⟩
    rw [← forall_lt_next_iff, ← hnumber]
    exact hseq
  · rintro ⟨hknown, hseq, hmsg, hstatus, htime⟩
    rw [currentRow_eq hknown] at hrow
    have hpair : row.pair = (cardID, campaignID) := by
      rw [hrow, pair_inserted, pair_latestOrPending]
    have hbelow : ∀ r ∈ t.executionStates, r.pair = row.pair →
        r.transitionSeq < row.transitionSeq := by
      rw [hpair, hrow]
      exact forall_lt_next_iff.mpr hseq
    obtain ⟨rfl, rfl⟩ : row.cardID = cardID ∧ row.campaignID = campaignID := Prod.mk.inj hpair
    refine ⟨⟨row, hrows, rfl, hbelow, ?_⟩, ?_, ?_⟩
    · have hinserted := (inserted_eq_iff _).mpr ⟨hmsg, hstatus, htime⟩
      rw [← hrow] at hinserted
      have hnumber : row.transitionSeq = wrapInt
          ((latestOrPending t row.campaignID row.cardID).transitionSeq + 1) := by
        conv_lhs => rw [hinserted]
      rw [hnumber]
      exact hinserted
    · intro pair hne
      rw [hrows]
      exact filter_append_other hne
    · intro cards hcard c hcounts
      by_cases hc : c = row.campaignID
      · subst hc
        exact hcounts.append hcard hrows hbelow hstats
      · refine hcounts.append_other hc hrows ?_
        rw [hstats]
        split_ifs
        · exact update_of_ne hc ..
        · rfl

/-- A card with a row. -/
theorem updateCampaignCard_appends_iff_completed :
    ∃ t', updateCampaignCard (onePending [firstRow]) (.ofDigit 9) (.ofDigit 1) completing 5
        = .ok t' ∧
      AppendsFor (onePending [firstRow]) t' (.ofDigit 9) (.ofDigit 1) completing 5 := by
  refine ⟨_, rfl, (updateCampaignCard_appends_iff _ _ _ _ _ _ rfl).mpr ⟨?_, ?_, ?_, ?_, ?_⟩⟩
  · exact Or.inl (by decide +kernel)
  · decide +kernel
  · intro id hid
    exact absurd hid (by simp [completing, Updates.uuid])
  · decide +kernel
  · decide +kernel

/-- The first row of a card that has none is inserted under the zero identifiers. The statistics
count a completed card; the card is still pending. -/
theorem missing_row_inserted_for_nil :
    ∃ t', updateCampaignCard (onePending []) (.ofDigit 9) (.ofDigit 1) completing 5 = .ok t' ∧
      t'.executionStates.map ExecutionRow.pair = [(.nil, .nil)] ∧
      CountsCards (onePending []) (.ofDigit 9) {.ofDigit 1} ∧
      ¬CountsCards t' (.ofDigit 9) {.ofDigit 1} ∧
      ¬AppendsFor (onePending []) t' (.ofDigit 9) (.ofDigit 1) completing 5 := by
  refine ⟨_, rfl, rfl, ?_, ?_, ?_⟩
  · intro stats hsome col
    obtain rfl := Option.some.inj hsome
    cases col <;> decide +kernel
  · intro h
    have hcompleted := h _ rfl .completed
    exact absurd hcompleted (by decide +kernel)
  · rintro ⟨⟨row, hrows, hpair, -⟩, -, -⟩
    obtain rfl := cons_eq_cons.mp hrows |>.1
    exact absurd hpair (by decide +kernel)

end OtaPlatform
