import OtaPlatform.Controlplane.Campaign

/-!
# Resetting failed cards

Retry-failed reads the failed cards of a campaign in one statement and resets the cards on that list
in another. The second statement asks for the latest row of every listed card and not for its
status. What happened between the two does not show: a card that another request has reset or
skipped, or that a late report has moved on, is reset like a failed one, and the counters are moved
for it too.

`resetFailedCards_iff` says when a reset is right: all listed cards are still failed, and the
counter holds them. A list that is too long for a statement is refused, and nothing is reset.
-/

namespace OtaPlatform

open Option List

/-! ## What a reset should do -/

def isFailed (table : List ExecutionRow) (campaignID cardID : UUID) : Bool :=
  (latestRow table (cardID, campaignID)).any fun row ↦ row.status = .failed

def failedCount (table : List ExecutionRow) (campaignID : UUID) (cardIDs : List UUID) : ℕ :=
  (cardIDs.dedup.filter (isFailed table campaignID)).length

/-- What moves in the counters when `n` cards are reset. -/
def resetDelta (n : ℤ) : StatsDelta := fun col ↦
  if col = .failed then -n else if col = .pending then n else 0

/-- The tables `t'` are `t` with the failed ones of the listed cards reset. -/
structure ResetsFailed (t t' : StateTables) (campaignID : UUID) (cardIDs : List UUID)
    (step updatedAt : ℤ) : Prop where
  /-- Each of the failed cards gets a row, and no other card does. -/
  appended : ∃ rows, t'.executionStates = t.executionStates ++ rows ∧
    (rows.map ExecutionRow.pair).Nodup ∧
    ∀ row, row ∈ rows ↔ ∃ cardID ∈ cardIDs, ∃ latest,
      latestRow t.executionStates (cardID, campaignID) = some latest ∧ latest.status = .failed ∧
        resetRow step updatedAt latest = row
  /-- The latest rows of all others are the same. -/
  others : ∀ pair : UUID × UUID, ¬ (pair.1 ∈ cardIDs ∧ pair.2 = campaignID ∧
      isFailed t.executionStates campaignID pair.1 = true) →
    latestRow t'.executionStates pair = latestRow t.executionStates pair
  moved : 0 < failedCount t.executionStates campaignID cardIDs →
    ∃ r, t.campaignStats campaignID = some r ∧ t'.campaignStats campaignID
      = some (r.add (resetDelta (failedCount t.executionStates campaignID cardIDs)))
  /-- Nothing else in the counters changes. -/
  frame : ∀ c, c ≠ campaignID ∨ failedCount t.executionStates campaignID cardIDs = 0 →
    t'.campaignStats c = t.campaignStats c
  nonneg : ∀ r r', t.campaignStats campaignID = some r → t'.campaignStats campaignID = some r' →
    0 ≤ r.counts .failed → 0 ≤ r.counts .pending →
      0 ≤ r'.counts .failed ∧ 0 ≤ r'.counts .pending

/-- The listed cards are still failed, and the counter holds them. -/
structure StillFailed (t : StateTables) (campaignID : UUID) (cardIDs : List UUID) : Prop where
  /-- A listed card with a row in the campaign is failed. -/
  status : ∀ cardID ∈ cardIDs, ∀ row,
    latestRow t.executionStates (cardID, campaignID) = some row → row.status = .failed
  counted : 0 < failedCount t.executionStates campaignID cardIDs →
    (t.campaignStats campaignID).isSome = true
  /-- The column `failed` is at least their number. -/
  enough : ∀ r, t.campaignStats campaignID = some r → 0 ≤ r.counts .failed →
    0 ≤ r.counts .pending → failedCount t.executionStates campaignID cardIDs ≤ r.counts .failed

/-! ## What it does -/

section Reset

variable {t : StateTables} {campaignID : UUID} {cardIDs : List UUID} {step updatedAt : ℤ}

theorem isFailed_eq_true_iff {table : List ExecutionRow} {cardID : UUID} :
    isFailed table campaignID cardID = true ↔
      ∃ row, latestRow table (cardID, campaignID) = some row ∧ row.status = .failed := by
  rw [isFailed, any_eq_true_iff_get]
  constructor
  · rintro ⟨hsome, hstatus⟩
    exact ⟨_, (some_get hsome).symm, of_decide_eq_true hstatus⟩
  · rintro ⟨row, hlatest, hstatus⟩
    simp only [hlatest, isSome_some, get_some, hstatus, decide_true, exists_const]

theorem pair_resetRow (step updatedAt : ℤ) (latest : ExecutionRow) :
    (resetRow step updatedAt latest).pair = latest.pair := rfl

variable (hstatus : ∀ cardID ∈ cardIDs, ∀ row,
  latestRow t.executionStates (cardID, campaignID) = some row → row.status = .failed)

include hstatus

theorem mem_resetRows_iff_failed (row : ExecutionRow) :
    row ∈ resetRows t.executionStates campaignID cardIDs step updatedAt ↔
      ∃ cardID ∈ cardIDs, ∃ latest,
        latestRow t.executionStates (cardID, campaignID) = some latest ∧ latest.status = .failed ∧
          resetRow step updatedAt latest = row := by
  rw [mem_resetRows]
  constructor
  · rintro ⟨cardID, hcard, latest, hlatest, hrow⟩
    exact ⟨cardID, hcard, latest, hlatest, hstatus cardID hcard latest hlatest, hrow⟩
  · rintro ⟨cardID, hcard, latest, hlatest, -, hrow⟩
    exact ⟨cardID, hcard, latest, hlatest, hrow⟩

theorem length_resetRows_of_failed :
    (resetRows t.executionStates campaignID cardIDs step updatedAt).length
      = failedCount t.executionStates campaignID cardIDs := by
  rw [resetRows, length_filterMap_eq_countP, failedCount, ← countP_eq_length_filter]
  refine countP_congr fun cardID hcard ↦ ?_
  rw [isSome_map, isFailed_eq_true_iff, isSome_iff_exists]
  constructor
  · rintro ⟨row, hlatest⟩
    exact ⟨row, hlatest, hstatus cardID (mem_dedup.mp hcard) row hlatest⟩
  · rintro ⟨row, hlatest, -⟩
    exact ⟨row, hlatest⟩

omit hstatus in
theorem campaignStats_reset (t : StateTables) (campaignID : UUID) (cardIDs : List UUID)
    (step updatedAt : ℤ) (c : UUID) :
    (resetTransaction t campaignID cardIDs step updatedAt).campaignStats c
      = if c = campaignID then (t.campaignStats c).map (·.add (resetDelta
          (resetRows t.executionStates campaignID cardIDs step updatedAt).length))
        else t.campaignStats c :=
  campaignStats_resetTransaction c

omit hstatus in
theorem resetDelta_zero : resetDelta 0 = 0 := by
  funext col
  simp [resetDelta]

theorem latestRow_resetTransaction
    {pair : UUID × UUID} (hpair : ¬ (pair.1 ∈ cardIDs ∧ pair.2 = campaignID ∧
      isFailed t.executionStates campaignID pair.1 = true)) :
    latestRow (resetTransaction t campaignID cardIDs step updatedAt).executionStates pair
      = latestRow t.executionStates pair := by
  have hnone : ∀ row ∈ resetRows t.executionStates campaignID cardIDs step updatedAt,
      row.pair ≠ pair := by
    rintro row hrow rfl
    obtain ⟨cardID, hcard, latest, hlatest, hfailed, rfl⟩ :=
      (mem_resetRows_iff_failed hstatus row).mp hrow
    have hrowpair : latest.pair = (cardID, campaignID) := (mem_of_latestRow hlatest).2
    rw [pair_resetRow, hrowpair] at hpair
    exact hpair ⟨hcard, rfl, isFailed_eq_true_iff.mpr ⟨latest, hlatest, hfailed⟩⟩
  have hfilter : (resetRows t.executionStates campaignID cardIDs step updatedAt).filter
      (fun row ↦ row.pair = pair) = [] := by
    rw [filter_eq_nil_iff]
    exact fun row hrow h ↦ hnone row hrow (of_decide_eq_true h)
  rw [executionStates_resetTransaction, latestRow, latestRow, filter_append, hfilter, append_nil]

omit hstatus

theorem StillFailed.resetsFailed (h : StillFailed t campaignID cardIDs) :
    ResetsFailed t (resetTransaction t campaignID cardIDs step updatedAt) campaignID cardIDs step
      updatedAt := by
  have hlength : (resetRows t.executionStates campaignID cardIDs step updatedAt).length
      = failedCount t.executionStates campaignID cardIDs := length_resetRows_of_failed h.status
  refine ⟨⟨_, executionStates_resetTransaction, nodup_pairs_resetRows,
    mem_resetRows_iff_failed h.status⟩, fun pair ↦ latestRow_resetTransaction h.status, ?_, ?_, ?_⟩
  · intro hpos
    obtain ⟨r, hr⟩ := isSome_iff_exists.mp (h.counted hpos)
    exact ⟨r, hr, by rw [campaignStats_reset, if_pos rfl, hr, hlength, map_some]⟩
  · rintro c (hc | hzero)
    · rw [campaignStats_reset, if_neg hc]
    · rw [campaignStats_reset, hlength, hzero, Nat.cast_zero, resetDelta_zero]
      split_ifs
      · simp
      · rfl
  · intro r r' hr hr' hfailed hpending
    rw [campaignStats_reset, if_pos rfl, hr, hlength, map_some, some.injEq] at hr'
    have henough := h.enough r hr hfailed hpending
    subst hr'
    simp only [CampaignStatsRow.add, Pi.add_apply, resetDelta, if_true, reduceCtorEq, if_false]
    omega

theorem failedCount_eq_zero_iff {table : List ExecutionRow} :
    failedCount table campaignID cardIDs = 0 ↔
      ∀ cardID ∈ cardIDs, isFailed table campaignID cardID ≠ true := by
  rw [failedCount, length_eq_zero_iff, filter_eq_nil_iff]
  simp only [mem_dedup]

/-- Leaving the tables as they are is right if there is no card to reset. -/
theorem resetsFailed_self_iff : ResetsFailed t t campaignID cardIDs step updatedAt ↔
    failedCount t.executionStates campaignID cardIDs = 0 := by
  rw [failedCount_eq_zero_iff]
  constructor
  · intro h cardID hcard hfailed
    obtain ⟨rows, hrows, -, hmem⟩ := h.appended
    obtain ⟨latest, hlatest, hstatus⟩ := isFailed_eq_true_iff.mp hfailed
    have hreset := (hmem _).mpr ⟨cardID, hcard, latest, hlatest, hstatus, rfl⟩
    rw [self_eq_append_right.mp hrows] at hreset
    cases hreset
  · intro hnone
    have hzero := failedCount_eq_zero_iff.mpr hnone
    refine ⟨⟨[], (append_nil _).symm, nodup_nil, fun row ↦ ?_⟩, fun _ _ ↦ rfl, ?_,
      fun _ _ ↦ rfl, ?_⟩
    · refine iff_of_false not_mem_nil ?_
      rintro ⟨cardID, hcard, latest, hlatest, hstatus, -⟩
      exact hnone cardID hcard (isFailed_eq_true_iff.mpr ⟨latest, hlatest, hstatus⟩)
    · intro hpos
      omega
    · intro r r' hr hr' hfailed hpending
      obtain rfl := some.inj (hr.symm.trans hr')
      exact ⟨hfailed, hpending⟩

theorem ResetsFailed.stillFailed
    (h : ResetsFailed t (resetTransaction t campaignID cardIDs step updatedAt) campaignID cardIDs
      step updatedAt) : StillFailed t campaignID cardIDs := by
  refine ⟨?_, ?_, ?_⟩
  · intro cardID hcard latest hlatest
    obtain ⟨rows, hrows, -, hmem⟩ := h.appended
    rw [executionStates_resetTransaction, append_cancel_left_eq] at hrows
    have hreset : resetRow step updatedAt latest ∈ rows := by
      rw [← hrows, mem_resetRows]
      exact ⟨cardID, hcard, latest, hlatest, rfl⟩
    obtain ⟨cardID', -, latest', hlatest', hfailed, heq⟩ := (hmem _).mp hreset
    have hpair : (cardID', campaignID) = (cardID, campaignID) := by
      rw [← (mem_of_latestRow hlatest').2, ← (mem_of_latestRow hlatest).2,
        ← pair_resetRow step updatedAt latest', heq, pair_resetRow]
    rw [hpair, hlatest, some.injEq] at hlatest'
    rw [hlatest']
    exact hfailed
  · intro hpos
    obtain ⟨r, hr, -⟩ := h.moved hpos
    rw [hr, isSome_some]
  · intro r hr hfailed hpending
    rcases Nat.eq_zero_or_pos (failedCount t.executionStates campaignID cardIDs) with hzero | hpos
    · rw [hzero]
      exact hfailed
    · obtain ⟨r₁, hr₁, hr'⟩ := h.moved hpos
      obtain rfl : r = r₁ := some.inj (hr.symm.trans hr₁)
      have hnonneg := (h.nonneg r _ hr hr' hfailed hpending).1
      simp only [CampaignStatsRow.add, Pi.add_apply, resetDelta, if_true] at hnonneg
      omega

end Reset

/-- **When only failed cards are reset.** For a list that a statement takes, exactly if every listed
card with a row in the campaign is still failed and the counters hold these cards; for a longer one,
which changes nothing, exactly if none of the listed cards is failed. -/
theorem resetFailedCards_iff (t : StateTables) (campaignID : UUID) (cardIDs : List UUID)
    (step updatedAt : ℤ) :
    ResetsFailed t ((resetFailedCards t campaignID cardIDs step updatedAt).getD t) campaignID
        cardIDs step updatedAt ↔
      if cardIDs.length + 3 ≤ BulkInsert.maxParameters then StillFailed t campaignID cardIDs
      else failedCount t.executionStates campaignID cardIDs = 0 := by
  rw [resetFailedCards]
  by_cases hlimit : cardIDs.length + 3 ≤ BulkInsert.maxParameters
  · rw [if_neg (not_lt.mpr hlimit), if_pos hlimit]
    exact ⟨ResetsFailed.stillFailed, StillFailed.resetsFailed⟩
  · rw [if_pos (not_le.mp hlimit), if_neg hlimit]
    exact resetsFailed_self_iff

/-! ## Two requests at a time -/

/-- Campaign 1 with its only card failed. -/
def oneFailedCard : StateTables where
  executionStates := [initialRow (.ofDigit 1) 1 0 (.ofDigit 2),
    { initialRow (.ofDigit 1) 1 0 (.ofDigit 2) with status := .failed, transitionSeq := 1 }]
  campaignStats := fun _ ↦ some ⟨1, fun col ↦ if col = .failed then 1 else 0⟩

/-- The tables after a request has reset the cards that were failed. -/
def onceReset : StateTables :=
  (resetFailedCards oneFailedCard (.ofDigit 1) (listFailedCardIDs oneFailedCard (.ofDigit 1)) 1
    0).getD oneFailedCard

/-- Two requests read the list, then both reset: the second one resets a card that is pending, and
leaves the column `failed` at `-1`. -/
theorem resetFailedCards_twice :
    listFailedCardIDs oneFailedCard (.ofDigit 1) = [.ofDigit 2] ∧
      (latestRow onceReset.executionStates (.ofDigit 2, .ofDigit 1)).map ExecutionRow.status
        = some .pending ∧
      ∃ t, resetFailedCards onceReset (.ofDigit 1)
          (listFailedCardIDs oneFailedCard (.ofDigit 1)) 1 0 = some t ∧
        (t.campaignStats (.ofDigit 1)).map (fun r ↦ r.counts .failed) = some (-1) ∧
        ¬ ResetsFailed onceReset t (.ofDigit 1) (listFailedCardIDs oneFailedCard (.ofDigit 1)) 1
          0 := by
  have hlist : listFailedCardIDs oneFailedCard (.ofDigit 1) = [.ofDigit 2] := by decide +kernel
  refine ⟨hlist, by decide +kernel, _, by rw [hlist]; rfl, by decide +kernel, fun h ↦ ?_⟩
  have hstatus := h.stillFailed.status (.ofDigit 2) (by decide +kernel)
    (resetRow 1 0 { initialRow (.ofDigit 1) 1 0 (.ofDigit 2) with
      status := .failed, transitionSeq := 1 }) (by decide +kernel)
  cases hstatus

end OtaPlatform
