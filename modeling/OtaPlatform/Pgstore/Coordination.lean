import OtaPlatform.Pgstore.CardStateWriter

/-!
# The process-local card states

`CoordinationStore` keeps one card state per card in memory. The store holds pointers: what
`GetCardState` returns is the cached object itself, and the executor writes to it in place. The
model therefore keeps the objects apart from the cache that points to them.

## Objects

The objects of a card are numbered in the order they were made, and an object is only ever reached
through the card it belongs to, so objects of different cards are never shared. The field
`allocated` says that the cache never points to an object that does not exist yet.

## Reading the database

On a miss the store selects a row of the card with the highest sequence number, whatever its
campaign. The row is an argument here, because the statement does not say which one it takes among
several of the same number; `isSelected` says which rows it may be.
-/

namespace OtaPlatform

open Function

/-- `CheckAndSetDedupe`: no identifier is kept, and every event counts as new. -/
def checkAndSetDedupe (_eventID : UUID) : Except String Bool := .ok true

structure CardState where
  campaignID : UUID
  currentStep : ℤ := 0
  status : CardStatus
  retryCount : ℤ := 0
  lastMsgID : Option UUID := none
  lastEventID : Option UUID := none
  transitionSeq : ℤ
deriving DecidableEq, Repr

/-- The state a database row is read as. -/
def ExecutionRow.toCardState (row : ExecutionRow) : CardState where
  campaignID := row.campaignID
  currentStep := row.currentStep
  status := row.status
  retryCount := row.retryCount
  lastMsgID := row.lastMsgID
  transitionSeq := row.transitionSeq

structure CardStateStore where
  /-- The objects of a card, by number. -/
  objects : UUID → ℕ → CardState
  count : UUID → ℕ
  /-- The cache: the object of a card that is current. -/
  cardStates : UUID → Option ℕ
  /-- The cache points to objects that exist. -/
  allocated : ∀ cardID ref, cardStates cardID = some ref → ref < count cardID

namespace CardStateStore

variable (s : CardStateStore) (cardID : UUID)

def cardState (card : UUID) : Option CardState := (s.cardStates card).map (s.objects card)

/-- A new object of the card becomes current: `SetCardState` with a fresh object. -/
def setNew (state : CardState) : CardStateStore where
  objects := update s.objects cardID
    (update (s.objects cardID) (s.count cardID) state)
  count := update s.count cardID (s.count cardID + 1)
  cardStates := update s.cardStates cardID (some (s.count cardID))
  allocated := by
    intro card ref h
    by_cases hc : card = cardID
    · subst hc
      rw [update_self, Option.some.injEq] at h
      rw [update_self]
      omega
    · rw [update_of_ne hc] at h ⊢
      exact s.allocated card ref h

/-- Writes to an object in place. -/
def modify (ref : ℕ) (f : CardState → CardState) : CardStateStore where
  objects := update s.objects cardID
    (update (s.objects cardID) ref (f (s.objects cardID ref)))
  count := s.count
  cardStates := s.cardStates
  allocated := s.allocated

/-- An existing object becomes current: `SetCardState` with the object it returned. -/
def setCardState (ref : ℕ) (h : ref < s.count cardID) : CardStateStore where
  objects := s.objects
  count := s.count
  cardStates := update s.cardStates cardID (some ref)
  allocated := by
    intro card r hr
    by_cases hc : card = cardID
    · subst hc
      rw [update_self, Option.some.injEq] at hr
      exact hr ▸ h
    · rw [update_of_ne hc] at hr
      exact s.allocated card r hr

/-- Removes a card from the cache. -/
def evictCardState : CardStateStore where
  objects := s.objects
  count := s.count
  cardStates := update s.cardStates cardID none
  allocated := by
    intro card ref h
    by_cases hc : card = cardID
    · subst hc
      simp at h
    · rw [update_of_ne hc] at h
      exact s.allocated card ref h

/-- The store after `GetCardState`, which caches the row it reads on a miss. -/
def fetch (row : Option ExecutionRow) : CardStateStore :=
  match s.cardStates cardID, row with
  | none, some row => s.setNew cardID row.toCardState
  | _, _ => s

/-- The object `GetCardState` returns. -/
def getCardState (row : Option ExecutionRow) : Option ℕ := (s.fetch cardID row).cardStates cardID

/-- The state `GetCardState` returns. -/
def found (row : Option ExecutionRow) : Option CardState :=
  s.cardState cardID <|> row.map ExecutionRow.toCardState

/-! ## What the operations do to the cached states -/

variable {s cardID}

theorem setCardState_self {ref : ℕ} (href : s.cardStates cardID = some ref)
    (hlt : ref < s.count cardID) : s.setCardState cardID ref hlt = s := by
  cases s with
  | mk objects count cardStates allocated =>
    simp only [setCardState, mk.injEq, true_and]
    exact update_eq_self_iff.mpr href.symm

@[simp] theorem cardState_setNew (state : CardState) :
    (s.setNew cardID state).cardState = update s.cardState cardID (some state) := by
  refine funext fun card ↦ ?_
  by_cases hc : card = cardID
  · subst hc
    simp [cardState, setNew]
  · simp [cardState, setNew, hc]

theorem cardState_modify {ref : ℕ} (href : s.cardStates cardID = some ref)
    (f : CardState → CardState) : (s.modify cardID ref f).cardState
      = update s.cardState cardID (some (f (s.objects cardID ref))) := by
  refine funext fun card ↦ ?_
  by_cases hc : card = cardID
  · subst hc
    simp [cardState, modify, href]
  · simp [cardState, modify, hc]

@[simp] theorem cardState_evictCardState :
    (s.evictCardState cardID).cardState = update s.cardState cardID none := by
  refine funext fun card ↦ ?_
  by_cases hc : card = cardID
  · subst hc
    simp [cardState, evictCardState]
  · simp [cardState, evictCardState, hc]

theorem cardState_fetch (s : CardStateStore) (cardID : UUID) (row : Option ExecutionRow) :
    (s.fetch cardID row).cardState = update s.cardState cardID (s.found cardID row) := by
  cases hcache : s.cardStates cardID with
  | some ref =>
    have hfound : s.found cardID row = s.cardState cardID := by
      simp [found, cardState, hcache]
    rw [hfound, update_eq_self]
    simp [fetch, hcache]
  | none =>
    have hmiss : s.cardState cardID = none := by simp [cardState, hcache]
    cases row with
    | none =>
      have hfound : s.found cardID none = s.cardState cardID := by simp [found, hmiss]
      rw [hfound, update_eq_self]
      simp [fetch, hcache]
    | some row => simp [fetch, hcache, found, hmiss]

theorem found_eq (row : Option ExecutionRow) : s.found cardID row
    = (s.getCardState cardID row).map ((s.fetch cardID row).objects cardID) := by
  have hfetch := congrFun (cardState_fetch s cardID row) cardID
  rw [update_self] at hfetch
  exact hfetch.symm

end CardStateStore

/-- The statement of a miss may return this: a row of the card that no other exceeds, or nothing
when there is none. -/
def isSelected (table : List ExecutionRow) (cardID : UUID) (row : Option ExecutionRow) : Prop :=
  match row with
  | none => ∀ r ∈ table, r.cardID ≠ cardID
  | some row => row ∈ table ∧ row.cardID = cardID ∧
      ∀ r ∈ table, r.cardID = cardID → r.transitionSeq ≤ row.transitionSeq

instance (table : List ExecutionRow) (cardID : UUID) (row : Option ExecutionRow) :
    Decidable (isSelected table cardID row) := by
  unfold isSelected
  cases row <;> infer_instance

end OtaPlatform
