import OtaPlatform.Engine.System
import OtaPlatform.Transition.Serial

/-!
# Reports and responses of one card at the same time

Workers take delivery reports and responses of a card without regard to one another, and all of them
act on the same state object. Each handler reads the state, decides, and only then writes; nothing
keeps another handler from doing the same in between. Two responses to one command that are handled
at the same time both complete the card (`responses_overlap`), while one after the other only the
first does: it evicts the state, and the second finds the row of the activation.

## When overlapping is harmless

What the handlers publish and record is what they publish and record one after the other, as long as
a handler changes the process state only with no other handler between its `GetCardState` and its
last use of that state, and no handler calls `GetCardState` while another is in the middle of its
changes (`handlers_serializable`). Handlers that only read may overlap, and messages and log entries
may be sent at any time.
-/

namespace OtaPlatform

open List

/-! ## What the operations touch -/

/-- Sending is the only operation that has nothing to do with the process state. -/
def WorkerOp.touches : WorkerOp → Bool
  | .send _ => false
  | _ => true

/-- The operation writes to the process state. `GetCardState` does when it caches a row. -/
def WorkerOp.changes (s : Process) : WorkerOp → Bool
  | .getCardState cardID row => (s.states.cardStates cardID).isNone && (selectedRow row).isSome
  | .load _ _ | .getCounter _ _ | .cachedKeys _ | .send _ => false
  | .setStatus _ _ _ | .nextSeq _ _ | .setCardState _ _ | .setNewCardState _ _ | .evictCardState _
  | .incrCounter _ _ | .evictCounters _ | .cacheKeys _ _ | .evictKeys _ => true

theorem WorkerOp.next_of_not_changes (s : Process) (o : WorkerOp) (h : o.changes s = false) :
    workerSemantics.next s o = s := by
  cases o with
  | getCardState cardID row =>
    have hfetch : s.states.fetch cardID (selectedRow row) = s.states := by
      cases hcache : s.states.cardStates cardID with
      | some ref => simp only [CardStateStore.fetch, hcache]
      | none =>
        cases hrow : selectedRow row with
        | none => simp only [CardStateStore.fetch, hcache]
        | some r =>
          rw [changes, hcache, hrow] at h
          cases h
    change { s with states := s.states.fetch cardID (selectedRow row) } = s
    rw [hfetch]
  | load _ _ | getCounter _ _ | cachedKeys _ | send _ => rfl
  | setStatus _ _ _ | nextSeq _ _ | setCardState _ _ | setNewCardState _ _ | evictCardState _
  | incrCounter _ _ | evictCounters _ | cacheKeys _ _ | evictKeys _ => cases h

theorem WorkerOp.exists_of_not_touches {o : WorkerOp} (h : o.touches = false) :
    ∃ out, o = .send out := by
  cases o with
  | send out => exact ⟨out, rfl⟩
  | _ => cases h

/-- What the operations of the handlers touch and change. -/
def workerFootprint : Footprint workerSemantics where
  touches := WorkerOp.touches
  changes := WorkerOp.changes
  next_eq := WorkerOp.next_of_not_changes
  changes_eq := by
    intro s o h
    obtain ⟨out, rfl⟩ := WorkerOp.exists_of_not_touches h
    rfl
  answer_eq := by
    intro s s' o h
    obtain ⟨out, rfl⟩ := WorkerOp.exists_of_not_touches h
    rfl
  output_eq := by
    intro s s' o h
    obtain ⟨out, rfl⟩ := WorkerOp.exists_of_not_touches h
    rfl

/-! ## Events in the hands of workers -/

/-- A report or a response that a worker has taken, with what the outside answers it. -/
inductive TakenEvent
  | dlr (ans : Answers) (event : CardEvent) (campaignID : UUID)
  | mo (lib : SecuredPackets) (ans : Answers) (event : CardEvent)

def TakenEvent.handler : TakenEvent → Worker Handled
  | dlr ans event campaignID => handleDLR ans event campaignID
  | mo lib ans event => handleMO lib ans event

/-- What is compared: the activations, and the statuses and counter changes of the transitions. -/
inductive Published
  | activation (cardID : UUID) (campaignID : Option UUID) (step retryCount : ℤ)
  | transition (campaignID : UUID) (status statsFrom statsTo : CardStatus)
deriving DecidableEq, Repr

/-- An output as far as it is compared. -/
def Output.published : Output → Option Published
  | .event ev => some (.activation ev.cardID ev.campaignID ev.step ev.retryCount)
  | .change ch => some (.transition ch.campaignID ch.status ch.statsFrom ch.statsTo)
  | .sms _ _ | .delayed _ | .log _ => none

/-- Handlers that take turns. -/
abbrev HandlersInFlight := Traced workerSignature Handled Process Output

/-- The handlers of the events, before their first steps. -/
def takenEvents (s : Process) (events : List TakenEvent) : HandlersInFlight :=
  Traced.start s (events.map TakenEvent.handler)

/-- What was published is what the same handlers publish one after the other, in some order. -/
def AsOneByOne (s : Process) (events : List TakenEvent) (t : HandlersInFlight) : Prop :=
  ∃ order : List TakenEvent, order.Perm events ∧
    ((t.outputs.map Prod.snd).filterMap Output.published).Perm
      ((Program.sequential workerSemantics s (order.map TakenEvent.handler)).2.filterMap
        Output.published)

/-- **Orderly handlers are serialisable.** For every process state, every list of reports and
responses and every interleaving of their handlers in which each step is orderly, once all handlers
have returned, the activations and transitions are those of the handlers called one by one. -/
theorem handlers_serializable (s : Process) (events : List TakenEvent) (schedule : List ℕ)
    (t : HandlersInFlight)
    (h : (Traced.interleaving workerFootprint).Reaches (Traced.Orderly workerFootprint)
      (takenEvents s events) schedule t)
    (hfinished : t.Finished) : AsOneByOne s events t := by
  -- every handler starts with `GetCardState`
  have hcalls : ∀ e ∈ events, e.handler.isCall = true := by
    intro e _
    cases e with
    | dlr _ _ _ | mo _ _ _ => rfl
  obtain ⟨order, hperm, houtputs⟩ := Traced.serializable_of_orderly hcalls h hfinished
  exact ⟨order, hperm, houtputs.filterMap _⟩

/-! ## Two events at the same time -/

/-- The row of the activation, which has been written. -/
def activatedRow : ExecutionRow where
  cardID := .ofDigit 1
  campaignID := .ofDigit 9
  status := .inProgress
  currentStep := 1
  retryCount := 0
  lastMsgID := none
  lastSMPPID := ""
  lastError := ""
  transitionSeq := 1
  updatedAt := 0

/-- A process that has sent the only command of a campaign and waits in the given status. -/
def waitingProcess (status : CardStatus) (transitionSeq : ℤ) : Process :=
  let process := (Engine.new fun _ ↦ none).process
  { process with
    states := process.states.setNew (.ofDigit 1)
      { campaignID := .ofDigit 9, currentStep := 1, status := status
        transitionSeq := transitionSeq } }

/-- What the outside answers a handler: one command, three attempts. -/
def oneCommand (eventID : UUID) : Answers where
  context := .ok (plainContext [1] 3)
  msgID := .ofDigit 7
  eventID := eventID
  logID := .ofDigit 8
  row := .ok (some activatedRow)

/-- A report that the message could not be delivered. -/
def undelivered (eventID : UUID) : TakenEvent :=
  .dlr (oneCommand eventID)
    { type := .dlrReceived, eventID := eventID, cardID := .ofDigit 1
      campaignID := some (.ofDigit 9), dlrStatus := .undeliv } (.ofDigit 9)

def executed (eventID : UUID) : TakenEvent :=
  .mo plainPackets (oneCommand eventID)
    { type := .moReceived, eventID := eventID, cardID := .ofDigit 1, campaignID := some (.ofDigit 9)
      payloadHex := "00" }

/-- Two handlers in turn, neither of which changes anything. -/
def readersInTurn : List ℕ := [0, 1, 0, 1, 0, 1, 0, 1, 0, 1]

/-- Two reports of a message that could not be delivered both ask for another attempt, as they do
one after the other. -/
theorem handlers_serializable_readers :
    AsOneByOne (waitingProcess .awaitingDlr 1) [undelivered (.ofDigit 3), undelivered (.ofDigit 4)]
      ((Traced.interleaving workerFootprint).after (takenEvents (waitingProcess .awaitingDlr 1)
        [undelivered (.ofDigit 3), undelivered (.ofDigit 4)]) readersInTurn) := by
  have hreads : (Traced.interleaving workerFootprint).RunsUnder
      (fun t i ↦ t.onlyReads workerFootprint i = true) (takenEvents (waitingProcess .awaitingDlr 1)
        [undelivered (.ofDigit 3), undelivered (.ofDigit 4)]) readersInTurn := by
    decide +kernel
  refine handlers_serializable _ _ readersInTurn _
    ⟨hreads.mono fun _ _ ↦ Traced.orderly_of_onlyReads workerFootprint, rfl⟩ ?_
  unfold Traced.Finished
  decide +kernel

/-- The first of two handlers has read the state when the second is called, and goes on when the
second has returned. -/
def overlapping : List ℕ := replicate 2 0 ++ replicate 14 1 ++ replicate 12 0

/-- Two responses to the same command. -/
def twoResponses : List TakenEvent := [executed (.ofDigit 3), executed (.ofDigit 4)]

/-- The handlers of the two responses after the schedule. -/
def afterOverlapping : HandlersInFlight :=
  (Traced.interleaving workerFootprint).after
    (takenEvents (waitingProcess .awaitingMo 2) twoResponses) overlapping

private theorem length_published_sequential {order : List TakenEvent}
    (h : order.Perm twoResponses) :
    ((Program.sequential workerSemantics (waitingProcess .awaitingMo 2)
      (order.map TakenEvent.handler)).2.filterMap Output.published).length = 1 := by
  obtain ⟨a, b, rfl⟩ : ∃ a b, order = [a, b] := length_eq_two.mp h.length_eq
  have hmem : a ∈ twoResponses := h.subset mem_cons_self
  rcases mem_cons.mp hmem with rfl | hmem
  · have hb : b = executed (.ofDigit 4) := singleton_perm_singleton.mp h.cons_inv
    rw [hb]
    decide +kernel
  · obtain rfl := mem_singleton.mp hmem
    have hb : b = executed (.ofDigit 3) :=
      singleton_perm_singleton.mp (h.trans (.swap _ _ _)).cons_inv
    rw [hb]
    decide +kernel

/-- Two responses that are handled at the same time complete the card twice. -/
theorem responses_overlap :
    (Traced.interleaving workerFootprint).Runs
        (takenEvents (waitingProcess .awaitingMo 2) twoResponses) overlapping ∧
      afterOverlapping.Finished ∧
      (afterOverlapping.outputs.map Prod.snd).filterMap Output.published
        = replicate 2 (.transition (.ofDigit 9) .completed .inProgress .completed) ∧
      ¬AsOneByOne (waitingProcess .awaitingMo 2) twoResponses afterOverlapping := by
  have hpublished : (afterOverlapping.outputs.map Prod.snd).filterMap Output.published
      = replicate 2 (.transition (.ofDigit 9) .completed .inProgress .completed) := by
    decide +kernel
  refine ⟨?_, ?_, hpublished, ?_⟩
  · unfold Machine.Runs
    decide +kernel
  · unfold Traced.Finished
    decide +kernel
  · rintro ⟨order, horder, hperm⟩
    have hlength := hperm.length_eq
    rw [hpublished, length_published_sequential horder] at hlength
    cases hlength

end OtaPlatform
