import Mathlib.Data.Finset.Card
import OtaPlatform.Smsframe.Frame
import OtaPlatform.Transition.Machine

/-!
# The WebSocket hub

The hub keeps the clients that are connected in a map. Its goroutine, `Run`, takes registrations,
requests to unregister and events to broadcast from three channels, one at a time. A client is sent
to through a buffered channel of its own, which `Run` closes when it takes the client out of the
map; events of a campaign are sent by the goroutines that call `BroadcastToCampaign`.

## Steps

A section under the lock is one step. Between receiving from a channel and the section that follows
the other goroutines may run, so that `Run` has a phase. Requests to unregister come from the
goroutine that reads from the client, when it ends, and from every send that finds the buffer full;
they wait until `Run` receives them, in any order and any number of times for the same client.

## The invariant

A send on a closed channel stops the process, and so does closing a channel again. Both are ruled
out by one fact: the channel of a client is closed exactly if the client has been taken out of the
map. It is stated with the steps taken so far (`WSHub.Tracks`), which also says when a client is in
the map.
-/

namespace OtaPlatform

open List Function

/-! ## Channels -/

/-- How an operation on a channel stops the process. -/
inductive ChanPanic
  | sendOnClosed
  | closeOfClosed
deriving DecidableEq

structure SendChan where
  buffer : List Bytes
  closed : Bool

/-- The size of the buffer of a client. -/
def sendCapacity : ℕ := 256

/-- A send that does not wait. There is no new channel if the buffer is full. -/
def SendChan.trySend (ch : SendChan) (data : Bytes) : Except ChanPanic (Option SendChan) :=
  if ch.closed then .error .sendOnClosed
  else if ch.buffer.length < sendCapacity then
    .ok (some { ch with buffer := ch.buffer ++ [data] })
  else .ok none

def SendChan.close (ch : SendChan) : Except ChanPanic SendChan :=
  if ch.closed then .error .closeOfClosed else .ok { ch with closed := true }

/-! ## Clients -/

/-- Where the goroutine is that reads from the client. -/
inductive ReadPump
  | notStarted
  | reading
  | ended
deriving DecidableEq

structure WSClient where
  send : SendChan
  topics : Finset String
  readPump : ReadPump

/-- A client before it is connected. -/
def WSClient.new : WSClient := ⟨⟨[], false⟩, ∅, .notStarted⟩

structure SubscribeMessage where
  action : String
  topic : String

/-- The topics after a message. A message that is no JSON object is ignored. -/
def handleMessage (topics : Finset String) : Option SubscribeMessage → Finset String
  | none => topics
  | some msg =>
    if msg.action = "subscribe" then
      if msg.topic ≠ "" then insert msg.topic topics else topics
    else if msg.action = "unsubscribe" then topics.erase msg.topic
    else topics

/-- The client wants the events of a campaign. -/
def WSClient.watches (client : WSClient) (campaignID : String) : Bool :=
  client.topics.card = 0 ∨ "campaign:" ++ campaignID ∈ client.topics

/-! ## The hub -/

/-- An event, by what `json.Marshal` makes of it. -/
abbrev WSEvent := Except String Bytes

inductive RunPhase (ι : Type)
  | waiting
  | registering (c : ι)
  | unregistering (c : ι)
  /-- It has received an event and marshalled it. -/
  | sending (data : Bytes)
  | stopped
deriving DecidableEq

structure WSHub (ι : Type) where
  clients : List ι
  broadcast : List WSEvent
  /-- The goroutines that wait to send on `unregister`, by the client they send. -/
  requests : List ι
  phase : RunPhase ι
  client : ι → WSClient

inductive HubAction (ι : Type)
  /-- `HandleWebSocket` hands a client to `Run` and starts its goroutines. -/
  | connect (c : ι)
  /-- `Run` puts the client into the map. -/
  | insert (c : ι)
  | readMessage (c : ι) (msg : Option SubscribeMessage)
  | readError (c : ι)
  /-- `Run` receives a request to unregister. -/
  | takeUnregister (c : ι)
  /-- `Run` takes the client out of the map. -/
  | remove (c : ι)
  | broadcast (event : WSEvent)
  /-- `Run` receives an event. -/
  | takeBroadcast
  /-- `Run` sends it to all clients. -/
  | sendAll
  | broadcastToCampaign (campaignID : String) (event : WSEvent)
  /-- A message is taken from the channel of a client. -/
  | receive (c : ι)
  /-- The context is cancelled and `Run` returns. -/
  | cancel

namespace WSHub

variable {ι : Type}

/-- The hub before anyone is connected. -/
def new (ι : Type) : WSHub ι := ⟨[], [], [], .waiting, fun _ ↦ .new⟩

/-- What can happen. A connection registers once. -/
def Enabled (hub : WSHub ι) : HubAction ι → Prop
  | .connect c => hub.phase = .waiting ∧ (hub.client c).readPump = .notStarted
  | .insert c => hub.phase = .registering c
  | .readMessage c _ => (hub.client c).readPump = .reading
  | .readError c => (hub.client c).readPump = .reading
  | .takeUnregister c => hub.phase = .waiting ∧ c ∈ hub.requests
  | .remove c => hub.phase = .unregistering c
  | .broadcast _ => True
  | .takeBroadcast => hub.phase = .waiting ∧ hub.broadcast ≠ []
  | .sendAll => ∃ data, hub.phase = .sending data
  | .broadcastToCampaign _ _ => True
  | .receive c => (hub.client c).send.buffer ≠ []
  | .cancel => hub.phase = .waiting

/-- The size of the channel `broadcast`. -/
def broadcastCapacity : ℕ := 256

variable [DecidableEq ι]

def setClient (hub : WSHub ι) (c : ι) (client : WSClient) : WSHub ι :=
  { hub with client := update hub.client c client }

/-- Sends to a client, or asks for it to be disconnected if its buffer is full. -/
def sendTo (hub : WSHub ι) (data : Bytes) (c : ι) : Except ChanPanic (WSHub ι) := do
  match ← (hub.client c).send.trySend data with
  | some ch => return hub.setClient c { hub.client c with send := ch }
  | none => return { hub with requests := c :: hub.requests }

/-- Sends to clients, one after the other. -/
def sendEach (hub : WSHub ι) (data : Bytes) (cs : List ι) : Except ChanPanic (WSHub ι) :=
  cs.foldlM (fun hub c ↦ hub.sendTo data c) hub

/-- Takes a client out of the map and closes its channel, if it is in the map. -/
def unregister (hub : WSHub ι) (c : ι) : Except ChanPanic (WSHub ι) :=
  if c ∈ hub.clients then do
    let ch ← (hub.client c).send.close
    return { hub with clients := hub.clients.filter (· ≠ c) }.setClient c
      { hub.client c with send := ch }
  else return hub

def step (hub : WSHub ι) : HubAction ι → Except ChanPanic (WSHub ι)
  | .connect c =>
    .ok ({ hub with phase := .registering c }.setClient c
      { WSClient.new with readPump := .reading })
  | .insert c => .ok { hub with clients := hub.clients.insert c, phase := .waiting }
  | .readMessage c msg => .ok (hub.setClient c
      { hub.client c with topics := handleMessage (hub.client c).topics msg })
  | .readError c => .ok ({ hub with requests := c :: hub.requests }.setClient c
      { hub.client c with readPump := .ended })
  | .takeUnregister c =>
    .ok { hub with requests := hub.requests.erase c, phase := .unregistering c }
  | .remove c => { hub with phase := .waiting }.unregister c
  | .broadcast event =>
    if hub.broadcast.length < broadcastCapacity then
      .ok { hub with broadcast := hub.broadcast ++ [event] }
    else .ok hub
  | .takeBroadcast =>
    match hub.broadcast with
    | [] => .ok hub
    | .error _ :: events => .ok { hub with broadcast := events }
    | .ok data :: events => .ok { hub with broadcast := events, phase := .sending data }
  | .sendAll =>
    match hub.phase with
    | .sending data => { hub with phase := .waiting }.sendEach data hub.clients
    | _ => .ok hub
  | .broadcastToCampaign campaignID event =>
    match event with
    | .error _ => .ok hub
    | .ok data =>
      hub.sendEach data (hub.clients.filter fun c ↦ (hub.client c).watches campaignID)
  | .receive c => .ok (hub.setClient c
      { hub.client c with
        send := { (hub.client c).send with buffer := (hub.client c).send.buffer.tail } })
  | .cancel => .ok { hub with phase := .stopped }

end WSHub

/-- The hub at work. A panic stops the process. -/
def websocketHub (ι : Type) [DecidableEq ι] :
    Machine (Except ChanPanic (WSHub ι)) (HubAction ι) where
  Enabled s a :=
    match s with
    | .ok hub => hub.Enabled a
    | .error _ => False
  next s a := s >>= fun hub ↦ hub.step a

namespace WSHub

variable {ι : Type} {hub hub' : WSHub ι} {c : ι} {past : List (HubAction ι)}

/-! ## Sending -/

/-- Sending changes buffers, and adds requests for clients that were to be sent to. -/
structure Sent (cs : List ι) (hub hub' : WSHub ι) : Prop where
  clients : hub'.clients = hub.clients
  phase : hub'.phase = hub.phase
  closed : ∀ c, (hub'.client c).send.closed = (hub.client c).send.closed
  readPump : ∀ c, (hub'.client c).readPump = (hub.client c).readPump
  requests : ∀ c ∈ hub'.requests, c ∈ hub.requests ∨ c ∈ cs

theorem Sent.refl (cs : List ι) (hub : WSHub ι) : Sent cs hub hub :=
  ⟨rfl, rfl, fun _ ↦ rfl, fun _ ↦ rfl, fun _ h ↦ .inl h⟩

theorem Sent.cons {hub'' : WSHub ι} {cs : List ι} (h : Sent [c] hub hub')
    (h' : Sent cs hub' hub'') : Sent (c :: cs) hub hub'' where
  clients := h'.clients.trans h.clients
  phase := h'.phase.trans h.phase
  closed d := (h'.closed d).trans (h.closed d)
  readPump d := (h'.readPump d).trans (h.readPump d)
  requests d hd := by
    rcases h'.requests d hd with hd | hd
    · rcases h.requests d hd with hd | hd
      · exact .inl hd
      · exact .inr (mem_cons.mpr (.inl (mem_singleton.mp hd)))
    · exact .inr (mem_cons_of_mem _ hd)

section Send

variable [DecidableEq ι]

@[simp] theorem client_setClient_self (hub : WSHub ι) (c : ι) (client : WSClient) :
    (hub.setClient c client).client c = client :=
  update_self ..

theorem client_setClient_of_ne {c' : ι} (h : c' ≠ c) (hub : WSHub ι) (client : WSClient) :
    (hub.setClient c client).client c' = hub.client c' :=
  update_of_ne h ..

/-- A change to one client that leaves its channel open or closed, and its goroutine where it is. -/
theorem sent_setClient {client : WSClient}
    (hclosed : client.send.closed = (hub.client c).send.closed)
    (hpump : client.readPump = (hub.client c).readPump) (cs : List ι) :
    Sent cs hub (hub.setClient c client) where
  clients := rfl
  phase := rfl
  closed d := by
    by_cases hd : d = c
    · rw [hd, client_setClient_self, hclosed]
    · rw [client_setClient_of_ne hd]
  readPump d := by
    by_cases hd : d = c
    · rw [hd, client_setClient_self, hpump]
    · rw [client_setClient_of_ne hd]
  requests d hd := .inl hd

theorem exists_sendTo (h : (hub.client c).send.closed = false) (data : Bytes) :
    ∃ hub', hub.sendTo data c = .ok hub' ∧ Sent [c] hub hub' := by
  rw [sendTo, SendChan.trySend, h]
  by_cases hfull : (hub.client c).send.buffer.length < sendCapacity
  · rw [if_neg Bool.false_ne_true, if_pos hfull]
    refine ⟨_, rfl, sent_setClient ?_ ?_ _⟩
    · exact h.symm
    · rfl
  · rw [if_neg Bool.false_ne_true, if_neg hfull]
    exact ⟨_, rfl, rfl, rfl, fun _ ↦ rfl, fun _ ↦ rfl,
      fun d hd ↦ (mem_cons.mp hd).symm.imp_right mem_singleton.mpr⟩

theorem exists_sendEach {cs : List ι} (h : ∀ c ∈ cs, (hub.client c).send.closed = false)
    (data : Bytes) : ∃ hub', hub.sendEach data cs = .ok hub' ∧ Sent cs hub hub' := by
  induction cs generalizing hub with
  | nil => exact ⟨hub, rfl, .refl [] hub⟩
  | cons c cs ih =>
    obtain ⟨hub₁, h₁, hsent₁⟩ := exists_sendTo (h c mem_cons_self) data
    have hopen : ∀ d ∈ cs, (hub₁.client d).send.closed = false := fun d hd ↦
      (hsent₁.closed d).trans (h d (mem_cons_of_mem _ hd))
    obtain ⟨hub₂, h₂, hsent₂⟩ := ih hopen
    refine ⟨hub₂, ?_, hsent₁.cons hsent₂⟩
    rw [sendEach, foldlM_cons, h₁]
    exact h₂

end Send

/-! ## What the steps so far say about the clients -/

structure Tracks (past : List (HubAction ι)) (hub : WSHub ι) : Prop where
  /-- The map holds the clients that were put into it and not taken out again. -/
  mem_clients : ∀ c, c ∈ hub.clients ↔ .insert c ∈ past ∧ .remove c ∉ past
  /-- The channels that are closed are those of the clients that were taken out. -/
  closed : ∀ c, (hub.client c).send.closed = true ↔ .remove c ∈ past
  inserted : ∀ c, .remove c ∈ past → .insert c ∈ past
  /-- A client that is connected was put in, or is about to be. -/
  started : ∀ c, (hub.client c).readPump ≠ .notStarted ↔
    .insert c ∈ past ∨ hub.phase = .registering c
  requests : ∀ c ∈ hub.requests, (hub.client c).readPump ≠ .notStarted
  /-- A client that is about to be taken out was put in. -/
  unregistering : ∀ c, hub.phase = .unregistering c → .insert c ∈ past
  registering : ∀ c, hub.phase = .registering c → .insert c ∉ past

variable (h : Tracks past hub)

include h

theorem Tracks.skip {a : HubAction ι}
    (ha : ∀ c, a ≠ .insert c ∧ a ≠ .remove c) : Tracks (past ++ [a]) hub := by
  have hinsert : ∀ c, .insert c ∈ past ++ [a] ↔ .insert c ∈ past := fun c ↦ by
    rw [mem_append, mem_singleton, or_iff_left (ha c).1.symm]
  have hremove : ∀ c, .remove c ∈ past ++ [a] ↔ .remove c ∈ past := fun c ↦ by
    rw [mem_append, mem_singleton, or_iff_left (ha c).2.symm]
  obtain ⟨hmem, hclosed, hinserted, hstarted, hrequests, hunregistering, hregistering⟩ := h
  refine ⟨fun c ↦ ?_, fun c ↦ ?_, fun c ↦ ?_, fun c ↦ ?_, hrequests, fun c ↦ ?_, fun c ↦ ?_⟩
  · rw [hinsert, hremove]
    exact hmem c
  · rw [hremove]
    exact hclosed c
  · rw [hinsert, hremove]
    exact hinserted c
  · rw [hinsert]
    exact hstarted c
  · rw [hinsert]
    exact hunregistering c
  · rw [hinsert]
    exact hregistering c

theorem Tracks.frame (hclients : hub'.clients = hub.clients)
    (hclosed : ∀ c, (hub'.client c).send.closed = (hub.client c).send.closed)
    (hstarted : ∀ c, (hub'.client c).readPump ≠ .notStarted ↔ (hub.client c).readPump ≠ .notStarted)
    (hrequests : ∀ c ∈ hub'.requests, c ∈ hub.requests ∨ (hub.client c).readPump ≠ .notStarted)
    (hregistering : ∀ c, hub'.phase = .registering c ↔ hub.phase = .registering c)
    (hunregistering : ∀ c, hub'.phase = .unregistering c → .insert c ∈ past) :
    Tracks past hub' := by
  refine ⟨fun c ↦ ?_, fun c ↦ ?_, h.inserted, fun c ↦ ?_, fun c hc ↦ ?_, hunregistering,
    fun c hc ↦ h.registering c ((hregistering c).mp hc)⟩
  · rw [hclients]
    exact h.mem_clients c
  · rw [hclosed]
    exact h.closed c
  · rw [hstarted, hregistering]
    exact h.started c
  · rw [hstarted]
    exact (hrequests c hc).elim (h.requests c) id

theorem Tracks.setPhase (phase : RunPhase ι)
    (hfrom : ∀ c, hub.phase ≠ .registering c) (hto : ∀ c, phase ≠ .registering c)
    (hunregistering : ∀ c, phase = .unregistering c → .insert c ∈ past) :
    Tracks past { hub with phase := phase } :=
  h.frame rfl (fun _ ↦ rfl) (fun _ ↦ Iff.rfl) (fun _ hc ↦ .inl hc)
    (fun c ↦ iff_of_false (hto c) (hfrom c)) hunregistering

theorem Tracks.setBroadcast (events : List WSEvent) :
    Tracks past { hub with broadcast := events } :=
  h.frame rfl (fun _ ↦ rfl) (fun _ ↦ Iff.rfl) (fun _ hc ↦ .inl hc) (fun _ ↦ Iff.rfl)
    h.unregistering

theorem Tracks.sent {cs : List ι} (hsent : Sent cs hub hub')
    (hcs : ∀ c ∈ cs, c ∈ hub.clients) : Tracks past hub' := by
  refine h.frame hsent.clients hsent.closed (fun c ↦ by rw [hsent.readPump]) (fun c hc ↦ ?_)
    (fun c ↦ by rw [hsent.phase]) (fun c hc ↦ h.unregistering c (hsent.phase ▸ hc))
  refine (hsent.requests c hc).imp_right fun hmem ↦ (h.started c).mpr (.inl ?_)
  exact ((h.mem_clients c).mp (hcs c hmem)).1

theorem Tracks.open_of_mem (hc : c ∈ hub.clients) : (hub.client c).send.closed = false := by
  rw [← Bool.not_eq_true, h.closed]
  exact ((h.mem_clients c).mp hc).2

theorem Tracks.removed (hphase : hub.phase = .unregistering c)
    (hclients : ∀ d, d ∈ hub'.clients ↔ d ∈ hub.clients ∧ d ≠ c)
    (hclosed : ∀ d, (hub'.client d).send.closed = true ↔ (hub.client d).send.closed = true ∨ d = c)
    (hpump : ∀ d, (hub'.client d).readPump = (hub.client d).readPump)
    (hrequests : hub'.requests = hub.requests) (hphase' : hub'.phase = .waiting) :
    Tracks (past ++ [.remove c]) hub' := by
  have hinsert : ∀ d, .insert d ∈ past ++ [HubAction.remove c] ↔ .insert d ∈ past := by simp
  have hremove : ∀ d, .remove d ∈ past ++ [HubAction.remove c] ↔ .remove d ∈ past ∨ d = c := by
    simp
  refine ⟨fun d ↦ ?_, fun d ↦ ?_, fun d ↦ ?_, fun d ↦ ?_, fun d hd ↦ ?_, fun d hd ↦ ?_,
    fun d hd ↦ ?_⟩
  · rw [hclients, h.mem_clients, hinsert, hremove, not_or, and_assoc]
  · rw [hclosed, h.closed, hremove]
  · rw [hremove, hinsert]
    rintro (hd | rfl)
    · exact h.inserted d hd
    · exact h.unregistering d hphase
  · rw [hpump, h.started, hinsert, hphase, hphase']
    simp
  · rw [hpump]
    exact h.requests d (hrequests ▸ hd)
  · rw [hphase'] at hd
    cases hd
  · rw [hphase'] at hd
    cases hd

omit h

section Steps

variable [DecidableEq ι]

variable (h : Tracks past hub)

include h

theorem Tracks.connect (hphase : hub.phase = .waiting)
    (hnew : (hub.client c).readPump = .notStarted) : Tracks (past ++ [.connect c])
      ({ hub with phase := .registering c }.setClient c
        { WSClient.new with readPump := .reading }) := by
  have hinsert : .insert c ∉ past := fun hc ↦ (h.started c).mpr (.inl hc) hnew
  have hremove : .remove c ∉ past := fun hc ↦ hinsert (h.inserted c hc)
  refine ⟨fun d ↦ ?_, fun d ↦ ?_, fun d ↦ ?_, fun d ↦ ?_, fun d hd ↦ ?_, fun d hd ↦ ?_,
    fun d hd ↦ ?_⟩
  · simpa [setClient] using h.mem_clients d
  · by_cases hd : d = c
    · rw [hd, client_setClient_self]
      simpa [WSClient.new] using hremove
    · rw [client_setClient_of_ne hd]
      simpa using h.closed d
  · simpa using h.inserted d
  · by_cases hd : d = c
    · rw [hd, client_setClient_self]
      exact iff_of_true ReadPump.noConfusion (.inr rfl)
    · rw [client_setClient_of_ne hd]
      have hphase' : RunPhase.registering c ≠ .registering d := fun heq ↦
        hd (RunPhase.registering.inj heq).symm
      simpa [hphase, hphase', setClient] using h.started d
  · by_cases hdc : d = c
    · rw [hdc, client_setClient_self]
      exact ReadPump.noConfusion
    · rw [client_setClient_of_ne hdc]
      exact h.requests d hd
  · cases hd
  · obtain rfl := RunPhase.registering.inj hd
    simpa using hinsert

theorem Tracks.insert (hphase : hub.phase = .registering c) : Tracks (past ++ [.insert c])
      { hub with clients := hub.clients.insert c, phase := .waiting } := by
  have hremove : .remove c ∉ past := fun hc ↦ h.registering c hphase (h.inserted c hc)
  refine ⟨fun d ↦ ?_, fun d ↦ ?_, fun d ↦ ?_, fun d ↦ ?_, fun d hd ↦ ?_, fun d hd ↦ ?_,
    fun d hd ↦ ?_⟩
  · simp only [mem_insert_iff, mem_append, mem_singleton, HubAction.insert.injEq,
      reduceCtorEq, or_false, h.mem_clients]
    by_cases hd : d = c
    · subst hd
      simp [hremove]
    · simp [hd]
  · simpa using h.closed d
  · intro hd
    exact mem_append_left _ (h.inserted d (by simpa using hd))
  · rw [h.started, hphase]
    simp [eq_comm]
  · exact h.requests d hd
  · cases hd
  · cases hd

theorem Tracks.remove (hphase : hub.phase = .unregistering c) :
    ∃ hub', { hub with phase := .waiting }.unregister c = .ok hub' ∧
      Tracks (past ++ [.remove c]) hub' := by
  rw [unregister]
  split_ifs with hc
  · have hopen := h.open_of_mem hc
    rw [SendChan.close, hopen, if_neg Bool.false_ne_true]
    refine ⟨_, rfl, h.removed hphase (fun d ↦ ?_) (fun d ↦ ?_) (fun d ↦ ?_) rfl rfl⟩
    · simp [setClient]
    · by_cases hd : d = c
      · rw [hd, client_setClient_self]
        simp
      · rw [client_setClient_of_ne hd]
        simp [hd]
    · by_cases hd : d = c
      · rw [hd, client_setClient_self]
      · rw [client_setClient_of_ne hd]
  · -- The client has been taken out before, and its channel is closed.
    have hremove : .remove c ∈ past := by
      by_contra hremove
      exact hc ((h.mem_clients c).mpr ⟨h.unregistering c hphase, hremove⟩)
    refine ⟨_, rfl, h.removed hphase (fun d ↦ ?_) (fun d ↦ ?_) (fun d ↦ rfl) rfl rfl⟩
    · refine (and_iff_left_of_imp fun hd hdc ↦ ?_).symm
      rw [hdc] at hd
      exact hc hd
    · refine (or_iff_left_of_imp fun hd ↦ ?_).symm
      rw [hd]
      exact (h.closed c).mpr hremove

/-- **One step.** It does not panic. -/
theorem Tracks.step {a : HubAction ι} (ha : hub.Enabled a) :
    ∃ hub', hub.step a = .ok hub' ∧ Tracks (past ++ [a]) hub' := by
  cases a with
  | connect c => exact ⟨_, rfl, h.connect ha.1 ha.2⟩
  | insert c => exact ⟨_, rfl, h.insert ha⟩
  | readMessage c msg =>
    refine ⟨_, rfl, (h.sent (sent_setClient ?_ ?_ []) (by simp)).skip (by simp)⟩
    · rfl
    · rfl
  | readError c =>
    refine ⟨_, rfl, Tracks.skip ?_ (by simp)⟩
    refine h.frame rfl (fun d ↦ ?_) (fun d ↦ ?_) (fun d hd ↦ ?_) (fun d ↦ Iff.rfl) h.unregistering
    · by_cases hd : d = c
      · rw [hd, client_setClient_self]
      · rw [client_setClient_of_ne hd]
    · by_cases hd : d = c
      · rw [hd, client_setClient_self, ha]
        simp
      · rw [client_setClient_of_ne hd]
    · rcases mem_cons.mp hd with rfl | hd
      · rw [ha]
        exact .inr ReadPump.noConfusion
      · exact .inl hd
  | takeUnregister c =>
    obtain ⟨hphase, hc⟩ := ha
    have hinsert : .insert c ∈ past := by
      refine ((h.started c).mp (h.requests c hc)).resolve_right ?_
      rw [hphase]
      exact fun heq ↦ by cases heq
    have hrequests : Tracks past { hub with requests := hub.requests.erase c } :=
      h.frame rfl (fun _ ↦ rfl) (fun _ ↦ Iff.rfl) (fun d hd ↦ .inl (mem_of_mem_erase hd))
        (fun _ ↦ Iff.rfl) h.unregistering
    refine ⟨_, rfl, (hrequests.setPhase (.unregistering c) (by simp [hphase]) (by simp)
      fun d hd ↦ ?_).skip (by simp)⟩
    rwa [← RunPhase.unregistering.inj hd]
  | remove c => exact h.remove ha
  | broadcast event =>
    rw [WSHub.step]
    split_ifs
    · exact ⟨_, rfl, (h.setBroadcast _).skip (by simp)⟩
    · exact ⟨_, rfl, h.skip (by simp)⟩
  | takeBroadcast =>
    rw [WSHub.step]
    rcases hub.broadcast with _ | ⟨err | data, events⟩
    · exact ⟨_, rfl, h.skip (by simp)⟩
    · exact ⟨_, rfl, (h.setBroadcast events).skip (by simp)⟩
    · refine ⟨_, rfl, Tracks.skip ?_ (by simp)⟩
      exact (h.setBroadcast events).setPhase (.sending data) (by simp [ha.1]) (by simp) (by simp)
  | sendAll =>
    obtain ⟨data, hphase⟩ := ha
    have hidle : Tracks past { hub with phase := .waiting } :=
      h.setPhase .waiting (by simp [hphase]) (by simp) (by simp)
    obtain ⟨hub', hstep, hsent⟩ := exists_sendEach (fun c hc ↦ hidle.open_of_mem hc) data
    refine ⟨hub', ?_, (hidle.sent hsent fun c hc ↦ hc).skip (by simp)⟩
    rw [WSHub.step, hphase]
    exact hstep
  | broadcastToCampaign campaignID event =>
    cases event with
    | error err => exact ⟨_, rfl, h.skip (by simp)⟩
    | ok data =>
      obtain ⟨hub', hstep, hsent⟩ := exists_sendEach
        (fun c hc ↦ h.open_of_mem (mem_of_mem_filter hc)) data
      exact ⟨hub', hstep, (h.sent hsent fun c hc ↦ mem_of_mem_filter hc).skip (by simp)⟩
  | receive c =>
    refine ⟨_, rfl, (h.sent (sent_setClient ?_ ?_ []) (by simp)).skip (by simp)⟩
    · rfl
    · rfl
  | cancel =>
    have hphase : hub.phase = .waiting := ha
    exact ⟨_, rfl, (h.setPhase .stopped (by simp [hphase]) (by simp) (by simp)).skip (by simp)⟩

end Steps

theorem tracks_new (ι : Type) : Tracks [] (new ι) := by
  refine ⟨?_, ?_, ?_, ?_, ?_, ?_, ?_⟩ <;> simp [new, WSClient.new]

end WSHub

/-- **Channels of clients are closed once and not used afterwards.** However registrations, requests
to unregister, broadcasts and events of campaigns come about, no operation on a channel panics; a
client is in the map from the step that puts it in to the first that takes it out, and its channel
is closed from then on. -/
theorem client_channels_of_runs {ι : Type} [DecidableEq ι] {acts : List (HubAction ι)}
    (h : (websocketHub ι).Runs (.ok (.new ι)) acts) :
    ∃ hub, (websocketHub ι).after (.ok (.new ι)) acts = .ok hub ∧
      ∀ c, (c ∈ hub.clients ↔ .insert c ∈ acts ∧ .remove c ∉ acts) ∧
        ((hub.client c).send.closed = true ↔ .remove c ∈ acts) := by
  have htracks : ∃ hub, (websocketHub ι).after (.ok (.new ι)) acts = .ok hub ∧
      WSHub.Tracks acts hub := by
    refine h.history_invariant (I := fun past s ↦ ∃ hub, s = .ok hub ∧ WSHub.Tracks past hub) ?_
      ⟨_, rfl, WSHub.tracks_new ι⟩
    rintro past s a ⟨hub, rfl, hub_tracks⟩ ha -
    exact hub_tracks.step ha
  obtain ⟨hub, hafter, hub_tracks⟩ := htracks
  exact ⟨hub, hafter, fun c ↦ ⟨hub_tracks.mem_clients c, hub_tracks.closed c⟩⟩

/-- A client that is sent an event and leaves. -/
theorem client_channels_of_runs_left :
    ∃ acts : List (HubAction ℕ), (websocketHub ℕ).Runs (.ok (.new ℕ)) acts ∧
      .insert 0 ∈ acts ∧ .remove 0 ∈ acts ∧
      ∃ hub, (websocketHub ℕ).after (.ok (.new ℕ)) acts = .ok hub ∧ 0 ∉ hub.clients ∧
        (hub.client 0).send.closed = true := by
  let acts : List (HubAction ℕ) := [.connect 0, .insert 0, .broadcastToCampaign "c" (.ok [1]),
    .readError 0, .takeUnregister 0, .remove 0]
  have hruns : (websocketHub ℕ).Runs (.ok (.new ℕ)) acts :=
    ⟨⟨⟨rfl, rfl⟩, trivial⟩, ⟨rfl, trivial⟩, ⟨trivial, trivial⟩, ⟨rfl, trivial⟩,
      ⟨⟨rfl, mem_cons_self⟩, trivial⟩, ⟨rfl, trivial⟩, trivial⟩
  have hremove : .remove 0 ∈ acts := by simp [acts]
  obtain ⟨hub, hafter, hclient⟩ := client_channels_of_runs hruns
  refine ⟨acts, hruns, by simp [acts], hremove, hub, hafter, ?_, (hclient 0).2.mpr hremove⟩
  exact fun hc ↦ ((hclient 0).1.mp hc).2 hremove

end OtaPlatform
