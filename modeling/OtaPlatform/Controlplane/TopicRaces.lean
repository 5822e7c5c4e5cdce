import OtaPlatform.Controlplane.Websocket
import OtaPlatform.Transition.HappensBefore

/-!
# Accesses to the topics of clients

The topics of a client are a map of their own. They are changed by the goroutine that reads from
the client, which holds no lock, and read by `BroadcastToCampaign`, which holds the lock of the hub
for reading. Here an access to a map takes time: it begins with one step and ends with another.

## What orders accesses

A goroutine passes on what it did when it unlocks, and when it sends to or receives from `Run`; a
goroutine that is started knows what the one that starts it knew. Callers of `BroadcastToCampaign`
may synchronise with each other in any way. Two ways to pass something on are left out: the channel
`send` of a client, from who broadcasts to the goroutine that writes to the client, and the lock
inside the connection, between that goroutine and the one that reads. "Ordered" below is without
them.

The goroutine of a client has one occasion to pass on what it did, its request to unregister, and
`Run` takes the client out of the map before it passes on anything itself. So who broadcasts to a
client does not know what the goroutine of the client did (`TopicHub.Inv.hidden`). The other way
round, the goroutine learns nothing after it has been started, when nobody has read the topics yet
(`TopicHub.Inv.unaware`). No access of one is ordered with one of the other.
-/

namespace OtaPlatform

open List Function

/-- The messages for which `handleMessage` writes to the map. -/
def writesTopics : Option SubscribeMessage → Bool
  | none => false
  | some msg => (msg.action = "subscribe" ∧ msg.topic ≠ "") ∨ msg.action = "unsubscribe"

/-! ## The system -/

inductive HubThread (ι β : Type)
  | run
  | readPump (c : ι)
  /-- One that calls `BroadcastToCampaign`. -/
  | caller (j : β)
  /-- One that was started because a buffer was full. -/
  | disconnecter (n : ℕ)
deriving DecidableEq

/-- How the lock of the hub passes on what was done before. -/
inductive MutexEdge
  | unlock
  | rUnlock
deriving DecidableEq

/-- Where the goroutine is that reads from a client. -/
inductive TopicPump
  | notStarted
  | reading
  /-- In the middle of a change of the topics. -/
  | writing
  /-- It waits to send on `unregister`. -/
  | leaving
  | ended
deriving DecidableEq

/-- Where a caller of `BroadcastToCampaign` is. -/
inductive Caller (ι : Type)
  | outside
  /-- It holds the lock and has these clients before it. -/
  | inside (rest : List ι)
  /-- In the middle of reading the topics of a client. -/
  | visiting (c : ι) (rest : List ι)
deriving DecidableEq

def Caller.ahead {ι : Type} : Caller ι → List ι
  | .outside => []
  | .inside rest => rest
  | .visiting c rest => c :: rest

/-- The hub with the goroutines around it. -/
structure TopicHub (ι β : Type) where
  clients : List ι
  phase : RunPhase ι
  pump : ι → TopicPump
  caller : β → Caller ι
  /-- The goroutines that wait to send a client on `unregister` because its buffer was full. -/
  requests : List (ι × ℕ)
  /-- How many of them there have been. -/
  spawned : ℕ
  clocks : Clocks (HubThread ι β) MutexEdge ι

open TopicHub

inductive TopicAction (ι β : Type)
  /-- `HandleWebSocket` hands a client to `Run` and starts its goroutines. -/
  | connect (c : ι)
  /-- `Run` puts the client into the map, under the lock. -/
  | insert (c : ι)
  /-- A message is read from a client. If it changes the topics, the change begins. -/
  | readMessage (c : ι) (msg : Option SubscribeMessage)
  | endWrite (c : ι)
  | readError (c : ι)
  /-- `Run` receives the request of the goroutine of a client. -/
  | takeUnregister (c : ι)
  /-- `Run` receives the request of a goroutine that was started for a full buffer. -/
  | takeDisconnect (c : ι) (n : ℕ)
  /-- `Run` takes the client out of the map, under the lock. -/
  | remove (c : ι)
  /-- `Run` sends an event to all clients; the buffers of some are full. -/
  | dispatch (full : List ι)
  /-- `BroadcastToCampaign` takes the lock, to visit the clients in this order. -/
  | enter (j : β) (order : List ι)
  /-- It begins to read the topics of a client. -/
  | beginRead (j : β) (c : ι)
  /-- It has read them, and sends or finds the buffer full. -/
  | endRead (j : β) (full : Bool)
  | leave (j : β)
  /-- A caller learns what another did, by means outside the hub. -/
  | meet (j k : β)
  /-- `Run` returns. -/
  | cancel

namespace TopicHub

variable {ι β : Type}

/-- The hub before anyone is connected. -/
def start (ι β : Type) : TopicHub ι β :=
  ⟨[], .waiting, fun _ ↦ .notStarted, fun _ ↦ .outside, [], 0, .start _ _ _⟩

/-- What can happen. The lock is taken for writing only while nobody holds it. -/
def Enabled (s : TopicHub ι β) : TopicAction ι β → Prop
  | .connect c => s.phase = .waiting ∧ s.pump c = .notStarted
  | .insert c => s.phase = .registering c ∧ ∀ j, s.caller j = .outside
  | .readMessage c _ => s.pump c = .reading
  | .endWrite c => s.pump c = .writing
  | .readError c => s.pump c = .reading
  | .takeUnregister c => s.phase = .waiting ∧ s.pump c = .leaving
  | .takeDisconnect c n => s.phase = .waiting ∧ (c, n) ∈ s.requests
  | .remove c => s.phase = .unregistering c ∧ ∀ j, s.caller j = .outside
  | .dispatch full => s.phase = .waiting ∧ full ⊆ s.clients
  | .enter j order => s.caller j = .outside ∧ order.Perm s.clients
  | .beginRead j c => ∃ rest, s.caller j = .inside (c :: rest)
  | .endRead j _ => ∃ c rest, s.caller j = .visiting c rest
  | .leave j => s.caller j = .inside []
  | .meet j k => s.caller j = .outside ∧ s.caller k = .outside
  | .cancel => s.phase = .waiting

variable [DecidableEq ι] [DecidableEq β]

def locked (clocks : Clocks (HubThread ι β) MutexEdge ι) : Clocks (HubThread ι β) MutexEdge ι :=
  ((clocks.acquire .run .unlock).acquire .run .rUnlock).release .run .unlock

/-- Starts a goroutine that asks for a client to be taken out. -/
def spawn (s : TopicHub ι β) (t : HubThread ι β) (c : ι) : TopicHub ι β :=
  { s with
    requests := (c, s.spawned) :: s.requests
    spawned := s.spawned + 1
    clocks := s.clocks.learn (.disconnecter s.spawned) (s.clocks.known t) }

def next (s : TopicHub ι β) : TopicAction ι β → TopicHub ι β
  | .connect c => { s with
      phase := .registering c
      pump := update s.pump c .reading
      clocks := s.clocks.learn (.readPump c) (s.clocks.known .run) }
  | .insert c => { s with
      clients := s.clients.insert c
      phase := .waiting
      clocks := locked s.clocks }
  | .readMessage c msg =>
    if writesTopics msg then { s with
      pump := update s.pump c .writing
      clocks := s.clocks.access (.readPump c) c true }
    else s
  | .endWrite c => { s with pump := update s.pump c .reading }
  | .readError c => { s with pump := update s.pump c .leaving }
  | .takeUnregister c => { s with
      phase := .unregistering c
      pump := update s.pump c .ended
      clocks := (s.clocks.learn .run (s.clocks.known (.readPump c))).learn (.readPump c)
        (s.clocks.known .run) }
  | .takeDisconnect c n => { s with
      requests := s.requests.erase (c, n)
      phase := .unregistering c
      clocks := s.clocks.learn .run (s.clocks.known (.disconnecter n)) }
  | .remove c => { s with
      clients := s.clients.filter (· ≠ c)
      phase := .waiting
      clocks := locked s.clocks }
  | .dispatch full =>
    let s := full.foldl (fun s c ↦ s.spawn .run c)
      { s with clocks := s.clocks.acquire .run .unlock }
    { s with clocks := s.clocks.release .run .rUnlock }
  | .enter j order => { s with
      caller := update s.caller j (.inside order)
      clocks := s.clocks.acquire (.caller j) .unlock }
  | .beginRead j c => { s with
      caller := update s.caller j (.visiting c (s.caller j).ahead.tail)
      clocks := s.clocks.access (.caller j) c false }
  | .endRead j full =>
    match s.caller j with
    | .visiting c rest =>
      let s := { s with caller := update s.caller j (.inside rest) }
      if full then s.spawn (.caller j) c else s
    | _ => s
  | .leave j => { s with
      caller := update s.caller j .outside
      clocks := s.clocks.release (.caller j) .rUnlock }
  | .meet j k => { s with
      clocks := s.clocks.learn (.caller k) (s.clocks.known (.caller j)) }
  | .cancel => { s with phase := .stopped }

end TopicHub

/-- The goroutines around the hub at work. -/
def topicAccesses (ι β : Type) [DecidableEq ι] [DecidableEq β] :
    Machine (TopicHub ι β) (TopicAction ι β) where
  Enabled := Enabled
  next := next

namespace TopicHub

variable {ι β : Type}

/-! ## Who knows of which accesses -/

/-- The client is in the map, or about to be put there. -/
def Live (s : TopicHub ι β) (c : ι) : Prop := c ∈ s.clients ∨ s.phase = .registering c

/-- The goroutine of the client may still change its topics. -/
def Active (s : TopicHub ι β) (c : ι) : Prop := s.pump c = .reading ∨ s.pump c = .writing

/-- Who may know what the goroutine of a client did. -/
def Insider (s : TopicHub ι β) (c : ι) (t : HubThread ι β) : Prop :=
  t = .readPump c ∨ t = .run ∧ s.phase = .unregistering c

structure Inv (s : TopicHub ι β) : Prop where
  numbered : s.clocks.WellNumbered
  started : ∀ c, s.Live c → s.pump c ≠ .notStarted
  ahead : ∀ j, (s.caller j).ahead ⊆ s.clients
  /-- Topics are changed by the goroutine of the client and read by callers. -/
  accesses : ∀ (i : ℕ) a, s.clocks.log[i]? = some a → s.pump a.object ≠ .notStarted ∧
    (a.thread = .readPump a.object ∧ a.isWrite = true ∨
      (∃ j, a.thread = .caller j) ∧ a.isWrite = false)
  /-- What the goroutine of a client did is hidden as long as the client is in the map. -/
  hidden : ∀ c, s.Live c → s.clocks.Hidden (fun a ↦ a.thread = .readPump c) (s.Insider c)
  /-- The goroutine of a client does not know who read its topics. -/
  unaware : ∀ c, s.Active c →
    s.clocks.Excludes (fun a ↦ a.object = c ∧ a.thread ≠ .readPump c)
      (s.clocks.known (.readPump c))
  unordered : s.clocks.Unordered

variable {s s' : TopicHub ι β}

theorem Inv.object_eq (h : Inv s) {i : ℕ} {a : Access (HubThread ι β) ι} {c : ι}
    (ha : s.clocks.log[i]? = some a) (hthread : a.thread = .readPump c) : a.object = c := by
  rcases (h.accesses i a ha).2 with ⟨hpump, -⟩ | ⟨⟨j, hcaller⟩, -⟩
  · exact HubThread.readPump.inj (hpump.symm.trans hthread)
  · cases hcaller.symm.trans hthread

/-- Steps that pass nothing on. A client may become live or active if its topics have not been
accessed yet. -/
theorem Inv.control (h : Inv s) (hclocks : s'.clocks = s.clocks)
    (hpump : ∀ c, s.pump c ≠ .notStarted → s'.pump c ≠ .notStarted)
    (hlive : ∀ c, s'.Live c → s.Live c ∨ s.pump c = .notStarted ∧ s'.pump c ≠ .notStarted)
    (hactive : ∀ c, s'.Active c → s.Active c ∨ s.pump c = .notStarted)
    (hphase : ∀ c, s'.Live c → s.phase = .unregistering c → s'.phase = .unregistering c)
    (hahead : ∀ j, (s'.caller j).ahead ⊆ s'.clients) : Inv s' := by
  refine ⟨?_, fun c hc ↦ ?_, hahead, fun i a ha ↦ ?_, fun c hc ↦ ?_, fun c hc ↦ ?_, ?_⟩
  · rw [hclocks]
    exact h.numbered
  · rcases hlive c hc with hc | ⟨-, hc⟩
    · exact hpump c (h.started c hc)
    · exact hc
  · rw [hclocks] at ha
    exact (h.accesses i a ha).imp_left (hpump _)
  · rw [hclocks]
    rcases hlive c hc with hold | ⟨hnew, -⟩
    · exact (h.hidden c hold).mono fun t ht ↦ ht.imp_right fun ht ↦ ⟨ht.1, hphase c hc ht.2⟩
    · refine Clocks.hidden_of_forall_not (fun i a ha hthread ↦ ?_) _
      exact (h.accesses i a ha).1 (h.object_eq ha hthread ▸ hnew)
  · rw [hclocks]
    rcases hactive c hc with hold | hnew
    · exact h.unaware c hold
    · exact fun i _ a ha hobject ↦ (h.accesses i a ha).1 (hobject.1 ▸ hnew)
  · rw [hclocks]
    exact h.unordered

/-- A goroutine that was started moves on, to a point where it may change topics only if it was at
one before. -/
theorem Inv.setPump [DecidableEq ι] (h : Inv s) (c : ι) (phase : TopicPump)
    (hphase : phase ≠ .notStarted) (hactive : phase = .reading ∨ phase = .writing → s.Active c) :
    Inv { s with pump := update s.pump c phase } := by
  refine h.control rfl (fun d hd ↦ ?_) (fun d hd ↦ .inl hd) (fun d hd ↦ .inl ?_)
    (fun _ _ hd ↦ hd) h.ahead
  · change update s.pump c phase d ≠ .notStarted
    rw [update_apply]
    split_ifs
    · exact hphase
    · exact hd
  · change update s.pump c phase d = .reading ∨
      update s.pump c phase d = .writing at hd
    by_cases hdc : d = c
    · subst hdc
      rw [update_self] at hd
      exact hactive hd
    · rwa [update_of_ne hdc] at hd

theorem Inv.setCaller [DecidableEq β] (h : Inv s) (j : β) (place : Caller ι)
    (hahead : place.ahead ⊆ s.clients) :
    Inv { s with caller := update s.caller j place } := by
  refine h.control rfl (fun _ hd ↦ hd) (fun _ hd ↦ .inl hd) (fun _ hd ↦ .inl hd) (fun _ _ hd ↦ hd)
    fun k ↦ ?_
  change (update s.caller j place k).ahead ⊆ s.clients
  rw [update_apply]
  split_ifs
  · exact hahead
  · exact h.ahead k

theorem Inv.setPhase (h : Inv s) (phase : RunPhase ι) (hto : ∀ c, phase ≠ .registering c)
    (hfrom : ∀ c, s.Live c → s.phase = .unregistering c → phase = .unregistering c) :
    Inv { s with phase := phase } :=
  h.control rfl (fun _ hd ↦ hd) (fun d hd ↦ .inl (.inl (hd.resolve_right (hto d))))
    (fun _ hd ↦ .inl hd)
    (fun d hd ↦ hfrom d (.inl (hd.resolve_right (hto d)))) h.ahead

/-! ## Passing on -/

theorem not_insider_caller (c : ι) (j : β) : ¬s.Insider c (.caller j) := by
  rintro (h | ⟨h, -⟩) <;> cases h

theorem not_insider_run {c : ι} (h : s.phase ≠ .unregistering c) : ¬s.Insider c .run := by
  rintro (hin | ⟨-, hin⟩)
  · cases hin
  · exact h hin

theorem Inv.release (h : Inv s) {t : HubThread ι β} (ht : ∀ c, s.Live c → ¬s.Insider c t)
    (l : MutexEdge) : Inv { s with clocks := s.clocks.release t l } :=
  ⟨h.numbered.release t l, h.started, h.ahead, h.accesses,
    fun c hc ↦ (h.hidden c hc).release (ht c hc) l, h.unaware, h.unordered⟩

section Steps

variable [DecidableEq ι] [DecidableEq β]

variable (h : Inv s)

include h

theorem Inv.learn {t : HubThread ι β} {k : Finset ℕ} (hk : s.clocks.Numbers k)
    (hidden : ∀ c, s.Live c → s.Insider c t ∨ s.clocks.Excludes (fun a ↦ a.thread = .readPump c) k)
    (hpump : ∀ c, t = .readPump c → ¬s.Active c) : Inv { s with clocks := s.clocks.learn t k } := by
  refine ⟨h.numbered.learn hk t, h.started, h.ahead, h.accesses,
    fun c hc ↦ (h.hidden c hc).learn (hidden c hc), fun c hc ↦ ?_, h.unordered⟩
  rw [Clocks.known_learn_of_ne]
  · exact h.unaware c hc
  · rintro rfl
    exact hpump c rfl hc

theorem Inv.acquire {t : HubThread ι β} (ht : ∀ c, t ≠ .readPump c) (l : MutexEdge) :
    Inv { s with clocks := s.clocks.acquire t l } :=
  h.learn (h.numbered.carried l) (fun c hc ↦ .inr ((h.hidden c hc).carried l))
    (fun c heq ↦ absurd heq (ht c))

theorem Inv.spawn {t : HubThread ι β} (ht : ∀ c, s.Live c → ¬s.Insider c t) (c : ι) :
    Inv (s.spawn t c) := by
  have hlearn : Inv { s with
      clocks := s.clocks.learn (.disconnecter s.spawned) (s.clocks.known t) } :=
    h.learn (h.numbered.known t) (fun d hd ↦ .inr ((h.hidden d hd).known t (ht d hd)))
      (fun d heq ↦ by cases heq)
  exact hlearn.control rfl (fun _ hd ↦ hd) (fun _ hd ↦ .inl hd) (fun _ hd ↦ .inl hd)
    (fun _ _ hd ↦ hd) hlearn.ahead

theorem Inv.locked (hrun : ∀ c, s.Live c → s.phase ≠ .unregistering c) :
    Inv { s with clocks := locked s.clocks } := by
  have hunlock := h.acquire (t := .run) (fun c ↦ by simp) .unlock
  have hrUnlock := hunlock.acquire (t := .run) (fun c ↦ by simp) .rUnlock
  refine hrUnlock.release (fun c hc hin ↦ ?_) .unlock
  rcases hin with hin | ⟨-, hin⟩
  · cases hin
  · exact hrun c hc hin

/-! ## The steps -/

theorem Inv.connect {c : ι} (hphase : s.phase = .waiting)
    (hnew : s.pump c = .notStarted) : Inv (s.next (.connect c)) := by
  have hlearn : Inv { s with
      clocks := s.clocks.learn (.readPump c) (s.clocks.known .run) } := by
    refine h.learn (h.numbered.known .run) (fun d hd ↦ .inr ?_) (fun d heq hd ↦ ?_)
    · exact (h.hidden d hd).known .run (not_insider_run (by simp [hphase]))
    · obtain rfl := HubThread.readPump.inj heq
      rcases hd with hd | hd <;> cases hnew.symm.trans hd
  have hself : update s.pump c .reading c = .reading := update_self ..
  have hother : ∀ d, d ≠ c → update s.pump c .reading d = s.pump d := fun d hd ↦
    update_of_ne hd ..
  refine hlearn.control rfl (fun d hd ↦ ?_) (fun d hd ↦ ?_) (fun d hd ↦ ?_) (fun d _ hd ↦ ?_)
    h.ahead
  · have hdc : d ≠ c := fun hdc ↦ hd (hdc ▸ hnew)
    change update s.pump c .reading d ≠ .notStarted
    rwa [hother d hdc]
  · rcases hd with hd | hd
    · exact .inl (.inl hd)
    · obtain rfl := RunPhase.registering.inj hd
      refine .inr ⟨hnew, ?_⟩
      change update s.pump c .reading c ≠ .notStarted
      rw [hself]
      exact TopicPump.noConfusion
  · by_cases hdc : d = c
    · exact .inr (hdc ▸ hnew)
    · refine .inl ?_
      change update s.pump c .reading d = .reading ∨
        update s.pump c .reading d = .writing at hd
      rwa [hother d hdc] at hd
  · cases hphase.symm.trans hd

theorem Inv.write {c : ι} (hpump : s.pump c = .reading) :
    Inv { s with
      pump := update s.pump c .writing
      clocks := s.clocks.access (.readPump c) c true } := by
  have hactive : s.Active c := .inl hpump
  have hstarted : ∀ d, s.pump d ≠ .notStarted →
      update s.pump c .writing d ≠ .notStarted := fun d hd ↦ by
    rw [update_apply]
    split_ifs
    · exact TopicPump.noConfusion
    · exact hd
  refine ⟨h.numbered.access _ _ _, fun d hd ↦ hstarted d (h.started d hd), h.ahead,
    fun i a ha ↦ ?_, fun d hd ↦ ?_, fun d hd ↦ ?_, ?_⟩
  · rcases Clocks.getElem?_log_access.mp ha with ha | ⟨-, rfl⟩
    · exact (h.accesses i a ha).imp_left (hstarted _)
    · refine ⟨hstarted c ?_, .inl ⟨rfl, rfl⟩⟩
      rw [hpump]
      exact TopicPump.noConfusion
  · refine (h.hidden d hd).access h.numbered ?_
    by_cases hdc : d = c
    · exact .inl (.inl (hdc ▸ rfl))
    · exact .inr fun heq ↦ hdc (HubThread.readPump.inj heq).symm
  · by_cases hdc : d = c
    · subst hdc
      change (s.clocks.access _ _ _).Excludes _ ((s.clocks.access _ _ _).known _)
      rw [Clocks.known_access_self]
      exact (h.unaware d hactive).insert_access (h.numbered.known _) fun hforeign ↦
        hforeign.2 rfl
    · have hne : HubThread.readPump (β := β) d ≠ .readPump c := fun heq ↦
        hdc (HubThread.readPump.inj heq)
      change update s.pump c .writing d = .reading ∨
        update s.pump c .writing d = .writing at hd
      rw [update_of_ne hdc] at hd
      change (s.clocks.access _ _ _).Excludes _ ((s.clocks.access _ _ _).known _)
      rw [Clocks.known_access_of_ne hne]
      exact (h.unaware d hd).access (h.numbered.known _) _ _ _
  · exact h.unordered.access ((h.unaware c hactive).imp fun _ _ _ hconflict ↦
      ⟨hconflict.1, hconflict.2.2⟩)

theorem Inv.read {c : ι} {j : β} {rest : List ι} (hcaller : s.caller j = .inside (c :: rest)) :
    Inv { s with
      caller := update s.caller j (.visiting c rest)
      clocks := s.clocks.access (.caller j) c false } := by
  have hahead : c :: rest ⊆ s.clients := by
    have hahead := h.ahead j
    rwa [hcaller] at hahead
  have hlive : s.Live c := .inl (hahead mem_cons_self)
  refine ⟨h.numbered.access _ _ _, h.started, fun k ↦ ?_, fun i a ha ↦ ?_, fun d hd ↦ ?_,
    fun d hd ↦ ?_, ?_⟩
  · change (update s.caller j (.visiting c rest) k).ahead ⊆ s.clients
    rw [update_apply]
    split_ifs
    · exact hahead
    · exact h.ahead k
  · rcases Clocks.getElem?_log_access.mp ha with ha | ⟨-, rfl⟩
    · exact h.accesses i a ha
    · exact ⟨h.started c hlive, .inr ⟨⟨j, rfl⟩, rfl⟩⟩
  · exact (h.hidden d hd).access h.numbered (.inr (by simp))
  · change (s.clocks.access _ _ _).Excludes _ ((s.clocks.access _ _ _).known _)
    rw [Clocks.known_access_of_ne (by simp)]
    exact (h.unaware d hd).access (h.numbered.known _) _ _ _
  · refine h.unordered.access (((h.hidden c hlive).known _ (not_insider_caller c j)).imp ?_)
    -- A conflicting access is a change, and it was made by the goroutine of the client.
    rintro i a ha ⟨hobject, hwrite, -⟩
    rcases (h.accesses i a ha).2 with ⟨hthread, -⟩ | ⟨-, hread⟩
    · rw [hthread, hobject]
    · rw [hread] at hwrite
      rcases hwrite with hwrite | hwrite <;> cases hwrite

theorem Inv.insert {c : ι} (hphase : s.phase = .registering c)
    (houtside : ∀ j, s.caller j = .outside) : Inv (s.next (.insert c)) := by
  have hlocked := h.locked (fun d _ ↦ by simp [hphase])
  refine hlocked.control rfl (fun _ hd ↦ hd) (fun d hd ↦ .inl ?_) (fun _ hd ↦ .inl hd)
    (fun d _ hd ↦ ?_) (fun j ↦ ?_)
  · rcases hd with hd | hd
    · rcases mem_insert_iff.mp hd with rfl | hd
      · exact .inr hphase
      · exact .inl hd
    · cases hd
  · cases hphase.symm.trans hd
  · change (s.caller j).ahead ⊆ _
    rw [houtside]
    exact nil_subset _

theorem Inv.remove {c : ι} (hphase : s.phase = .unregistering c)
    (houtside : ∀ j, s.caller j = .outside) : Inv (s.next (.remove c)) := by
  -- Nothing need be hidden about a client that is out of the map.
  have hclients : Inv { s with clients := s.clients.filter (· ≠ c) } := by
    refine h.control rfl (fun _ hd ↦ hd) (fun d hd ↦ .inl ?_) (fun _ hd ↦ .inl hd)
      (fun _ _ hd ↦ hd) (fun j ↦ ?_)
    · exact hd.imp_left mem_of_mem_filter
    · change (s.caller j).ahead ⊆ _
      rw [houtside]
      exact nil_subset _
  have hrun : ∀ d, d ∈ s.clients.filter (· ≠ c) ∨ s.phase = .registering d →
      s.phase ≠ .unregistering d := by
    rintro d (hd | hd) heq
    · obtain rfl := RunPhase.unregistering.inj (hphase.symm.trans heq)
      simp at hd
    · cases hd.symm.trans heq
  exact (hclients.locked hrun).setPhase .waiting (by simp) fun d hd heq ↦ absurd heq (hrun d hd)

theorem Inv.takeUnregister {c : ι} (hphase : s.phase = .waiting) :
    Inv (s.next (.takeUnregister c)) := by
  have hended : Inv { s with
      phase := .unregistering c
      pump := update s.pump c .ended } :=
    (h.setPhase (.unregistering c) (by simp) (by simp [hphase])).setPump c .ended (by simp)
      (by simp)
  -- `Run` now may know what the goroutine of the client did, but nothing of the others.
  have hrun : Inv { s with
      phase := .unregistering c
      pump := update s.pump c .ended
      clocks := s.clocks.learn .run (s.clocks.known (.readPump c)) } := by
    refine hended.learn (h.numbered.known _) (fun d hd ↦ ?_) (fun d heq ↦ by cases heq)
    by_cases hdc : d = c
    · exact .inl (.inr ⟨rfl, by rw [hdc]⟩)
    · refine .inr ((hended.hidden d hd).known _ ?_)
      rintro (heq | ⟨heq, -⟩)
      · exact hdc (HubThread.readPump.inj heq).symm
      · cases heq
  refine hrun.learn (k := s.clocks.known .run) (h.numbered.known .run) (fun d hd ↦ ?_)
    (fun d heq hd ↦ ?_)
  · by_cases hdc : d = c
    · exact .inl (.inl (by rw [hdc]))
    · exact .inr ((hended.hidden d hd).known .run (not_insider_run fun heq ↦
        hdc (RunPhase.unregistering.inj heq).symm))
  · obtain rfl := HubThread.readPump.inj heq
    simp [Active] at hd

theorem Inv.dispatch {full : List ι} (hphase : s.phase = .waiting) :
    Inv (s.next (.dispatch full)) := by
  have hacquire := h.acquire (t := .run) (fun c ↦ by simp) .unlock
  have hspawn : ∀ s : TopicHub ι β, Inv s → s.phase = .waiting →
      Inv (full.foldl (fun s c ↦ s.spawn .run c) s) ∧
        (full.foldl (fun s c ↦ s.spawn .run c) s).phase = .waiting := by
    induction full with
    | nil => exact fun s hs hwaiting ↦ ⟨hs, hwaiting⟩
    | cons c full ih =>
      intro s hs hwaiting
      exact ih (s.spawn .run c)
        (hs.spawn (fun d _ ↦ not_insider_run (by simp [hwaiting])) c) hwaiting
  obtain ⟨hinv, hwaiting⟩ := hspawn _ hacquire hphase
  exact hinv.release (fun d _ ↦ not_insider_run (by simp [hwaiting])) .rUnlock

theorem Inv.next {a : TopicAction ι β} (ha : s.Enabled a) : Inv (s.next a) := by
  cases a with
  | connect c => exact h.connect ha.1 ha.2
  | insert c => exact h.insert ha.1 ha.2
  | readMessage c msg =>
    rw [TopicHub.next]
    split_ifs
    · exact h.write ha
    · exact h
  | endWrite c => exact h.setPump c .reading (by simp) fun _ ↦ .inr ha
  | readError c => exact h.setPump c .leaving (by simp) (by simp)
  | takeUnregister c => exact h.takeUnregister ha.1
  | takeDisconnect c n =>
    obtain ⟨hphase, -⟩ := ha
    have hrun : Inv { s with
        clocks := s.clocks.learn .run (s.clocks.known (.disconnecter n)) } := by
      refine h.learn (h.numbered.known _) (fun d hd ↦ .inr ?_) (fun d heq ↦ by cases heq)
      refine (h.hidden d hd).known _ ?_
      rintro (heq | ⟨heq, -⟩) <;> cases heq
    have hunregistering := hrun.setPhase (.unregistering c) (by simp) (by simp [hphase])
    exact hunregistering.control rfl (fun _ hd ↦ hd) (fun _ hd ↦ .inl hd) (fun _ hd ↦ .inl hd)
      (fun _ _ hd ↦ hd) hunregistering.ahead
  | remove c => exact h.remove ha.1 ha.2
  | dispatch full => exact h.dispatch ha.1
  | enter j order =>
    have hcaller := h.setCaller j (.inside order) fun c hc ↦ ha.2.mem_iff.mp hc
    exact hcaller.acquire (by simp) .unlock
  | beginRead j c =>
    obtain ⟨rest, hcaller⟩ := ha
    rw [TopicHub.next, hcaller]
    exact h.read hcaller
  | endRead j full =>
    obtain ⟨c, rest, hcaller⟩ := ha
    have hahead := h.ahead j
    rw [hcaller] at hahead
    have hinside := h.setCaller j (.inside rest) fun d hd ↦ hahead (mem_cons_of_mem c hd)
    rw [TopicHub.next, hcaller]
    cases full with
    | false => exact hinside
    | true => exact hinside.spawn (fun d _ ↦ not_insider_caller d j) c
  | leave j =>
    have hcaller := h.setCaller j .outside (nil_subset _)
    exact hcaller.release (fun d _ ↦ not_insider_caller d j) .rUnlock
  | meet j k =>
    exact h.learn (h.numbered.known _)
      (fun d hd ↦ .inr ((h.hidden d hd).known _ (not_insider_caller d j)))
      (fun d heq ↦ by cases heq)
  | cancel =>
    have hphase : s.phase = .waiting := ha
    exact h.setPhase .stopped (by simp) (by simp [hphase])

end Steps

theorem inv_start (ι β : Type) : Inv (start ι β) := by
  refine ⟨Clocks.wellNumbered_start _ _ _, ?_, ?_, ?_, ?_, ?_, ?_⟩
  · rintro c (hc | hc) <;> simp [start] at hc
  · exact fun j ↦ nil_subset _
  · intro i a ha
    simp [start, Clocks.start] at ha
  · rintro c (hc | hc) <;> simp [start] at hc
  · exact fun c _ ↦ Clocks.excludes_empty
  · intro i j a b ha
    simp [start, Clocks.start] at ha

/-! ## Which accesses are made -/

/-- The access that begins with a step: who, whose topics, and whether they are changed. -/
def accessOf : TopicAction ι β → Option (HubThread ι β × ι × Bool)
  | .readMessage c msg => if writesTopics msg then some (.readPump c, c, true) else none
  | .beginRead j c => some (.caller j, c, false)
  | _ => none

def made (s : TopicHub ι β) : List (HubThread ι β × ι × Bool) :=
  s.clocks.log.map fun a ↦ (a.thread, a.object, a.isWrite)

theorem mem_made {t : HubThread ι β} {c : ι} {w : Bool} :
    (t, c, w) ∈ s.made ↔ ∃ (i : ℕ) (a : Access (HubThread ι β) ι), s.clocks.log[i]? = some a ∧
      a.thread = t ∧ a.object = c ∧ a.isWrite = w := by
  rw [made, mem_map]
  constructor
  · rintro ⟨a, ha, heq⟩
    obtain ⟨i, hi⟩ := mem_iff_getElem?.mp ha
    obtain ⟨hthread, heq⟩ := Prod.mk.inj heq
    exact ⟨i, a, hi, hthread, Prod.mk.inj heq⟩
  · rintro ⟨i, a, hi, rfl, rfl, rfl⟩
    exact ⟨a, mem_of_getElem? hi, rfl⟩

section History

variable [DecidableEq ι] [DecidableEq β]

theorem made_access (t : HubThread ι β) (c : ι) (w : Bool) (pump : ι → TopicPump)
    (caller : β → Caller ι) :
    made { s with pump := pump, caller := caller, clocks := s.clocks.access t c w }
      = s.made ++ [(t, c, w)] := by
  rw [made, Clocks.access, map_append]
  rfl

theorem foldl_spawn {γ : Type} (f : TopicHub ι β → γ) (hf : ∀ s c, f (s.spawn .run c) = f s)
    (full : List ι) (s : TopicHub ι β) : f (full.foldl (fun s c ↦ s.spawn .run c) s) = f s := by
  induction full generalizing s with
  | nil => rfl
  | cons c full ih => exact (ih (s.spawn .run c)).trans (hf s c)

theorem made_next (s : TopicHub ι β) (a : TopicAction ι β) :
    (s.next a).made = s.made ++ (accessOf a).toList := by
  cases a with
  | readMessage c msg =>
    rw [next, accessOf]
    split_ifs
    · exact made_access ..
    · exact (append_nil _).symm
  | beginRead j c => exact made_access ..
  | dispatch full => exact (foldl_spawn made (fun _ _ ↦ rfl) full _).trans (append_nil _).symm
  | endRead j full =>
    rw [next]
    split
    · cases full <;> exact (append_nil _).symm
    · exact (append_nil _).symm
  | _ => exact (append_nil _).symm

/-- The goroutine of a client is changing topics because it was, or because the step begins it. -/
theorem writing_next {a : TopicAction ι β} {c : ι} (h : (s.next a).pump c = .writing) :
    s.pump c = .writing ∨ accessOf a = some (.readPump c, c, true) := by
  have hupdate : ∀ {d phase}, update s.pump d phase c = .writing → phase ≠ .writing →
      s.pump c = .writing := fun {d phase} hd hphase ↦ by
    rw [update_apply] at hd
    split_ifs at hd
    · exact absurd hd hphase
    · exact hd
  cases a with
  | connect d => exact .inl (hupdate h (by simp))
  | readMessage d msg =>
    rw [next] at h
    split_ifs at h with hmsg
    · by_cases hdc : c = d
      · rw [accessOf, if_pos hmsg, hdc]
        exact .inr rfl
      · change update s.pump d .writing c = .writing at h
        rw [update_of_ne hdc] at h
        exact .inl h
    · exact .inl h
  | endWrite _ | readError _ | takeUnregister _ => exact .inl (hupdate h (by simp))
  | dispatch full =>
    have hpump := congrFun (foldl_spawn pump (fun _ _ ↦ rfl) full
      { s with clocks := s.clocks.acquire .run .unlock }) c
    exact .inl (hpump.symm.trans h)
  | endRead j full =>
    rw [next] at h
    split at h
    · cases full <;> exact .inl h
    · exact .inl h
  | _ => exact .inl h

/-- A caller is reading topics because it was, or because the step begins it. -/
theorem visiting_next {a : TopicAction ι β} {j : β} {c : ι} {rest : List ι}
    (h : (s.next a).caller j = .visiting c rest) :
    (∃ rest, s.caller j = .visiting c rest) ∨ accessOf a = some (.caller j, c, false) := by
  have hupdate : ∀ {k place}, update s.caller k place j = .visiting c rest →
      (∀ rest, place ≠ .visiting c rest) → ∃ rest, s.caller j = .visiting c rest :=
    fun {k place} hk hplace ↦ by
      rw [update_apply] at hk
      split_ifs at hk
      · exact absurd hk (hplace rest)
      · exact ⟨rest, hk⟩
  cases a with
  | dispatch full =>
    have hcaller := congrFun (foldl_spawn caller (fun _ _ ↦ rfl) full
      { s with clocks := s.clocks.acquire .run .unlock }) j
    exact .inl ⟨rest, hcaller.symm.trans h⟩
  | readMessage d msg =>
    rw [next] at h
    split_ifs at h <;> exact .inl ⟨rest, h⟩
  | enter k order => exact .inl (hupdate h (by simp))
  | beginRead k d =>
    change update s.caller k (.visiting d _) j = .visiting c rest at h
    rw [update_apply] at h
    split_ifs at h with hkj
    · obtain ⟨rfl, -⟩ := Caller.visiting.inj h
      rw [hkj]
      exact .inr rfl
    · exact .inl ⟨rest, h⟩
  | endRead k full =>
    rw [next] at h
    split at h
    · cases full <;> exact .inl (hupdate h (by simp))
    · exact .inl ⟨rest, h⟩
  | leave k => exact .inl (hupdate h (by simp))
  | _ => exact .inl ⟨rest, h⟩

/-- The accesses in progress have been noted. -/
structure Noted (s : TopicHub ι β) : Prop where
  writing : ∀ c, s.pump c = .writing → (.readPump c, c, true) ∈ s.made
  visiting : ∀ j c rest, s.caller j = .visiting c rest → (.caller j, c, false) ∈ s.made

theorem Noted.next (h : Noted s) (a : TopicAction ι β) : Noted (s.next a) := by
  refine ⟨fun c hc ↦ ?_, fun j c rest hj ↦ ?_⟩
  · rw [made_next, mem_append]
    refine (writing_next hc).imp (h.writing c) fun haccess ↦ ?_
    rw [haccess]
    exact mem_singleton.mpr rfl
  · rw [made_next, mem_append]
    refine (visiting_next hj).imp (fun ⟨rest, hj⟩ ↦ h.visiting j c rest hj) fun haccess ↦ ?_
    rw [haccess]
    exact mem_singleton.mpr rfl

end History

/-- No topics have been both changed and read. -/
def Separate (s : TopicHub ι β) : Prop :=
  ∀ c j, (.readPump c, c, true) ∈ s.made → (.caller j, c, false) ∉ s.made

/-- An access is a change by the goroutine of the client, or reading by a caller. -/
theorem Inv.made_cases (h : Inv s) {i : ℕ} {a : Access (HubThread ι β) ι}
    (ha : s.clocks.log[i]? = some a) : a.thread = .readPump a.object ∧ a.isWrite = true ∧
        (.readPump a.object, a.object, true) ∈ s.made ∨
      a.isWrite = false ∧ ∃ j, (.caller j, a.object, false) ∈ s.made := by
  rcases (h.accesses i a ha).2 with ⟨hthread, hwrite⟩ | ⟨⟨j, hthread⟩, hread⟩
  · exact .inl ⟨hthread, hwrite, mem_made.mpr ⟨i, a, ha, hthread, rfl, hwrite⟩⟩
  · exact .inr ⟨hread, j, mem_made.mpr ⟨i, a, ha, hthread, rfl, hread⟩⟩

/-- **The accesses are ordered exactly if no topics are both changed and read.** -/
theorem Inv.ordered_iff (h : Inv s) : s.clocks.Ordered ↔ s.Separate := by
  rw [Clocks.ordered_iff_of_unordered h.unordered h.numbered]
  constructor
  · intro hordered c j hchanged hread
    obtain ⟨i, a, ha, hathread, haobject, hawrite⟩ := mem_made.mp hchanged
    obtain ⟨k, b, hb, hbthread, hbobject, -⟩ := mem_made.mp hread
    have hobject : a.object = b.object := haobject.trans hbobject.symm
    have hthread : a.thread ≠ b.thread := by
      rw [hathread, hbthread]
      exact fun heq ↦ by cases heq
    rcases lt_trichotomy i k with hik | rfl | hki
    · exact hthread (hordered i k a b ha hb hik hobject (.inl hawrite))
    · exact hthread (congrArg Access.thread (Option.some.inj (ha.symm.trans hb)))
    · exact hthread (hordered k i b a hb ha hki hobject.symm (.inr hawrite)).symm
  · intro hseparate i k a b ha hb _ hobject hwrite
    rcases h.made_cases ha with ⟨hathread, -, hchanged⟩ | ⟨haread, j, hread⟩
    · rcases h.made_cases hb with ⟨hbthread, -, -⟩ | ⟨-, j, hread⟩
      · rw [hathread, hbthread, hobject]
      · rw [← hobject] at hread
        exact absurd hread (hseparate _ j hchanged)
    · rcases h.made_cases hb with ⟨-, -, hchanged⟩ | ⟨hbread, -⟩
      · rw [← hobject] at hchanged
        exact absurd hread (hseparate _ j hchanged)
      · rw [haread, hbread] at hwrite
        rcases hwrite with hwrite | hwrite <;> cases hwrite

/-- **No change of topics overlaps another access to them.** -/
def Exclusive (s : TopicHub ι β) : Prop :=
  ∀ c, s.pump c = .writing → ∀ j rest, s.caller j ≠ .visiting c rest

theorem Noted.exclusive (h : Noted s) (hseparate : s.Separate) : s.Exclusive :=
  fun c hwriting j rest hvisiting ↦
    hseparate c j (h.writing c hwriting) (h.visiting j c rest hvisiting)

end TopicHub

/-! ## When accesses are ordered -/

section Races

variable {ι β : Type} {acts : List (TopicAction ι β)}

/-- The client changes its topics in the run. -/
def ChangesTopics (acts : List (TopicAction ι β)) (c : ι) : Prop :=
  ∃ msg, .readMessage c msg ∈ acts ∧ writesTopics msg = true

/-- `BroadcastToCampaign` visits the client in the run. -/
def Visited (acts : List (TopicAction ι β)) (c : ι) : Prop := ∃ j, .beginRead j c ∈ acts

theorem changesTopics_iff {c : ι} :
    ChangesTopics acts c ↔ (.readPump c, c, true) ∈ acts.filterMap accessOf := by
  rw [mem_filterMap]
  constructor
  · rintro ⟨msg, hmem, hmsg⟩
    exact ⟨_, hmem, if_pos hmsg⟩
  · rintro ⟨a, hmem, haccess⟩
    cases a with
    | readMessage d msg =>
      rw [accessOf] at haccess
      split_ifs at haccess with hmsg
      obtain ⟨-, heq⟩ := Prod.mk.inj (Option.some.inj haccess)
      rw [(Prod.mk.inj heq).1] at hmem
      exact ⟨msg, hmem, hmsg⟩
    | beginRead j d => cases haccess
    | _ => cases haccess

theorem visited_iff {c : ι} :
    Visited acts c ↔ ∃ j, (.caller j, c, false) ∈ acts.filterMap accessOf := by
  simp only [mem_filterMap]
  constructor
  · rintro ⟨j, hmem⟩
    exact ⟨j, _, hmem, rfl⟩
  · rintro ⟨j, a, hmem, haccess⟩
    cases a with
    | readMessage d msg =>
      rw [accessOf] at haccess
      split_ifs at haccess
      cases haccess
    | beginRead k d =>
      obtain ⟨-, heq⟩ := Prod.mk.inj (Option.some.inj haccess)
      rw [(Prod.mk.inj heq).1] at hmem
      exact ⟨k, hmem⟩
    | _ => cases haccess

variable [DecidableEq ι] [DecidableEq β]

theorem topicAccesses_invariant (h : (topicAccesses ι β).Runs (.start ι β) acts) :
    ((topicAccesses ι β).after (.start ι β) acts).Inv ∧
      ((topicAccesses ι β).after (.start ι β) acts).Noted ∧
      ((topicAccesses ι β).after (.start ι β) acts).made = acts.filterMap accessOf := by
  refine h.history_invariant
    (I := fun past s ↦ s.Inv ∧ s.Noted ∧ s.made = past.filterMap accessOf) ?_ ?_
  · rintro past s a ⟨hinv, hnoted, hmade⟩ ha -
    refine ⟨hinv.next ha, hnoted.next a, ?_⟩
    have hone : [a].filterMap accessOf = (accessOf a).toList := by
      cases haccess : accessOf a <;> simp [haccess]
    rw [filterMap_append, ← hmade, hone]
    exact made_next s a
  · refine ⟨inv_start ι β, ⟨?_, ?_⟩, rfl⟩
    · rintro c ⟨⟩
    · rintro j c rest ⟨⟩

/-- **When accesses to topics are free of races.** In a run no change of topics overlaps another
access to them, and all conflicting accesses are ordered, exactly if no client that
`BroadcastToCampaign` visits changes its topics. -/
theorem topics_ordered_iff (h : (topicAccesses ι β).Runs (.start ι β) acts) :
    ((∀ n, ((topicAccesses ι β).after (.start ι β) (acts.take n)).Exclusive) ∧
        ((topicAccesses ι β).after (.start ι β) acts).clocks.Ordered) ↔
      ∀ c, ChangesTopics acts c → ¬Visited acts c := by
  obtain ⟨hinv, -, hmade⟩ := topicAccesses_invariant h
  rw [hinv.ordered_iff, Separate, hmade]
  constructor
  · rintro ⟨-, hseparate⟩ c hchanges hvisited
    obtain ⟨j, hvisited⟩ := visited_iff.mp hvisited
    exact hseparate c j (changesTopics_iff.mp hchanges) hvisited
  · intro hseparate
    refine ⟨fun n ↦ ?_, fun c j hchanged hread ↦
      hseparate c (changesTopics_iff.mpr hchanged) (visited_iff.mpr ⟨j, hread⟩)⟩
    have hprefix : (topicAccesses ι β).Runs (.start ι β) (acts.take n) := by
      rw [← take_append_drop n acts] at h
      exact (Machine.runsUnder_append.mp h).1
    obtain ⟨-, hnoted, hmade⟩ := topicAccesses_invariant hprefix
    refine hnoted.exclusive fun c j hchanged hread ↦ ?_
    rw [hmade] at hchanged hread
    obtain ⟨msg, hmsg, hwrites⟩ := changesTopics_iff.mpr hchanged
    obtain ⟨k, hk⟩ := visited_iff.mpr ⟨j, hread⟩
    exact hseparate c ⟨msg, mem_of_mem_take hmsg, hwrites⟩ ⟨k, mem_of_mem_take hk⟩

end Races

/-- A client subscribes while the topics of another one are read. -/
theorem topics_ordered_iff_two_clients :
    ∃ acts : List (TopicAction ℕ ℕ), (topicAccesses ℕ ℕ).Runs (.start ℕ ℕ) acts ∧
      ChangesTopics acts 1 ∧ Visited acts 0 ∧
      ((∀ n, ((topicAccesses ℕ ℕ).after (.start ℕ ℕ) (acts.take n)).Exclusive) ∧
        ((topicAccesses ℕ ℕ).after (.start ℕ ℕ) acts).clocks.Ordered) := by
  let acts : List (TopicAction ℕ ℕ) := [.connect 0, .insert 0, .enter 0 [0], .beginRead 0 0,
    .connect 1, .readMessage 1 (some ⟨"subscribe", "campaign:1"⟩), .endRead 0 false, .endWrite 1,
    .leave 0]
  have hruns : (topicAccesses ℕ ℕ).Runs (.start ℕ ℕ) acts :=
    ⟨⟨⟨rfl, rfl⟩, trivial⟩, ⟨⟨rfl, fun _ ↦ rfl⟩, trivial⟩, ⟨⟨rfl, .refl _⟩, trivial⟩,
      ⟨⟨[], rfl⟩, trivial⟩, ⟨⟨rfl, rfl⟩, trivial⟩, ⟨rfl, trivial⟩, ⟨⟨0, [], rfl⟩, trivial⟩,
      ⟨rfl, trivial⟩, ⟨rfl, trivial⟩, trivial⟩
  refine ⟨acts, hruns, ⟨some ⟨"subscribe", "campaign:1"⟩, by simp [acts], rfl⟩,
    ⟨0, by simp [acts]⟩, (topics_ordered_iff hruns).mpr ?_⟩
  rintro c ⟨msg, hmsg, -⟩ ⟨j, hj⟩
  simp only [acts, mem_cons, TopicAction.readMessage.injEq, TopicAction.beginRead.injEq,
    reduceCtorEq, not_mem_nil, false_or, or_false] at hmsg hj
  omega

/-- A client subscribes while its topics are read: the change begins in the middle of the reading,
and neither is ordered before the other. -/
theorem subscription_races :
    ∃ acts : List (TopicAction ℕ ℕ), (topicAccesses ℕ ℕ).Runs (.start ℕ ℕ) acts ∧
      ¬((topicAccesses ℕ ℕ).after (.start ℕ ℕ) acts).Exclusive ∧
      ¬((topicAccesses ℕ ℕ).after (.start ℕ ℕ) acts).clocks.Ordered := by
  let acts : List (TopicAction ℕ ℕ) := [.connect 0, .insert 0, .enter 0 [0], .beginRead 0 0,
    .readMessage 0 (some ⟨"subscribe", "campaign:1"⟩)]
  refine ⟨acts, ?_, fun hexclusive ↦ ?_, fun hordered ↦ ?_⟩
  · exact ⟨⟨⟨rfl, rfl⟩, trivial⟩, ⟨⟨rfl, fun _ ↦ rfl⟩, trivial⟩, ⟨⟨rfl, .refl _⟩, trivial⟩,
      ⟨⟨[], rfl⟩, trivial⟩, ⟨rfl, trivial⟩, trivial⟩
  · exact hexclusive 0 rfl 0 [] rfl
  · exact absurd (hordered 0 1 _ _ rfl rfl Nat.one_pos rfl (.inr rfl)) (by decide)

end OtaPlatform
