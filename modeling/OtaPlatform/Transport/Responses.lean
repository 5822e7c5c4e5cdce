import OtaPlatform.Engine.System
import OtaPlatform.Transport.Gateway

/-!
# Responses of cards

A card sends its response in one short message or in several concatenated ones, each with a user
data header in front. The gateway passes the octets of a message on as they come, and the worker
hands them to the parser: nothing removes the header, and nothing puts the parts together.

* `asks_handleMO`: which octets the worker hands to the parser.
* `Journey.calls_iff`: these are the octets of the message as it came, header included.
* `parsedOnce_iff`: the parser is called once for a packet, on its octets, exactly if one of the
  messages alone reaches the parser and this message is, with its header, the packet itself. A
  packet in one message never meets this.
-/

namespace OtaPlatform

open List Worker

/-! ## What the worker hands to the parser -/

/-- How a handler uses the parser. It asks about some octets: whatever error the parser gives for
them is the error of the handler. Or it asks about nothing: its result is the same with every
parser. -/
def Asks (p : SecuredPackets → Worker Handled) (s : Process) : Option Bytes → Prop
  | some raw => ∃ profile encKey authKey, ∀ (lib : SecuredPackets) (err : String),
      lib.parseResponsePacket profile raw encKey authKey = .error err →
        ((p lib).run workerSemantics s).value = .error ("parse response packet: " ++ err)
  | none => ∃ value, ∀ lib, ((p lib).run workerSemantics s).value = value

section Asks

variable {p q : SecuredPackets → Worker Handled} {s s' : Process}

/-- A packet layer that refuses everything. -/
def refusing (parse : Bytes → String) : SecuredPackets where
  buildCommandPacket _ _ := .error ""
  parseResponsePacket _ raw _ _ := .error (parse raw)

theorem Asks.unique {asked asked' : Option Bytes} (h : Asks p s asked) (h' : Asks p s asked') :
    asked = asked' := by
  have hconst : ∀ raw, Asks p s none → ¬ Asks p s (some raw) := by
    rintro raw ⟨value, hvalue⟩ ⟨profile, encKey, authKey, hparse⟩
    have ha := (hvalue _).symm.trans (hparse (refusing fun _ ↦ "a") "a" rfl)
    have hb := (hvalue _).symm.trans (hparse (refusing fun _ ↦ "b") "b" rfl)
    exact absurd (Except.error.inj (ha.symm.trans hb)) (by decide)
  cases asked with
  | none =>
    cases asked' with
    | none => rfl
    | some raw' => exact absurd h' (hconst raw' h)
  | some raw =>
    cases asked' with
    | none => exact absurd h (hconst raw h')
    | some raw' =>
      obtain ⟨profile, encKey, authKey, hparse⟩ := h
      obtain ⟨profile', encKey', authKey', hparse'⟩ := h'
      by_contra hne
      have hne' : raw' ≠ raw := fun heq ↦ hne (congrArg some heq.symm)
      have ha := hparse (refusing fun r ↦ if r = raw then "a" else "b") "a" (by simp [refusing])
      have hb := hparse' (refusing fun r ↦ if r = raw then "a" else "b") "b"
        (by simp [refusing, hne'])
      exact absurd (Except.error.inj (ha.symm.trans hb)) (by decide)

theorem Asks.congr {asked : Option Bytes} (h : Asks q s' asked)
    (hvalue : ∀ lib, ((p lib).run workerSemantics s).value
      = ((q lib).run workerSemantics s').value) : Asks p s asked := by
  cases asked with
  | none =>
    obtain ⟨value, hconst⟩ := h
    exact ⟨value, fun lib ↦ (hvalue lib).trans (hconst lib)⟩
  | some raw =>
    obtain ⟨profile, encKey, authKey, hparse⟩ := h
    exact ⟨profile, encKey, authKey, fun lib err herr ↦ (hvalue lib).trans (hparse lib err herr)⟩

theorem asks_none_of_value (value : Handled)
    (h : ∀ lib, ((p lib).run workerSemantics s).value = value) : Asks p s none := ⟨value, h⟩

end Asks

/-- What `parseMO` asks about, given the state of the card. -/
def parseInput (ans : Answers) (event : CardEvent) (st : CardState) : Option Bytes :=
  match hexDecode event.payloadHex, ans.context with
  | .ok raw, .ok ctx => if ctx.commandByStep st.currentStep = none then none else some raw
  | _, _ => none

/-- What `handleMO` asks about: the payload, if the card awaits a response and its keys and the
command of its current step are there. -/
def moInput (s : Process) (ans : Answers) (event : CardEvent) : Option Bytes :=
  match s.found event.cardID ans.row, s.availableKeys ans event.cardID with
  | some st, .ok _ => if st.awaitsResponse then parseInput ans event st else none
  | _, _ => none

section Input

variable {s : Process} {ans : Answers} {event : CardEvent}

theorem asks_parseMO {ref : ℕ} {st : CardState} (hst : s.states.objects event.cardID ref = st)
    (campaignID : UUID) (keys : CardKeyMaterial) :
    Asks (fun lib ↦ parseMO lib ans event campaignID ref keys) s (parseInput ans event st) := by
  rw [parseInput]
  cases hraw : hexDecode event.payloadHex with
  | error err =>
    refine asks_none_of_value (.error ("decode MO payload hex: " ++ err)) fun lib ↦ ?_
    simp only [parseMO, hraw]
    rfl
  | ok raw =>
    cases hctx : ans.context with
    | error err =>
      refine asks_none_of_value (.error ("load campaign context: " ++ err)) fun lib ↦ ?_
      simp only [parseMO, hraw, hctx]
      rfl
    | ok ctx =>
      cases hcmd : ctx.commandByStep st.currentStep with
      | none =>
        simp only [hcmd, if_true]
        refine asks_none_of_value (.error ("no command found at sequence "
          ++ toString st.currentStep ++ " for campaign " ++ campaignID.text)) fun lib ↦ ?_
        simp only [parseMO, hraw, hctx, Program.run_bind, run_load, hst, hcmd]
        rfl
      | some cmd =>
        simp only [hcmd, reduceCtorEq, if_false]
        refine ⟨buildSecProfileFromCache cmd, keys.encKey, keys.authKey, fun lib err herr ↦ ?_⟩
        simp only [parseMO, hraw, hctx, Program.run_bind, run_load, hst, hcmd, herr]
        rfl

theorem parseInput_eq_some {st : CardState} {raw : Bytes} :
    parseInput ans event st = some raw ↔ hexDecode event.payloadHex = .ok raw ∧
      ∃ ctx, ans.context = .ok ctx ∧ ctx.commandByStep st.currentStep ≠ none := by
  rw [parseInput]
  cases hexDecode event.payloadHex with
  | error err => simp
  | ok raw' =>
    cases ans.context with
    | error err => simp
    | ok ctx =>
      by_cases hcmd : ctx.commandByStep st.currentStep = none
      · simp [hcmd]
      · simp [hcmd]

theorem moInput_eq_some {raw : Bytes} :
    moInput s ans event = some raw ↔ hexDecode event.payloadHex = .ok raw ∧
      ∃ st keys ctx, s.found event.cardID ans.row = some st ∧ st.awaitsResponse ∧
        s.availableKeys ans event.cardID = .ok keys ∧ ans.context = .ok ctx ∧
        ctx.commandByStep st.currentStep ≠ none := by
  rw [moInput]
  constructor
  · intro h
    split at h
    · next st keys hfound hkeys =>
      split_ifs at h with hawaits
      obtain ⟨hraw, ctx, hctx, hcmd⟩ := parseInput_eq_some.mp h
      exact ⟨hraw, st, keys, ctx, hfound, hawaits, hkeys, hctx, hcmd⟩
    · cases h
  · rintro ⟨hraw, st, keys, ctx, hfound, hawaits, hkeys, hctx, hcmd⟩
    simp only [hfound, hkeys, if_pos hawaits]
    exact parseInput_eq_some.mpr ⟨hraw, ctx, hctx, hcmd⟩

/-- The part of `handleMO` after the state was found. -/
def afterFound (lib : SecuredPackets) (ans : Answers) (event : CardEvent) (ref : ℕ) :
    Worker Handled := do
  let state ← load event.cardID ref
  if state.status ≠ .awaitingMo ∧ state.status ≠ .awaitingDlr then return .ok ()
  else do
    match ← loadCardKeys ans event.cardID with
    | .error err => return .error ("get card keys: " ++ err)
    | .ok cardKeys => parseMO lib ans event (event.campaignID.getD state.campaignID) ref cardKeys

theorem asks_afterFound {ref : ℕ} {st : CardState} (hst : s.states.objects event.cardID ref = st) :
    Asks (fun lib ↦ afterFound lib ans event ref) s (match s.availableKeys ans event.cardID with
        | .ok _ => if st.awaitsResponse then parseInput ans event st else none
        | .error _ => none) := by
  obtain ⟨cache, hkeys⟩ := run_loadCardKeys s ans event.cardID
  by_cases hawaits : st.awaitsResponse
  · have hcond : ¬ (st.status ≠ .awaitingMo ∧ st.status ≠ .awaitingDlr) := by
      rcases hawaits with h | h <;> simp [h]
    cases havailable : s.availableKeys ans event.cardID with
    | error err =>
      refine asks_none_of_value (.error ("get card keys: " ++ err)) fun lib ↦ ?_
      simp only [afterFound, Program.run_bind, run_load, hst, if_neg hcond, hkeys, havailable]
      rfl
    | ok keys =>
      simp only [if_pos hawaits]
      have hst' : ({ s with cardKeyCache := cache } : Process).states.objects event.cardID ref
          = st := hst
      refine (asks_parseMO hst' (event.campaignID.getD st.campaignID) keys).congr fun lib ↦ ?_
      simp only [afterFound, Program.run_bind, run_load, hst, if_neg hcond, hkeys, havailable]
  · have hcond : st.status ≠ .awaitingMo ∧ st.status ≠ .awaitingDlr := not_or.mp hawaits
    simp only [if_neg hawaits]
    have hnone : Asks (fun lib ↦ afterFound lib ans event ref) s none := by
      refine asks_none_of_value (.ok ()) fun lib ↦ ?_
      simp only [afterFound, Program.run_bind, run_load, hst, if_pos hcond]
      rfl
    cases s.availableKeys ans event.cardID <;> exact hnone

/-- **What the worker hands to the parser.** -/
theorem asks_handleMO (s : Process) (ans : Answers) (event : CardEvent) :
    Asks (fun lib ↦ handleMO lib ans event) s (moInput s ans event) := by
  rw [moInput]
  rcases getCardState_cases s event.cardID ans.row with ⟨ref, hvalue, -, hfound⟩ | ⟨hmiss, hno⟩
  · -- the rest of the handler runs on the object that was found
    obtain ⟨s₁, hs₁⟩ : ∃ s₁, s₁ = ((getCardState event.cardID ans.row).run workerSemantics
      s).state := ⟨_, rfl⟩
    have hkeys : s₁.availableKeys ans event.cardID = s.availableKeys ans event.cardID := by
      rw [hs₁]
      rfl
    rw [← hs₁] at hfound
    have h : Asks (fun lib ↦ afterFound lib ans event ref) s₁ _ := asks_afterFound rfl
    rw [hkeys] at h
    rw [hfound]
    cases havailable : s.availableKeys ans event.cardID with
    | error _ | ok _ =>
      rw [havailable] at h
      refine h.congr fun lib ↦ ?_
      simp only [handleMO, Program.run_bind, hvalue, ← hs₁]
      rfl
  · rw [hmiss]
    cases hvalue : ((getCardState event.cardID ans.row).run workerSemantics s).value with
    | error err =>
      refine asks_none_of_value (.error ("get card state: " ++ err)) fun lib ↦ ?_
      simp only [handleMO, Program.run_bind, hvalue]
      rfl
    | ok found =>
      cases found with
      | some ref => exact absurd hvalue (hno ref)
      | none =>
        refine asks_none_of_value (.error ("MO for card " ++ event.cardID.text ++
          ": no card state in Redis (activate may still be in progress)")) fun lib ↦ ?_
        simp only [handleMO, Program.run_bind, hvalue]
        rfl

end Input

/-! ## From the short message to the parser -/

/-- The way of an incoming message: what the gateway is given and finds, and what the worker finds
when it takes the event. In between anything may happen. -/
structure Journey where
  sourceAddr : String
  payload : Bytes
  resolved : Except String (Option UUID)
  /-- What the database has for the card when the message comes in. -/
  row : Except String (Option ExecutionRow)
  eventID : UUID
  now : ℤ
  received : Process
  /-- The process when the event is handled. -/
  handled : Process
  ans : Answers

namespace Journey

def event (j : Journey) : Option CardEvent :=
  ((Gateway.handleMO j.resolved j.row j.sourceAddr j.payload j.eventID j.now).run workerSemantics
    j.received).value

/-- The parser is called for the card, on these octets. -/
def Calls (j : Journey) (cardID : UUID) (raw : Bytes) : Prop :=
  ∃ event, j.event = some event ∧ event.cardID = cardID ∧
    Asks (fun lib ↦ handleMO lib j.ans event) j.handled (some raw)

/-- The message is of the card, and the worker has what it needs to parse a response: a state that
awaits one, the keys, and the command of the current step. -/
def Reaches (j : Journey) (cardID : UUID) : Prop :=
  j.resolved = .ok (some cardID) ∧ ∃ st keys ctx, j.handled.found cardID j.ans.row = some st ∧
    st.awaitsResponse ∧ j.handled.availableKeys j.ans cardID = .ok keys ∧
    j.ans.context = .ok ctx ∧ ctx.commandByStep st.currentStep ≠ none

/-- **What the parser is called on**: the octets of the message, as they came. -/
theorem calls_iff {j : Journey} {cardID : UUID} {raw : Bytes} :
    j.Calls cardID raw ↔ j.Reaches cardID ∧ raw = j.payload := by
  have hinput : ∀ c campaignID, Asks (fun lib ↦ handleMO lib j.ans (Gateway.moEvent c campaignID
      j.sourceAddr j.payload j.eventID j.now)) j.handled (some raw) ↔
      raw = j.payload ∧ ∃ st keys ctx, j.handled.found c j.ans.row = some st ∧
        st.awaitsResponse ∧ j.handled.availableKeys j.ans c = .ok keys ∧
        j.ans.context = .ok ctx ∧ ctx.commandByStep st.currentStep ≠ none := by
    intro c campaignID
    have hasks := asks_handleMO j.handled j.ans (Gateway.moEvent c campaignID j.sourceAddr
      j.payload j.eventID j.now)
    have hiff : Asks (fun lib ↦ handleMO lib j.ans (Gateway.moEvent c campaignID j.sourceAddr
        j.payload j.eventID j.now)) j.handled (some raw) ↔ moInput j.handled j.ans
          (Gateway.moEvent c campaignID j.sourceAddr j.payload j.eventID j.now) = some raw :=
      ⟨fun h ↦ hasks.unique h, fun h ↦ h ▸ hasks⟩
    rw [hiff, moInput_eq_some]
    refine and_congr_left' ?_
    change hexDecode (hexEncode j.payload) = .ok raw ↔ _
    rw [hexDecode_hexEncode, Except.ok.injEq, eq_comm]
  constructor
  · rintro ⟨event, hevent, hcard, hasks⟩
    rw [Journey.event] at hevent
    cases hresolved : j.resolved with
    | error err =>
      rw [hresolved] at hevent
      cases hevent
    | ok found =>
      cases found with
      | none =>
        rw [hresolved] at hevent
        cases hevent
      | some c =>
        obtain ⟨campaignID, hvalue⟩ := Gateway.value_handleMO c j.row j.sourceAddr j.payload
          j.eventID j.now j.received
        rw [hresolved, hvalue] at hevent
        obtain rfl := Option.some.inj hevent
        obtain rfl : c = cardID := hcard
        obtain ⟨hraw, hneeds⟩ := (hinput c campaignID).mp hasks
        exact ⟨⟨hresolved, hneeds⟩, hraw⟩
  · rintro ⟨⟨hresolved, hneeds⟩, hraw⟩
    obtain ⟨campaignID, hvalue⟩ := Gateway.value_handleMO cardID j.row j.sourceAddr j.payload
      j.eventID j.now j.received
    refine ⟨_, ?_, rfl, (hinput cardID campaignID).mpr ⟨hraw, hneeds⟩⟩
    rw [Journey.event, hresolved, hvalue]

end Journey

/-! ## The messages of a response -/

/-- A short message of a card: the information elements of its header and what follows. -/
structure CardMessage where
  /-- The elements, each with its identifier. -/
  elements : List (UInt8 × Bytes)
  chunk : Bytes

namespace CardMessage

def header (m : CardMessage) : Bytes :=
  m.elements.flatMap fun (id, data) ↦ id :: UInt8.ofNat data.length :: data

def octets (m : CardMessage) : Bytes := UInt8.ofNat m.header.length :: (m.header ++ m.chunk)

theorem length_chunk_lt (m : CardMessage) : m.chunk.length < m.octets.length := by
  rw [octets, length_cons, length_append]
  omega

end CardMessage

/-- The messages of a packet: one, with a security element in its header, or from two to 254 parts
under one reference. -/
inductive Sends (packet : Bytes) : List CardMessage → Prop
  | single (m : CardMessage) (helement : (0x70, []) ∈ m.elements ∨ (0x71, []) ∈ m.elements)
      (hchunk : m.chunk = packet) : Sends packet [m]
  | concat (refNum : UInt8) (ms : List CardMessage) (htwo : 2 ≤ ms.length)
      (hmax : ms.length ≤ 254)
      (helement : ∀ (k : ℕ) (hk : k < ms.length),
        (0x00, [refNum, UInt8.ofNat ms.length, UInt8.ofNat (k + 1)]) ∈ ms[k].elements)
      (hchunks : (ms.map CardMessage.chunk).flatten = packet) : Sends packet ms

/-- The parser is called once for the card, on the octets of the packet. -/
def ParsedOnce (cardID : UUID) (packet : Bytes) (js : List Journey) : Prop :=
  ∃ before j after, js = before ++ j :: after ∧ (∀ raw, j.Calls cardID raw ↔ raw = packet) ∧
    ∀ j' ∈ before ++ after, ∀ raw, ¬ j'.Calls cardID raw

/-- **When a response reaches the parser intact.** The messages of a packet come in, in any order
and among others. The parser is called once for it, on its octets, exactly if it has several
messages, one of them alone reaches the parser, and this one is, with its header, the packet. -/
theorem parsedOnce_iff {cardID : UUID} {packet : Bytes} {ms : List CardMessage}
    {js : List Journey} (hsends : Sends packet ms)
    (hjs : ((js.filter fun j ↦ j.resolved = .ok (some cardID)).map Journey.payload).Perm
      (ms.map CardMessage.octets)) :
    ParsedOnce cardID packet js ↔ 2 ≤ ms.length ∧
      ∃ before j after, js = before ++ j :: after ∧ j.Reaches cardID ∧
        (∃ m ∈ ms, m.octets = packet ∧ j.payload = m.octets) ∧
        ∀ j' ∈ before ++ after, ¬ j'.Reaches cardID := by
  constructor
  · rintro ⟨before, j, after, rfl, hcalls, hothers⟩
    obtain ⟨hreaches, hpayload⟩ := Journey.calls_iff.mp ((hcalls packet).mpr rfl)
    have hmem : j.payload ∈ ms.map CardMessage.octets := by
      refine hjs.subset (mem_map_of_mem (mem_filter.mpr ⟨?_, ?_⟩))
      · exact mem_append_right _ mem_cons_self
      · exact decide_eq_true hreaches.1
    obtain ⟨m, hm, hoctets⟩ := mem_map.mp hmem
    have hpacket : m.octets = packet := hoctets.trans hpayload.symm
    refine ⟨?_, before, j, after, rfl, hreaches, ⟨m, hm, hpacket, hoctets.symm⟩, ?_⟩
    · cases hsends with
      | single m' helement hchunk =>
        -- the one message is longer than the packet
        obtain rfl := mem_singleton.mp hm
        have hlonger := m.length_chunk_lt
        rw [hchunk, hpacket] at hlonger
        exact absurd hlonger (lt_irrefl _)
      | concat refNum ms htwo hmax helement hchunks => exact htwo
    · intro j' hj' hreaches'
      exact hothers j' hj' j'.payload (Journey.calls_iff.mpr ⟨hreaches', rfl⟩)
  · rintro ⟨-, before, j, after, rfl, hreaches, ⟨m, -, hpacket, hpayload⟩, hothers⟩
    refine ⟨before, j, after, rfl, fun raw ↦ ?_, fun j' hj' raw hcalls ↦ ?_⟩
    · rw [Journey.calls_iff, hpayload, hpacket]
      exact and_iff_right hreaches
    · exact hothers j' hj' (Journey.calls_iff.mp hcalls).1

/-! ## A response in one message -/

namespace FramedResponse

/-- One command that expects a response. -/
def ctx : CampaignContext := plainContext [1] 1

def activate : CardEvent := plainActivate (.ofDigit 1) (.ofDigit 3)

/-- The card was sent its command. -/
def sent : Engine := (engine (plainConfig ctx)).after (.new fun _ ↦ some .running)
  [.plan activate, .handle activate (.plain ctx (.ofDigit 6)) none]

/-- A response packet of sixteen octets: the length of what follows in two octets comes first. -/
def packet : Bytes := [0x00, 0x0E, 0x0A, 0xB0, 0x00, 0x10, 0, 0, 0, 0, 0, 0, 0, 0, 0x90, 0x00]

/-- The card sends it with the response element in the header. -/
def message : CardMessage := ⟨[(0x71, [])], packet⟩

def journey : Journey where
  sourceAddr := "310"
  payload := message.octets
  resolved := .ok (some (.ofDigit 1))
  row := .ok none
  eventID := .ofDigit 8
  now := 0
  received := sent.process
  handled := sent.process
  ans := .plain ctx (.ofDigit 9)

theorem sends : Sends packet [message] := .single message (Or.inr mem_cons_self) rfl

theorem reaches (payload : Bytes) :
    ({ journey with payload } : Journey).Reaches (.ofDigit 1) := by
  have hfound : journey.handled.found (.ofDigit 1) journey.ans.row =
      some ⟨.ofDigit 3, 1, .awaitingDlr, 0, some (.ofDigit 6), some (.ofDigit 0), 1⟩ := by
    decide +kernel
  exact ⟨rfl, _, _, _, hfound, Or.inr rfl, rfl, rfl, by decide +kernel⟩

/-- Octets that are sent in two parts, of which the first repeats the header of the second. -/
def first : CardMessage := ⟨[(0x00, [7, 2, 1])], [0x05, 0x00, 0x03, 0x07, 0x02, 0x02]⟩

def second : CardMessage := ⟨[(0x00, [7, 2, 2])], [0x90, 0x00]⟩

/-- The first part is handled when the card has no state yet. -/
def early : Journey :=
  { journey with payload := first.octets, handled := (Engine.new fun _ ↦ none).process }

theorem not_reaches_early : ¬ early.Reaches (.ofDigit 1) := by
  have hnone : early.handled.found (.ofDigit 1) early.ans.row = none := by decide +kernel
  rintro ⟨-, st, -, -, hfound, -⟩
  cases hnone.symm.trans hfound

theorem sends_parts : Sends second.octets [first, second] := by
  refine .concat 7 _ (by decide) (by decide) (fun k hk ↦ ?_) (by decide)
  match k with
  | 0 | 1 => exact mem_cons_self

end FramedResponse

open FramedResponse in
/-- The second part is, with its header, the packet. -/
theorem parsedOnce_iff_two :
    ParsedOnce (.ofDigit 1) second.octets [early, { journey with payload := second.octets }] :=
  (parsedOnce_iff sends_parts (.refl _)).mpr ⟨by decide, [early], _, [], rfl, reaches _,
    ⟨second, mem_cons_of_mem _ mem_cons_self, rfl, rfl⟩, by
      intro j hj
      rw [mem_singleton.mp hj]
      exact not_reaches_early⟩

open FramedResponse in
/-- The response is parsed with its header in front, which the parser reads as the length. -/
theorem response_parsed_with_header :
    Sends packet [message] ∧ journey.payload = message.octets ∧
      journey.Calls (.ofDigit 1) ([0x02, 0x71, 0x00] ++ packet) ∧
      ¬ ParsedOnce (.ofDigit 1) packet [journey] := by
  have hcalls : journey.Calls (.ofDigit 1) ([0x02, 0x71, 0x00] ++ packet) :=
    Journey.calls_iff.mpr ⟨reaches _, by decide⟩
  refine ⟨sends, rfl, hcalls, ?_⟩
  rintro ⟨before, j, after, hjs, hparsed, hothers⟩
  obtain ⟨rfl, rfl, rfl⟩ : before = [] ∧ journey = j ∧ after = [] := by
    cases before with
    | nil => simpa [eq_comm] using hjs
    | cons j' before => simp at hjs
  exact absurd ((hparsed _).mp hcalls) (by decide)

end OtaPlatform
