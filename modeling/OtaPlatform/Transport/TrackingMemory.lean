import OtaPlatform.Transport.Delivery

/-!
# What the gateway remembers of messages of several parts

The entry that counts the receipts of a message is made before its first part is submitted and
removed by the receipt of its last part. Nothing else removes it: a submission that fails leaves it
behind, a receipt that comes late or never does so too, and the cleanup walks over the entries
without touching one.

## The invariant

That every entry has a correlation or a sender is not kept by the steps on their own: a receipt
takes a correlation away and leaves the entry. What is kept is a count. The receipts counted, the
correlations stored and the parts still to be submitted together make up the parts of the message
(`Traffic.Backed`), and as long as the receipts alone do not, something else is left.

`tracked_live_of_runs` is the result: if parts of tracked messages are accepted under identifiers of
their own and reported before they expire, every entry belongs to a message that has a correlation
or is being submitted.
-/

namespace OtaPlatform

open Option List Function

/-! ## Senders, receipts and cleanup -/

/-- A call of `HandleSendSMS` that has not returned. -/
structure Sending where
  msg : SendSMSMessage
  rest : List SMSPart
  /-- The identifier of a part that was accepted and not stored yet. -/
  accepted : Option String

/-- The number of correlations it will still store. -/
def Sending.left (s : Sending) : ℕ := s.rest.length + s.accepted.toList.length

/-- The gateway with the calls that are under way, one for each sender. -/
structure Traffic (ι : Type) where
  gateway : Gateway
  senders : ι → Option Sending

inductive TrafficAction (ι : Type)
  | take (sender : ι) (msg : SendSMSMessage)
  /-- The SMSC answers to the submission of its next part. -/
  | submit (sender : ι) (result : SubmitResult)
  /-- The correlation of the accepted part is stored. -/
  | store (sender : ι) (now : ℤ)
  | receipt (r : Option DLRReceipt) (eventID : UUID) (now : ℤ)
  | cleanup (now : ℤ)

namespace Traffic

variable {ι : Type} [DecidableEq ι]

def Enabled (s : Traffic ι) : TrafficAction ι → Prop
  | .take w _ => s.senders w = none
  | .submit w _ => ∃ c, s.senders w = some c ∧ c.accepted = none
  | .store w _ => ∃ c, s.senders w = some c ∧ c.accepted ≠ none
  | .receipt _ _ _ | .cleanup _ => True

/-- A call goes on, or returns when nothing is left to do. -/
def goOn (s : Traffic ι) (w : ι) (c : Sending) : Traffic ι :=
  ⟨s.gateway, update s.senders w
    (if c.rest = [] ∧ c.accepted = none then none else some c)⟩

def returns (s : Traffic ι) (w : ι) : Traffic ι :=
  ⟨s.gateway, update s.senders w none⟩

/-- The step. A part that is not accepted ends the call; the report it sends is left out here. -/
def next (s : Traffic ι) : TrafficAction ι → Traffic ι
  | .take w msg => goOn ⟨s.gateway.track msg, s.senders⟩ w ⟨msg, msg.parts, none⟩
  | .submit w result =>
    match s.senders w, result with
    | some ⟨msg, _ :: rest, none⟩, .accepted id => s.goOn w ⟨msg, rest, some id⟩
    | _, _ => s.returns w
  | .store w now =>
    match s.senders w with
    | some ⟨msg, rest, some id⟩ =>
      goOn ⟨s.gateway.correlate msg id now, s.senders⟩ w ⟨msg, rest, none⟩
    | _ => s
  | .receipt r eventID now => { s with gateway := (s.gateway.handleDLR r eventID now).1 }
  | .cleanup now => { s with gateway := s.gateway.cleanupCorrelations now }

def start : Traffic ι := ⟨⟨fun _ ↦ none, fun _ ↦ none⟩, fun _ ↦ none⟩

end Traffic

/-- The gateway under traffic as a transition system. -/
def traffic (ι : Type) [DecidableEq ι] : Machine (Traffic ι) (TrafficAction ι) where
  Enabled := Traffic.Enabled
  next := Traffic.next

namespace Traffic

variable {ι : Type} [DecidableEq ι] {s : Traffic ι} {w : ι} {msg : SendSMSMessage}
  {part : SMSPart} {rest : List SMSPart} {id : String}

/-- The steps of the submit loop, from part number `i`, when nothing else happens. -/
def submitting (results : ℕ → SubmitResult) (now : ℤ) (w : ι) :
    List SMSPart → ℕ → List (TrafficAction ι)
  | [], _ => []
  | _ :: parts, i => .submit w (results i) :: match results i with
    | .accepted _ => .store w now :: submitting results now w parts (i + 1)
    | _ => []

theorem next_submit_accepted (hsender : s.senders w = some ⟨msg, part :: rest, none⟩)
    (id : String) : s.next (.submit w (.accepted id)) = s.goOn w ⟨msg, rest, some id⟩ := by
  simp [next, hsender]

theorem next_store (hsender : s.senders w = some ⟨msg, rest, some id⟩) (now : ℤ) :
    s.next (.store w now)
      = goOn ⟨s.gateway.correlate msg id now, s.senders⟩ w ⟨msg, rest, none⟩ := by
  simp [next, hsender]

theorem senders_goOn_none (s : Traffic ι) (w : ι) (msg : SendSMSMessage) (rest : List SMSPart) :
    (s.goOn w ⟨msg, rest, none⟩).senders w
      = if rest = [] then none else some ⟨msg, rest, none⟩ := by
  simp [goOn]

theorem after_submitting (results : ℕ → SubmitResult) (eventID : UUID) (now : ℤ) (w : ι)
    (msg : SendSMSMessage) (parts : List SMSPart) (i : ℕ) (s : Traffic ι)
    (hsender : s.senders w = if parts = [] then none else some ⟨msg, parts, none⟩) :
    (traffic ι).after s (submitting results now w parts i)
      = ⟨(Gateway.submitParts msg results eventID now parts i s.gateway).1,
          update s.senders w none⟩ := by
  induction parts generalizing i s with
  | nil =>
    rw [if_pos rfl] at hsender
    exact congrArg (Traffic.mk s.gateway) (update_eq_self_iff.mpr hsender.symm).symm
  | cons part parts ih =>
    rw [if_neg (cons_ne_nil _ _)] at hsender
    cases hresult : results i with
    | accepted id =>
      have hsteps : (s.next (.submit w (.accepted id))).next (.store w now)
          = goOn ⟨s.gateway.correlate msg id now, (s.goOn w ⟨msg, parts, some id⟩).senders⟩ w
              ⟨msg, parts, none⟩ := by
        have haccepted : (s.goOn w ⟨msg, parts, some id⟩).senders w
            = some ⟨msg, parts, some id⟩ := by simp [goOn]
        rw [next_submit_accepted hsender, next_store haccepted]
        rfl
      have hloop := ih (i + 1) _ (senders_goOn_none
        ⟨s.gateway.correlate msg id now, (s.goOn w ⟨msg, parts, some id⟩).senders⟩ w msg parts)
      rw [← hsteps] at hloop
      simp only [submitting, Gateway.submitParts, hresult, Machine.after_cons]
      refine hloop.trans ?_
      rw [hsteps, goOn, goOn, update_idem, update_idem]
    | transportError _ | rejected _ =>
      simp only [submitting, Gateway.submitParts, hresult]
      simp [traffic, next, returns, Machine.after]

/-- **`handleSendSMS` is a run**, after which the sender is free again. -/
theorem after_take_submitting (results : ℕ → SubmitResult) (eventID : UUID) (now : ℤ) (w : ι)
    (msg : SendSMSMessage) (s : Traffic ι) (hfree : s.senders w = none) :
    (traffic ι).after s (.take w msg :: submitting results now w msg.parts 0)
      = ⟨(s.gateway.handleSendSMS msg results eventID now).1, s.senders⟩ := by
  rw [Machine.after_cons]
  refine (after_submitting results eventID now w msg msg.parts 0 _
    (senders_goOn_none ⟨s.gateway.track msg, s.senders⟩ w msg msg.parts)).trans ?_
  refine congrArg₂ Traffic.mk rfl ?_
  exact (update_idem ..).trans (update_eq_self_iff.mpr hfree.symm)

/-! ## Entries that something is left of -/

/-- The gateway counts the receipts of the message. -/
def Tracked (s : Traffic ι) (msgID : UUID) : Prop := s.gateway.multipart msgID ≠ none

instance (s : Traffic ι) (msgID : UUID) : Decidable (s.Tracked msgID) :=
  inferInstanceAs (Decidable (_ ≠ _))

/-- The identifier is that of a part of the message. -/
def Correlated (s : Traffic ι) (msgID : UUID) (id : String) : Prop :=
  ∃ entry, s.gateway.correlations id = some entry ∧ entry.mapping.msgID = msgID

/-- The message is being submitted, with this many correlations still to be stored. -/
def Submitting (s : Traffic ι) (msgID : UUID) (n : ℕ) : Prop :=
  ∃ w c, s.senders w = some c ∧ c.msg.msgID = msgID ∧ c.left = n

/-- Every message that is tracked has a correlation that has not expired, or is being submitted. -/
def TrackedLive (s : Traffic ι) (now : ℤ) : Prop :=
  ∀ msgID, s.Tracked msgID →
    (∃ id entry, s.gateway.correlations id = some entry ∧ entry.mapping.msgID = msgID ∧
      now ≤ entry.expiresAt) ∨
    ∃ w c, s.senders w = some c ∧ c.msg.msgID = msgID

/-- What the SMSC has to do for the messages that are tracked: it accepts their parts, under
identifiers that are not in use for one of them, and reports them before they expire. -/
def Acknowledged (s : Traffic ι) : TrafficAction ι → Prop
  | .take _ _ => True
  | .submit w result => ∀ c, s.senders w = some c → s.Tracked c.msg.msgID →
      ∃ id, result = .accepted id
  | .store w _ => ∀ c id, s.senders w = some c → c.accepted = some id →
      ∀ msgID, s.Tracked msgID → ¬ s.Correlated msgID id
  | .receipt r _ now => ∀ receipt entry, r = some receipt →
      s.gateway.correlations receipt.messageID = some entry →
        s.Tracked entry.mapping.msgID → now < entry.expiresAt
  | .cleanup now => ∀ id entry, s.gateway.correlations id = some entry →
      s.Tracked entry.mapping.msgID → now ≤ entry.expiresAt

/-- The receipts counted, these correlations and these parts make up the message. -/
structure Covers (s : Traffic ι) (msgID : UUID) (state : MultipartState) (ids : Finset String)
    (n : ℕ) : Prop where
  correlated : ∀ id ∈ ids, s.Correlated msgID id
  submitting : n = 0 ∨ s.Submitting msgID n
  count : state.total ≤ state.resolved + ids.card + n

/-- **The invariant.** The receipts alone do not make up the message, but together with
correlations and with parts of one sender they do. -/
def Backed (s : Traffic ι) : Prop :=
  ∀ msgID state, s.gateway.multipart msgID = some state →
    state.resolved < state.total ∧ ∃ ids n, s.Covers msgID state ids n

omit [DecidableEq ι] in
theorem backed_start : (start : Traffic ι).Backed := fun _ _ h ↦ nomatch h

omit [DecidableEq ι] in
theorem Backed.exists_of_tracked (h : s.Backed) {msgID : UUID} (htracked : s.Tracked msgID) :
    (∃ id, s.Correlated msgID id) ∨ ∃ n, s.Submitting msgID n := by
  obtain ⟨state, hstate⟩ := ne_none_iff_exists'.mp htracked
  obtain ⟨hopen, ids, n, hcovers⟩ := h msgID state hstate
  rcases hcovers.submitting with rfl | hsubmitting
  · -- no part is left, so there is a correlation
    have hcount := hcovers.count
    have hpos : 0 < ids.card := by omega
    obtain ⟨id, hid⟩ := Finset.card_pos.mp hpos
    exact Or.inl ⟨id, hcovers.correlated id hid⟩
  · exact Or.inr ⟨n, hsubmitting⟩

/-! ## Every step keeps the invariant -/

theorem submitting_goOn (s : Traffic ι) (w : ι) (c : Sending) :
    c.left = 0 ∨ (s.goOn w c).Submitting c.msg.msgID c.left := by
  by_cases hleft : c.left = 0
  · exact Or.inl hleft
  · refine Or.inr ⟨w, c, ?_, rfl, rfl⟩
    refine (update_self ..).trans (if_neg fun h ↦ ?_)
    exact hleft (by simp [Sending.left, h])

theorem submitting_update_of_ne {w₀ : ι} {c : Sending} (hc : s.senders w₀ = some c)
    (hne : w₀ ≠ w) (g : Gateway) (v : Option Sending) :
    (⟨g, update s.senders w v⟩ : Traffic ι).Submitting c.msg.msgID c.left :=
  ⟨w₀, c, (update_of_ne hne _ _).trans hc, rfl, rfl⟩

theorem Backed.take (h : s.Backed) (hfree : s.senders w = none) (msg : SendSMSMessage) :
    (s.next (.take w msg)).Backed := by
  intro msgID state hstate
  by_cases hown : msgID = msg.msgID ∧ msg.parts.length > 1
  · obtain ⟨rfl, hmany⟩ := hown
    obtain rfl : ⟨msg.parts.length, 0, false⟩ = state := by
      exact some.inj ((Gateway.multipart_track_self hmany).symm.trans hstate)
    refine ⟨Nat.lt_of_succ_lt hmany, ∅, msg.parts.length, ?_, ?_, ?_⟩
    · exact fun id hid ↦ absurd hid (Finset.notMem_empty id)
    · exact submitting_goOn ⟨s.gateway.track msg, s.senders⟩ w ⟨msg, msg.parts, none⟩
    · rw [Finset.card_empty, Nat.zero_add]
  · have hold : s.gateway.multipart msgID = some state := by
      have htrack : (s.gateway.track msg).multipart msgID = some state := hstate
      by_cases hmsg : msgID = msg.msgID
      · rwa [Gateway.track, if_neg fun hmany ↦ hown ⟨hmsg, hmany⟩] at htrack
      · rwa [Gateway.multipart_track_of_ne hmsg] at htrack
    obtain ⟨hopen, ids, n, hcovers⟩ := h msgID state hold
    refine ⟨hopen, ids, n, fun id hid ↦ ?_, ?_, hcovers.count⟩
    · obtain ⟨entry, hentry, hmsg⟩ := hcovers.correlated id hid
      exact ⟨entry, (congrFun (Gateway.correlations_track ..) id).trans hentry, hmsg⟩
    · refine hcovers.submitting.imp_right ?_
      rintro ⟨w₀, c, hc, rfl, rfl⟩
      refine submitting_update_of_ne hc ?_ _ _
      rintro rfl
      exact absurd (hfree.symm.trans hc) (some_ne_none c).symm

/-- An answer of the SMSC leaves the gateway as it is. If it accepts the part, the sender has as
much left to store as before. -/
theorem next_submit_cases {c : Sending} (hc : s.senders w = some c) (hidle : c.accepted = none)
    (result : SubmitResult) : ∃ v, s.next (.submit w result) = ⟨s.gateway, update s.senders w v⟩ ∧
      (c.left = 0 ∨ (∀ id, result ≠ .accepted id) ∨
        ∃ c', v = some c' ∧ c'.msg = c.msg ∧ c'.left = c.left) := by
  obtain ⟨msg, rest, accepted⟩ := c
  obtain rfl : accepted = none := hidle
  cases rest with
  | nil =>
    refine ⟨none, ?_, Or.inl rfl⟩
    simp [next, hc, returns]
  | cons part rest =>
    cases result with
    | accepted id =>
      refine ⟨some ⟨msg, rest, some id⟩, ?_, Or.inr (Or.inr ⟨_, rfl, rfl, rfl⟩)⟩
      rw [next_submit_accepted hc, goOn, if_neg fun h ↦ nomatch h.2]
    | transportError _ | rejected _ =>
      refine ⟨none, ?_, Or.inr (Or.inl fun id h ↦ nomatch h)⟩
      simp [next, returns]

theorem Backed.submit (h : s.Backed) {c : Sending} (hc : s.senders w = some c)
    (hidle : c.accepted = none) {result : SubmitResult}
    (haccepted : s.Tracked c.msg.msgID → ∃ id, result = .accepted id) :
    (s.next (.submit w result)).Backed := by
  obtain ⟨v, heq, hv⟩ := next_submit_cases hc hidle result
  rw [heq]
  intro msgID state hstate
  obtain ⟨hopen, ids, n, hcovers⟩ := h msgID state hstate
  refine ⟨hopen, ids, n, hcovers.correlated, ?_, hcovers.count⟩
  rcases hcovers.submitting with hzero | ⟨w₀, c₀, hc₀, rfl, rfl⟩
  · exact Or.inl hzero
  · by_cases hw : w₀ = w
    · subst hw
      obtain rfl := some.inj (hc.symm.trans hc₀)
      rcases hv with hzero | hrefused | ⟨c', rfl, hmsg, hleft⟩
      · exact Or.inl hzero
      · have htracked : s.Tracked c.msg.msgID := ne_none_iff_exists'.mpr ⟨state, hstate⟩
        obtain ⟨id, hid⟩ := haccepted htracked
        exact absurd hid (hrefused id)
      · exact Or.inr ⟨w₀, c', update_self .., congrArg _ hmsg, hleft⟩
    · exact Or.inr (submitting_update_of_ne hc₀ hw _ _)

theorem Backed.store (h : s.Backed) (hc : s.senders w = some ⟨msg, rest, some id⟩)
    (hunused : ∀ msgID, s.Tracked msgID → ¬ s.Correlated msgID id) (now : ℤ) :
    (s.next (.store w now)).Backed := by
  rw [next_store hc]
  intro msgID state hstate
  obtain ⟨hopen, ids, n, hcovers⟩ := h msgID state hstate
  have htracked : s.Tracked msgID := ne_none_iff_exists'.mpr ⟨state, hstate⟩
  have hfresh : id ∉ ids := fun hid ↦ hunused msgID htracked (hcovers.correlated id hid)
  -- the identifiers of the other parts stay
  have hkeeps : ∀ id' ∈ ids, (goOn ⟨s.gateway.correlate msg id now, s.senders⟩ w
      ⟨msg, rest, none⟩).Correlated msgID id' := by
    intro id' hid'
    obtain ⟨entry, hentry, hmsg⟩ := hcovers.correlated id' hid'
    have hne : id' ≠ id := fun heq ↦ hfresh (heq ▸ hid')
    exact ⟨entry, (update_of_ne hne _ _).trans hentry, hmsg⟩
  refine ⟨hopen, ?_⟩
  rcases hcovers.submitting with hzero | ⟨w₀, c, hc₀, rfl, rfl⟩
  · exact ⟨ids, n, hkeeps, Or.inl hzero, hcovers.count⟩
  · by_cases hw : w₀ = w
    · subst hw
      obtain rfl := some.inj (hc.symm.trans hc₀)
      refine ⟨insert id ids, rest.length, ?_, ?_, ?_⟩
      · intro id' hid'
        rcases Finset.mem_insert.mp hid' with rfl | hid'
        · exact ⟨_, update_self .., rfl⟩
        · exact hkeeps id' hid'
      · exact submitting_goOn ⟨s.gateway.correlate msg id now, s.senders⟩ w₀ ⟨msg, rest, none⟩
      · have hcount : state.total ≤ state.resolved + ids.card + (rest.length + 1) := hcovers.count
        rw [Finset.card_insert_of_notMem hfresh]
        omega
    · exact ⟨ids, _, hkeeps, Or.inr (submitting_update_of_ne hc₀ hw _ _), hcovers.count⟩

omit [DecidableEq ι] in
theorem Covers.forget_of_ne {msgID : UUID} {state : MultipartState} {ids : Finset String} {n : ℕ}
    (h : s.Covers msgID state ids n) {entry : CorrelationEntry}
    (hentry : s.gateway.correlations id = some entry) (hne : entry.mapping.msgID ≠ msgID)
    (multipart : UUID → Option MultipartState) :
    (⟨⟨update s.gateway.correlations id none, multipart⟩, s.senders⟩ :
      Traffic ι).Covers msgID state ids n := by
  refine ⟨fun id' hid' ↦ ?_, h.submitting, h.count⟩
  obtain ⟨entry', hentry', hmsg⟩ := h.correlated id' hid'
  refine ⟨entry', (update_of_ne ?_ _ _).trans hentry', hmsg⟩
  rintro rfl
  obtain rfl := some.inj (hentry.symm.trans hentry')
  exact hne hmsg

omit [DecidableEq ι] in
theorem Covers.count_receipt {msgID : UUID} {state : MultipartState} {ids : Finset String} {n : ℕ}
    (h : s.Covers msgID state ids n) (id : String) (anyFailed : Bool)
    (multipart : UUID → Option MultipartState) :
    (⟨⟨update s.gateway.correlations id none, multipart⟩, s.senders⟩ :
      Traffic ι).Covers msgID ⟨state.total, state.resolved + 1, anyFailed⟩ (ids.erase id) n := by
  refine ⟨fun id' hid' ↦ ?_, h.submitting, ?_⟩
  · obtain ⟨hne, hmem⟩ := Finset.mem_erase.mp hid'
    obtain ⟨entry, hentry, hmsg⟩ := h.correlated id' hmem
    exact ⟨entry, (update_of_ne hne _ _).trans hentry, hmsg⟩
  · have hcard : ids.card - 1 ≤ (ids.erase id).card := Finset.pred_card_le_card_erase
    have hcount := h.count
    change state.total ≤ state.resolved + 1 + (ids.erase id).card + n
    omega

omit [DecidableEq ι] in
theorem Backed.settle (h : s.Backed) {entry : CorrelationEntry}
    (hentry : s.gateway.correlations id = some entry) {v : Option MultipartState}
    {g : Gateway} (hg : g = ⟨update s.gateway.correlations id none,
      update s.gateway.multipart entry.mapping.msgID v⟩)
    (hv : ∀ state, v = some state → state.resolved < state.total ∧
      ∃ ids n, (⟨g, s.senders⟩ : Traffic ι).Covers entry.mapping.msgID state ids n) :
    (⟨g, s.senders⟩ : Traffic ι).Backed := by
  subst hg
  intro msgID state hstate
  by_cases hmsg : msgID = entry.mapping.msgID
  · subst hmsg
    have hself : update s.gateway.multipart entry.mapping.msgID v entry.mapping.msgID
        = some state := hstate
    rw [update_self] at hself
    exact hv state hself
  · have hother : update s.gateway.multipart entry.mapping.msgID v msgID
        = some state := hstate
    rw [update_of_ne hmsg] at hother
    obtain ⟨hopen, ids, n, hcovers⟩ := h msgID state hother
    exact ⟨hopen, ids, n, hcovers.forget_of_ne hentry (Ne.symm hmsg) _⟩

theorem Backed.receipt (h : s.Backed) {r : Option DLRReceipt} (eventID : UUID) {now : ℤ}
    (htimely : ∀ receipt entry, r = some receipt →
      s.gateway.correlations receipt.messageID = some entry →
        s.Tracked entry.mapping.msgID → now < entry.expiresAt) :
    (s.next (.receipt r eventID now)).Backed := by
  cases r with
  | none => exact h
  | some receipt =>
    cases hentry : s.gateway.correlations receipt.messageID with
    | none =>
      have heq : s.gateway.handleDLR (some receipt) eventID now = (s.gateway, none) := by
        simp [Gateway.handleDLR, hentry]
      rw [next, heq]
      exact h
    | some entry =>
      cases hstate : s.gateway.multipart entry.mapping.msgID with
      | none =>
        -- the correlation goes, in time or not
        have heq : (s.gateway.handleDLR (some receipt) eventID now).1
            = s.gateway.forget receipt.messageID := by
          rcases lt_or_ge now entry.expiresAt with hnow | hlate
          · rw [Gateway.handleDLR_untracked eventID hentry hnow hstate]
          · rw [Gateway.handleDLR_of_le eventID hentry hlate]
        refine h.settle (v := none) hentry (heq.trans ?_) fun _ hv ↦
          absurd hv (some_ne_none _).symm
        exact congrArg (Gateway.mk _) (update_eq_self_iff.mpr hstate.symm).symm
      | some state =>
        have hnow := htimely receipt entry rfl hentry
          (ne_none_iff_exists'.mpr ⟨state, hstate⟩)
        rcases lt_or_ge (state.resolved + 1) state.total with hmore | hlast
        · have heq := Gateway.handleDLR_more eventID hentry hnow hstate hmore
          refine h.settle hentry (congrArg Prod.fst heq) fun state' hv ↦ ?_
          obtain rfl := some.inj hv
          obtain ⟨-, ids, n, hcovers⟩ := h _ state hstate
          rw [heq]
          exact ⟨hmore, _, n, hcovers.count_receipt receipt.messageID _ _⟩
        · obtain ⟨errorCode, heq⟩ := Gateway.handleDLR_last eventID hentry hnow hstate hlast
          exact h.settle hentry (congrArg Prod.fst heq) fun _ hv ↦
            absurd hv (some_ne_none _).symm

/-- No correlation of a tracked message has expired, so cleaning up leaves them all. -/
theorem Backed.cleanup (h : s.Backed) {now : ℤ}
    (htimely : ∀ id entry, s.gateway.correlations id = some entry →
      s.Tracked entry.mapping.msgID → now ≤ entry.expiresAt) : (s.next (.cleanup now)).Backed := by
  intro msgID state hstate
  obtain ⟨hopen, ids, n, hcovers⟩ := h msgID state hstate
  refine ⟨hopen, ids, n, fun id hid ↦ ?_, hcovers.submitting, hcovers.count⟩
  obtain ⟨entry, hentry, rfl⟩ := hcovers.correlated id hid
  have hnow := htimely id entry hentry (ne_none_iff_exists'.mpr ⟨state, hstate⟩)
  exact ⟨entry, Gateway.cleanupCorrelations_some hentry hnow, rfl⟩

theorem Backed.next (h : s.Backed) {a : TrafficAction ι} (henabled : s.Enabled a)
    (hack : s.Acknowledged a) : (s.next a).Backed := by
  cases a with
  | take w msg => exact h.take henabled msg
  | submit w result =>
    obtain ⟨c, hc, hidle⟩ := henabled
    exact h.submit hc hidle (hack c hc)
  | store w now =>
    obtain ⟨⟨msg, rest, accepted⟩, hc, haccepted⟩ := henabled
    obtain ⟨id, rfl⟩ := ne_none_iff_exists'.mp haccepted
    exact h.store hc (hack _ id hc rfl) now
  | receipt r eventID now => exact h.receipt eventID hack
  | cleanup now => exact h.cleanup hack

theorem Backed.trackedLive_cleanup {now : ℤ} (h : (s.next (.cleanup now)).Backed) :
    (s.next (.cleanup now)).TrackedLive now := by
  intro msgID htracked
  rcases h.exists_of_tracked htracked with ⟨id, entry, hentry, hmsg⟩ | ⟨n, w, c, hc, hmsg, -⟩
  · refine Or.inl ⟨id, entry, hentry, hmsg, ?_⟩
    simpa using (filter_eq_some_iff.mp hentry).2
  · exact Or.inr ⟨w, c, hc, hmsg⟩

end Traffic

/-- **Tracking ends with the message.** If the SMSC accepts the parts of the tracked messages, each
under an identifier of its own, and reports them before they expire, then after every cleanup a
message is tracked only if it has a correlation that has not expired or is being submitted. -/
theorem tracked_live_of_runs {ι : Type} [DecidableEq ι] {acts : List (TrafficAction ι)} {now : ℤ}
    (h : (traffic ι).RunsUnder Traffic.Acknowledged Traffic.start (acts ++ [.cleanup now])) :
    ((traffic ι).after Traffic.start (acts ++ [.cleanup now])).TrackedLive now := by
  have hbacked := h.invariant (fun _ _ hs henabled hack ↦ hs.next henabled hack)
    Traffic.backed_start
  rw [Machine.after_append] at hbacked ⊢
  exact Traffic.Backed.trackedLive_cleanup hbacked

namespace TwoParts

/-- Both parts are stored, and the first one is reported. -/
def traffic : List (TrafficAction Unit) :=
  [.take () Delivery.TwoParts.message, .submit () (.accepted "a"), .store () 1,
    .submit () (.accepted "b"), .store () 2,
    .receipt (some ⟨"a", .delivrd, ""⟩) (.ofDigit 3) 3]

theorem runs_traffic : (OtaPlatform.traffic Unit).RunsUnder Traffic.Acknowledged Traffic.start
    (traffic ++ [.cleanup 4]) := by
  rw [traffic, cons_append, cons_append, cons_append, cons_append,
    cons_append, cons_append, nil_append]
  refine ⟨⟨rfl, trivial⟩, ⟨⟨_, rfl, rfl⟩, fun _ _ _ ↦ ⟨_, rfl⟩⟩, ⟨⟨_, rfl, by decide⟩, ?_⟩,
    ⟨⟨_, rfl, rfl⟩, fun _ _ _ ↦ ⟨_, rfl⟩⟩, ⟨⟨_, rfl, by decide⟩, ?_⟩, ⟨trivial, ?_⟩,
    ⟨trivial, ?_⟩, trivial⟩
  · rintro c id - - msgID - ⟨entry, hentry, -⟩
    cases hentry
  · rintro c id ⟨⟩ ⟨⟩ msgID - ⟨entry, hentry, -⟩
    cases hentry
  · rintro receipt entry ⟨⟩ ⟨⟩ -
    decide
  · rintro id entry hentry -
    change update (update (update (fun _ ↦ none) "a" _) "b" _) "a" none
      id = some entry at hentry
    by_cases ha : id = "a"
    · rw [ha, update_self] at hentry
      cases hentry
    · rw [update_of_ne ha] at hentry
      by_cases hb : id = "b"
      · rw [hb, update_self] at hentry
        cases hentry
        decide
      · rw [update_of_ne hb, update_of_ne ha] at hentry
        cases hentry

end TwoParts

/-- The second part is still to be reported. -/
theorem tracked_live_of_runs_twoParts :
    ((traffic Unit).after Traffic.start (TwoParts.traffic ++ [.cleanup 4])).Tracked (.ofDigit 7) ∧
      ((traffic Unit).after Traffic.start (TwoParts.traffic ++ [.cleanup 4])).TrackedLive 4 :=
  ⟨by decide +kernel, tracked_live_of_runs TwoParts.runs_traffic⟩

/-- The first part of a message of two parts is not accepted, and its entry is left behind. -/
theorem tracked_after_failed_submission :
    (traffic Unit).Runs Traffic.start
        [.take () Delivery.TwoParts.message, .submit () (.transportError "closed"), .cleanup 1] ∧
      ¬ ((traffic Unit).after Traffic.start
        [.take () Delivery.TwoParts.message, .submit () (.transportError "closed"),
          .cleanup 1]).TrackedLive 1 := by
  refine ⟨⟨⟨rfl, trivial⟩, ⟨⟨_, rfl, rfl⟩, trivial⟩, ⟨trivial, trivial⟩, trivial⟩, fun h ↦ ?_⟩
  rcases h (.ofDigit 7) (by decide +kernel) with ⟨id, entry, hentry, -⟩ | ⟨w, c, hc, -⟩
  · cases hentry
  · cases hc

end OtaPlatform
