import OtaPlatform.Engine.System

/-!
# Per-card sequencing

The next command of a card, or its completion, should follow the acknowledgement of the last message
sent to it: a `DELIVRD` report of that message, or a response to it when its command expects one.

The handlers do not compare messages. They look at the status of the card only, so a late report or
a repeated response of an earlier message moves the card as if it belonged to the last one. The
order is kept in the runs in which reports that move a card do belong to the last message, and none
of them comes in while an activation of the card is still on its way.
-/

namespace OtaPlatform

open Option Engine List

/-! ## Messages and their acknowledgement -/

/-- The last message that was published for a card in a campaign. -/
def lastMessage (trace : List TraceEvent) (pair : UUID × UUID) :
    Option (SendSMSMessage × PacketOrigin) :=
  ((smsOf (outputsOf trace)).filter fun p ↦ (p.1.cardID, p.1.campaignID) = pair).getLast?

/-- An event acknowledges a message: a response to it if its command expects one, a `DELIVRD` report
of it otherwise. -/
def Acknowledges (cfg : EngineConfig) (ev : CardEvent) (answered : Option UUID)
    (p : SendSMSMessage × PacketOrigin) : Prop :=
  ev.cardID = p.1.cardID ∧
    if (cfg.contexts p.1.campaignID).expects p.2.step then
      ev.type = .moReceived ∧ answered = some p.1.msgID
    else
      ev.type = .dlrReceived ∧ ev.dlrStatus = .delivrd ∧ ev.msgID = some p.1.msgID

/-- The message was acknowledged after it was published. -/
def Acknowledged (cfg : EngineConfig) (trace : List TraceEvent)
    (p : SendSMSMessage × PacketOrigin) : Prop :=
  ∃ before ev answered after, trace = before ++ .handled ev answered :: after ∧
    .output (.sms p.1 p.2) ∈ before ∧ Acknowledges cfg ev answered p

/-- What may be sent after a history: a message of a later step, or the completion of the card, only
when the last message was acknowledged. -/
def InSequence (cfg : EngineConfig) (trace : List TraceEvent) : Output → Prop
  | .sms msg origin => ∀ last, lastMessage trace (msg.cardID, msg.campaignID) = some last →
      last.2.step < origin.step → Acknowledged cfg trace last
  | .change ch => ch.status = .completed →
      ∀ last, lastMessage trace (ch.cardID, ch.campaignID) = some last →
        Acknowledged cfg trace last
  | _ => True

/-- Everything that was sent was in sequence when it was sent. -/
def Sequenced (cfg : EngineConfig) (trace : List TraceEvent) : Prop :=
  ∀ before out after, trace = before ++ .output out :: after → InSequence cfg before out

section History

variable {cfg : EngineConfig} {trace more : List TraceEvent} {p : SendSMSMessage × PacketOrigin}

theorem Acknowledged.append (h : Acknowledged cfg trace p) (more : List TraceEvent) :
    Acknowledged cfg (trace ++ more) p := by
  obtain ⟨before, ev, answered, after, rfl, hmem, hack⟩ := h
  refine ⟨before, ev, answered, after ++ more, ?_, hmem, hack⟩
  rw [append_assoc, cons_append]

theorem lastMessage_append (hsms : smsOf (outputsOf more) = []) (pair : UUID × UUID) :
    lastMessage (trace ++ more) pair = lastMessage trace pair := by
  rw [lastMessage, outputsOf_append, smsOf_append, hsms, append_nil, lastMessage]

theorem mem_of_lastMessage {pair : UUID × UUID} (h : lastMessage trace pair = some p) :
    .output (.sms p.1 p.2) ∈ trace ∧ (p.1.cardID, p.1.campaignID) = pair := by
  obtain ⟨hmem, hpair⟩ := mem_filter.mp (mem_of_getLast? h)
  refine ⟨?_, of_decide_eq_true hpair⟩
  obtain ⟨out, hout, hp⟩ := mem_filterMap.mp hmem
  obtain ⟨e, he, hev⟩ := mem_filterMap.mp hout
  cases e with
  | output out' =>
    obtain rfl := some.inj hev
    cases out' with
    | sms msg origin =>
      obtain rfl := some.inj hp
      exact he
    | _ => exact absurd hp (some_ne_none _).symm
  | _ => exact absurd hev (some_ne_none _).symm

theorem Sequenced.append_silent (h : Sequenced cfg trace)
    (hmore : ∀ out, TraceEvent.output out ∉ more) : Sequenced cfg (trace ++ more) := by
  intro before out after heq
  rcases append_eq_append_iff.mp heq with ⟨mid, hbefore, hrest⟩ | ⟨mid, htrace, hrest⟩
  · exact absurd (hrest ▸ mem_append_right _ mem_cons_self) (hmore out)
  · cases mid with
    | nil =>
      rw [nil_append] at hrest
      exact absurd (hrest ▸ mem_cons_self) (hmore out)
    | cons e mid =>
      obtain ⟨rfl, -⟩ := cons.inj (hrest.trans rfl)
      exact h before out mid htrace

/-- A handler call keeps the history sequenced if each of its outputs is in sequence when it is
sent. -/
theorem Sequenced.append_handled (h : Sequenced cfg trace) {ev : CardEvent} {answered : Option UUID}
    {raw : List Output} (hraw : ∀ sent out rest, raw = sent ++ out :: rest →
      InSequence cfg (trace ++ .handled ev answered :: sent.map .output) out) :
    Sequenced cfg (trace ++ .handled ev answered :: raw.map .output) := by
  intro before out after heq
  rcases append_eq_append_iff.mp heq with ⟨mid, hbefore, hrest⟩ | ⟨mid, htrace, hrest⟩
  · -- the output is one of the call
    cases mid with
    | nil => exact absurd (cons.inj hrest).1 TraceEvent.noConfusion
    | cons e mid =>
      obtain ⟨rfl, htail⟩ := cons.inj hrest
      obtain ⟨sent, rest, rfl, hsent, hrest'⟩ := map_eq_append_iff.mp htail
      obtain ⟨out', rest', rfl, hout, -⟩ := map_eq_cons_iff.mp hrest'
      obtain rfl := TraceEvent.output.inj hout
      rw [hbefore, ← hsent]
      exact hraw sent out' rest' rfl
  · -- the output is an earlier one
    cases mid with
    | nil => exact absurd (cons.inj hrest).1 TraceEvent.noConfusion
    | cons e mid =>
      obtain ⟨rfl, -⟩ := cons.inj hrest
      exact h before out mid htrace

theorem Sequenced.append_visible (h : Sequenced cfg trace) {ev : CardEvent}
    {answered : Option UUID} {raw outs : List Output} (hvisible : visible raw = outs)
    (houts : ∀ sent out rest, outs = visible sent ++ out :: rest →
      InSequence cfg (trace ++ .handled ev answered :: sent.map .output) out) :
    Sequenced cfg (trace ++ .handled ev answered :: raw.map .output) := by
  refine h.append_handled fun sent out rest hraw ↦ ?_
  by_cases hlog : ∃ action, out = .log action
  · obtain ⟨action, rfl⟩ := hlog
    exact trivial
  · have hout : visible (out :: rest) = out :: visible rest := by
      cases out with
      | log action => exact absurd ⟨action, rfl⟩ hlog
      | _ => rfl
    refine houts sent out (visible rest) ?_
    rw [← hvisible, hraw, visible_append, hout]

theorem lastMessage_append_handled (ev : CardEvent) (answered : Option UUID) {sent : List Output}
    (hsms : smsOf (visible sent) = []) (pair : UUID × UUID) :
    lastMessage (trace ++ .handled ev answered :: sent.map .output) pair
      = lastMessage trace pair := by
  refine lastMessage_append ?_ pair
  rw [outputsOf_handled, smsOf_visible, hsms]

end History

/-! ## Activations on their way -/

def CardEvent.isFor (pair : UUID × UUID) (ev : CardEvent) : Bool :=
  ev.cardID = pair.1 ∧ ev.campaignID = some pair.2

namespace Engine

/-- The activations that wait for a handler or a timer. -/
def waiting (s : Engine) : List CardEvent := s.activateCh ++ s.delayed

/-- Those of a card in a campaign. -/
def outstanding (s : Engine) (pair : UUID × UUID) : List CardEvent :=
  s.waiting.filter (CardEvent.isFor pair)

theorem waiting_plan (cfg : EngineConfig) (s : Engine) (ev : CardEvent) :
    (s.next cfg (.plan ev)).waiting.Perm (s.waiting ++ [ev]) := by
  change ((s.activateCh ++ [ev]) ++ s.delayed).Perm ((s.activateCh ++ s.delayed) ++ [ev])
  rw [append_assoc, append_assoc]
  exact Perm.append_left _ perm_append_comm

theorem waiting_release (cfg : EngineConfig) {s : Engine} {ev : CardEvent} (h : ev ∈ s.delayed) :
    (s.next cfg (.release ev)).waiting.Perm s.waiting := by
  change ((s.activateCh ++ [ev]) ++ s.delayed.erase ev).Perm (s.activateCh ++ s.delayed)
  rw [append_assoc]
  exact Perm.append_left _ (perm_cons_erase h).symm

theorem waiting_check (s : Engine) (campaignID : UUID) :
    (s.check campaignID).waiting = s.waiting := by
  unfold check
  split
  · split <;> rfl
  · rfl

end Engine

/-- The message an event reports on: the one it names, or the one a response answers. -/
def CardEvent.message (ev : CardEvent) (answered : Option UUID) : Option UUID :=
  if ev.type = .moReceived then answered else ev.msgID

/-- A report that would move the card belongs to its last message, is of the kind that message
waits for, and no activation is on its way. -/
def Engine.ReportsLast (cfg : EngineConfig) (s : Engine) (ev : CardEvent) (ans : Answers)
    (answered : Option UUID) : Prop :=
  ∀ st ∈ s.process.found ev.cardID ans.row, ev.Moves st →
    s.outstanding (ev.cardID, ev.campaignFor st) = [] ∧
    ∃ last ∈ lastMessage s.trace (ev.cardID, ev.campaignFor st),
      last.2.step = st.currentStep ∧ ev.message answered = some last.1.msgID ∧
      (ev.type = .moReceived → (cfg.contexts (ev.campaignFor st)).expects st.currentStep = true)

/-- A planned activation is the only one of its card and campaign, and goes no further than the last
message. -/
def Engine.PlansNoFurther (s : Engine) (ev : CardEvent) : Prop :=
  ∀ campaignID ∈ ev.campaignID, s.outstanding (ev.cardID, campaignID) = [] ∧
    ∀ last ∈ lastMessage s.trace (ev.cardID, campaignID), ev.step ≤ last.2.step

/-- **The condition.** Reports that would move a card belong to its last message, and planned
activations do not run ahead. -/
def SequencingGuard (cfg : EngineConfig) (s : Engine) : EngineAction → Prop
  | .handle ev ans answered => s.ReportsLast cfg ev ans answered
  | .plan ev => s.PlansNoFurther ev
  | _ => True

instance (cfg : EngineConfig) (s : Engine) (ev : CardEvent) (ans : Answers)
    (answered : Option UUID) : Decidable (s.ReportsLast cfg ev ans answered) := by
  unfold ReportsLast
  infer_instance

instance (s : Engine) (ev : CardEvent) : Decidable (s.PlansNoFurther ev) := by
  unfold PlansNoFurther
  infer_instance

instance (cfg : EngineConfig) (s : Engine) :
    (a : EngineAction) → Decidable (SequencingGuard cfg s a)
  | .handle ev ans answered => inferInstanceAs (Decidable (s.ReportsLast cfg ev ans answered))
  | .plan ev => inferInstanceAs (Decidable (s.PlansNoFurther ev))
  | .release _ | .lookup _ _ | .flush _ _ | .preloadShard _ _ _ _ | .initCampaign _ _ _ _
  | .reset _ _ _ _ | .abort _ _ | .check _ => isTrue trivial

/-! ## The invariant -/

/-- The history is sequenced, each card has at most one activation on its way in a campaign, and one
for a later step is on its way only when the last message was acknowledged. -/
structure InOrder (cfg : EngineConfig) (s : Engine) : Prop where
  sequenced : Sequenced cfg s.trace
  single : ∀ pair, (s.outstanding pair).length ≤ 1
  due : ∀ pair, ∀ ev ∈ s.outstanding pair, ∀ last, lastMessage s.trace pair = some last →
    last.2.step < ev.step → Acknowledged cfg s.trace last

variable {base : List CardEvent}

section Step

variable {cfg : EngineConfig} {s s' : Engine}

/-- **The rule for steps.** Of the activations some stay and at most one is new; the new one is
alone and was due. -/
theorem InOrder.step (h : InOrder cfg s) (base new : List CardEvent)
    (hwaiting : s'.waiting.Perm (base ++ new)) (hbase : base.Subperm s.waiting)
    (hseq : Sequenced cfg s'.trace)
    (hack : ∀ p, Acknowledged cfg s.trace p → Acknowledged cfg s'.trace p)
    (hlast : ∀ pair, base.filter (CardEvent.isFor pair) ≠ [] →
      lastMessage s'.trace pair = lastMessage s.trace pair) (hone : new.length ≤ 1)
    (hnew : ∀ ev ∈ new, ∀ pair, ev.isFor pair = true → base.filter (CardEvent.isFor pair) = [] ∧
      ∀ last, lastMessage s'.trace pair = some last → last.2.step < ev.step →
        Acknowledged cfg s'.trace last) : InOrder cfg s' := by
  have hperm : ∀ pair, (s'.outstanding pair).Perm
      (base.filter (CardEvent.isFor pair) ++ new.filter (CardEvent.isFor pair)) := by
    intro pair
    rw [← filter_append]
    exact hwaiting.filter _
  have hsub : ∀ pair, (base.filter (CardEvent.isFor pair)).Subperm (s.outstanding pair) :=
    fun pair ↦ hbase.filter _
  refine ⟨hseq, fun pair ↦ ?_, fun pair ev hev last hlast' hlt ↦ ?_⟩
  · rw [(hperm pair).length_eq, length_append]
    by_cases hfilter : new.filter (CardEvent.isFor pair) = []
    · rw [hfilter, length_nil, Nat.add_zero]
      exact (hsub pair).length_le.trans (h.single pair)
    · obtain ⟨ev, hev⟩ := exists_mem_of_ne_nil _ hfilter
      obtain ⟨hmem, hfor⟩ := mem_filter.mp hev
      rw [(hnew ev hmem pair hfor).1, length_nil, Nat.zero_add]
      exact (length_filter_le _ _).trans hone
  · rcases mem_append.mp ((hperm pair).mem_iff.mp hev) with hmem | hmem
    · rw [hlast pair (ne_nil_of_mem hmem)] at hlast'
      exact hack last (h.due pair ev ((hsub pair).subset hmem) last hlast' hlt)
    · obtain ⟨hmem', hfor⟩ := mem_filter.mp hmem
      exact (hnew ev hmem' pair hfor).2 last hlast' hlt

private theorem length_activations_le (outs : List Output) :
    (eventsOf outs ++ delayedOf outs).length ≤ outs.length := by
  rw [length_append]
  induction outs with
  | nil => exact le_refl 0
  | cons out outs ih =>
    have hcons : ∀ {β : Type} (f : Output → Option β),
        ((out :: outs).filterMap f).length = (f out).toList.length + (outs.filterMap f).length := by
      intro β f
      cases hf : f out <;> simp [hf, Nat.add_comm]
    rw [eventsOf, delayedOf] at ih ⊢
    rw [hcons, hcons, length_cons]
    cases out <;> simp <;> omega

section Handled

variable {ev : CardEvent} {answered : Option UUID} {after : Option CardState} {outs : List Output}
  {counters : CounterStore} {campaignID : UUID} {st : CardState}
  (hh : Handles s s' ev answered after outs counters)

include hh

theorem waiting_of_handles :
    s'.waiting.Perm (((if ev.type = .activate then s.activateCh.erase ev else s.activateCh)
      ++ s.delayed) ++ (eventsOf outs ++ delayedOf outs)) := by
  rw [waiting, hh.activateCh, hh.delayed, append_assoc, append_assoc]
  refine Perm.append_left _ ?_
  rw [← append_assoc, ← append_assoc]
  exact Perm.append_right _ perm_append_comm

private theorem acknowledged_of_handles (p : SendSMSMessage × PacketOrigin)
    (hp : Acknowledged cfg s.trace p) : Acknowledged cfg s'.trace p := by
  obtain ⟨raw, -, htrace⟩ := hh.trace
  rw [htrace]
  exact hp.append _

private theorem lastMessage_of_handles (hsms : smsOf outs = [])
    (pair : UUID × UUID) : lastMessage s'.trace pair = lastMessage s.trace pair := by
  obtain ⟨raw, hraw, htrace⟩ := hh.trace
  rw [htrace]
  exact lastMessage_append_handled ev answered (by rw [hraw, hsms]) pair

variable (h : InOrder cfg s)

include h

/-- A handler call that publishes no message. What it completes was acknowledged by the event, and
so was the last message if it activates a later step. -/
theorem InOrder.report {base : List CardEvent} (hbase : base.Subperm s.waiting)
    (hwaiting : s'.waiting.Perm (base ++ (eventsOf outs ++ delayedOf outs)))
    (hsms : smsOf outs = []) (hone : outs.length ≤ 1)
    (hchange : ∀ ch, .change ch ∈ outs → ch.status = .completed →
      ∀ last, lastMessage s.trace (ch.cardID, ch.campaignID) = some last →
        Acknowledges cfg ev answered last)
    (hnew : ∀ ev' ∈ eventsOf outs ++ delayedOf outs, ∀ pair, ev'.isFor pair = true →
      base.filter (CardEvent.isFor pair) = [] ∧
      ∀ last, lastMessage s.trace pair = some last → last.2.step < ev'.step →
        Acknowledges cfg ev answered last ∨ Acknowledged cfg s.trace last) : InOrder cfg s' := by
  obtain ⟨raw, hraw, htrace⟩ := hh.trace
  -- the event itself is the acknowledgement
  have hself : ∀ more pair last, lastMessage s.trace pair = some last →
      Acknowledges cfg ev answered last →
      Acknowledged cfg (s.trace ++ .handled ev answered :: more) last :=
    fun more pair last hlast hack ↦
      ⟨s.trace, ev, answered, more, rfl, (mem_of_lastMessage hlast).1, hack⟩
  have hseq : Sequenced cfg s'.trace := by
    rw [htrace]
    refine h.sequenced.append_visible hraw fun sent out rest houts ↦ ?_
    have hmem : out ∈ outs := houts ▸ mem_append_right _ mem_cons_self
    have hsent : visible sent = [] := by
      have := congrArg length houts
      rw [length_append, length_cons] at this
      exact length_eq_zero_iff.mp (by omega)
    cases out with
    | sms msg origin =>
      have : (msg, origin) ∈ smsOf outs := mem_filterMap.mpr ⟨_, hmem, rfl⟩
      rw [hsms] at this
      exact absurd this not_mem_nil
    | change ch =>
      intro hstatus last hlast
      rw [lastMessage_append_handled ev answered (by rw [hsent]; rfl)] at hlast
      exact hself _ _ last hlast (hchange ch hmem hstatus last hlast)
    | event _ | delayed _ | log _ => exact trivial
  refine h.step _ _ hwaiting hbase hseq (acknowledged_of_handles hh)
    (fun pair _ ↦ lastMessage_of_handles hh hsms pair) ((length_activations_le outs).trans hone)
    fun ev' hev' pair hfor ↦ ?_
  obtain ⟨hempty, hdue⟩ := hnew ev' hev' pair hfor
  refine ⟨hempty, fun last hlast hlt ↦ ?_⟩
  rw [lastMessage_of_handles hh hsms] at hlast
  rcases hdue last hlast hlt with hack | hack
  · rw [htrace]
    exact hself _ pair last hlast hack
  · exact acknowledged_of_handles hh last hack

omit hh in
theorem InOrder.quiet (hh : Handles s s' ev answered after [] counters)
    (hbase : base.Subperm s.waiting) (hwaiting : s'.waiting.Perm (base ++ [])) : InOrder cfg s' :=
  h.report hh hbase hwaiting rfl (Nat.zero_le 1) (fun _ hch ↦ absurd hch not_mem_nil)
    (forall_mem_nil _)

theorem InOrder.finish (hbase : base.Subperm s.waiting)
    (hwaiting : s'.waiting.Perm (base ++ (eventsOf outs ++ delayedOf outs)))
    {status statsFrom : CardStatus} {evicted : Bool}
    (hfin : FinishOutcome ev.cardID campaignID st status statsFrom after outs evicted)
    (hack : status = .completed → ∀ last, lastMessage s.trace (ev.cardID, campaignID) = some last →
        Acknowledges cfg ev answered last) : InOrder cfg s' := by
  cases hfin with
  | unwritten hst' => exact h.quiet hh hbase hwaiting
  | @written ch hch =>
    refine h.report hh hbase hwaiting rfl (le_refl 1) ?_ (forall_mem_nil _)
    intro ch' hch' hstatus last hlast
    obtain rfl := Output.change.inj (mem_singleton.mp hch')
    rw [hch.cardID_eq, hch.campaignID_eq] at hlast
    exact hack (hch.status_eq.symm.trans hstatus) last hlast

omit hh in
theorem InOrder.activates {out : Output} {ev' : CardEvent}
    (hout : out = .event ev' ∨ out = .delayed ev')
    (hh : Handles s s' ev answered after [out] counters) (hbase : base.Subperm s.waiting)
    (hwaiting : s'.waiting.Perm (base ++ (eventsOf [out] ++ delayedOf [out])))
    (hcard : ev'.cardID = ev.cardID) (hcampaign : ev'.campaignID = some campaignID)
    (hempty : base.filter (CardEvent.isFor (ev.cardID, campaignID)) = [])
    (hdue : ∀ last, lastMessage s.trace (ev.cardID, campaignID) = some last →
      last.2.step < ev'.step →
        Acknowledges cfg ev answered last ∨ Acknowledged cfg s.trace last) : InOrder cfg s' := by
  have hnew : eventsOf [out] ++ delayedOf [out] = [ev'] := by
    rcases hout with rfl | rfl <;> rfl
  have hsms : smsOf [out] = [] := by
    rcases hout with rfl | rfl <;> rfl
  refine h.report hh hbase hwaiting hsms (le_refl 1) (fun ch hch ↦ ?_) fun ev₁ hev₁ pair hfor ↦ ?_
  · rcases hout with rfl | rfl <;> exact absurd (mem_singleton.mp hch) Output.noConfusion
  · rw [hnew] at hev₁
    obtain rfl := mem_singleton.mp hev₁
    have hpair : pair = (ev.cardID, campaignID) := by
      obtain ⟨h₁, h₂⟩ := of_decide_eq_true hfor
      rw [hcampaign] at h₂
      exact Prod.ext (h₁.symm.trans hcard) (some.inj h₂).symm
    rw [hpair]
    exact ⟨hempty, hdue⟩

theorem InOrder.advance
    (hwaiting : s'.waiting.Perm (s.waiting ++ (eventsOf outs ++ delayedOf outs)))
    {ans : Answers} {step : ℤ} {commands : List CampaignCommand} {evicted : Bool}
    (hadv : AdvanceOutcome ans ev.cardID campaignID step commands st after outs evicted)
    (hempty : s.outstanding (ev.cardID, campaignID) = [])
    (hack : ∀ last, lastMessage s.trace (ev.cardID, campaignID) = some last →
      Acknowledges cfg ev answered last) : InOrder cfg s' := by
  cases hadv with
  | publishes hnext herr =>
    exact h.activates (Or.inl rfl) hh (Subperm.refl _) hwaiting rfl rfl hempty
      fun last hlast _ ↦ Or.inl (hack last hlast)
  | unpublished hnext herr => exact h.quiet hh (Subperm.refl _) hwaiting
  | completes hnext hfin =>
    exact h.finish hh (Subperm.refl _) hwaiting hfin fun _ last hlast ↦ hack last hlast

/-- **Delivery reports keep the order.** -/
theorem InOrder.reported {ans : Answers}
    (hans : s.Answerable cfg ev ans) (hguard : s.ReportsLast cfg ev ans answered)
    (htype : ev.type = .dlrReceived) (hcampaign : ev.campaignID = some campaignID) {evicted : Bool}
    (hdlr : DLROutcome ans ev campaignID (s.process.found ev.cardID ans.row) after outs evicted) :
    InOrder cfg s' := by
  have hwaiting := waiting_of_handles hh
  rw [htype, if_neg (by decide), ← waiting] at hwaiting
  have hmessage : ev.message answered = ev.msgID := by
    rw [CardEvent.message, htype, if_neg (by decide)]
  have hfor : ∀ st : CardState, ev.campaignFor st = campaignID := fun st ↦ by
    rw [CardEvent.campaignFor, hcampaign, getD_some]
  have hctx : ∀ ctx, ans.context = .ok ctx → ctx = cfg.contexts campaignID := fun ctx hctx ↦ by
    have hcontext := hans.2.1
    rw [eventCampaign, hcampaign, hctx] at hcontext
    exact hcontext
  generalize hfound : s.process.found ev.cardID ans.row = found at hdlr
  -- what the condition says about the state that is found
  have hlast : ∀ st, found = some st → st.awaitsReport →
      s.outstanding (ev.cardID, campaignID) = [] ∧
      ∃ last, lastMessage s.trace (ev.cardID, campaignID) = some last ∧
        last.2.step = st.currentStep ∧ ev.msgID = some last.1.msgID := by
    intro st hst hawaits
    obtain ⟨hempty, last, hlast, hstep, hmsg, -⟩ :=
      hguard st (hfound.trans hst) (Or.inl ⟨htype, hawaits⟩)
    rw [hfor] at hempty hlast
    rw [hmessage] at hmsg
    exact ⟨hempty, last, hlast, hstep, hmsg⟩
  cases hdlr with
  | quiet | awaits _ _ _ _ => exact h.quiet hh (Subperm.refl _) hwaiting
  | @delivered st ctx _ _ _ hst hdlr hctx' hcmd hadv =>
    obtain ⟨hempty, last, hl, hstep, hmsg⟩ := hlast st rfl hst
    refine h.advance hh hwaiting hadv hempty fun last' hl' ↦ ?_
    obtain rfl := some.inj (hl.symm.trans hl')
    obtain ⟨hcard, hcamp⟩ := Prod.mk.inj (mem_of_lastMessage hl).2
    refine ⟨hcard.symm, ?_⟩
    rw [hcamp, ← hctx ctx hctx', hstep, hcmd]
    exact ⟨htype, hdlr, hmsg⟩
  | @retries st ctx hst hdlr hctx hmax =>
    obtain ⟨hempty, last, hl, hstep, hmsg⟩ := hlast st rfl hst
    refine h.activates (Or.inl rfl) hh (Subperm.refl _) hwaiting rfl rfl hempty
      fun last' hl' hlt ↦ ?_
    obtain rfl := some.inj (hl.symm.trans hl')
    exact absurd hlt (not_lt.mpr hstep.ge)
  | partialSubmit hst hdlr hfin =>
    exact h.finish hh (Subperm.refl _) hwaiting hfin fun hc ↦ CardStatus.noConfusion hc
  | fails hst hdlr hsubmitted hctx hmax hfin =>
    exact h.finish hh (Subperm.refl _) hwaiting hfin fun hc ↦ CardStatus.noConfusion hc

/-- **Responses keep the order.** -/
theorem InOrder.responded {ans : Answers}
    (hguard : s.ReportsLast cfg ev ans answered) (htype : ev.type = .moReceived) {evicted : Bool}
    (hmo : MOOutcome ans ev (s.process.found ev.cardID ans.row) after outs evicted) :
    InOrder cfg s' := by
  have hwaiting := waiting_of_handles hh
  rw [htype, if_neg (by decide), ← waiting] at hwaiting
  have hmessage : ev.message answered = answered := by
    rw [CardEvent.message, htype, if_pos rfl]
  generalize hfound : s.process.found ev.cardID ans.row = found at hmo
  cases hmo with
  | quiet => exact h.quiet hh (Subperm.refl _) hwaiting
  | @responded st ctx _ _ _ _ hst hctx hcmd hadv =>
    obtain ⟨hempty, last, hl, hstep, hmsg, hexpects⟩ := hguard st hfound (Or.inr ⟨htype, hst⟩)
    refine h.advance hh hwaiting hadv hempty fun last' hl' ↦ ?_
    obtain rfl := some.inj (mem_def.mp hl ▸ hl')
    obtain ⟨hcard, hcamp⟩ := Prod.mk.inj (mem_of_lastMessage hl).2
    refine ⟨hcard.symm, ?_⟩
    rw [hcamp, hstep, hexpects htype]
    exact ⟨htype, hmessage ▸ hmsg⟩
  | rejected hst hctx hcmd hfin =>
    exact h.finish hh (Subperm.refl _) hwaiting hfin fun hc ↦ CardStatus.noConfusion hc

variable {ans : Answers} {msg : SendSMSMessage} {origin : PacketOrigin} {rest : List Output}

omit hh in
/-- The message of an activation that was due, with at most the transition to `in_progress` after
it. -/
theorem InOrder.sequenced_sent (hout : ev ∈ s.outstanding (ev.cardID, campaignID))
    (hh : Handles s s' ev answered after (.sms msg origin :: rest) counters)
    (hpair : (msg.cardID, msg.campaignID) = (ev.cardID, campaignID)) (hstep : origin.step = ev.step)
    (hrest : rest = [.change (activateChange ans ev campaignID)] ∨ rest = []) :
    Sequenced cfg s'.trace := by
  obtain ⟨raw, hraw, htrace⟩ := hh.trace
  rw [htrace]
  refine h.sequenced.append_visible hraw fun sent out later hsplit ↦ ?_
  cases hsent : visible sent with
  | nil =>
    rw [hsent] at hsplit
    obtain ⟨rfl, -⟩ := cons.inj hsplit
    intro last hlast hlt
    rw [hpair, lastMessage_append_handled ev answered (by rw [hsent]; rfl)] at hlast
    rw [hstep] at hlt
    exact (h.due _ ev hout last hlast hlt).append _
  | cons first sent' =>
    rw [hsent] at hsplit
    have hmem : out ∈ [Output.change (activateChange ans ev campaignID)] := by
      have hlater := (cons.inj hsplit).2
      rcases hrest with rfl | rfl
      · rw [hlater]
        exact mem_append_right _ mem_cons_self
      · exact absurd hlater.symm (by simp)
    rw [mem_singleton.mp hmem]
    exact fun hstatus ↦ CardStatus.noConfusion hstatus

omit hh in
theorem InOrder.sends (hout : ev ∈ s.outstanding (ev.cardID, campaignID))
    (hh : Handles s s' ev answered after (.sms msg origin :: rest) counters)
    (hbase : base.Subperm s.waiting) (hwaiting : s'.waiting.Perm
      (base ++ (eventsOf (.sms msg origin :: rest) ++ delayedOf (.sms msg origin :: rest))))
    (hempty : base.filter (CardEvent.isFor (ev.cardID, campaignID)) = [])
    (hpair : (msg.cardID, msg.campaignID) = (ev.cardID, campaignID)) (hstep : origin.step = ev.step)
    (hrest : rest = [.change (activateChange ans ev campaignID)] ∨ rest = []) : InOrder cfg s' := by
  have hnew : eventsOf (.sms msg origin :: rest) ++ delayedOf (.sms msg origin :: rest) = [] := by
    rcases hrest with rfl | rfl <;> rfl
  rw [hnew] at hwaiting
  refine h.step _ _ hwaiting hbase (h.sequenced_sent hout hh hpair hstep hrest)
    (acknowledged_of_handles hh) (fun pair hne ↦ ?_) (Nat.zero_le 1)
    (forall_mem_nil _)
  -- only the last message of the pair itself changes, and nothing is on its way for it
  obtain ⟨raw, hraw, htrace⟩ := hh.trace
  have hother : pair ≠ (ev.cardID, campaignID) := fun hp ↦ hne (hp ▸ hempty)
  have hsms : smsOf raw = [(msg, origin)] := by
    rw [smsOf_visible, hraw]
    rcases hrest with rfl | rfl <;> rfl
  have hfilter : [(msg, origin)].filter (fun p ↦ (p.1.cardID, p.1.campaignID) = pair) = [] := by
    rw [filter_cons_of_neg (by simpa [hpair] using hother.symm), filter_nil]
  rw [htrace, lastMessage, outputsOf_append, outputsOf_handled, smsOf_append, hsms,
    filter_append, hfilter, append_nil, lastMessage]

/-- **Activations keep the order.** -/
theorem InOrder.activated (hmem : ev ∈ s.activateCh) (htype : ev.type = .activate)
    (hcampaign : ev.campaignID = some campaignID)
    (hact : ActivateOutcome s.process ans ev campaignID after outs counters) : InOrder cfg s' := by
  have hwaiting := waiting_of_handles hh
  rw [htype, if_pos rfl] at hwaiting
  set base := s.activateCh.erase ev ++ s.delayed with hbasedef
  have herase : base = s.waiting.erase ev := (erase_append_left _ hmem).symm
  have hbase : base.Subperm s.waiting := herase ▸ erase_subperm _ _
  have hfor : ev.isFor (ev.cardID, campaignID) = true := decide_eq_true ⟨rfl, hcampaign⟩
  have hout : ev ∈ s.outstanding (ev.cardID, campaignID) :=
    mem_filter.mpr ⟨mem_append_left _ hmem, hfor⟩
  -- the activation was the only one of its card and campaign
  have hempty : base.filter (CardEvent.isFor (ev.cardID, campaignID)) = [] := by
    have hsingle := h.single (ev.cardID, campaignID)
    have hone : s.outstanding (ev.cardID, campaignID) = [ev] := by
      obtain ⟨x, hx⟩ := length_eq_one_iff.mp
        (le_antisymm hsingle (length_pos_of_mem hout))
      rw [hx] at hout ⊢
      rw [mem_singleton.mp hout]
    rw [herase, ← erase_filter, ← outstanding, hone, erase_cons_head]
  cases hact with
  | quiet | consumed _ _ | unsent _ _ _ => exact h.quiet hh hbase hwaiting
  | delayed hctx hcmd =>
    exact h.activates (Or.inr rfl) hh hbase hwaiting rfl rfl hempty
      fun last hlast hlt ↦ Or.inr (h.due _ ev hout last hlast hlt)
  | overflowed hctx hcmd hslot hover =>
    generalize s.process.found ev.cardID ans.row = found at hover
    cases hover with
    | quiet | unwritten _ _ => exact h.quiet hh hbase hwaiting
    | fails hcamp hst hch =>
      exact h.finish hh hbase hwaiting (.written hch) fun hc ↦ CardStatus.noConfusion hc
  | sent msg origin hctx hcmd hpass hmsg horigin hrest =>
    have hpair : (msg.cardID, msg.campaignID) = (ev.cardID, campaignID) := by
      rw [hmsg.2.1, hmsg.2.2]
    exact h.sends hout hh hbase hwaiting hempty hpair (by rw [horigin]) hrest

end Handled

theorem InOrder.handle (h : InOrder cfg s) {ev : CardEvent} {ans : Answers}
    {answered : Option UUID} (henabled : s.Enabled cfg (.handle ev ans answered))
    (hguard : s.ReportsLast cfg ev ans answered) : InOrder cfg (s.handle cfg ev ans answered) := by
  obtain ⟨after, outs, counters, hout, hh⟩ := s.handle_cases cfg ev ans answered
  cases hout with
  | activated htype hcampaign hact =>
    exact h.activated hh (henabled.1 htype) htype hcampaign hact
  | reported htype hcampaign hdlr => exact h.reported hh henabled.2 hguard htype hcampaign hdlr
  | responded htype hmo => exact h.responded hh hguard htype hmo
  | refused hcampaign htype =>
    have hwaiting := waiting_of_handles hh
    refine h.quiet hh ?_ hwaiting
    split_ifs
    · exact (erase_sublist.append (Sublist.refl _)).subperm
    · exact Subperm.refl _

theorem InOrder.silent (h : InOrder cfg s) {more : List TraceEvent}
    (hwaiting : s'.waiting = s.waiting) (htrace : s'.trace = s.trace ++ more)
    (hmore : ∀ out, TraceEvent.output out ∉ more) : InOrder cfg s' := by
  have hsms : smsOf (outputsOf more) = [] := by
    have houts : outputsOf more = [] := by
      rw [outputsOf, filterMap_eq_nil_iff]
      intro e he
      cases e with
      | output out => exact absurd he (hmore out)
      | _ => rfl
    rw [houts]
    rfl
  refine h.step s.waiting [] (by rw [hwaiting, append_nil])
    (Subperm.refl _) ?_ (fun p hp ↦ ?_) (fun pair _ ↦ ?_) (Nat.zero_le 1)
    (forall_mem_nil _)
  · rw [htrace]
    exact h.sequenced.append_silent hmore
  · rw [htrace]
    exact hp.append more
  · rw [htrace, lastMessage_append hsms]

theorem InOrder.next (h : InOrder cfg s) {a : EngineAction} (henabled : s.Enabled cfg a)
    (hguard : SequencingGuard cfg s a) : InOrder cfg (s.next cfg a) := by
  have haside : ∀ {a : EngineAction}, (∀ ev ans answered, a ≠ .handle ev ans answered) →
      (s.next cfg a).waiting = s.waiting → InOrder cfg (s.next cfg a) := by
    intro a ha hwaiting
    obtain ⟨more, htrace, hmore⟩ := s.exists_trace_next cfg ha
    exact h.silent hwaiting htrace fun out hout ↦ hmore _ hout
  cases a with
  | handle ev ans answered => exact h.handle henabled hguard
  | plan ev =>
    refine h.step s.waiting [ev] (s.waiting_plan cfg ev) (Subperm.refl _) h.sequenced
      (fun _ hp ↦ hp) (fun _ _ ↦ rfl) (le_refl 1) fun ev' hev' pair hfor ↦ ?_
    obtain rfl := mem_singleton.mp hev'
    obtain ⟨hcard, hcampaign⟩ := of_decide_eq_true hfor
    obtain ⟨hempty, hfurther⟩ := hguard pair.2 hcampaign
    rw [hcard] at hempty hfurther
    exact ⟨hempty, fun last hlast hlt ↦ absurd hlt (not_lt.mpr (hfurther last hlast))⟩
  | release ev =>
    refine h.step s.waiting [] ?_ (Subperm.refl _) h.sequenced (fun _ hp ↦ hp)
      (fun _ _ ↦ rfl) (Nat.zero_le 1) (forall_mem_nil _)
    rw [append_nil]
    exact waiting_release cfg henabled
  | preloadShard campaignID cardIDs keys rows =>
    refine haside (fun _ _ _ ↦ EngineAction.noConfusion) ?_
    cases keys <;> rfl
  | check campaignID =>
    exact haside (fun _ _ _ ↦ EngineAction.noConfusion) (s.waiting_check campaignID)
  | _ => exact haside (fun _ _ _ ↦ EngineAction.noConfusion) rfl

end Step

/-- **Commands and completions follow acknowledgements** in every run whose steps meet the
condition, from an engine that has sent nothing and has nothing on its way. -/
theorem runs_sequenced (cfg : EngineConfig) (s : Engine) (hstart : outputsOf s.trace = [])
    (hidle : s.waiting = []) (acts : List EngineAction)
    (hruns : (engine cfg).RunsUnder (SequencingGuard cfg) s acts) :
    Sequenced cfg ((engine cfg).after s acts).trace := by
  have hinit : InOrder cfg s := by
    refine ⟨fun before out after htrace ↦ ?_, fun pair ↦ ?_, fun pair ev hev ↦ ?_⟩
    · have hmem : out ∈ outputsOf s.trace :=
        mem_filterMap.mpr ⟨_, htrace ▸ mem_append_right _ mem_cons_self, rfl⟩
      rw [hstart] at hmem
      exact absurd hmem not_mem_nil
    · rw [outstanding, hidle]
      exact Nat.zero_le 1
    · rw [outstanding, hidle] at hev
      exact absurd hev not_mem_nil
  exact (hruns.invariant (fun s a hs henabled hguard ↦ hs.next henabled hguard) hinit).sequenced

/-! ## A repeated response

Two commands that expect a response. The card answers the first message twice; the repetition comes
in after the second message was published and completes the card. -/

namespace RepeatedResponse

def ctx : CampaignContext := plainContext [1, 2] 3

def cfg : EngineConfig := plainConfig ctx

def activate : CardEvent := plainActivate (.ofDigit 1) (.ofDigit 3)

def response : CardEvent := plainResponse (.ofDigit 1) (.ofDigit 3)

/-- The first message is published and answered, the second is published. -/
def twoMessages : List EngineAction :=
  [.plan activate, .handle activate (.plain ctx (.ofDigit 6)) none,
    .handle response (.plain ctx (.ofDigit 7)) (some (.ofDigit 6)),
    .handle (activation (.plain ctx (.ofDigit 7)) (.ofDigit 1) (.ofDigit 3) 2 0)
      (.plain ctx (.ofDigit 7)) none]

/-- Then a response comes in that answers the given message. -/
def answering (msgID : UUID) : List EngineAction :=
  twoMessages ++ [.handle response (.plain ctx (.ofDigit 8)) (some msgID)]

def start : Engine := .new fun _ ↦ some .running

/-- The completion that the repeated response causes. -/
def completion : CardStateChange :=
  { campaignID := .ofDigit 3, cardID := .ofDigit 1, status := .completed, currentStep := 0
    timestamp := 0, transitionSeq := 2, statsFrom := .inProgress, statsTo := .completed }

/-- A response to the message was handled. -/
def isAnswerTo (msgID : UUID) : TraceEvent → Bool
  | .handled ev answered => ev.type = .moReceived ∧ answered = some msgID
  | _ => false

end RepeatedResponse

open RepeatedResponse in
/-- Answered by its own response, the second message completes the card. -/
theorem runs_sequenced_answered :
    (engine cfg).RunsUnder (SequencingGuard cfg) start (answering (.ofDigit 7)) ∧
      .output (.change completion) ∈ ((engine cfg).after start (answering (.ofDigit 7))).trace ∧
      Sequenced cfg ((engine cfg).after start (answering (.ofDigit 7))).trace := by
  have hruns : (engine cfg).RunsUnder (SequencingGuard cfg) start (answering (.ofDigit 7)) := by
    decide +kernel
  exact ⟨hruns, by decide +kernel, runs_sequenced cfg start rfl rfl _ hruns⟩

open RepeatedResponse in
/-- A repeated response to the first message completes the card as well. -/
theorem completed_unacknowledged :
    outputsOf start.trace = [] ∧ start.waiting = [] ∧
      (engine cfg).Runs start (answering (.ofDigit 6)) ∧
      .output (.change completion) ∈ ((engine cfg).after start (answering (.ofDigit 6))).trace ∧
      ¬ Sequenced cfg ((engine cfg).after start (answering (.ofDigit 6))).trace := by
  let trace := ((engine cfg).after start (answering (.ofDigit 6))).trace
  have hlast : (lastMessage (trace.take 15) (.ofDigit 1, .ofDigit 3)).map
      (fun p ↦ (p.1.msgID, p.2.step)) = some (.ofDigit 7, 2) := by decide +kernel
  have hnone : ∀ e ∈ trace, isAnswerTo (.ofDigit 7) e = false := by decide +kernel
  refine ⟨rfl, rfl, ?_, by decide +kernel, fun h ↦ ?_⟩
  · unfold Machine.Runs
    decide +kernel
  · have hsplit : trace = trace.take 15 ++ .output (.change completion) :: trace.drop 16 := by
      decide +kernel
    obtain ⟨last, hlastMessage, hlast⟩ := map_eq_some_iff.mp hlast
    obtain ⟨hmsgID, hstep⟩ := Prod.mk.inj hlast
    obtain ⟨before, ev, answered, after, hbefore, -, -, hack⟩ :=
      h _ _ _ hsplit rfl last hlastMessage
    -- the second command expects a response, and the run has none that answers its message
    have hexpects : (cfg.contexts last.1.campaignID).expects last.2.step = true := by
      rw [hstep]
      rfl
    rw [if_pos hexpects, hmsgID] at hack
    have hmem : .handled ev answered ∈ trace :=
      mem_of_mem_take (hbefore ▸ mem_append_right _ mem_cons_self)
    exact absurd (decide_eq_true hack) (Bool.eq_false_iff.mp (hnone _ hmem))

end OtaPlatform
