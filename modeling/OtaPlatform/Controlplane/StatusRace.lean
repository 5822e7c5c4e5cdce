import OtaPlatform.Controlplane.Statements
import OtaPlatform.Engine.System
import OtaPlatform.Planner.Backlog

/-!
# Finished campaigns under concurrent requests

A campaign whose row says `aborted`, `completed` or `failed` is finished. Some of the updates of the
row are conditional: the update of a pause and the one of the completion checker apply to a running
campaign only. The others are not. A start, a resume and an abort read the status first and write it
later, and every request writes it a second time through the coordination store.

So a finished status can be overwritten, but only by a call that passed its check before. The
condition is therefore about the moment a campaign ends: no other call in flight may have an
unconditional write of another status to make. `finished_stays` says that it is enough.

## The argument

`Outstanding` says that a call may still write another status, with the status read as finished from
now on. A call that has not read the status yet has nothing outstanding (`not_outstanding_code`):
it will read a finished one. And the call that ends the campaign has nothing outstanding either
(`endsQuietly_code`). From then on nobody has, because steps that are answered from a finished row
only shorten what is outstanding.
-/

namespace OtaPlatform

open List Function Program

def CampaignStatus.finished : CampaignStatus → Bool
  | aborted | completed | failed => true
  | pending | running | paused | completedWithErrors => false

/-! ## Outstanding writes -/

/-- The answers while the row of the campaign has the finished status. -/
def whileFinished (campaignID : UUID) (status : CampaignStatus) : Allowed hostSignature
  | .selectStatus c, a => c = campaignID → a = some status
  | .pauseRunning c, a => c = campaignID → a = false
  | _, _ => True

/-- The statement writes another status to the row, whatever the row has. -/
def Overwrites (campaignID : UUID) (status : CampaignStatus) : HostOp → Prop
  | .updateStatus c written => c = campaignID ∧ written ≠ status
  | .startTransaction c _ _ | .resumeTransaction c _ _ => c = campaignID
  | _ => False

/-- The call may still overwrite the finished status. -/
def Outstanding {α : Type} (campaignID : UUID) (status : CampaignStatus) (p : Statements α) :
    Prop :=
  May (whileFinished campaignID status) (Overwrites campaignID status) p

def HostOp.Ends (campaignID : UUID) (status : CampaignStatus) (o : HostOp) : Prop :=
  o = .updateStatus campaignID status ∨ o = .finishRunning campaignID status

/-- Whoever ends the campaign at this call has nothing outstanding afterwards. -/
def EndsQuietly {α : Type} (campaignID : UUID) (o : HostOp)
    (k : hostSignature.Answer o → Statements α) : Prop :=
  ∀ status, status.finished = true → o.Ends campaignID status →
    ∀ a, ¬ Outstanding campaignID status (k a)

section Calls

variable {α : Type} {campaignID : UUID} {status : CampaignStatus} {refused : Bool}

theorem not_outstanding_exec_bind {o : HostOp} {f : hostSignature.Answer o → Statements α}
    (ho : ¬ Overwrites campaignID status o)
    (hf : ∀ a, whileFinished campaignID status o a → ¬ Outstanding campaignID status (f a)) :
    ¬ Outstanding campaignID status (o.exec >>= f) :=
  not_may_call.mpr ⟨ho, hf⟩

/-- Writing the finished status again is harmless, and so is writing to another campaign. -/
theorem not_outstanding_setCampaignStatus {c : UUID} {written : CampaignStatus}
    (h : c = campaignID → written = status) :
    ¬ Outstanding campaignID status (setCampaignStatus refused c written) := by
  rw [setCampaignStatus]
  split_ifs
  · exact not_may_pure _
  · refine not_outstanding_exec_bind ?_ fun _ _ ↦ not_may_call.mpr ⟨id, fun _ _ ↦ not_may_pure _⟩
    rintro ⟨hc, hne⟩
    exact hne (h hc)

private theorem not_outstanding_of_ne {cfg : HostConfig} {r : HostCall}
    (hr : r.campaignID ≠ campaignID) : ¬ Outstanding campaignID status (r.code cfg) := by
  refine not_may_of_only ((keepsTo_code cfg r).mono fun o _ ho hover ↦ ?_)
  cases o with
  | updateStatus c written => exact hr ((ho.within c rfl).symm.trans hover.1)
  | startTransaction c _ _ | resumeTransaction c _ _ =>
    exact hr ((ho.within c rfl).symm.trans hover)
  | _ => exact hover

private theorem not_outstanding_pause :
    ¬ Outstanding campaignID status (pauseStatements refused campaignID) := by
  refine not_outstanding_exec_bind id fun paused hpaused ↦ ?_
  obtain rfl := hpaused rfl
  exact not_may_pure _

private theorem not_outstanding_check :
    ¬ Outstanding campaignID status (checkStatements campaignID) := by
  refine not_outstanding_exec_bind id fun found _ ↦ ?_
  split_ifs
  · refine not_outstanding_exec_bind id fun stats _ ↦ ?_
    split
    · exact not_may_pure _
    · exact not_outstanding_exec_bind id fun _ _ ↦ not_may_pure _
  · exact not_may_pure _

private theorem not_outstanding_getCampaignStatus :
    ¬ Outstanding campaignID status (getCampaignStatus campaignID) := by
  refine not_may_of_only ((lookup_getCampaignStatus campaignID).mono fun o _ ho hover ↦ ?_)
  obtain ⟨hlookup, hwrites⟩ := ho
  cases hlookup with
  | updateStatus _ => cases hwrites
  | _ => exact hover

private theorem ne_none_of_getCampaignStatus {v : Option CampaignStatus}
    (h : MayReturn (whileFinished campaignID status) (getCampaignStatus campaignID) v) :
    v ≠ none := by
  rcases mayReturn_getCampaignStatus h with hfound | ⟨entry, -, rfl⟩
  · rw [hfound rfl]
    exact Option.some_ne_none _
  · exact Option.some_ne_none _

private theorem not_outstanding_lookupCampaignStatus :
    ¬ Outstanding campaignID status (lookupCampaignStatus refused campaignID) := by
  refine not_may_bind not_outstanding_getCampaignStatus fun found hfound ↦ ?_
  cases found with
  | some found => exact not_outstanding_exec_bind id fun _ _ ↦ not_may_pure _
  | none => exact absurd rfl (ne_none_of_getCampaignStatus hfound)

private theorem not_outstanding_activateFound (c : UUID) (ev : CardEvent) (ans : Answers)
    (found : Except String CampaignStatus) :
    ¬ Outstanding campaignID status (activateFound ev ans c found) := by
  cases found with
  | error err => exact not_may_pure _
  | ok found =>
    rw [activateFound]
    split_ifs
    · exact not_may_call.mpr ⟨id, fun _ _ ↦ not_may_pure _⟩
    · exact not_outstanding_exec_bind id fun _ _ ↦ not_may_pure _

private theorem not_outstanding_activate (ev : CardEvent) (ans : Answers) :
    ¬ Outstanding campaignID status (activateStatements refused ev ans campaignID) := by
  refine not_may_bind ?_ fun found _ ↦ not_outstanding_activateFound campaignID ev ans found
  refine not_outstanding_exec_bind id fun cached _ ↦ ?_
  cases cached with
  | none => exact not_outstanding_lookupCampaignStatus
  | some entry =>
    refine not_outstanding_exec_bind id fun now _ ↦ ?_
    split_ifs
    · exact not_may_pure _
    · exact not_outstanding_exec_bind id fun _ _ ↦ not_outstanding_lookupCampaignStatus

variable (hfinished : status.finished = true)

include hfinished

private theorem not_outstanding_start (cfg : ControlConfig) (gen : Generated) :
    ¬ Outstanding campaignID status (startStatements refused cfg gen campaignID) := by
  refine not_outstanding_exec_bind id fun pendingShards _ ↦ ?_
  split_ifs
  · exact not_may_pure _
  · refine not_outstanding_exec_bind id fun found hfound ↦ ?_
    obtain rfl := hfound rfl
    refine not_outstanding_exec_bind id fun commands _ ↦ ?_
    split_ifs with hpending
    · exact not_may_pure _
    · rw [not_not.mp hpending] at hfinished
      cases hfinished

private theorem not_outstanding_resume (gen : Generated) :
    ¬ Outstanding campaignID status (resumeStatements refused gen campaignID) := by
  refine not_outstanding_exec_bind id fun found hfound ↦ ?_
  split_ifs with hpaused
  · obtain rfl := hpaused
    obtain rfl := Option.some.inj (hfound rfl)
    cases hfinished
  · exact not_may_pure _

private theorem not_outstanding_abort (cardsRefused : Bool) (gen : Generated) :
    ¬ Outstanding campaignID status (abortStatements refused cardsRefused gen campaignID) := by
  refine not_outstanding_exec_bind id fun found hfound ↦ ?_
  obtain rfl := hfound rfl
  dsimp only
  split_ifs with hrefused
  · exact not_may_pure _
  · refine absurd ⟨?_, ?_⟩ hrefused
    · rintro rfl
      cases hfinished
    · rintro rfl
      cases hfinished

/-- **A new call has nothing outstanding.** It will find the campaign finished. -/
theorem not_outstanding_code (cfg : HostConfig) (r : HostCall) :
    ¬ Outstanding campaignID status (r.code cfg) := by
  by_cases hr : r.campaignID = campaignID
  · subst hr
    cases r with
    | start c gen _ => exact not_outstanding_start hfinished cfg.control gen
    | pause c _ => exact not_outstanding_pause
    | resume c gen _ => exact not_outstanding_resume hfinished gen
    | abort c gen _ cardsRefused => exact not_outstanding_abort hfinished cardsRefused gen
    | check c => exact not_outstanding_check
    | activate c ev ans _ => exact not_outstanding_activate ev ans
  · exact not_outstanding_of_ne hr

end Calls

/-! ## Whoever ends the campaign -/

section Ends

variable {α β : Type} {campaignID : UUID} (refused : Bool)

theorem not_ends_of_writesStatus {o : HostOp} (ho : o.writesStatus = false)
    (status : CampaignStatus) : ¬ o.Ends campaignID status := by
  rintro (rfl | rfl) <;> cases ho

theorem endsQuietly_exec_bind {o : HostOp} {f : hostSignature.Answer o → Statements α}
    (ho : o.writesStatus = false) (hf : ∀ a, Everywhere (EndsQuietly campaignID) (f a)) :
    Everywhere (EndsQuietly campaignID) (o.exec >>= f) :=
  ⟨fun status _ hends ↦ absurd hends (not_ends_of_writesStatus ho status), hf⟩

theorem endsQuietly_bind_of_writesStatus {p : Statements α} {f : α → Statements β}
    (hp : Only (fun o : HostOp ↦ o.writesStatus = false) p)
    (hf : ∀ v, Everywhere (EndsQuietly campaignID) (f v)) :
    Everywhere (EndsQuietly campaignID) (p >>= f) := by
  induction p with
  | ret v => exact hf v
  | call o k ih => exact endsQuietly_exec_bind hp.1 fun a ↦ ih a (hp.2 a)

theorem endsQuietly_bind {p : Statements α} {f : α → Statements β}
    (hp : Everywhere (EndsQuietly campaignID) p)
    (hf : ∀ v, Everywhere (EndsQuietly campaignID) (f v))
    (hquiet : ∀ v status, ¬ Outstanding campaignID status (f v)) :
    Everywhere (EndsQuietly campaignID) (p >>= f) := by
  induction p with
  | ret v => exact hf v
  | call o k ih =>
    refine ⟨fun status hfinished hends a ↦ ?_, fun a ↦ ih a (hp.2 a)⟩
    exact not_may_bind (hp.1 status hfinished hends a) fun v _ ↦ hquiet v status

/-- `SetCampaignStatus` may be followed by what has nothing outstanding for the status it sets. -/
theorem endsQuietly_setCampaignStatus_bind (c : UUID) (written : CampaignStatus)
    {f : Unit → Statements β} (hf : Everywhere (EndsQuietly campaignID) (f ()))
    (hquiet : written.finished = true → c = campaignID → ¬ Outstanding campaignID written (f ())) :
    Everywhere (EndsQuietly campaignID) (setCampaignStatus refused c written >>= f) := by
  cases refused with
  | true => exact hf
  | false =>
    refine ⟨?_, fun _ ↦ ⟨fun _ _ hends ↦ absurd hends (not_ends_of_writesStatus rfl _), fun _ ↦ hf⟩⟩
    rintro status hfinished (hends | hends) a
    · obtain ⟨rfl, rfl⟩ := HostOp.updateStatus.inj hends
      exact not_outstanding_exec_bind id fun _ _ ↦ hquiet hfinished rfl
    · cases hends

private theorem endsQuietly_of_sets (cfg : HostConfig) {r : HostCall}
    (hr : ∀ status, r.Sets status → status.finished = false) :
    Everywhere (EndsQuietly campaignID) (r.code cfg) := by
  refine (keepsTo_code cfg r).mono fun o k ho status hfinished hends ↦ ?_
  have hsets : o.sets = some status := by rcases hends with rfl | rfl <;> rfl
  rw [hr status (ho.sets status hsets)] at hfinished
  cases hfinished

private theorem endsQuietly_abort (cardsRefused : Bool) (gen : Generated) (c : UUID) :
    Everywhere (EndsQuietly campaignID) (abortStatements refused cardsRefused gen c) := by
  refine endsQuietly_exec_bind rfl fun found ↦ ?_
  cases found with
  | none => exact everywhere_pure _
  | some found =>
    dsimp only
    split_ifs
    · exact everywhere_pure _
    · -- the status is written twice, and both times the rest can only write it again
      refine ⟨?_, fun _ ↦ ?_⟩
      · rintro status hfinished (hends | hends) a
        · obtain ⟨rfl, rfl⟩ := HostOp.updateStatus.inj hends
          change ¬ Outstanding c .aborted (setCampaignStatus refused c .aborted >>= _)
          refine not_may_bind (not_outstanding_setCampaignStatus fun _ ↦ rfl) fun _ _ ↦ ?_
          cases cardsRefused with
          | true => exact not_may_pure _
          | false => exact not_outstanding_exec_bind id fun _ _ ↦ not_may_pure _
        · cases hends
      · cases cardsRefused with
        | true =>
          exact endsQuietly_setCampaignStatus_bind refused c .aborted (everywhere_pure _)
            fun _ _ ↦ not_may_pure _
        | false =>
          refine endsQuietly_setCampaignStatus_bind refused c .aborted ?_ fun _ _ ↦ ?_
          · exact endsQuietly_exec_bind rfl fun _ ↦ everywhere_pure _
          · exact not_outstanding_exec_bind id fun _ _ ↦ not_may_pure _

private theorem endsQuietly_check (c : UUID) :
    Everywhere (EndsQuietly campaignID) (checkStatements c) := by
  refine endsQuietly_exec_bind rfl fun found ↦ ?_
  split_ifs
  · refine endsQuietly_exec_bind rfl fun stats ↦ ?_
    split
    · exact everywhere_pure _
    · exact ⟨fun _ _ _ _ ↦ not_may_pure _, fun _ ↦ everywhere_pure _⟩
  · exact everywhere_pure _

private theorem endsQuietly_lookupCampaignStatus (c : UUID) :
    Everywhere (EndsQuietly campaignID) (lookupCampaignStatus refused c) := by
  refine endsQuietly_bind_of_writesStatus
    ((lookup_getCampaignStatus c).mono fun _ _ h ↦ h.2) fun found ↦ ?_
  cases found with
  | some found => exact endsQuietly_exec_bind rfl fun _ ↦ everywhere_pure _
  | none =>
    refine endsQuietly_exec_bind rfl fun found ↦ ?_
    cases found with
    | none => exact everywhere_pure _
    | some found =>
      refine endsQuietly_setCampaignStatus_bind refused c found ?_ fun _ _ ↦ ?_
      · exact endsQuietly_exec_bind rfl fun _ ↦ everywhere_pure _
      · exact not_outstanding_exec_bind id fun _ _ ↦ not_may_pure _

private theorem endsQuietly_activateFound (c : UUID) (ev : CardEvent) (ans : Answers)
    (found : Except String CampaignStatus) :
    Everywhere (EndsQuietly campaignID) (activateFound ev ans c found) := by
  cases found with
  | error err => exact everywhere_pure _
  | ok found =>
    rw [activateFound]
    split_ifs
    · exact ⟨fun _ _ _ _ ↦ not_may_pure _, fun _ ↦ everywhere_pure _⟩
    · exact endsQuietly_exec_bind rfl fun _ ↦ everywhere_pure _

private theorem endsQuietly_activate (c : UUID) (ev : CardEvent) (ans : Answers) :
    Everywhere (EndsQuietly campaignID) (activateStatements refused ev ans c) := by
  refine endsQuietly_bind ?_ (endsQuietly_activateFound c ev ans)
    fun found status ↦ not_outstanding_activateFound c ev ans found
  refine endsQuietly_exec_bind rfl fun cached ↦ ?_
  cases cached with
  | none => exact endsQuietly_lookupCampaignStatus refused c
  | some entry =>
    refine endsQuietly_exec_bind rfl fun now ↦ ?_
    split_ifs
    · exact everywhere_pure _
    · exact endsQuietly_exec_bind rfl fun _ ↦ endsQuietly_lookupCampaignStatus refused c

/-- **Whoever ends a campaign has nothing outstanding afterwards.** -/
theorem endsQuietly_code (campaignID : UUID) (cfg : HostConfig) (r : HostCall) :
    Everywhere (EndsQuietly campaignID) (r.code cfg) := by
  cases r with
  | start _ _ _ | pause _ _ | resume _ _ _ =>
    refine endsQuietly_of_sets cfg ?_
    rintro _ rfl
    rfl
  | abort c gen refused cardsRefused => exact endsQuietly_abort refused cardsRefused gen c
  | check c => exact endsQuietly_check c
  | activate c ev ans refused => exact endsQuietly_activate refused c ev ans

end Ends

/-! ## The row -/

section Row

variable {cfg : HostConfig} {s : Host} {campaignID : UUID} {status : CampaignStatus} {o : HostOp}

/-- A statement that does not overwrite it keeps a finished status, and is answered from it. -/
theorem campaigns_next_of_finished (cfg : HostConfig)
    (hrow : s.db.campaigns campaignID = some status)
    (hfinished : status.finished = true) (ho : ¬ Overwrites campaignID status o) :
    ((hostSemantics cfg).next s o).db.campaigns campaignID = some status := by
  have hrunning : s.db.campaigns campaignID ≠ some .running := by
    rw [hrow]
    rintro ⟨⟩
    cases hfinished
  rcases campaigns_next_cases cfg s o with h | ⟨c, written, hwrite, h⟩
  · rw [h, hrow]
  · rw [h]
    by_cases hc : campaignID = c
    · subst hc
      rw [update_self]
      cases hwrite with
      | update => rw [not_not.mp fun hne ↦ ho ⟨rfl, hne⟩]
      | finish _ _ hwas => exact absurd hwas hrunning
      | pause _ hwas => exact absurd hwas hrunning
      | start | resume => exact absurd rfl ho
    · rw [update_of_ne hc, hrow]

theorem whileFinished_answer (cfg : HostConfig) (hrow : s.db.campaigns campaignID = some status)
    (hfinished : status.finished = true) (o : HostOp) :
    whileFinished campaignID status o ((hostSemantics cfg).answer s o) := by
  cases o with
  | selectStatus c =>
    rintro rfl
    exact hrow
  | pauseRunning c =>
    rintro rfl
    refine decide_eq_false ?_
    rw [hrow]
    rintro ⟨⟩
    cases hfinished
  | _ => trivial

theorem ends_of_campaigns_next
    (hnext : ((hostSemantics cfg).next s o).db.campaigns campaignID = some status)
    (hfinished : status.finished = true) (hrow : s.db.campaigns campaignID ≠ some status) :
    o.Ends campaignID status := by
  rcases campaigns_next_cases cfg s o with h | ⟨c, written, hwrite, h⟩
  · rw [h] at hnext
    exact absurd hnext hrow
  · rw [h] at hnext
    by_cases hc : campaignID = c
    · subst hc
      rw [update_self] at hnext
      obtain rfl := Option.some.inj hnext
      cases hwrite with
      | update => exact Or.inl rfl
      | finish => exact Or.inr rfl
      | pause | start | resume => cases hfinished
    · rw [update_of_ne hc] at hnext
      exact absurd hnext hrow

end Row

/-! ## Runs -/

/-- The campaign ends only when no other call in flight has a write of another status outstanding:
a start or resume past its check, a pause past its update, an abort past its check unless the
campaign ends as `aborted`. -/
def FinishGuard (campaignID : UUID) (t : HostState) : HostAction → Prop
  | .step i => ∀ o k status, t.threads[i]? = some (.call o k) → status.finished = true →
      o.Ends campaignID status → t.shared.db.campaigns campaignID ≠ some status →
      ∀ j p, j ≠ i → t.threads[j]? = some p → ¬ Outstanding campaignID status p
  | _ => True

structure FinishInvariant (campaignID : UUID) (t : HostState) : Prop where
  /-- Whoever ends the campaign has nothing outstanding afterwards. -/
  ends : ∀ p ∈ t.threads, Everywhere (EndsQuietly campaignID) p
  quiet : ∀ status, status.finished = true → t.shared.db.campaigns campaignID = some status →
    ∀ p ∈ t.threads, ¬ Outstanding campaignID status p

section Runs

variable {cfg : HostConfig} {campaignID : UUID} {t : HostState} {status : CampaignStatus}

private theorem campaigns_environment {s : Host} {e : HostEvent}
    (he : hostEnvironment.Enabled s e) (hfinished : status.finished = true) :
    (hostEnvironment.next s e).db.campaigns campaignID = some status ↔
      s.db.campaigns campaignID = some status := by
  cases e with
  | flush _ _ | tick _ => exact Iff.rfl
  | create c commands targets =>
    change update s.db.campaigns c (some .pending) campaignID = some status ↔ _
    by_cases hc : campaignID = c
    · subst hc
      rw [update_self, he]
      constructor
      · rintro ⟨⟩
        cases hfinished
      · rintro ⟨⟩
    · rw [update_of_ne hc]

private theorem campaigns_stepAt (hinv : FinishInvariant campaignID t) {i : ℕ} {o : HostOp}
    {k : hostSignature.Answer o → Statements (Except String Unit)}
    (hthread : t.threads[i]? = some (.call o k)) (hfinished : status.finished = true)
    (hrow : t.shared.db.campaigns campaignID = some status) :
    (t.stepAt (hostSemantics cfg) i).shared.db.campaigns campaignID = some status := by
  have hquiet := hinv.quiet status hfinished hrow _ (mem_of_getElem? hthread)
  rw [Threads.stepAt_eq hthread]
  exact campaigns_next_of_finished cfg hrow hfinished (not_may_call.mp hquiet).1

private theorem finishInvariant_stepAt (hinv : FinishInvariant campaignID t) {i : ℕ} {o : HostOp}
    {k : hostSignature.Answer o → Statements (Except String Unit)}
    (hthread : t.threads[i]? = some (.call o k)) (hguard : FinishGuard campaignID t (.step i)) :
    FinishInvariant campaignID (t.stepAt (hostSemantics cfg) i) := by
  have hself := hinv.ends _ (mem_of_getElem? hthread)
  refine ⟨Threads.forall_threads_stepAt hthread (hself.2 _) ?_, fun status hfinished hrow ↦ ?_⟩
  · intro j p _ hp
    exact hinv.ends p (mem_of_getElem? hp)
  · rw [Threads.stepAt_eq hthread] at hrow
    by_cases hbefore : t.shared.db.campaigns campaignID = some status
    · -- the campaign had ended before: every thread has taken a step at most
      have hquiet := hinv.quiet status hfinished hbefore
      refine Threads.forall_threads_stepAt hthread ?_ fun j p _ hp ↦
        hquiet p (mem_of_getElem? hp)
      exact not_may_of_call (hquiet _ (mem_of_getElem? hthread))
        (whileFinished_answer cfg hbefore hfinished o)
    · -- it ends now
      have hends := ends_of_campaigns_next hrow hfinished hbefore
      exact Threads.forall_threads_stepAt hthread (hself.1 status hfinished hends _)
        (hguard o k status hthread hfinished hends hbefore)

private theorem finishInvariant_next (t : HostState) (a : HostAction)
    (hinv : FinishInvariant campaignID t) (henabled : (host cfg).Enabled t a)
    (hguard : FinishGuard campaignID t a) : FinishInvariant campaignID ((host cfg).next t a) := by
  cases a with
  | spawn r =>
    constructor
    · intro p hp
      rcases mem_append.mp hp with hp | hp
      · exact hinv.ends p hp
      · rw [mem_singleton.mp hp]
        exact endsQuietly_code campaignID cfg r
    · intro status hfinished hrow p hp
      rcases mem_append.mp hp with hp | hp
      · exact hinv.quiet status hfinished hrow p hp
      · rw [mem_singleton.mp hp]
        exact not_outstanding_code hfinished cfg r
  | step i =>
    obtain ⟨o, k, hthread⟩ := Threads.exists_call henabled
    exact finishInvariant_stepAt hinv hthread hguard
  | other e =>
    refine ⟨hinv.ends, fun status hfinished hrow ↦ ?_⟩
    exact hinv.quiet status hfinished ((campaigns_environment henabled hfinished).mp hrow)

private theorem campaigns_next_finished (hinv : FinishInvariant campaignID t) {a : HostAction}
    (henabled : (host cfg).Enabled t a) (hfinished : status.finished = true)
    (hrow : t.shared.db.campaigns campaignID = some status) :
    ((host cfg).next t a).shared.db.campaigns campaignID = some status := by
  cases a with
  | spawn r => exact hrow
  | step i =>
    obtain ⟨o, k, hthread⟩ := Threads.exists_call henabled
    exact campaigns_stepAt hinv hthread hfinished hrow
  | other e => exact (campaigns_environment henabled hfinished).mpr hrow

end Runs

/-- **Finished campaigns stay finished.** In every run under the guard, on a host without calls in
flight at first, no step after the campaign has ended changes its status. -/
theorem finished_stays (cfg : HostConfig) (campaignID : UUID) (s₀ : Host)
    (acts later : List HostAction)
    (hruns : (host cfg).RunsUnder (FinishGuard campaignID) ⟨s₀, [], []⟩ (acts ++ later))
    (status : CampaignStatus) (hfinished : status.finished = true)
    (hrow : ((host cfg).after ⟨s₀, [], []⟩ acts).shared.db.campaigns campaignID = some status) :
    ((host cfg).after ⟨s₀, [], []⟩ (acts ++ later)).shared.db.campaigns campaignID
      = some status := by
  obtain ⟨hacts, hlater⟩ := Machine.runsUnder_append.mp hruns
  have hinit : FinishInvariant campaignID ⟨s₀, [], []⟩ := ⟨nofun, fun _ _ _ ↦ nofun⟩
  have hinv := hacts.invariant finishInvariant_next hinit
  rw [Machine.after_append]
  refine (hlater.invariant (I := fun t ↦ FinishInvariant campaignID t ∧
    t.shared.db.campaigns campaignID = some status) ?_ ⟨hinv, hrow⟩).2
  rintro t a ⟨hinv, hrow⟩ henabled hguard
  exact ⟨finishInvariant_next t a hinv henabled hguard,
    campaigns_next_finished hinv henabled hfinished hrow⟩

/-! ## A pause and an abort -/

namespace PauseAndAbort

def cfg : HostConfig := ⟨{}, plainPackets, false⟩

def campaign : UUID := .ofDigit 1

/-- The campaign runs, and nothing is cached. -/
def start : Host where
  db := newDatabase.setStatus campaign .running
  statusCache _ := none
  campaignStatusCache _ := none
  process := (Engine.new fun _ ↦ none).process
  now := 0

def pauseWaits : List HostAction :=
  [.spawn (.pause campaign), .spawn (.abort campaign plainGenerated), .step 1, .step 1]

def pauseUpdated : List HostAction :=
  [.spawn (.pause campaign), .step 0, .spawn (.abort campaign plainGenerated), .step 1, .step 1]

end PauseAndAbort

open PauseAndAbort in
/-- A pause that comes too late leaves the campaign aborted. -/
theorem finished_stays_aborted :
    ((host cfg).after ⟨start, [], []⟩ (pauseWaits ++ [.step 0])).shared.db.campaigns campaign
      = some .aborted := by
  refine finished_stays cfg campaign start pauseWaits [.step 0] ?_ .aborted rfl rfl
  refine ⟨⟨trivial, trivial⟩, ⟨trivial, trivial⟩, ⟨rfl, ?_⟩, ⟨rfl, ?_⟩, ⟨rfl, ?_⟩, trivial⟩
  · intro o k status hthread _ hends
    cases hthread
    rcases hends with h | h <;> cases h
  · -- the abort ends the campaign, and the pause has not read the row yet
    intro o k status _ hfinished _ _ j p hj hp
    match j with
    | 0 =>
      cases hp
      exact not_outstanding_code hfinished cfg (.pause campaign)
    | 1 => exact absurd rfl hj
    | j + 2 => cases hp
  · intro o k status hthread _ hends
    cases hthread
    rcases hends with h | h <;> cases h

open PauseAndAbort in
/-- A pause whose first update came before writes `paused` once more. -/
theorem finished_overwritten :
    (host cfg).Runs ⟨start, [], []⟩ (pauseUpdated ++ [.step 0]) ∧
      ((host cfg).after ⟨start, [], []⟩ pauseUpdated).shared.db.campaigns campaign
        = some .aborted ∧
      ((host cfg).after ⟨start, [], []⟩ (pauseUpdated ++ [.step 0])).shared.db.campaigns campaign
        = some .paused := by
  refine ⟨?_, ?_, ?_⟩
  · unfold Machine.Runs
    decide +kernel
  · decide +kernel
  · decide +kernel

end OtaPlatform
