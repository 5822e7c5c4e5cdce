import OtaPlatform.Controlplane.StatusRace

/-!
# Stopping a campaign through two caches

A pause or an abort writes the row of the campaign and the cache of the coordination store. The
second write may be refused; the error is logged, and the request returns as if it had stopped. The
cache of the worker, which every activation asks first, is not written: for up to five seconds an
activation may go by what the worker saw before. And a lookup or a request that is in flight can
bring `running` back after the stop has returned.

So a stop takes effect when it settles (`Settled`): neither the row nor the store says `running`,
and no call in flight may write it there or into the cache of the worker. From then on an activation
that begins when the worker has no fresh entry saying `running` sends nothing (`stop_takes_effect`);
five seconds later it has none (`expired_of_settled`). A stop that no other call interferes with
does settle (`settled_of_stop`).

## The argument

After a settled stop nobody can read `running` from the row or the store, so nobody can store it
anywhere; in the cache of the worker the old entries are the only ones that say so, and they are no
younger than the stop. Both facts are kept by every step, for all calls in flight at once.
-/

namespace OtaPlatform

open List Function Program

/-! ## What brings `running` back -/

/-- The statement writes `running`, to the row of the campaign or to one of the caches. -/
def Revives (campaignID : UUID) : HostOp → Prop
  | .updateStatus c status | .storeStatus c status | .storeCampaignStatus c status =>
    c = campaignID ∧ status = .running
  | .startTransaction c _ _ | .resumeTransaction c _ _ => c = campaignID
  | _ => False

/-- The answers while neither the row nor the store says `running`. -/
def whileStopped (campaignID : UUID) : Allowed hostSignature
  | .selectStatus c, a => c = campaignID → a ≠ some .running
  | .loadStatus c, a => c = campaignID → ∀ entry, a = some entry → entry.status ≠ .running
  | _, _ => True

/-- The call may still bring `running` back. -/
def MayRevive {α : Type} (campaignID : UUID) (p : Statements α) : Prop :=
  May (whileStopped campaignID) (Revives campaignID) p

def HostCall.Restarts (campaignID : UUID) : HostCall → Prop
  | .start c _ _ | .resume c _ _ => c = campaignID
  | _ => False

section Calls

variable {α : Type} {campaignID : UUID} {refused : Bool}

theorem not_mayRevive_exec_bind {o : HostOp} {f : hostSignature.Answer o → Statements α}
    (ho : ¬ Revives campaignID o)
    (hf : ∀ a, whileStopped campaignID o a → ¬ MayRevive campaignID (f a)) :
    ¬ MayRevive campaignID (o.exec >>= f) :=
  not_may_call.mpr ⟨ho, hf⟩

theorem not_mayRevive_setCampaignStatus {c : UUID} {status : CampaignStatus}
    (h : c = campaignID → status ≠ .running) :
    ¬ MayRevive campaignID (setCampaignStatus refused c status) := by
  rw [setCampaignStatus]
  split_ifs
  · exact not_may_pure _
  · refine not_mayRevive_exec_bind (fun ho ↦ h ho.1 ho.2) fun _ _ ↦ ?_
    exact not_may_call.mpr ⟨fun ho ↦ h ho.1 ho.2, fun _ _ ↦ not_may_pure _⟩

/-- A call that does not write `running` to the campaign does not bring it back. -/
private theorem not_mayRevive_of_sets {cfg : HostConfig} {r : HostCall}
    (hr : r.campaignID = campaignID → ¬ r.Sets .running) : ¬ MayRevive campaignID (r.code cfg) := by
  refine not_may_of_only ((keepsTo_code cfg r).mono fun o _ ho hrevives ↦ ?_)
  have hwrites : o.campaignID = some campaignID ∧ o.sets = some .running := by
    cases o with
    | updateStatus _ _ | storeStatus _ _ | storeCampaignStatus _ _ =>
      exact ⟨congrArg some hrevives.1, congrArg some hrevives.2⟩
    | startTransaction _ _ _ | resumeTransaction _ _ _ => exact ⟨congrArg some hrevives, rfl⟩
    | _ => exact absurd hrevives id
  exact hr (ho.within _ hwrites.1).symm (ho.sets _ hwrites.2)

/-! ### Lookups -/

private theorem not_mayRevive_fetchCampaignStatus :
    ¬ MayRevive campaignID (fetchCampaignStatus campaignID) := by
  refine not_mayRevive_exec_bind id fun found hfound ↦ ?_
  cases found with
  | none => exact not_may_pure _
  | some found =>
    refine not_mayRevive_exec_bind (fun ho ↦ ?_) fun _ _ ↦ not_may_pure _
    exact hfound rfl (congrArg some ho.2)

private theorem not_mayRevive_getCampaignStatus :
    ¬ MayRevive campaignID (getCampaignStatus campaignID) := by
  refine not_mayRevive_exec_bind id fun cached _ ↦ ?_
  cases cached with
  | none => exact not_mayRevive_fetchCampaignStatus
  | some entry =>
    refine not_mayRevive_exec_bind id fun now _ ↦ ?_
    split_ifs
    · exact not_may_pure _
    · exact not_mayRevive_fetchCampaignStatus

private theorem ne_running_of_getCampaignStatus {v : Option CampaignStatus}
    (h : MayReturn (whileStopped campaignID) (getCampaignStatus campaignID) v) :
    v ≠ some .running := by
  rcases mayReturn_getCampaignStatus h with hfound | ⟨entry, hentry, rfl⟩
  · exact hfound rfl
  · exact fun hrunning ↦ hentry rfl entry rfl (Option.some.inj hrunning)

private theorem not_mayRevive_lookupCampaignStatus :
    ¬ MayRevive campaignID (lookupCampaignStatus refused campaignID) := by
  refine not_may_bind not_mayRevive_getCampaignStatus fun found hfound ↦ ?_
  cases found with
  | some found =>
    refine not_mayRevive_exec_bind (fun ho ↦ ?_) fun _ _ ↦ not_may_pure _
    exact ne_running_of_getCampaignStatus hfound (congrArg some ho.2)
  | none =>
    refine not_mayRevive_exec_bind id fun found hfound ↦ ?_
    cases found with
    | none => exact not_may_pure _
    | some found =>
      have hne : found ≠ .running := fun h ↦ hfound rfl (congrArg some h)
      refine not_may_bind (not_mayRevive_setCampaignStatus fun _ ↦ hne) fun _ _ ↦ ?_
      exact not_mayRevive_exec_bind (fun ho ↦ hne ho.2) fun _ _ ↦ not_may_pure _

private theorem ne_running_of_lookupCampaignStatus {v : Except String CampaignStatus}
    (h : MayReturn (whileStopped campaignID) (lookupCampaignStatus refused campaignID) v) :
    v ≠ .ok .running := by
  obtain ⟨found, hfound, h⟩ := mayReturn_bind h
  cases found with
  | some found =>
    obtain ⟨_, -, h⟩ := mayReturn_call h
    rw [mayReturn_pure h]
    rintro ⟨⟩
    exact ne_running_of_getCampaignStatus hfound rfl
  | none =>
    obtain ⟨found, hfound, h⟩ := mayReturn_call h
    cases found with
    | none =>
      rw [mayReturn_pure h]
      exact nofun
    | some found =>
      obtain ⟨_, -, h⟩ := mayReturn_bind (p := setCampaignStatus refused campaignID found) h
      obtain ⟨_, -, h⟩ := mayReturn_call h
      rw [mayReturn_pure h]
      rintro ⟨⟩
      exact hfound rfl rfl

/-- An activation may go by an entry of the worker, but it does not store it again. -/
private theorem not_mayRevive_activate (ev : CardEvent) (ans : Answers) :
    ¬ MayRevive campaignID (activateStatements refused ev ans campaignID) := by
  refine not_may_bind ?_ fun found _ ↦ ?_
  · refine not_mayRevive_exec_bind id fun cached _ ↦ ?_
    cases cached with
    | none => exact not_mayRevive_lookupCampaignStatus
    | some entry =>
      refine not_mayRevive_exec_bind id fun now _ ↦ ?_
      split_ifs
      · exact not_may_pure _
      · exact not_mayRevive_exec_bind id fun _ _ ↦ not_mayRevive_lookupCampaignStatus
  · cases found with
    | error err => exact not_may_pure _
    | ok found =>
      rw [activateFound]
      split_ifs
      · exact not_may_call.mpr ⟨id, fun _ _ ↦ not_may_pure _⟩
      · exact not_mayRevive_exec_bind id fun _ _ ↦ not_may_pure _

/-- **Only a start or a resume of the campaign brings `running` back.** -/
theorem not_mayRevive_code (cfg : HostConfig) {r : HostCall} (hr : ¬ r.Restarts campaignID) :
    ¬ MayRevive campaignID (r.code cfg) := by
  cases r with
  | start _ _ _ | resume _ _ _ => exact not_mayRevive_of_sets fun hc _ ↦ hr hc
  | pause _ _ | abort _ _ _ _ => exact not_mayRevive_of_sets fun _ ↦ nofun
  | check _ => exact not_mayRevive_of_sets fun _ h ↦ h rfl
  | activate c ev ans _ =>
    by_cases hc : c = campaignID
    · exact hc ▸ not_mayRevive_activate ev ans
    · exact not_mayRevive_of_sets fun h ↦ absurd h hc

end Calls

/-! ## A settled stop -/

/-- Neither the row nor the store says `running`, and no call in flight may bring it back. -/
structure Settled (campaignID : UUID) (t : HostState) : Prop where
  row : t.shared.db.campaigns campaignID ≠ some .running
  cache : ∀ entry, t.shared.statusCache campaignID = some entry → entry.status ≠ .running
  inFlight : ∀ p ∈ t.threads, ¬ MayRevive campaignID p

/-- No entry of the worker that is younger than the given time says `running`. -/
def Host.RunningBefore (campaignID : UUID) (time : ℤ) (s : Host) : Prop :=
  ∀ entry, s.campaignStatusCache campaignID = some entry → entry.status = .running →
    entry.cachedAt ≤ time

/-- An entry of the worker that says `running` has expired. -/
def Host.Expired (campaignID : UUID) (s : Host) : Prop :=
  s.RunningBefore campaignID (s.now - campaignStatusCacheTTL)

/-- The entries of the worker are not from the future. -/
def Host.CachedBefore (s : Host) : Prop :=
  ∀ c entry, s.campaignStatusCache c = some entry → entry.cachedAt ≤ s.now

section Steps

variable {cfg : HostConfig} {campaignID : UUID} {time : ℤ} {s : Host} {o : HostOp}

private theorem now_next (o : HostOp) : ((hostSemantics cfg).next s o).now = s.now := by
  cases o <;> rfl

private theorem campaignStatusCache_next_cases (cfg : HostConfig) (s : Host) (o : HostOp)
    (c : UUID) : ((hostSemantics cfg).next s o).campaignStatusCache c = s.campaignStatusCache c ∨
      ((hostSemantics cfg).next s o).campaignStatusCache c = none ∨
      ∃ status, o = .storeCampaignStatus c status ∧
        ((hostSemantics cfg).next s o).campaignStatusCache c = some ⟨status, s.now⟩ := by
  cases o with
  | storeCampaignStatus c' status =>
    by_cases hc : c = c'
    · subst hc
      exact Or.inr (Or.inr ⟨status, rfl, update_self _ _ _⟩)
    · exact Or.inl (update_of_ne hc _ _)
  | deleteCampaignStatus c' =>
    by_cases hc : c = c'
    · subst hc
      exact Or.inr (Or.inl (update_self _ _ _))
    · exact Or.inl (update_of_ne hc _ _)
  | _ => exact Or.inl rfl

private theorem statusCache_next_cases (cfg : HostConfig) (s : Host) (o : HostOp) (c : UUID) :
    ((hostSemantics cfg).next s o).statusCache c = s.statusCache c ∨
      ∃ status, o = .storeStatus c status ∧
        ((hostSemantics cfg).next s o).statusCache c = some ⟨status, s.now⟩ := by
  cases o with
  | storeStatus c' status =>
    by_cases hc : c = c'
    · subst hc
      exact Or.inr ⟨status, rfl, update_self _ _ _⟩
    · exact Or.inl (update_of_ne hc _ _)
  | _ => exact Or.inl rfl

private theorem cachedBefore_next (h : s.CachedBefore) (o : HostOp) :
    ((hostSemantics cfg).next s o).CachedBefore := by
  intro c entry hentry
  rw [now_next]
  rcases campaignStatusCache_next_cases cfg s o c with hsame | hnone | ⟨status, -, hstored⟩
  · exact h c entry (hsame.symm.trans hentry)
  · rw [hnone] at hentry
    cases hentry
  · rw [hstored] at hentry
    rw [← Option.some.inj hentry]

theorem whileStopped_answer (cfg : HostConfig) (hrow : s.db.campaigns campaignID ≠ some .running)
    (hcache : ∀ entry, s.statusCache campaignID = some entry → entry.status ≠ .running)
    (o : HostOp) : whileStopped campaignID o ((hostSemantics cfg).answer s o) := by
  cases o with
  | selectStatus c =>
    rintro rfl
    exact hrow
  | loadStatus c =>
    rintro rfl
    exact hcache
  | _ => trivial

private theorem row_next (hrow : s.db.campaigns campaignID ≠ some .running)
    (ho : ¬ Revives campaignID o) :
    ((hostSemantics cfg).next s o).db.campaigns campaignID ≠ some .running := by
  rcases campaigns_next_cases cfg s o with h | ⟨c, written, hwrite, h⟩
  · rw [h]
    exact hrow
  · rw [h]
    by_cases hc : campaignID = c
    · subst hc
      rw [update_self]
      rintro ⟨⟩
      cases hwrite with
      | update => exact ho ⟨rfl, rfl⟩
      | finish _ _ hwas => exact hrow hwas
      | start | resume => exact ho rfl
    · rw [update_of_ne hc]
      exact hrow

private theorem cache_next
    (hcache : ∀ entry, s.statusCache campaignID = some entry → entry.status ≠ .running)
    (ho : ¬ Revives campaignID o) :
    ∀ entry, ((hostSemantics cfg).next s o).statusCache campaignID = some entry →
      entry.status ≠ .running := by
  intro entry hentry
  rcases statusCache_next_cases cfg s o campaignID with hsame | ⟨status, rfl, hstored⟩
  · exact hcache entry (hsame.symm.trans hentry)
  · obtain rfl := Option.some.inj (hstored.symm.trans hentry)
    exact fun hrunning ↦ ho ⟨rfl, hrunning⟩

private theorem worker_next
    (hworker : s.RunningBefore campaignID time) (ho : ¬ Revives campaignID o) :
    ((hostSemantics cfg).next s o).RunningBefore campaignID time := by
  intro entry hentry hrunning
  rcases campaignStatusCache_next_cases cfg s o campaignID with
    hsame | hnone | ⟨status, rfl, hstored⟩
  · exact hworker entry (hsame.symm.trans hentry) hrunning
  · cases hnone.symm.trans hentry
  · obtain rfl := Option.some.inj (hstored.symm.trans hentry)
    exact absurd ⟨rfl, hrunning⟩ ho

end Steps

/-! ## Runs after the stop -/

/-- The campaign is not started or resumed. -/
def NoRestart (campaignID : UUID) (_ : HostState) : HostAction → Prop
  | .spawn r => ¬ r.Restarts campaignID
  | _ => True

/-- What is kept after a settled stop. -/
structure Stays (campaignID : UUID) (time : ℤ) (t : HostState) : Prop
    extends Settled campaignID t where
  worker : t.shared.RunningBefore campaignID time

section Runs

variable {cfg : HostConfig} {campaignID : UUID} {time : ℤ} {t : HostState}

private theorem settled_stepAt (h : Settled campaignID t) {i : ℕ} {o : HostOp}
    {k : hostSignature.Answer o → Statements (Except String Unit)}
    (hthread : t.threads[i]? = some (.call o k)) :
    Settled campaignID (t.stepAt (hostSemantics cfg) i) := by
  have hself := h.inFlight _ (mem_of_getElem? hthread)
  have ho := (not_may_call.mp hself).1
  have hthreads := Threads.forall_threads_stepAt (M := hostSemantics cfg) hthread
    (not_may_of_call hself (whileStopped_answer cfg h.row h.cache o))
    fun j p _ hp ↦ h.inFlight p (mem_of_getElem? hp)
  rw [Threads.stepAt_eq hthread] at hthreads ⊢
  exact ⟨row_next h.row ho, cache_next h.cache ho, hthreads⟩

private theorem row_environment {s : Host} (hrow : s.db.campaigns campaignID ≠ some .running)
    (e : HostEvent) : (hostEnvironment.next s e).db.campaigns campaignID ≠ some .running := by
  cases e with
  | flush _ _ | tick _ => exact hrow
  | create c commands targets =>
    change update s.db.campaigns c (some .pending) campaignID ≠ some .running
    by_cases hc : campaignID = c
    · subst hc
      rw [update_self]
      exact nofun
    · rw [update_of_ne hc]
      exact hrow

private theorem statusCache_environment (s : Host) (e : HostEvent) :
    (hostEnvironment.next s e).statusCache = s.statusCache := by
  cases e <;> rfl

private theorem campaignStatusCache_environment (s : Host) (e : HostEvent) :
    (hostEnvironment.next s e).campaignStatusCache = s.campaignStatusCache := by
  cases e <;> rfl

private theorem now_environment (s : Host) (e : HostEvent) :
    s.now ≤ (hostEnvironment.next s e).now := by
  cases e with
  | create _ _ _ | flush _ _ => exact le_refl _
  | tick ms => exact Int.le_add_of_nonneg_right (Int.natCast_nonneg ms)

private theorem settled_next (t : HostState) (a : HostAction) (h : Settled campaignID t)
    (henabled : (host cfg).Enabled t a) (hguard : NoRestart campaignID t a) :
    Settled campaignID ((host cfg).next t a) := by
  cases a with
  | spawn r =>
    refine ⟨h.row, h.cache, fun p hp ↦ ?_⟩
    rcases mem_append.mp hp with hp | hp
    · exact h.inFlight p hp
    · rw [mem_singleton.mp hp]
      exact not_mayRevive_code cfg hguard
  | step i =>
    obtain ⟨o, k, hthread⟩ := Threads.exists_call henabled
    exact settled_stepAt h hthread
  | other e =>
    refine ⟨row_environment h.row e, ?_, h.inFlight⟩
    exact (statusCache_environment t.shared e).symm ▸ h.cache

private theorem stays_next (t : HostState) (a : HostAction) (h : Stays campaignID time t)
    (henabled : (host cfg).Enabled t a) (hguard : NoRestart campaignID t a) :
    Stays campaignID time ((host cfg).next t a) := by
  refine ⟨settled_next t a h.toSettled henabled hguard, ?_⟩
  cases a with
  | spawn r => exact h.worker
  | step i =>
    obtain ⟨o, k, hthread⟩ := Threads.exists_call henabled
    have hself := h.inFlight _ (mem_of_getElem? hthread)
    change (t.stepAt (hostSemantics cfg) i).shared.RunningBefore campaignID time
    rw [Threads.stepAt_eq hthread]
    exact worker_next h.worker (not_may_call.mp hself).1
  | other e =>
    intro entry hentry
    exact h.worker entry (campaignStatusCache_environment t.shared e ▸ hentry)

/-- The clock and the entries of the worker are sound in every run of a process that started with
an empty cache. -/
private theorem cachedBefore_next_host (t : HostState) (a : HostAction) (h : t.shared.CachedBefore)
    (henabled : (host cfg).Enabled t a) : ((host cfg).next t a).shared.CachedBefore := by
  cases a with
  | spawn r => exact h
  | step i =>
    obtain ⟨o, k, hthread⟩ := Threads.exists_call henabled
    change (t.stepAt (hostSemantics cfg) i).shared.CachedBefore
    rw [Threads.stepAt_eq hthread]
    exact cachedBefore_next h o
  | other e =>
    intro c entry hentry
    have hold := h c entry (campaignStatusCache_environment t.shared e ▸ hentry)
    exact le_trans hold (now_environment t.shared e)

end Runs

/-! ## Carrying out the stop -/

/-- The call stops the campaign, and its `SetCampaignStatus` is not refused. -/
def HostCall.Stops (campaignID : UUID) : HostCall → Prop
  | .pause c refused | .abort c _ refused _ => c = campaignID ∧ refused = false
  | _ => False

def HostOp.StopsRow (campaignID : UUID) (o : HostOp) : Prop :=
  ∃ status, o = .updateStatus campaignID status ∧ status ≠ .running

def HostOp.StopsStore (campaignID : UUID) (o : HostOp) : Prop :=
  ∃ status, o = .storeStatus campaignID status ∧ status ≠ .running

/-- A call that returns without error has stopped the row and the store by then. What it has done
already is given. -/
def Stopping (campaignID : UUID) : Statements (Except String Unit) → Prop → Prop → Prop
  | .ret v, row, store => v = .ok () → row ∧ store
  | .call o k, row, store => ∀ a,
      Stopping campaignID (k a) (row ∨ o.StopsRow campaignID) (store ∨ o.StopsStore campaignID)

/-- No statement brings `running` back now. -/
def NoRevival (campaignID : UUID) (t : HostState) : HostAction → Prop
  | .step i => ∀ o k, t.threads[i]? = some (.call o k) → ¬ Revives campaignID o
  | _ => True

section Stop

variable {cfg : HostConfig} {campaignID : UUID} {t : HostState} {s : Host} {o : HostOp}

/-- `PauseCampaign` and `AbortCampaign` write both before they return. -/
private theorem stopping_code (cfg : HostConfig) {stop : HostCall}
    (hstop : stop.Stops campaignID) : Stopping campaignID (stop.code cfg) False False := by
  cases stop with
  | pause c _ =>
    obtain ⟨rfl, rfl⟩ := hstop
    have hpaused : CampaignStatus.paused ≠ .running := by decide
    intro paused
    cases paused with
    | false =>
      rintro ⟨⟩
    | true =>
      intro _ _ _
      exact ⟨Or.inl (Or.inr ⟨.paused, rfl, hpaused⟩), Or.inr ⟨.paused, rfl, hpaused⟩⟩
  | abort c gen _ cardsRefused =>
    obtain ⟨rfl, rfl⟩ := hstop
    have haborted : CampaignStatus.aborted ≠ .running := by decide
    intro found
    cases found with
    | none =>
      rintro ⟨⟩
    | some found =>
      simp only [Program.bind]
      split_ifs
      · rintro ⟨⟩
      · have hrow : (HostOp.updateStatus c .aborted).StopsRow c := ⟨.aborted, rfl, haborted⟩
        have hstore : (HostOp.storeStatus c .aborted).StopsStore c := ⟨.aborted, rfl, haborted⟩
        cases cardsRefused with
        | true => exact fun _ _ _ _ ↦ ⟨Or.inl (Or.inr hrow), Or.inr hstore⟩
        | false => exact fun _ _ _ _ _ ↦ ⟨Or.inl (Or.inl (Or.inr hrow)), Or.inl (Or.inr hstore)⟩
  | start _ _ _ | resume _ _ _ | check _ | activate _ _ _ _ => exact absurd hstop id

private theorem row_of_stopsRow (ho : o.StopsRow campaignID) :
    ((hostSemantics cfg).next s o).db.campaigns campaignID ≠ some .running := by
  obtain ⟨status, rfl, hstatus⟩ := ho
  change (s.db.updateStatus campaignID status).campaigns campaignID ≠ some .running
  rw [Database.updateStatus]
  split_ifs with hrow
  · change update s.db.campaigns campaignID (some status) campaignID ≠ some .running
    rw [update_self]
    exact fun h ↦ hstatus (Option.some.inj h)
  · intro h
    rw [h] at hrow
    exact hrow rfl

private theorem cache_of_stopsStore (ho : o.StopsStore campaignID) :
    ∀ entry, ((hostSemantics cfg).next s o).statusCache campaignID = some entry →
      entry.status ≠ .running := by
  obtain ⟨status, rfl, hstatus⟩ := ho
  intro entry hentry
  change update s.statusCache campaignID (some ⟨status, s.now⟩) campaignID = _ at hentry
  rw [update_self] at hentry
  obtain rfl := Option.some.inj hentry
  exact hstatus

/-- What is kept while the call in the given place stops the campaign. -/
def StopInvariant (campaignID : UUID) (i : ℕ) (t : HostState) : Prop :=
  ∃ p row store, t.threads[i]? = some p ∧ Stopping campaignID p row store ∧
    (row → t.shared.db.campaigns campaignID ≠ some .running) ∧
    (store → ∀ entry, t.shared.statusCache campaignID = some entry → entry.status ≠ .running)

private theorem stopInvariant_stepAt {i j : ℕ} (h : StopInvariant campaignID i t)
    {k : hostSignature.Answer o → Statements (Except String Unit)}
    (hthread : t.threads[j]? = some (.call o k)) (ho : ¬ Revives campaignID o) :
    StopInvariant campaignID i (t.stepAt (hostSemantics cfg) j) := by
  obtain ⟨p, row, store, hp, hstopping, hrow, hcache⟩ := h
  rw [Threads.stepAt_eq hthread]
  by_cases hij : j = i
  · subst hij
    obtain rfl := Option.some.inj (hp.symm.trans hthread)
    refine ⟨_, _, _, getElem?_set_self (List.getElem?_eq_some_iff.mp hthread).1,
      hstopping _, ?_, ?_⟩
    · rintro (hdone | hnow)
      · exact row_next (hrow hdone) ho
      · exact row_of_stopsRow hnow
    · rintro (hdone | hnow)
      · exact cache_next (hcache hdone) ho
      · exact cache_of_stopsStore hnow
  · refine ⟨p, row, store, (getElem?_set_ne hij).trans hp, hstopping, ?_, ?_⟩
    · exact fun hdone ↦ row_next (hrow hdone) ho
    · exact fun hdone ↦ cache_next (hcache hdone) ho

private theorem stopInvariant_next (i : ℕ) (t : HostState) (a : HostAction)
    (h : StopInvariant campaignID i t) (henabled : (host cfg).Enabled t a)
    (hguard : NoRevival campaignID t a) : StopInvariant campaignID i ((host cfg).next t a) := by
  cases a with
  | spawn r =>
    obtain ⟨p, row, store, hp, hrest⟩ := h
    refine ⟨p, row, store, ?_, hrest⟩
    exact (getElem?_append_left (List.getElem?_eq_some_iff.mp hp).1).trans hp
  | step j =>
    obtain ⟨o, k, hthread⟩ := Threads.exists_call henabled
    exact stopInvariant_stepAt h hthread (hguard o k hthread)
  | other e =>
    obtain ⟨p, row, store, hp, hstopping, hrow, hcache⟩ := h
    refine ⟨p, row, store, hp, hstopping, fun hdone ↦ row_environment (hrow hdone) e, ?_⟩
    exact fun hdone ↦ (statusCache_environment t.shared e).symm ▸ hcache hdone

/-- **A stop settles.** When it has returned without error, nobody has written `running` meanwhile
and no call in flight may still do so. -/
theorem settled_of_stop {stop : HostCall} (hstop : stop.Stops campaignID) {t₁ : HostState}
    {during : List HostAction}
    (hduring : (host cfg).Reaches (NoRevival campaignID) t (.spawn stop :: during) t₁)
    (hreturned : t₁.threads[t.threads.length]? = some (.ret (.ok ())))
    (hinFlight : ∀ p ∈ t₁.threads, ¬ MayRevive campaignID p) : Settled campaignID t₁ := by
  have hbegin : StopInvariant campaignID t.threads.length ((host cfg).next t (.spawn stop)) :=
    ⟨stop.code cfg, False, False, getElem?_concat_length, stopping_code cfg hstop, nofun,
      nofun⟩
  obtain ⟨p, row, store, hp, hstopping, hrow, hcache⟩ : StopInvariant campaignID _ t₁ :=
    hduring.after_eq ▸ hduring.runs.2.invariant (stopInvariant_next _) hbegin
  obtain rfl := Option.some.inj (hp.symm.trans hreturned)
  obtain ⟨hrowDone, hstoreDone⟩ := hstopping rfl
  exact ⟨hrow hrowDone, hcache hstoreDone, hinFlight⟩

end Stop

/-! ## An activation after the stop -/

/-- The answers to a call that begins when the entries of the worker have expired. -/
def whileExpired (campaignID : UUID) (time : ℤ) : Allowed hostSignature
  | .loadCampaignStatus c, a => c = campaignID → ∀ entry, a = some entry →
      entry.status = .running → entry.cachedAt ≤ time
  | .clock, a => time + campaignStatusCacheTTL ≤ a
  | o, a => whileStopped campaignID o a

/-- The part of an activation that sends. -/
def HostOp.Activates : HostOp → Prop
  | .activate _ _ _ => True
  | _ => False

section Activation

variable {cfg : HostConfig} {campaignID : UUID} {time : ℤ} {refused : Bool}

private theorem whileStopped_of_whileExpired (o : HostOp) (a : hostSignature.Answer o)
    (h : whileExpired campaignID time o a) : whileStopped campaignID o a := by
  cases o <;> first | exact h | trivial

/-- The worker does not find `running`: its entries have expired, and nobody else says so. -/
private theorem ne_running_of_getCampaignStatusCached {v : Except String CampaignStatus}
    (h : MayReturn (whileExpired campaignID time) (getCampaignStatusCached refused campaignID) v) :
    v ≠ .ok .running := by
  obtain ⟨cached, hcached, h⟩ := mayReturn_call h
  cases cached with
  | none => exact ne_running_of_lookupCampaignStatus (h.mono whileStopped_of_whileExpired)
  | some entry =>
    obtain ⟨now, hnow, h⟩ := mayReturn_call h
    simp only [Program.bind] at h
    split_ifs at h with hfresh
    · rw [mayReturn_pure h]
      rintro hrunning
      have hold := hcached rfl entry rfl (Except.ok.inj hrunning)
      have hlate : time + campaignStatusCacheTTL ≤ now := hnow
      omega
    · obtain ⟨_, -, h⟩ := mayReturn_call h
      exact ne_running_of_lookupCampaignStatus (h.mono whileStopped_of_whileExpired)

theorem not_may_activate (ev : CardEvent) (ans : Answers) :
    ¬ May (whileExpired campaignID time) HostOp.Activates
      (activateStatements refused ev ans campaignID) := by
  refine not_may_bind (not_may_of_only ?_) fun found hfound ↦ ?_
  · refine (lookup_getCampaignStatusCached refused campaignID).mono fun o _ ho ↦ ?_
    cases ho <;> exact id
  · have hne := ne_running_of_getCampaignStatusCached hfound
    cases found with
    | error err => exact not_may_pure _
    | ok found =>
      rw [activateFound, if_neg fun h ↦ hne (congrArg Except.ok h)]
      exact not_may_call.mpr ⟨id, fun _ _ ↦ not_may_pure _⟩

theorem whileExpired_answer {t : HostState} (cfg : HostConfig) (h : Stays campaignID time t)
    (hnow : time + campaignStatusCacheTTL ≤ t.shared.now) (o : HostOp) :
    whileExpired campaignID time o ((hostSemantics cfg).answer t.shared o) := by
  have hstopped := whileStopped_answer cfg h.row h.cache o
  cases o with
  | loadCampaignStatus c =>
    rintro rfl
    exact h.worker
  | clock => exact hnow
  | _ => exact hstopped

/-- What is kept for the call in the given place. -/
structure Silent (campaignID : UUID) (time : ℤ) (j : ℕ) (t : HostState) : Prop
    extends Stays campaignID time t where
  late : time + campaignStatusCacheTTL ≤ t.shared.now
  thread : ∃ p, t.threads[j]? = some p ∧
    ¬ May (whileExpired campaignID time) HostOp.Activates p
  silent : ∀ out, (j, out) ∉ t.outputs

private theorem output_eq_nil {s : Host} {o : HostOp} (ho : ¬ o.Activates) :
    (hostSemantics cfg).output s o = [] := by
  cases o with
  | activate ev ans c => exact absurd trivial ho
  | _ => rfl

private theorem silent_stepAt {t : HostState} {j : ℕ} (h : Silent campaignID time j t) {i : ℕ}
    {o : HostOp} {k : hostSignature.Answer o → Statements (Except String Unit)}
    (hthread : t.threads[i]? = some (.call o k))
    (hstays : Stays campaignID time (t.stepAt (hostSemantics cfg) i)) :
    Silent campaignID time j (t.stepAt (hostSemantics cfg) i) := by
  obtain ⟨p, hp, hquiet⟩ := h.thread
  rw [Threads.stepAt_eq hthread] at hstays ⊢
  refine ⟨hstays, (now_next o).symm ▸ h.late, ?_, ?_⟩
  · by_cases hij : i = j
    · subst hij
      obtain rfl := Option.some.inj (hp.symm.trans hthread)
      refine ⟨_, getElem?_set_self (List.getElem?_eq_some_iff.mp hthread).1, ?_⟩
      exact not_may_of_call hquiet (whileExpired_answer cfg h.toStays h.late o)
    · exact ⟨p, (getElem?_set_ne hij).trans hp, hquiet⟩
  · intro out hout
    rcases mem_append.mp hout with hout | hout
    · exact h.silent out hout
    · obtain ⟨sent, hsent, heq⟩ := mem_map.mp hout
      obtain ⟨rfl, -⟩ := Prod.mk.inj heq
      obtain rfl := Option.some.inj (hp.symm.trans hthread)
      rw [output_eq_nil (not_may_call.mp hquiet).1] at hsent
      cases hsent

private theorem silent_next (j : ℕ) (t : HostState) (a : HostAction)
    (h : Silent campaignID time j t) (henabled : (host cfg).Enabled t a)
    (hguard : NoRestart campaignID t a) : Silent campaignID time j ((host cfg).next t a) := by
  have hstays := stays_next t a h.toStays henabled hguard
  obtain ⟨p, hp, hquiet⟩ := h.thread
  cases a with
  | spawn r =>
    refine ⟨hstays, h.late, ⟨p, ?_, hquiet⟩, h.silent⟩
    exact (getElem?_append_left (List.getElem?_eq_some_iff.mp hp).1).trans hp
  | step i =>
    obtain ⟨o, k, hthread⟩ := Threads.exists_call henabled
    exact silent_stepAt h hthread hstays
  | other e =>
    exact ⟨hstays, le_trans h.late (now_environment t.shared e), ⟨p, hp, hquiet⟩, h.silent⟩

end Activation

/-! ## The stop takes effect -/

section Effect

variable {cfg : HostConfig} {campaignID : UUID} {s₀ : Host} {t t₁ t₂ : HostState}
  {before between : List HostAction}

/-- After a settled stop the entries of the worker expire within five seconds, whatever was looked
up before it. -/
theorem expired_of_settled (hcache : s₀.campaignStatusCache = fun _ ↦ none)
    (hbefore : (host cfg).Reaches (fun _ _ ↦ True) ⟨s₀, [], []⟩ before t₁)
    (hsettled : Settled campaignID t₁)
    (hbetween : (host cfg).Reaches (NoRestart campaignID) t₁ between t₂)
    (hlate : t₁.shared.now + campaignStatusCacheTTL ≤ t₂.shared.now) :
    t₂.shared.Expired campaignID := by
  have hempty : s₀.CachedBefore := by
    intro c entry hentry
    rw [hcache] at hentry
    cases hentry
  have hcached : t₁.shared.CachedBefore :=
    hbefore.invariant (I := fun t ↦ t.shared.CachedBefore)
      (fun t a h henabled _ ↦ cachedBefore_next_host t a h henabled) hempty
  have hstays : Stays campaignID t₁.shared.now t₂ :=
    hbetween.invariant stays_next ⟨hsettled, fun entry hentry _ ↦ hcached _ entry hentry⟩
  intro entry hentry hrunning
  have hold := hstays.worker entry hentry hrunning
  omega

private theorem outputs_lt_of_reaches {G : HostState → HostAction → Prop}
    (h : (host cfg).Reaches G t between t₁)
    (hstarted : ∀ out ∈ t.outputs, out.1 < t.threads.length) :
    ∀ out ∈ t₁.outputs, out.1 < t₁.threads.length :=
  h.invariant (I := fun t ↦ ∀ out ∈ t.outputs, out.1 < t.threads.length)
    (fun _ _ hstarted henabled _ ↦ Threads.outputs_lt_next henabled hstarted) hstarted

/-- **Stopping takes effect.** A pause or an abort has returned without error, and its write to the
store was not refused; while it was carried out nobody wrote `running`, and no call in flight may
still do so. Then an activation that begins
when the worker has no entry saying `running`, or only an expired one, sends nothing, until the
campaign is started or resumed. -/
theorem stop_takes_effect (cfg : HostConfig) (campaignID : UUID) (s₀ : Host)
    (before during between rest : List HostAction) (stop : HostCall) (ev : CardEvent)
    (ans : Answers) (refused : Bool) (t₀ t₁ t₂ t₃ : HostState)
    (hbefore : (host cfg).Reaches (fun _ _ ↦ True) ⟨s₀, [], []⟩ before t₀)
    (hstop : stop.Stops campaignID)
    (hduring : (host cfg).Reaches (NoRevival campaignID) t₀ (.spawn stop :: during) t₁)
    (hreturned : t₁.threads[t₀.threads.length]? = some (.ret (.ok ())))
    (hinFlight : ∀ p ∈ t₁.threads, ¬ MayRevive campaignID p)
    (hbetween : (host cfg).Reaches (NoRestart campaignID) t₁ between t₂)
    (hexpired : t₂.shared.Expired campaignID)
    (hrest : (host cfg).Reaches (NoRestart campaignID) t₂
      (.spawn (.activate campaignID ev ans refused) :: rest) t₃) :
    ∀ out, (t₂.threads.length, out) ∉ t₃.outputs := by
  have hsettled : Settled campaignID t₂ :=
    hbetween.invariant settled_next (settled_of_stop hstop hduring hreturned hinFlight)
  have hbegin : Silent campaignID (t₂.shared.now - campaignStatusCacheTTL) t₂.threads.length
      ((host cfg).next t₂ (.spawn (.activate campaignID ev ans refused))) := by
    have hstays := stays_next t₂ _ ⟨hsettled, hexpired⟩ hrest.runs.1.1 hrest.runs.1.2
    refine ⟨hstays, ?_, ⟨_, getElem?_concat_length, not_may_activate ev ans⟩, ?_⟩
    · exact le_of_eq (Int.sub_add_cancel _ _)
    · intro out hout
      have hstarted : ∀ out ∈ t₀.outputs, out.1 < t₀.threads.length :=
        outputs_lt_of_reaches hbefore (forall_mem_nil _)
      have hstarted₂ := outputs_lt_of_reaches hbetween (outputs_lt_of_reaches hduring hstarted)
      exact Nat.lt_irrefl _ (hstarted₂ _ hout)
  have hsilent : Silent campaignID _ t₂.threads.length t₃ :=
    hrest.after_eq ▸ hrest.runs.2.invariant (silent_next _) hbegin
  exact hsilent.silent

end Effect

/-! ## A campaign that is paused while it runs -/

namespace PausedWhileCached

def ctx : CampaignContext := plainContext [1] 1

def cfg : HostConfig := PauseAndAbort.cfg

def campaign : UUID := .ofDigit 3

/-- The campaign runs, and nothing is cached. -/
def start : Host where
  db := newDatabase.setStatus campaign .running
  statusCache _ := none
  campaignStatusCache _ := none
  process := (Engine.new fun _ ↦ none).process
  now := 0

def activation (card : UUID) : HostCall :=
  .activate campaign (plainActivate card campaign) (.plain ctx (.ofDigit 6))

/-- The first card is activated, and the worker remembers that the campaign runs. -/
def lookedUp : List HostAction :=
  .spawn (activation (.ofDigit 1)) :: replicate 6 (.step 0)

def pausing : List HostAction := replicate 3 (.step 1)

def again : List HostAction := .spawn (activation (.ofDigit 2)) :: replicate 3 (.step 2)

def active : HostState := (host cfg).after ⟨start, [], []⟩ lookedUp

def paused : HostState := (host cfg).after active (.spawn (.pause campaign) :: pausing)

def later (ms : ℕ) : HostState := (host cfg).after paused [.other (.tick ms)]

end PausedWhileCached

open PausedWhileCached in
/-- After five seconds the pause has taken effect. -/
theorem stop_takes_effect_paused :
    ¬ ∃ out, (2, out) ∈ ((host cfg).after (later 5000) again).outputs := by
  refine not_exists.mpr <| stop_takes_effect cfg campaign start lookedUp pausing
    [.other (.tick 5000)] (replicate 3 (.step 2)) (.pause campaign) _ _ false active paused
    (later 5000) _ ⟨?_, rfl⟩ ⟨rfl, rfl⟩
    ⟨⟨⟨trivial, trivial⟩, ?_⟩, rfl⟩ rfl ?_ ⟨⟨⟨trivial, trivial⟩, trivial⟩, rfl⟩ ?_ ⟨?_, rfl⟩
  · decide +kernel
  · refine ⟨⟨rfl, ?_⟩, ⟨rfl, ?_⟩, ⟨rfl, ?_⟩, trivial⟩
    · intro o k hthread
      cases hthread
      exact id
    · intro o k hthread
      cases hthread
      exact fun h ↦ nomatch h.2
    · intro o k hthread
      cases hthread
      exact fun h ↦ nomatch h.2
  · have hthreads : paused.threads = [.ret (.ok ()), .ret (.ok ())] := rfl
    intro p hp
    rw [hthreads, mem_cons, mem_singleton, or_self] at hp
    rw [hp]
    exact not_may_pure _
  · intro entry hentry _
    cases hentry
    decide
  · refine ⟨⟨trivial, id⟩, ⟨rfl, trivial⟩, ⟨rfl, trivial⟩, ⟨rfl, trivial⟩, trivial⟩

open PausedWhileCached in
/-- The entry of the first activation has expired then. -/
theorem expired_of_settled_paused : (later 5000).shared.Expired campaign := by
  refine @expired_of_settled cfg campaign start paused _
    (lookedUp ++ .spawn (.pause campaign) :: pausing) [.other (.tick 5000)] rfl
    ⟨by decide +kernel, rfl⟩ ⟨by decide +kernel, fun entry hentry ↦ ?_, fun p hp ↦ ?_⟩
    ⟨⟨⟨trivial, trivial⟩, trivial⟩, rfl⟩ (by decide +kernel)
  · cases hentry
    decide
  · rw [show paused.threads = [.ret (.ok ()), .ret (.ok ())] from rfl, mem_cons, mem_singleton,
      or_self] at hp
    exact hp ▸ not_may_pure _

open PausedWhileCached in
/-- One second after the pause an activation goes by what the worker saw before, and sends. -/
theorem stop_ignored_while_cached :
    (host cfg).Runs ⟨start, [], []⟩
        (lookedUp ++ .spawn (.pause campaign) :: pausing ++ .other (.tick 1000) :: again) ∧
      paused.threads[1]? = some (.ret (.ok ())) ∧
      (((host cfg).after (later 1000) again).outputs.filter fun out ↦
        out.1 = 2 && !(smsOf [out.2]).isEmpty).length = 1 := by
  refine ⟨?_, rfl, ?_⟩
  · unfold Machine.Runs
    decide +kernel
  · decide +kernel

end OtaPlatform
