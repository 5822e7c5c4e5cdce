import OtaPlatform.Planner.Shards

/-!
# What becomes of claimed shards

The planner publishes the shards it has claimed one after the other and then writes back what became
of them: those that went out are published, those on the list of resets are pending again, and a
shard on neither list stays as the claim left it.

## Failures

A publisher may fail at any shard. What it has delivered of that shard by then is a number the
publishing loop knows only when it publishes event by event. `publishUntil` is the loop with a
failure of any kind at any place; the channel, which takes a number of events and then no more, is
one such publisher (`publishLoop_eq_publishUntil`).

## Exits

The loop has three exits besides its end. `PublishExit` says for each what was delivered and what is
written back, and everything else follows from it.

* `noneStranded_iff`: no claimed shard is stranded, unless one that cannot be decoded is met before
  the last one.
* `publishAlike_iff`: publishing in batches does the same as publishing event by event, unless the
  channel stops inside a shard.
-/

namespace OtaPlatform

open Option ShardTable List

/-! ## Publishing with failures -/

/-- The publisher fails at a shard with these events, after it has delivered a number of them. Event
by event, there is no failure once all of them are delivered. -/
def StrikesAt (batch : Bool) (events : List CardEvent) : Option ℕ → Prop
  | none => False
  | some delivered => batch = true ∨ delivered < events.length

instance (batch : Bool) (events : List CardEvent) (failure : Option ℕ) :
    Decidable (StrikesAt batch events failure) :=
  match failure with
  | none => inferInstanceAs (Decidable False)
  | some delivered => inferInstanceAs (Decidable (batch = true ∨ delivered < events.length))

/-- The publishing loop, with the failures of the publisher given by the place of the shard in the
list. -/
def publishUntil (batch : Bool) : List CampaignShard → (ℕ → Option ℕ) → Publication
  | [], _ => {}
  | shard :: rest, failures =>
    match shard.items with
    | none => { pendingResetIDs := [shard.id] }
    | some events =>
      if StrikesAt batch events (failures 0) then
        let delivered := (failures 0).getD 0
        { events := events.take delivered
          pendingResetIDs := (if batch || delivered = 0 then [shard.id] else []) ++
            rest.map CampaignShard.id }
      else
        let p := publishUntil batch rest fun i ↦ failures (i + 1)
        { p with events := events ++ p.events, publishedIDs := shard.id :: p.publishedIDs }

/-- The status updates, when both succeed. -/
def ShardTable.writeBack (t : ShardTable) (p : Publication) : ShardTable :=
  (t.update (fun shard ↦ shard.id ∈ p.pendingResetIDs) .pending fun _ ↦ none).update
    (fun shard ↦ shard.id ∈ p.publishedIDs) .published CampaignShard.claimedAt

/-- Publishing the claimed shards with a publisher that may fail, when the status updates
succeed: the table afterwards and the delivered events. -/
def publishClaimedUntil (t : ShardTable) (batch : Bool) (claimed : List CampaignShard)
    (failures : ℕ → Option ℕ) : ShardTable × List CardEvent :=
  (t.writeBack (publishUntil batch claimed failures), (publishUntil batch claimed failures).events)

/-! ## The channel as a publisher -/

def eventsOfShards (shards : List CampaignShard) : List CardEvent :=
  shards.flatMap CampaignShard.events

@[simp] theorem eventsOfShards_cons (shard : CampaignShard) (rest : List CampaignShard) :
    eventsOfShards (shard :: rest) = shard.events ++ eventsOfShards rest := rfl

@[simp] theorem eventsOfShards_append (before after : List CampaignShard) :
    eventsOfShards (before ++ after) = eventsOfShards before ++ eventsOfShards after :=
  flatMap_append

/-- The failures of a channel that takes `room` events and then no more. -/
def channelFailures (claimed : List CampaignShard) (room : Option ℕ) (i : ℕ) : Option ℕ :=
  match room with
  | none => none
  | some n =>
    if n < (eventsOfShards (claimed.take (i + 1))).length then
      some (n - (eventsOfShards (claimed.take i)).length)
    else none

theorem channelFailures_zero (shard : CampaignShard) (rest : List CampaignShard) (n : ℕ) :
    channelFailures (shard :: rest) (some n) 0
      = if n < shard.events.length then some n else none := by
  simp [channelFailures, eventsOfShards]

variable {shard : CampaignShard}

theorem channelFailures_succ {n : ℕ} (hle : shard.events.length ≤ n)
    (rest : List CampaignShard) (i : ℕ) : channelFailures (shard :: rest) (some n) (i + 1)
      = channelFailures rest (some (n - shard.events.length)) i := by
  simp only [channelFailures, take_succ_cons, eventsOfShards_cons, length_append]
  have hiff : n < shard.events.length + (eventsOfShards (rest.take (i + 1))).length ↔
      n - shard.events.length < (eventsOfShards (rest.take (i + 1))).length := by omega
  rw [if_congr hiff rfl rfl, Nat.sub_add_eq]

/-- **The channel is a publisher that fails once.** -/
theorem publishLoop_eq_publishUntil (batch : Bool) (claimed : List CampaignShard)
    (room : Option ℕ) :
    publishLoop batch claimed room = publishUntil batch claimed (channelFailures claimed room) := by
  induction claimed generalizing room with
  | nil => rfl
  | cons shard rest ih =>
    cases hitems : shard.items with
    | none => simp only [publishLoop, publishUntil, hitems]
    | some events =>
      have hevents : shard.events = events := by rw [CampaignShard.events, hitems, getD_some]
      cases room with
      | none =>
        have hnone : ¬ StrikesAt batch events (channelFailures (shard :: rest) none 0) := id
        simp only [publishLoop, publishUntil, hitems, if_neg hnone, ih none]
        rfl
      | some n =>
        by_cases hle : events.length ≤ n
        · have hnone : channelFailures (shard :: rest) (some n) 0 = none := by
            rw [channelFailures_zero, hevents, if_neg (by omega)]
          have hstrike : ¬ StrikesAt batch events (channelFailures (shard :: rest) (some n) 0) := by
            rw [hnone]
            exact id
          have hrest : (fun i ↦ channelFailures (shard :: rest) (some n) (i + 1))
              = channelFailures rest (some (n - events.length)) := by
            funext i
            rw [channelFailures_succ (hevents.symm ▸ hle), hevents]
          simp only [publishLoop, publishUntil, hitems, if_pos hle, if_neg hstrike, hrest, ih]
        · have hsome : channelFailures (shard :: rest) (some n) 0 = some n := by
            rw [channelFailures_zero, hevents, if_pos (by omega)]
          have hstrike : StrikesAt batch events (some n) := Or.inr (by omega)
          simp only [publishLoop, publishUntil, hitems, if_neg hle, hsome, if_pos hstrike,
            getD_some]

theorem publishClaimedShards_eq_until (t : ShardTable) {ans : PlannerAnswers}
    (hreset : ans.resetFails = false) (hmark : ans.markFails = false) :
    publishClaimedShards t ans = publishClaimedUntil t ans.batch ans.claimed
      (channelFailures ans.claimed ans.room) := by
  simp only [publishClaimedShards, publishClaimedUntil, writeBack, hreset, hmark,
    Bool.false_eq_true, if_false, publishLoop_eq_publishUntil]

/-! ## The exits of the loop -/

/-- All of these shards go out: they decode and the publisher does not fail at one of them. -/
def GoOut (batch : Bool) : List CampaignShard → (ℕ → Option ℕ) → Prop
  | [], _ => True
  | shard :: rest, failures =>
    (shard.items.isSome = true ∧ ¬ StrikesAt batch shard.events (failures 0)) ∧
      GoOut batch rest fun i ↦ failures (i + 1)

inductive PublishExit (batch : Bool) (claimed : List CampaignShard) (failures : ℕ → Option ℕ) :
    Publication → Prop
  | done (hout : GoOut batch claimed failures) :
    PublishExit batch claimed failures
      { events := eventsOfShards claimed, publishedIDs := claimed.map CampaignShard.id }
  /-- The publisher failed at a shard. The shards behind it are put back. -/
  | failed {before : List CampaignShard} {shard : CampaignShard} {after : List CampaignShard}
      {delivered : ℕ} (hsplit : claimed = before ++ shard :: after)
      (hout : GoOut batch before failures) (hitems : shard.items.isSome = true)
      (hfailure : failures before.length = some delivered)
      (hstrike : StrikesAt batch shard.events (some delivered)) :
    PublishExit batch claimed failures
      { events := eventsOfShards before ++ shard.events.take delivered
        publishedIDs := before.map CampaignShard.id
        pendingResetIDs := (if batch || delivered = 0 then [shard.id] else []) ++
          after.map CampaignShard.id }
  /-- A shard did not decode. The shards behind it are on neither list. -/
  | undecodable {before : List CampaignShard} {shard : CampaignShard} {after : List CampaignShard}
      (hsplit : claimed = before ++ shard :: after) (hout : GoOut batch before failures)
      (hitems : shard.items = none) :
    PublishExit batch claimed failures
      { events := eventsOfShards before, publishedIDs := before.map CampaignShard.id
        pendingResetIDs := [shard.id] }

variable {p : Publication}

/-- A shard that went out before the others does not change how they end. -/
theorem PublishExit.cons {batch : Bool} {rest : List CampaignShard} {failures : ℕ → Option ℕ}
    (hitems : shard.items.isSome = true) (hstrike : ¬ StrikesAt batch shard.events (failures 0))
    (h : PublishExit batch rest (fun i ↦ failures (i + 1)) p) :
    PublishExit batch (shard :: rest) failures { p with
      events := shard.events ++ p.events, publishedIDs := shard.id :: p.publishedIDs } := by
  cases h with
  | done hout => exact .done ⟨⟨hitems, hstrike⟩, hout⟩
  | @failed before failing after delivered hsplit hout hitems' hfailure hstrike' =>
    have hsplit' : shard :: rest = (shard :: before) ++ failing :: after := by
      rw [hsplit, cons_append]
    rw [← append_assoc, ← eventsOfShards_cons]
    exact .failed hsplit' ⟨⟨hitems, hstrike⟩, hout⟩ hitems' hfailure hstrike'
  | @undecodable before bad after hsplit hout hitems' =>
    have hsplit' : shard :: rest = (shard :: before) ++ bad :: after := by
      rw [hsplit, cons_append]
    exact .undecodable hsplit' ⟨⟨hitems, hstrike⟩, hout⟩ hitems'

theorem publishUntil_exit (batch : Bool) (claimed : List CampaignShard) (failures : ℕ → Option ℕ) :
    PublishExit batch claimed failures (publishUntil batch claimed failures) := by
  induction claimed generalizing failures with
  | nil => exact .done trivial
  | cons shard rest ih =>
    have hfirst : shard :: rest = [] ++ shard :: rest := rfl
    cases hitems : shard.items with
    | none =>
      simp only [publishUntil, hitems]
      exact .undecodable hfirst trivial hitems
    | some events =>
      have hevents : shard.events = events := by rw [CampaignShard.events, hitems, getD_some]
      have hsome : shard.items.isSome = true := by rw [hitems, isSome_some]
      by_cases hstrike : StrikesAt batch events (failures 0)
      · cases hfailure : failures 0 with
        | none =>
          rw [hfailure] at hstrike
          exact hstrike.elim
        | some delivered =>
          rw [hfailure] at hstrike
          simp only [publishUntil, hitems, hfailure, if_pos hstrike, getD_some]
          rw [← hevents] at hstrike ⊢
          exact .failed hfirst trivial hsome hfailure hstrike
      · have hexit := (ih fun i ↦ failures (i + 1)).cons hsome (hevents.symm ▸ hstrike)
        simpa only [publishUntil, hitems, if_neg hstrike, hevents] using hexit

variable {before : List CampaignShard}

theorem publishUntil_append {batch : Bool}
    {failures : ℕ → Option ℕ} (hout : GoOut batch before failures) (rest : List CampaignShard) :
    publishUntil batch (before ++ rest) failures =
      { events := eventsOfShards before ++
          (publishUntil batch rest fun i ↦ failures (i + before.length)).events
        publishedIDs := before.map CampaignShard.id ++
          (publishUntil batch rest fun i ↦ failures (i + before.length)).publishedIDs
        pendingResetIDs :=
          (publishUntil batch rest fun i ↦ failures (i + before.length)).pendingResetIDs } := by
  induction before generalizing failures with
  | nil => rfl
  | cons shard before ih =>
    obtain ⟨⟨hsome, hstrike⟩, hrest⟩ := hout
    obtain ⟨events, hitems⟩ := isSome_iff_exists.mp hsome
    have hevents : shard.events = events := by rw [CampaignShard.events, hitems, getD_some]
    rw [hevents] at hstrike
    simp only [cons_append, publishUntil, hitems, if_neg hstrike, ih hrest,
      eventsOfShards_cons, hevents, append_assoc, map_cons, length_cons, Nat.add_assoc]

/-! ## What is written back -/

def Publication.settle (p : Publication) (row : CampaignShard) : CampaignShard :=
  setStatus (fun shard ↦ shard.id ∈ p.publishedIDs) .published CampaignShard.claimedAt
    (setStatus (fun shard ↦ shard.id ∈ p.pendingResetIDs) .pending (fun _ ↦ none) row)

open Publication

theorem ShardTable.rows_writeBack (t : ShardTable) (p : Publication) :
    (t.writeBack p).rows = t.rows.map p.settle := map_map

section Settle

variable {p : Publication} {row : CampaignShard}

@[simp] theorem ShardTable.id_setStatus (q : CampaignShard → Bool) (status : ShardStatus)
    (claimedAt : CampaignShard → Option ℤ) : (setStatus q status claimedAt row).id = row.id := by
  rw [setStatus]
  split <;> rfl

@[simp] theorem Publication.id_settle : (p.settle row).id = row.id := by
  rw [settle, id_setStatus, id_setStatus]

theorem Publication.settle_of_published (h : row.id ∈ p.publishedIDs) :
    (p.settle row).status = .published := by
  have hmark : (fun shard : CampaignShard ↦ decide (shard.id ∈ p.publishedIDs))
      (setStatus (fun shard ↦ shard.id ∈ p.pendingResetIDs) .pending (fun _ ↦ none) row)
      = true := by
    simpa using h
  rw [settle, setStatus, if_pos hmark]

theorem Publication.settle_of_reset (h : row.id ∉ p.publishedIDs)
    (hreset : row.id ∈ p.pendingResetIDs) :
    p.settle row = { row with status := .pending, claimedAt := none } := by
  simp [settle, setStatus, h, hreset]

theorem Publication.settle_of_neither (h : row.id ∉ p.publishedIDs)
    (hreset : row.id ∉ p.pendingResetIDs) : p.settle row = row := by
  simp [settle, setStatus, h, hreset]

end Settle

/-- The shards of a claim are rows of the table that are being published, each once. -/
structure IsClaimed (t : ShardTable) (claimed : List CampaignShard) : Prop where
  nodup : claimed.Nodup
  publishing : ∀ shard ∈ claimed, shard ∈ t.rows ∧ shard.status = .publishing

instance (t : ShardTable) (claimed : List CampaignShard) : Decidable (IsClaimed t claimed) :=
  decidable_of_iff
    (claimed.Nodup ∧ ∀ shard ∈ claimed, shard ∈ t.rows ∧ shard.status = .publishing)
    ⟨fun h ↦ ⟨h.1, h.2⟩, fun h ↦ ⟨h.nodup, h.publishing⟩⟩

theorem IsClaimed.nodup_id {t : ShardTable} {claimed : List CampaignShard}
    (h : IsClaimed t claimed) : (claimed.map CampaignShard.id).Nodup :=
  h.nodup.map_on fun shard hshard other hother hid ↦
    inj_on_of_nodup_map t.nodup_id (h.publishing shard hshard).1 (h.publishing other hother).1
      hid

variable {after : List CampaignShard}

theorem IsClaimed.id_notMem {t : ShardTable} (h : IsClaimed t (before ++ after))
    (hshard : shard ∈ after) : shard.id ∉ before.map CampaignShard.id := by
  have hids := h.nodup_id
  rw [map_append] at hids
  exact fun hmem ↦ disjoint_of_nodup_append hids hmem (mem_map_of_mem hshard)

theorem IsClaimed.id_notMem_after {t : ShardTable} (h : IsClaimed t (before ++ shard :: after)) :
    shard.id ∉ after.map CampaignShard.id := by
  have hids := h.nodup_id
  rw [map_append, map_cons] at hids
  exact (nodup_cons.mp hids.of_append_right).1

/-! ## No shard is stranded -/

/-- What is to become of a claimed shard: it is published with all its events, it is pending and
not claimed, or the publisher failed after a part of its events went out one by one. -/
inductive ShardSettled (batch : Bool) (claimed : List CampaignShard) (failures : ℕ → Option ℕ)
    (delivered : List CardEvent) (shard row : CampaignShard) : Prop
  | published (hstatus : row.status = .published) (hitems : shard.items.isSome = true)
      (hevents : shard.events <:+: delivered)
  | pending (hstatus : row.status = .pending) (hclaim : row.claimedAt = none)
  | partly {before after : List CampaignShard} {n : ℕ} (hbatch : batch = false)
      (hsplit : claimed = before ++ shard :: after) (hfailure : failures before.length = some n)
      (hpos : 0 < n) (hlt : n < shard.events.length)
      (hdelivered : delivered = eventsOfShards before ++ shard.events.take n)
      (hstatus : row.status = .publishing)

def NoneStranded (t : ShardTable) (batch : Bool) (claimed : List CampaignShard)
    (failures : ℕ → Option ℕ) : Prop :=
  ∀ shard ∈ claimed, ∃ row ∈ (publishClaimedUntil t batch claimed failures).1.rows,
    row.id = shard.id ∧ ShardSettled batch claimed failures
      (publishClaimedUntil t batch claimed failures).2 shard row

/-- The loop meets a shard that does not decode, and there are shards behind it. -/
def MeetsUndecodable (batch : Bool) (claimed : List CampaignShard) (failures : ℕ → Option ℕ) :
    Prop :=
  ∃ before bad after, claimed = before ++ bad :: after ∧ GoOut batch before failures ∧
    bad.items = none ∧ after ≠ []

section Stranded

variable {t : ShardTable} {batch : Bool} {claimed : List CampaignShard} {failures : ℕ → Option ℕ}

theorem GoOut.isSome (h : GoOut batch before failures) :
    ∀ shard ∈ before, shard.items.isSome = true := by
  induction before generalizing failures with
  | nil => exact forall_mem_nil _
  | cons first rest ih =>
    intro shard hshard
    rcases mem_cons.mp hshard with rfl | hshard
    · exact h.1.1
    · exact ih h.2 shard hshard

theorem events_infix_eventsOfShards {shards : List CampaignShard}
    (h : shard ∈ shards) : shard.events <:+: eventsOfShards shards := by
  obtain ⟨before, after, rfl⟩ := append_of_mem h
  refine ⟨eventsOfShards before, eventsOfShards after, ?_⟩
  rw [eventsOfShards_append, eventsOfShards_cons, append_assoc]

private theorem exists_settled {delivered : List CardEvent} (hrow : shard ∈ t.rows)
    (h : ShardSettled batch claimed failures delivered shard (p.settle shard)) :
    ∃ row ∈ (t.writeBack p).rows, row.id = shard.id ∧
      ShardSettled batch claimed failures delivered shard row := by
  refine ⟨p.settle shard, ?_, id_settle, h⟩
  rw [t.rows_writeBack]
  exact mem_map_of_mem hrow

theorem ShardSettled.of_reset {delivered : List CardEvent} (h : shard.id ∉ p.publishedIDs)
    (hreset : shard.id ∈ p.pendingResetIDs) :
    ShardSettled batch claimed failures delivered shard (p.settle shard) := by
  rw [settle_of_reset h hreset]
  exact .pending rfl rfl

theorem ShardSettled.of_goOut (hout : GoOut batch before failures)
    (hids : p.publishedIDs = before.map CampaignShard.id)
    (hevents : eventsOfShards before <+: p.events) (hshard : shard ∈ before) :
    ShardSettled batch claimed failures p.events shard (p.settle shard) := by
  refine .published (settle_of_published ?_) (hout.isSome shard hshard)
    ((events_infix_eventsOfShards hshard).trans hevents.isInfix)
  rw [hids]
  exact mem_map_of_mem hshard

/-- The shard at which the publisher failed is put back, or some of its events went out and it stays
as the claim left it. -/
theorem ShardSettled.of_failure {n : ℕ} (hclaim : IsClaimed t claimed)
    (hsplit : claimed = before ++ shard :: after) (hfailure : failures before.length = some n)
    (hstrike : StrikesAt batch shard.events (some n)) :
    let p : Publication :=
      { events := eventsOfShards before ++ shard.events.take n
        publishedIDs := before.map CampaignShard.id
        pendingResetIDs := (if batch || n = 0 then [shard.id] else []) ++
          after.map CampaignShard.id }
    ShardSettled batch claimed failures p.events shard (p.settle shard) := by
  intro p
  have hclaim' : IsClaimed t (before ++ shard :: after) := hsplit ▸ hclaim
  have hnew : shard.id ∉ p.publishedIDs := hclaim'.id_notMem mem_cons_self
  by_cases hreset : (batch || decide (n = 0)) = true
  · refine .of_reset hnew (mem_append_left _ ?_)
    rw [if_pos hreset]
    exact mem_singleton_self _
  · -- event by event, and not at the first event: the shard is on neither list
    obtain ⟨hbatch, hn⟩ : batch = false ∧ n ≠ 0 := by
      rwa [Bool.or_eq_true, decide_eq_true_eq, not_or, Bool.not_eq_true] at hreset
    have hlt : n < shard.events.length := by
      rcases hstrike with htrue | hlt
      · exact absurd (hbatch.symm.trans htrue) Bool.false_ne_true
      · exact hlt
    refine .partly hbatch hsplit hfailure (Nat.pos_of_ne_zero hn) hlt rfl ?_
    rw [settle_of_neither hnew]
    · exact (hclaim.publishing shard (hsplit ▸ mem_append_right _ mem_cons_self)).2
    · change shard.id ∉ (if batch || n = 0 then [shard.id] else []) ++ after.map CampaignShard.id
      rw [if_neg hreset, nil_append]
      exact hclaim'.id_notMem_after

/-- Each exit settles the shards, unless it leaves some behind one that does not decode. -/
theorem PublishExit.settled (hexit : PublishExit batch claimed failures p)
    (hclaim : IsClaimed t claimed) (hmeets : ¬ MeetsUndecodable batch claimed failures)
    (hshard : shard ∈ claimed) :
    ShardSettled batch claimed failures p.events shard (p.settle shard) := by
  cases hexit with
  | done hout => exact .of_goOut hout rfl (prefix_refl _) hshard
  | @failed before failing after n hsplit hout hitems hfailure hstrike =>
    have hclaim' : IsClaimed t (before ++ failing :: after) := hsplit ▸ hclaim
    rw [hsplit] at hshard
    rcases mem_append.mp hshard with hbefore | hrest
    · exact .of_goOut hout rfl (prefix_append _ _) hbefore
    · rcases mem_cons.mp hrest with rfl | hafter
      · exact .of_failure hclaim hsplit hfailure hstrike
      · exact .of_reset (hclaim'.id_notMem hrest)
          (mem_append_right _ (mem_map_of_mem hafter))
  | @undecodable before bad after hsplit hout hitems =>
    have hafter : after = [] := by
      by_contra hne
      exact hmeets ⟨before, bad, after, hsplit, hout, hitems, hne⟩
    subst hafter
    have hclaim' : IsClaimed t (before ++ [bad]) := hsplit ▸ hclaim
    rw [hsplit] at hshard
    rcases mem_append.mp hshard with hbefore | hbad
    · exact .of_goOut hout rfl (prefix_refl _) hbefore
    · refine .of_reset (hclaim'.id_notMem hbad) ?_
      rw [mem_singleton.mp hbad]
      exact mem_singleton_self _

theorem not_noneStranded (hclaim : IsClaimed t claimed)
    (hmeets : MeetsUndecodable batch claimed failures) :
    ¬ NoneStranded t batch claimed failures := by
  obtain ⟨before, bad, _ | ⟨shard, after⟩, hsplit, hout, hitems, hne⟩ := hmeets
  · exact absurd rfl hne
  intro hnone
  have hsplit' : claimed = (before ++ [bad]) ++ shard :: after := by
    rw [hsplit, append_assoc, singleton_append]
  have hclaim' : IsClaimed t ((before ++ [bad]) ++ shard :: after) := hsplit' ▸ hclaim
  have hmem : shard ∈ claimed := by
    rw [hsplit']
    exact mem_append_right _ mem_cons_self
  have hloop : publishUntil batch claimed failures = ⟨eventsOfShards before,
      before.map CampaignShard.id, [bad.id]⟩ := by
    rw [hsplit, publishUntil_append hout]
    simp only [publishUntil, hitems, append_nil]
  have hnew : shard.id ∉ (before ++ [bad]).map CampaignShard.id :=
    hclaim'.id_notMem mem_cons_self
  rw [map_append, mem_append, not_or] at hnew
  have hstays : (publishUntil batch claimed failures).settle shard = shard := by
    rw [hloop]
    exact settle_of_neither hnew.1 hnew.2
  -- the row of the shard is the one it was
  obtain ⟨row, hrow, hid, hsettled⟩ := hnone shard hmem
  have hrow' : row ∈ t.rows.map (publishUntil batch claimed failures).settle := by
    rwa [publishClaimedUntil, t.rows_writeBack] at hrow
  obtain ⟨old, hold, rfl⟩ := mem_map.mp hrow'
  obtain ⟨hshard, hpublishing⟩ := hclaim.publishing shard hmem
  rw [id_settle] at hid
  obtain rfl : old = shard := inj_on_of_nodup_map t.nodup_id hold hshard hid
  rw [hstays] at hsettled
  cases hsettled with
  | published hstatus => rw [hpublishing] at hstatus; cases hstatus
  | pending hstatus => rw [hpublishing] at hstatus; cases hstatus
  | @partly before' after' n hbatch hsplit'' hfailure hpos hlt hdelivered =>
    have hnodup : (before' ++ old :: after').Nodup := hsplit'' ▸ hclaim.nodup
    obtain ⟨rfl, -⟩ : before ++ [bad] = before' ∧ _ :=
      (append_cons_inj_of_notMem
        (fun h ↦ disjoint_of_nodup_append hclaim'.nodup h mem_cons_self)
        (nodup_cons.mp hclaim'.nodup.of_append_right).1).mp (hsplit'.symm.trans hsplit'')
    have hevents : (publishClaimedUntil t batch claimed failures).2 = eventsOfShards before := by
      rw [publishClaimedUntil, hloop]
    have hlength := congrArg length (hevents.symm.trans hdelivered)
    rw [eventsOfShards_append, length_append, length_append, length_take] at hlength
    omega

end Stranded

/-- **When no claimed shard is stranded.** Whatever fails and wherever, exactly if the loop meets no
shard that does not decode before the last one. -/
theorem noneStranded_iff {t : ShardTable} {claimed : List CampaignShard}
    (hclaim : IsClaimed t claimed) (batch : Bool) (failures : ℕ → Option ℕ) :
    NoneStranded t batch claimed failures ↔ ¬ MeetsUndecodable batch claimed failures := by
  constructor
  · exact fun hnone hmeets ↦ not_noneStranded hclaim hmeets hnone
  · intro hmeets shard hshard
    exact exists_settled (hclaim.publishing shard hshard).1
      ((publishUntil_exit batch claimed failures).settled hclaim hmeets hshard)

def claimedShard (n : ℕ) (items : Option (List CardEvent)) : CampaignShard where
  id := .ofDigit n
  campaignID := .ofDigit 3
  sequence := n
  status := .publishing
  itemCount := (items.getD []).length
  items := items
  claimedAt := some 0
  createdAt := 0

def shardActivation (n : ℕ) : CardEvent where
  type := .activate
  eventID := .ofDigit n
  cardID := .ofDigit n
  campaignID := some (.ofDigit 3)
  step := 1

/-- Published event by event, with a failure after the first of two events. -/
theorem noneStranded_iff_partly : ∃ t : ShardTable,
    t.rows = [claimedShard 1 (some [shardActivation 1, shardActivation 2]), claimedShard 2 none] ∧
    NoneStranded t false
      [claimedShard 1 (some [shardActivation 1, shardActivation 2]), claimedShard 2 none]
      fun i ↦ if i = 0 then some 1 else none := by
  refine ⟨⟨_, by decide, by decide⟩, rfl, (noneStranded_iff (by decide) _ _).mpr ?_⟩
  rintro ⟨before, bad, after, hsplit, hout, hitems, hne⟩
  cases before with
  | nil =>
    obtain ⟨rfl, -⟩ := cons.inj hsplit
    cases hitems
  | cons first before =>
    obtain ⟨rfl, -⟩ := cons.inj hsplit
    exact hout.1.2 (by decide)

/-- The first of two shards does not decode: the other one stays claimed. -/
theorem publishClaimedUntil_strands : ∃ t : ShardTable,
    t.rows = [claimedShard 1 none, claimedShard 2 (some [shardActivation 1])] ∧
    (publishClaimedUntil t true [claimedShard 1 none, claimedShard 2 (some [shardActivation 1])]
      fun _ ↦ none).1.rows.map CampaignShard.status = [.pending, .publishing] ∧
    ¬ NoneStranded t true [claimedShard 1 none, claimedShard 2 (some [shardActivation 1])]
      fun _ ↦ none := by
  refine ⟨⟨_, by decide, by decide⟩, rfl, by decide, not_noneStranded (by decide) ?_⟩
  exact ⟨[], _, _, rfl, trivial, rfl, cons_ne_nil _ _⟩

/-! ## In batches and event by event -/

/-- Publishing in batches and event by event comes to the same when the channel takes `room`
events: the same events are delivered, the table is the same, and a shard that is put back has
delivered nothing, so that all that was delivered is from the shards before it. -/
structure PublishAlike (t : ShardTable) (claimed : List CampaignShard) (room : ℕ) : Prop where
  delivered : (publishClaimedShards t { claimed := claimed, batch := true, room := some room }).2
    = (publishClaimedShards t { claimed := claimed, batch := false, room := some room }).2
  table : (publishClaimedShards t { claimed := claimed, batch := true, room := some room }).1.rows
    = (publishClaimedShards t { claimed := claimed, batch := false, room := some room }).1.rows
  undelivered : ∀ before shard after, claimed = before ++ shard :: after →
    (∃ row ∈ (publishClaimedShards t
        { claimed := claimed, batch := true, room := some room }).1.rows,
      row.id = shard.id ∧ row.status = .pending) →
    (publishClaimedShards t { claimed := claimed, batch := true, room := some room }).2
      <+: eventsOfShards before

section Alike

variable {t : ShardTable} {claimed : List CampaignShard} {room : ℕ}

theorem goOut_channelFailures (batch : Bool) (hitems : ∀ shard ∈ before, shard.items.isSome = true)
    (rest : List CampaignShard) (hroom : (eventsOfShards before).length ≤ room) :
    GoOut batch before (channelFailures (before ++ rest) (some room)) := by
  induction before generalizing room with
  | nil => trivial
  | cons shard before ih =>
    rw [eventsOfShards_cons, length_append] at hroom
    refine ⟨⟨hitems shard mem_cons_self, ?_⟩, ?_⟩
    · rw [cons_append, channelFailures_zero, if_neg (by omega)]
      exact id
    · have hrest : (fun i ↦ channelFailures (shard :: before ++ rest) (some room) (i + 1))
          = channelFailures (before ++ rest) (some (room - shard.events.length)) := by
        funext i
        exact channelFailures_succ (by omega) (before ++ rest) i
      rw [hrest]
      exact ih (fun s hs ↦ hitems s (mem_cons_of_mem _ hs)) (by omega)

theorem channelFailures_append (rest : List CampaignShard)
    (hroom : (eventsOfShards before).length ≤ room) (i : ℕ) :
    channelFailures (before ++ rest) (some room) (i + before.length)
      = channelFailures rest (some (room - (eventsOfShards before).length)) i := by
  induction before generalizing room with
  | nil => rfl
  | cons shard before ih =>
    rw [eventsOfShards_cons, length_append] at hroom
    rw [cons_append, length_cons, ← Nat.add_assoc, channelFailures_succ (by omega),
      ih (by omega), eventsOfShards_cons, length_append, Nat.sub_add_eq]

theorem fits_or_stops (claimed : List CampaignShard) (room : ℕ) :
    (eventsOfShards claimed).length ≤ room ∨
      ∃ before shard after, claimed = before ++ shard :: after ∧
        (eventsOfShards before).length ≤ room ∧
        room < (eventsOfShards before).length + shard.events.length := by
  induction claimed generalizing room with
  | nil => exact Or.inl (Nat.zero_le _)
  | cons shard rest ih =>
    by_cases hfirst : room < shard.events.length
    · exact Or.inr ⟨[], shard, rest, rfl, Nat.zero_le _, by simpa [eventsOfShards] using hfirst⟩
    · rcases ih (room - shard.events.length) with hle | ⟨before, stop, after, rfl, hle, hlt⟩
      · left
        rw [eventsOfShards_cons, length_append]
        omega
      · refine Or.inr ⟨shard :: before, stop, after, rfl, ?_⟩
        rw [eventsOfShards_cons, length_append]
        omega

theorem publishClaimedShards_fits (hitems : ∀ shard ∈ claimed, shard.items.isSome = true)
    (hfits : (eventsOfShards claimed).length ≤ room) (batch : Bool) :
    publishClaimedShards t { claimed := claimed, batch := batch, room := some room }
      = (t.writeBack ⟨eventsOfShards claimed, claimed.map CampaignShard.id, []⟩,
          eventsOfShards claimed) := by
  have hloop := publishUntil_append (goOut_channelFailures batch hitems [] hfits) []
  simp only [append_nil, publishUntil] at hloop
  rw [publishClaimedShards_eq_until t rfl rfl, publishClaimedUntil, hloop]

theorem publishClaimedShards_stops (hitems : ∀ s ∈ before ++ shard :: after, s.items.isSome = true)
    (hle : (eventsOfShards before).length ≤ room)
    (hlt : room < (eventsOfShards before).length + shard.events.length) (batch : Bool) :
    publishClaimedShards t
        { claimed := before ++ shard :: after, batch := batch, room := some room }
      = (t.writeBack ⟨eventsOfShards before ++
            shard.events.take (room - (eventsOfShards before).length), before.map CampaignShard.id,
            (if batch || room - (eventsOfShards before).length = 0 then [shard.id] else []) ++
              after.map CampaignShard.id⟩,
          eventsOfShards before ++ shard.events.take (room - (eventsOfShards before).length)) := by
  obtain ⟨events, hshard⟩ := isSome_iff_exists.mp
    (hitems shard (mem_append_right _ mem_cons_self))
  have hevents : shard.events = events := by rw [CampaignShard.events, hshard, getD_some]
  have hfailure : channelFailures (shard :: after) (some (room - (eventsOfShards before).length)) 0
      = some (room - (eventsOfShards before).length) := by
    rw [channelFailures_zero, if_pos (by omega)]
  have hstrike : StrikesAt batch events (some (room - (eventsOfShards before).length)) := by
    rw [hevents] at hlt
    exact Or.inr (by omega)
  have hloop := publishUntil_append (goOut_channelFailures batch
    (fun s hs ↦ hitems s (mem_append_left _ hs)) (shard :: after) hle) (shard :: after)
  simp only [channelFailures_append (shard :: after) hle, publishUntil, hshard, hfailure,
    if_pos hstrike, getD_some, append_nil] at hloop
  rw [publishClaimedShards_eq_until t rfl rfl, publishClaimedUntil, hloop, hevents]

private theorem notMem_of_pending (hp : p.publishedIDs = before.map CampaignShard.id)
    (hrow : ∃ row ∈ (t.writeBack p).rows, row.id = shard.id ∧ row.status = .pending) :
    shard ∉ before := by
  intro hmem
  obtain ⟨row, hrow, hid, hstatus⟩ := hrow
  rw [t.rows_writeBack] at hrow
  obtain ⟨old, -, rfl⟩ := mem_map.mp hrow
  rw [id_settle] at hid
  have hpublished : old.id ∈ p.publishedIDs := by
    rw [hp, hid]
    exact mem_map_of_mem hmem
  rw [settle_of_published hpublished] at hstatus
  cases hstatus

private theorem eventsOfShards_before {published rest : List CampaignShard}
    (hsplit : published ++ rest = before ++ shard :: after) (hnew : shard ∉ published) :
    eventsOfShards published <+: eventsOfShards before := by
  have hinit : published <+: before ++ [shard] ∨ before ++ [shard] <+: published := by
    refine prefix_or_prefix_of_prefix (prefix_append published rest) ?_
    exact ⟨after, by rw [hsplit, append_assoc, singleton_append]⟩
  have hbefore : published <+: before := by
    rcases hinit with hinit | hinit
    · rcases prefix_concat_iff.mp hinit with heq | hinit
      · exact absurd (heq ▸ mem_append_right _ (mem_singleton_self _)) hnew
      · exact hinit
    · exact absurd (hinit.subset (mem_append_right _ (mem_singleton_self _))) hnew
  obtain ⟨mid, rfl⟩ := hbefore
  rw [eventsOfShards_append]
  exact prefix_append _ _

/-- The channel takes everything, or stops between two shards. -/
def StopsBetween (claimed : List CampaignShard) (room : ℕ) : Prop :=
  (eventsOfShards claimed).length ≤ room ∨
    ∃ k, room = (eventsOfShards (claimed.take k)).length

theorem not_stopsBetween (hle : (eventsOfShards before).length < room)
    (hlt : room < (eventsOfShards before).length + shard.events.length) :
    ¬ StopsBetween (before ++ shard :: after) room := by
  rintro (hall | ⟨k, hk⟩)
  · rw [eventsOfShards_append, eventsOfShards_cons, length_append, length_append] at hall
    omega
  · rw [take_append, eventsOfShards_append, length_append] at hk
    by_cases hshort : k ≤ before.length
    · -- too few shards
      have htake : (eventsOfShards (before.take k)).length ≤ (eventsOfShards before).length := by
        conv_rhs => rw [← take_append_drop k before, eventsOfShards_append, length_append]
        exact Nat.le_add_right _ _
      rw [Nat.sub_eq_zero_of_le hshort, take_zero] at hk
      change room = _ + 0 at hk
      omega
    · -- too many
      obtain ⟨m, hm⟩ : ∃ m, k - before.length = m + 1 := ⟨k - before.length - 1, by omega⟩
      rw [take_of_length_le (by omega), hm, take_succ_cons, eventsOfShards_cons,
        length_append] at hk
      omega

end Alike

/-- **When publishing in batches is publishing event by event.** Exactly if the channel does not
stop inside a shard. -/
theorem publishAlike_iff {t : ShardTable} {claimed : List CampaignShard}
    (hclaim : IsClaimed t claimed) (hitems : ∀ shard ∈ claimed, shard.items.isSome = true)
    (room : ℕ) : PublishAlike t claimed room ↔ StopsBetween claimed room := by
  rcases fits_or_stops claimed room with hfits | ⟨before, shard, after, rfl, hle, hlt⟩
  · refine iff_of_true ⟨?_, ?_, ?_⟩ (Or.inl hfits)
    · rw [publishClaimedShards_fits hitems hfits, publishClaimedShards_fits hitems hfits]
    · rw [publishClaimedShards_fits hitems hfits, publishClaimedShards_fits hitems hfits]
    · intro before shard after hsplit hrow
      rw [publishClaimedShards_fits hitems hfits] at hrow
      refine absurd ?_ (notMem_of_pending rfl hrow)
      rw [hsplit]
      exact mem_append_right _ mem_cons_self
  · have hstops := publishClaimedShards_stops (t := t) hitems hle hlt
    rcases Nat.eq_or_lt_of_le hle with rfl | hinside
    · -- nothing of the shard is delivered
      simp only [Nat.sub_self, take_zero, append_nil, decide_true, Bool.or_true,
        if_true] at hstops
      refine iff_of_true ⟨?_, ?_, ?_⟩ (Or.inr ⟨before.length, ?_⟩)
      · rw [hstops, hstops]
      · rw [hstops, hstops]
      · intro before' shard' after' hsplit hrow
        rw [hstops] at hrow ⊢
        exact eventsOfShards_before hsplit (notMem_of_pending rfl hrow)
      · rw [take_left]
    · refine iff_of_false (fun halike ↦ ?_) (not_stopsBetween hinside hlt)
      have htable := halike.table
      rw [hstops, hstops, rows_writeBack, rows_writeBack,
        map_inj_left] at htable
      obtain ⟨hrow, hpublishing⟩ := hclaim.publishing shard
        (mem_append_right _ mem_cons_self)
      have hnew : shard.id ∉ before.map CampaignShard.id := hclaim.id_notMem mem_cons_self
      have hstatus := congrArg CampaignShard.status (htable shard hrow)
      rw [settle_of_reset hnew
        (mem_append_left _ (mem_singleton_self _)), settle_of_neither hnew,
        hpublishing] at hstatus
      · cases hstatus
      · have hneg : ¬ (false || decide (room - (eventsOfShards before).length = 0)) = true := by
          rw [Bool.false_or, decide_eq_true_eq]
          omega
        rw [if_neg hneg, nil_append]
        exact hclaim.id_notMem_after

/-- Two shards, and a channel that takes the first. -/
theorem publishAlike_iff_between : ∃ t : ShardTable,
    t.rows = [claimedShard 1 (some [shardActivation 1, shardActivation 2]),
      claimedShard 2 (some [shardActivation 3])] ∧
    PublishAlike t [claimedShard 1 (some [shardActivation 1, shardActivation 2]),
      claimedShard 2 (some [shardActivation 3])] 2 :=
  ⟨⟨_, by decide, by decide⟩, rfl,
    (publishAlike_iff (by decide) (by decide) 2).mpr (Or.inr ⟨1, rfl⟩)⟩

/-- A channel that stops after the first of two events: in a batch the shard is put back though an
event of it is out. -/
theorem publishClaimedShards_not_alike : ∃ t : ShardTable,
    t.rows = [claimedShard 1 (some [shardActivation 1, shardActivation 2])] ∧
    (publishClaimedShards t { claimed := t.rows, batch := true, room := some 1 }).2
      = [shardActivation 1] ∧
    (publishClaimedShards t
      { claimed := t.rows, batch := true, room := some 1 }).1.rows.map CampaignShard.status
      = [.pending] ∧
    (publishClaimedShards t
      { claimed := t.rows, batch := false, room := some 1 }).1.rows.map CampaignShard.status
      = [.publishing] ∧
    ¬ PublishAlike t t.rows 1 :=
  ⟨⟨_, by decide, by decide⟩, rfl, by decide, by decide, by decide,
    fun halike ↦ absurd (congrArg (map CampaignShard.status) halike.table) (by decide)⟩

end OtaPlatform
