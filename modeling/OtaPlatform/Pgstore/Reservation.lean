import Mathlib.Algebra.BigOperators.Ring.Finset
import OtaPlatform.Pgstore.CounterStore

/-!
# What loading a shard reserves

A campaign is a list of commands, each for an application. Loading a shard should reserve, for every
card and every application, as many counters as the campaign has commands for it. The preloader
groups the commands by application, and then takes the first group with the number of all commands.

With one application this is right. With two it reserves too many counters for one of them and none
for the other, whatever the order in which the database returns the groups
(`preloadShard_reserves_iff`).

## The groups

`GROUP BY` returns one row for each application, in no order. So the rows are some permutation of
`groupCommands`, and the statements hold for each of them.
-/

namespace OtaPlatform

open List Function

/-! ## Tables and counters after a reservation -/

section Reserved

variable (appID : UUID) (steps : ℤ)

theorem foldl_reserveCounter (cardIDs : List UUID) (hnodup : cardIDs.Nodup) (table : CardCounters)
    (cardID app : UUID) :
    cardIDs.foldl (fun table cardID ↦ reserveCounter table cardID appID steps) table cardID app
      = if cardID ∈ cardIDs ∧ app = appID then some ((table cardID app).getD 0 + steps)
        else table cardID app := by
  induction cardIDs generalizing table with
  | nil => rw [foldl_nil, if_neg fun h ↦ not_mem_nil h.1]
  | cons first cardIDs ih =>
    obtain ⟨hfirst, hrest⟩ := nodup_cons.mp hnodup
    rw [foldl_cons, ih hrest]
    by_cases hcard : cardID = first
    · -- the card is not listed again
      subst hcard
      rw [if_neg fun h ↦ hfirst h.1, reserveCounter, update_self]
      by_cases happ : app = appID
      · rw [happ, update_self, if_pos ⟨mem_cons_self, rfl⟩]
      · rw [update_of_ne happ, if_neg fun h ↦ happ h.2]
    · simp only [reserveCounter, update_of_ne hcard, mem_cons, hcard, false_or]

theorem counter_preload (start : UUID → ℤ) (cardIDs : List UUID) (s : CounterStore)
    (cardID app : UUID) :
    (s.preloadCounters (cardIDs.map fun cardID ↦ (counterKey cardID appID, start cardID))).counter
        cardID app
      = if cardID ∈ cardIDs ∧ app = appID then some (start cardID) else s.counter cardID app := by
  induction cardIDs generalizing s with
  | nil =>
    rw [if_neg fun h ↦ not_mem_nil h.1]
    rfl
  | cons first cardIDs ih =>
    rw [map_cons, CounterStore.preloadCounters, foldl_cons, ← CounterStore.preloadCounters, ih]
    by_cases hrest : cardID ∈ cardIDs ∧ app = appID
    · rw [if_pos hrest, if_pos ⟨mem_cons_of_mem _ hrest.1, hrest.2⟩]
    · rw [if_neg hrest]
      by_cases hkey : cardID = first ∧ app = appID
      · obtain ⟨rfl, rfl⟩ := hkey
        rw [if_pos ⟨mem_cons_self, rfl⟩]
        exact update_self ..
      · rw [if_neg]
        · refine update_of_ne (fun heq ↦ hkey ?_) _ _
          exact counterKey_injective heq
        · rintro ⟨hcard, happ⟩
          rcases mem_cons.mp hcard with h | h
          · exact hkey ⟨h, happ⟩
          · exact hrest ⟨h, happ⟩

end Reserved

/-! ## The commands of a campaign -/

def groupCommands (commands : List UUID) : List (UUID × ℤ) :=
  commands.dedup.map fun app ↦ (app, (commands.count app : ℤ))

/-- What the query for the groups answers: the rows in some order, or an error. -/
def AnswersGroups (commands : List UUID) (rows : Option (List (UUID × ℤ))) : Prop :=
  ∀ r, rows = some r → r.Perm (groupCommands commands)

/-- What is cached for the campaign came from its commands. -/
def CachesGroups (c : Counters) (campaignID : UUID) (commands : List UUID) : Prop :=
  ∀ m, c.campaignMeta campaignID = some m →
    ∃ r, r.Perm (groupCommands commands) ∧ metaOfRows r = some m

variable {m : CampaignCommandMeta}

section Groups

variable {commands : List UUID} {rows : List (UUID × ℤ)}

theorem sum_groupCommands (commands : List UUID) :
    ((groupCommands commands).map Prod.snd).sum = (commands.length : ℤ) := by
  have hsum := sum_map_count_dedup_eq_length commands
  rw [groupCommands, map_map, ← hsum, Nat.cast_list_sum, map_map]
  rfl

/-- The metadata names one of the applications, with the number of all commands. -/
theorem metaOfRows_of_perm (h : rows.Perm (groupCommands commands))
    (hm : metaOfRows rows = some m) :
    m.applicationID ∈ commands ∧ m.stepCount = commands.length := by
  cases rows with
  | nil => cases hm
  | cons first rows =>
    obtain ⟨app, n⟩ := first
    obtain rfl := Option.some.inj hm
    constructor
    · have hmem := h.subset mem_cons_self
      obtain ⟨app', happ', heq⟩ := mem_map.mp hmem
      obtain ⟨rfl, -⟩ := Prod.mk.inj heq
      exact mem_dedup.mp happ'
    · rw [← sum_groupCommands, ← (h.map Prod.snd).sum_eq, sum_eq_foldl, foldl_map]

theorem metaOfRows_isSome_iff (h : rows.Perm (groupCommands commands)) :
    (metaOfRows rows).isSome ↔ commands ≠ [] := by
  cases rows with
  | nil =>
    have hnil : commands.dedup = [] := map_eq_nil_iff.mp h.nil_eq.symm
    refine iff_of_false Bool.false_ne_true (not_not.mpr ?_)
    exact (dedup_eq_nil commands).mp hnil
  | cons first rows =>
    refine iff_of_true rfl ?_
    rintro rfl
    exact absurd h.eq_nil (cons_ne_nil _ _)

end Groups

/-! ## Loading a shard -/

/-- What loading a shard should do to the counters: each card starts where its table row stood and
has as many counters reserved as there are commands, for each application; nothing else changes. -/
structure ReservesEach (before after : Counters) (cardIDs commands : List UUID) : Prop where
  started : ∀ cardID ∈ cardIDs, ∀ app ∈ commands,
    after.store.getCounter cardID app = (before.table cardID app).getD 0
  reserved : ∀ cardID ∈ cardIDs, ∀ app ∈ commands,
    after.table cardID app = some ((before.table cardID app).getD 0 + commands.count app)
  others : ∀ cardID app, ¬(cardID ∈ cardIDs ∧ app ∈ commands) →
    after.table cardID app = before.table cardID app ∧
      after.store.counter cardID app = before.store.counter cardID app

section Shard

variable {c : Counters} {campaignID : UUID} {cardIDs commands : List UUID}
  {rows : Option (List (UUID × ℤ))}

/-- The table and the counters after a shard was loaded with the metadata. -/
theorem preloadShard_of_meta (hcards : cardIDs ≠ [])
    (hm : c.getCampaignMeta campaignID rows = some m) (hsteps : 0 < m.stepCount)
    (cardID app : UUID) : (c.preloadShard campaignID cardIDs rows).table cardID app
        = (if cardID ∈ cardIDs ∧ app = m.applicationID then
            some ((c.table cardID app).getD 0 + m.stepCount) else c.table cardID app) ∧
      (c.preloadShard campaignID cardIDs rows).store.counter cardID app
        = (if cardID ∈ cardIDs ∧ app = m.applicationID then
            some ((c.table cardID m.applicationID).getD 0) else c.store.counter cardID app) := by
  have hne : ¬cardIDs.isEmpty = true := fun h ↦ hcards (isEmpty_iff.mp h)
  simp only [Counters.preloadShard, if_neg hne, hm, if_pos hsteps, preloadCounters]
  rw [foldl_reserveCounter _ _ _ (nodup_dedup cardIDs),
    counter_preload m.applicationID fun cardID ↦ (c.table cardID m.applicationID).getD 0]
  simp only [mem_dedup, and_self]

theorem preloadShard_of_none (hm : c.getCampaignMeta campaignID rows = none) :
    c.preloadShard campaignID cardIDs rows = c := by
  rw [Counters.preloadShard]
  split_ifs
  · rfl
  · rw [hm]

theorem getCampaignMeta_of_groups (hrows : AnswersGroups commands rows)
    (hcached : CachesGroups c campaignID commands)
    (hm : c.getCampaignMeta campaignID rows = some m) :
    m.applicationID ∈ commands ∧ m.stepCount = commands.length := by
  rw [Counters.getCampaignMeta] at hm
  cases hcache : c.campaignMeta campaignID with
  | some cached =>
    rw [hcache] at hm
    obtain rfl := Option.some.inj hm
    obtain ⟨r, hperm, hr⟩ := hcached cached hcache
    exact metaOfRows_of_perm hperm hr
  | none =>
    rw [hcache] at hm
    obtain ⟨r, hr, hm⟩ := Option.bind_eq_some_iff.mp hm
    exact metaOfRows_of_perm (hrows r hr) hm

/-- There is none for commands only if nothing is cached and the query failed. -/
theorem getCampaignMeta_eq_none_iff (hrows : AnswersGroups commands rows)
    (hcommands : commands ≠ []) :
    c.getCampaignMeta campaignID rows = none ↔ c.campaignMeta campaignID = none ∧ rows = none := by
  rw [Counters.getCampaignMeta]
  cases c.campaignMeta campaignID with
  | some cached => simp
  | none =>
    cases rows with
    | none => simp
    | some r =>
      have hsome := (metaOfRows_isSome_iff (hrows r rfl)).mpr hcommands
      rw [Option.isSome_iff_ne_none] at hsome
      simpa using hsome

theorem reservesEach_of_one (hcards : cardIDs ≠ [])
    (hm : c.getCampaignMeta campaignID rows = some m) (happ : m.applicationID ∈ commands)
    (hsteps : m.stepCount = commands.length)
    (hone : ∀ app ∈ commands, ∀ app' ∈ commands, app = app') :
    ReservesEach c (c.preloadShard campaignID cardIDs rows) cardIDs commands := by
  have hpos : 0 < m.stepCount := by
    rw [hsteps]
    exact_mod_cast length_pos_of_mem happ
  have heq : ∀ app, app ∈ commands ↔ app = m.applicationID := by
    intro app
    constructor
    · intro h
      exact hone app h _ happ
    · rintro rfl
      exact happ
  have hcount : (commands.count m.applicationID : ℤ) = m.stepCount := by
    rw [hsteps, count_eq_length.mpr fun app h ↦ hone _ happ app h]
  have hafter := preloadShard_of_meta hcards hm hpos
  refine ⟨fun cardID hcard app h ↦ ?_, fun cardID hcard app h ↦ ?_, fun cardID app h ↦ ?_⟩
  · obtain rfl := (heq app).mp h
    rw [CounterStore.getCounter, (hafter cardID _).2, if_pos ⟨hcard, rfl⟩, Option.getD_some]
  · obtain rfl := (heq app).mp h
    rw [(hafter cardID _).1, if_pos ⟨hcard, rfl⟩, hcount]
  · rw [heq] at h
    exact ⟨by rw [(hafter cardID app).1, if_neg h], by rw [(hafter cardID app).2, if_neg h]⟩

end Shard

/-- **What loading a shard reserves is right** exactly for an empty shard, a campaign without
commands, or a campaign of one application whose metadata is cached or was read. -/
theorem preloadShard_reserves_iff (c : Counters) (campaignID : UUID) (cardIDs commands : List UUID)
    (rows : Option (List (UUID × ℤ))) (hrows : AnswersGroups commands rows)
    (hcached : CachesGroups c campaignID commands) :
    ReservesEach c (c.preloadShard campaignID cardIDs rows) cardIDs commands ↔
      cardIDs = [] ∨ commands = [] ∨
        (c.campaignMeta campaignID ≠ none ∨ rows ≠ none) ∧
          ∀ app ∈ commands, ∀ app' ∈ commands, app = app' := by
  by_cases hcards : cardIDs = []
  · subst hcards
    refine iff_of_true ⟨forall_mem_nil _, forall_mem_nil _,
      fun _ _ _ ↦ ⟨rfl, rfl⟩⟩ (.inl rfl)
  cases hm : c.getCampaignMeta campaignID rows with
  | none =>
    rw [preloadShard_of_none hm]
    by_cases hcommands : commands = []
    · subst hcommands
      refine iff_of_true ⟨fun _ _ _ h ↦ absurd h not_mem_nil,
        fun _ _ _ h ↦ absurd h not_mem_nil, fun _ _ _ ↦ ⟨rfl, rfl⟩⟩ (.inr (.inl rfl))
    · -- a row of a card and an application of the campaign would have to grow
      obtain ⟨hcache, hquery⟩ := (getCampaignMeta_eq_none_iff hrows hcommands).mp hm
      refine iff_of_false (fun h ↦ ?_) ?_
      · obtain ⟨cardID, hcard⟩ := exists_mem_of_ne_nil _ hcards
        obtain ⟨app, happ⟩ := exists_mem_of_ne_nil _ hcommands
        have hrow := h.reserved cardID hcard app happ
        have hpos := count_pos_iff.mpr happ
        rw [hrow, Option.getD_some] at hrow
        have hval := Option.some.inj hrow
        omega
      · rintro (h | h | h)
        · exact hcards h
        · exact hcommands h
        · exact h.1.elim (fun hne ↦ hne hcache) fun hne ↦ hne hquery
  | some m =>
    obtain ⟨happ, hsteps⟩ := getCampaignMeta_of_groups hrows hcached hm
    constructor
    · intro h
      refine .inr (.inr ⟨?_, ?_⟩)
      · by_contra hnone
        rw [not_or, not_not, not_not] at hnone
        rw [Counters.getCampaignMeta, hnone.1, hnone.2] at hm
        cases hm
      · obtain ⟨cardID, hcard⟩ := exists_mem_of_ne_nil _ hcards
        have hpos : 0 < m.stepCount := by
          rw [hsteps]
          exact_mod_cast length_pos_of_mem happ
        have hrow := (preloadShard_of_meta hcards hm hpos cardID m.applicationID).1
        rw [if_pos ⟨hcard, rfl⟩, h.reserved cardID hcard _ happ, Option.some.injEq, hsteps] at hrow
        have hcount : commands.count m.applicationID = commands.length := by omega
        intro app hmem app' hmem'
        exact (count_eq_length.mp hcount app hmem).symm.trans
          (count_eq_length.mp hcount app' hmem')
    · rintro (h | h | h)
      · exact absurd h hcards
      · rw [h] at happ
        exact absurd happ not_mem_nil
      · exact reservesEach_of_one hcards hm happ hsteps h.2

/-- A process without counters, over a table without rows. -/
def noCounters : Counters := ⟨CounterStore.new, fun _ _ ↦ none, fun _ ↦ none⟩

/-- Two commands for one application. -/
theorem preloadShard_reserves_iff_one :
    ReservesEach noCounters (noCounters.preloadShard (.ofDigit 1) [.ofDigit 2]
      (some [(.ofDigit 3, 2)])) [.ofDigit 2] [.ofDigit 3, .ofDigit 3] :=
  (preloadShard_reserves_iff noCounters (.ofDigit 1) [.ofDigit 2] [.ofDigit 3, .ofDigit 3]
    (some [(.ofDigit 3, 2)])
    (fun r hr ↦ by obtain rfl := Option.some.inj hr; decide +kernel)
    (fun m hm ↦ by cases hm)).mpr (.inr (.inr ⟨.inr (by decide), by decide⟩))

/-- A command for each of two applications: two counters are reserved for the first. -/
theorem preloadShard_reserves_first_only :
    AnswersGroups [.ofDigit 3, .ofDigit 4] (some [(.ofDigit 3, 1), (.ofDigit 4, 1)]) ∧
      ¬ReservesEach noCounters (noCounters.preloadShard (.ofDigit 1) [.ofDigit 2]
        (some [(.ofDigit 3, 1), (.ofDigit 4, 1)])) [.ofDigit 2] [.ofDigit 3, .ofDigit 4] := by
  refine ⟨fun r hr ↦ ?_, fun h ↦ ?_⟩
  · obtain rfl := Option.some.inj hr
    decide +kernel
  · have hrow := h.reserved (.ofDigit 2) mem_cons_self (.ofDigit 3) mem_cons_self
    revert hrow
    decide +kernel

end OtaPlatform
