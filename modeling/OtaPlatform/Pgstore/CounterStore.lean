import Mathlib.Data.List.Dedup
import Mathlib.Data.List.TakeDrop
import OtaPlatform.Pipeline.Types

/-!
# Replay counters

Every command packet carries a counter that the card checks against replay. The executor takes it
from a process-local map; the planner fills the map when it loads a shard, from a range it reserves
in `card_counters`.

## Keys

The map is keyed by the string `cardID:appID`, and a second map lists the applications of a card for
eviction. A missing key reads as zero.
-/

namespace OtaPlatform

open List Function

/-! ## The process-local store -/

structure CounterStore where
  /-- The counter values, by `cardID:appID`. -/
  counters : String → Option ℤ
  /-- The applications of a card that have a counter. -/
  cardApps : String → List String

def counterKey (cardID applicationID : UUID) : String := cardID.text ++ ":" ++ applicationID.text

/-- `strings.IndexByte(k, ':')` and the two parts around it. -/
def splitKey (k : String) : Option (String × String) :=
  match k.toList.span (· != ':') with
  | (_, []) => none
  | (cardID, _ :: appID) => some (String.ofList cardID, String.ofList appID)

namespace CounterStore

def new : CounterStore := ⟨fun _ ↦ none, fun _ ↦ []⟩

def counter (s : CounterStore) (cardID applicationID : UUID) : Option ℤ :=
  s.counters (counterKey cardID applicationID)

/-- Reads a counter; a missing one is zero. -/
def getCounter (s : CounterStore) (cardID applicationID : UUID) : ℤ :=
  (s.counter cardID applicationID).getD 0

def incrCounter (s : CounterStore) (cardID applicationID : UUID) : CounterStore where
  counters := update s.counters (counterKey cardID applicationID)
    (some (s.getCounter cardID applicationID + 1))
  cardApps := match s.counter cardID applicationID with
    | none => update s.cardApps cardID.text
        (s.cardApps cardID.text ++ [applicationID.text])
    | some _ => s.cardApps

/-- Removes the counters of a card that the index lists. -/
def evictCard (s : CounterStore) (cardID : UUID) : CounterStore where
  counters := (s.cardApps cardID.text).foldl
    (fun counters appID ↦ update counters (cardID.text ++ ":" ++ appID) none) s.counters
  cardApps := update s.cardApps cardID.text []

/-- Sets one preloaded counter and indexes it. -/
def preloadCounter (s : CounterStore) (kv : String × ℤ) : CounterStore where
  counters := update s.counters kv.1 (some kv.2)
  cardApps := match splitKey kv.1 with
    | none => s.cardApps
    | some (cardID, appID) =>
      update s.cardApps cardID (s.cardApps cardID ++ [appID])

/-- Populates the store from batch-loaded values. -/
def preloadCounters (s : CounterStore) (values : List (String × ℤ)) : CounterStore :=
  values.foldl preloadCounter s

end CounterStore

/-! ## What the operations do to the counters -/

theorem eq_of_counterKey_eq {cardID cardID' appID : UUID} {app : String}
    (h : counterKey cardID appID = cardID'.text ++ ":" ++ app) :
    cardID = cardID' ∧ appID.text = app := by
  have htext : cardID.text.toList ++ ':' :: appID.text.toList
      = cardID'.text.toList ++ ':' :: app.toList := by
    have := congrArg String.toList h
    simpa [counterKey, String.toList_append] using this
  -- no identifier contains a colon, so the first colon is the separator on both sides
  obtain ⟨hcard, -, happ⟩ :=
    (append_cons_inj_of_notMem cardID.colon_notMem appID.colon_notMem).mp htext
  exact ⟨UUID.ext (String.toList_injective hcard), String.toList_injective happ⟩

theorem counterKey_injective {cardID cardID' appID appID' : UUID}
    (h : counterKey cardID appID = counterKey cardID' appID') : cardID = cardID' ∧ appID = appID' :=
  (eq_of_counterKey_eq h).imp_right UUID.ext

namespace CounterStore

variable (s : CounterStore) (cardID appID : UUID)

theorem counter_incrCounter_self :
    (s.incrCounter cardID appID).counter cardID appID = some (s.getCounter cardID appID + 1) :=
  update_self ..

theorem counter_incrCounter_of_ne {cardID' appID' : UUID}
    (h : (cardID', appID') ≠ (cardID, appID)) :
    (s.incrCounter cardID appID).counter cardID' appID' = s.counter cardID' appID' := by
  refine update_of_ne (fun hkey ↦ ?_) _ _
  obtain ⟨rfl, rfl⟩ := counterKey_injective hkey
  exact h rfl

theorem foldl_update_none {κ ι V : Type} [DecidableEq κ] (key : ι → κ) (appIDs : List ι)
    (counters : κ → Option V) (k : κ) :
    appIDs.foldl (fun counters appID ↦ update counters (key appID) none) counters k
      = if k ∈ appIDs.map key then none else counters k := by
  induction appIDs generalizing counters with
  | nil => rfl
  | cons appID appIDs ih =>
    rw [foldl_cons, ih, map_cons]
    by_cases hk : k = key appID
    · subst hk
      rw [update_self, ite_self, if_pos mem_cons_self]
    · rw [update_of_ne hk]
      simp only [mem_cons, hk, false_or]

theorem counter_evictCard_eq (cardID' appID' : UUID) : (s.evictCard cardID).counter cardID' appID'
      = if counterKey cardID' appID' ∈ (s.cardApps cardID.text).map (cardID.text ++ ":" ++ ·)
        then none else s.counter cardID' appID' :=
  foldl_update_none _ _ _ _

theorem counter_evictCard (cardID' appID' : UUID) :
    (s.evictCard cardID).counter cardID' appID' = s.counter cardID' appID' ∨
      (s.evictCard cardID).counter cardID' appID' = none := by
  rw [counter_evictCard_eq]
  exact (ite_eq_or_eq _ _ _).symm

theorem counter_evictCard_of_ne {cardID' : UUID} (hne : cardID' ≠ cardID) (appID' : UUID) :
    (s.evictCard cardID).counter cardID' appID' = s.counter cardID' appID' := by
  rw [counter_evictCard_eq, if_neg]
  intro hmem
  obtain ⟨app, -, hkey⟩ := mem_map.mp hmem
  exact hne (eq_of_counterKey_eq hkey.symm).1

theorem counter_preloadCounters (values : List (String × ℤ)) :
    (s.preloadCounters values).counter cardID appID = s.counter cardID appID ∨
      ∃ v, (counterKey cardID appID, v) ∈ values ∧
        (s.preloadCounters values).counter cardID appID = some v := by
  induction values generalizing s with
  | nil => exact Or.inl rfl
  | cons kv values ih =>
    rw [preloadCounters, foldl_cons, ← preloadCounters]
    rcases ih (s.preloadCounter kv) with h | ⟨v, hv, h⟩
    · by_cases hkey : counterKey cardID appID = kv.1
      · refine Or.inr ⟨kv.2, ?_, ?_⟩
        · rw [hkey]
          exact mem_cons_self
        · rw [h, counter, hkey]
          exact update_self ..
      · left
        rw [h]
        exact update_of_ne hkey _ _
    · exact Or.inr ⟨v, mem_cons_of_mem _ hv, h⟩

/-! ### The index -/

/-- Every counter is listed in the index, where eviction looks for it. -/
def Indexed : Prop :=
  ∀ cardID appID, s.counter cardID appID ≠ none → appID.text ∈ s.cardApps cardID.text

variable {s}

theorem indexed_new : new.Indexed := fun _ _ h ↦ absurd rfl h

theorem Indexed.counter_evictCard (h : s.Indexed) :
    (s.evictCard cardID).counter cardID appID = none := by
  rw [counter_evictCard_eq]
  split_ifs with hmem
  · rfl
  · by_contra hsome
    exact hmem (mem_map.mpr ⟨appID.text, h cardID appID hsome, rfl⟩)

theorem Indexed.evictCard (h : s.Indexed) : (s.evictCard cardID).Indexed := by
  intro cardID' appID' hsome
  by_cases hcard : cardID' = cardID
  · subst hcard
    exact absurd (h.counter_evictCard cardID' appID') hsome
  · rw [s.counter_evictCard_of_ne cardID hcard] at hsome
    have htext : cardID'.text ≠ cardID.text := fun htext ↦ hcard (UUID.ext htext)
    have happs : (s.evictCard cardID).cardApps cardID'.text = s.cardApps cardID'.text :=
      update_of_ne htext _ _
    rw [happs]
    exact h cardID' appID' hsome

private theorem mem_update_append {apps : String → List String} {card card' app app' : String}
    (h : app' ∈ apps card') : app' ∈ update apps card (apps card ++ [app]) card' := by
  by_cases hcard : card' = card
  · subst hcard
    rw [update_self]
    exact mem_append_left _ h
  · rwa [update_of_ne hcard]

theorem Indexed.incrCounter (h : s.Indexed) : (s.incrCounter cardID appID).Indexed := by
  intro cardID' appID' hsome
  rw [CounterStore.incrCounter]
  dsimp only
  by_cases hpair : (cardID', appID') = (cardID, appID)
  · obtain ⟨rfl, rfl⟩ := Prod.mk.inj hpair
    cases hcounter : s.counter cardID' appID' with
    | none =>
      dsimp only
      rw [update_self]
      exact mem_append_right _ (mem_singleton.mpr rfl)
    | some v => exact h cardID' appID' (hcounter ▸ Option.some_ne_none v)
  · rw [counter_incrCounter_of_ne s cardID appID hpair] at hsome
    cases s.counter cardID appID with
    | none => exact mem_update_append (h cardID' appID' hsome)
    | some v => exact h cardID' appID' hsome

theorem splitKey_counterKey (cardID appID : UUID) :
    splitKey (counterKey cardID appID) = some (cardID.text, appID.text) := by
  have hspan : (counterKey cardID appID).toList.span (· != ':')
      = (cardID.text.toList, ':' :: appID.text.toList) := by
    have hall : ∀ c ∈ cardID.text.toList, (c != ':') = true := fun c hc ↦
      bne_iff_ne.mpr fun heq ↦ cardID.colon_notMem (heq ▸ hc)
    rw [span_eq_takeWhile_dropWhile]
    simp [counterKey, String.toList_append, takeWhile_append_of_pos hall,
      dropWhile_append_of_pos hall]
  rw [splitKey, hspan]
  simp

theorem Indexed.preloadCounters (h : s.Indexed) (values : List (String × ℤ)) :
    (s.preloadCounters values).Indexed := by
  induction values generalizing s with
  | nil => exact h
  | cons kv values ih =>
    refine ih fun cardID' appID' hsome ↦ ?_
    rw [preloadCounter]
    dsimp only
    by_cases hkey : counterKey cardID' appID' = kv.1
    · rw [← hkey, splitKey_counterKey]
      dsimp only
      rw [update_self]
      exact mem_append_right _ (mem_singleton.mpr rfl)
    · have hsame : (s.preloadCounter kv).counter cardID' appID' = s.counter cardID' appID' :=
        update_of_ne hkey _ _
      have hold : s.counter cardID' appID' ≠ none := hsame ▸ hsome
      cases splitKey kv.1 with
      | none => exact h cardID' appID' hold
      | some parts => exact mem_update_append (h cardID' appID' hold)

end CounterStore

/-! ## Reservation -/

abbrev CardCounters := UUID → UUID → Option ℤ

/-- `INSERT ... 0 ON CONFLICT DO NOTHING` and the `UPDATE` that reserves the range of a card. -/
def reserveCounter (table : CardCounters) (cardID appID : UUID) (stepsPerCard : ℤ) :
    CardCounters :=
  update table cardID
    (update (table cardID) appID (some ((table cardID appID).getD 0 + stepsPerCard)))

/-- Reserves a range for every card of a shard and loads its start into the process. The `UPDATE`
touches a row once however often the card is listed. -/
def preloadCounters (table : CardCounters) (s : CounterStore) (cardIDs : List UUID) (appID : UUID)
    (stepsPerCard : ℤ) : CardCounters × CounterStore :=
  (cardIDs.dedup.foldl (fun table cardID ↦ reserveCounter table cardID appID stepsPerCard) table,
    s.preloadCounters (cardIDs.dedup.map fun cardID ↦
      (counterKey cardID appID, (table cardID appID).getD 0)))

structure CampaignCommandMeta where
  applicationID : UUID
  /-- The number of commands of the campaign, over all applications. -/
  stepCount : ℤ
deriving DecidableEq, Repr

/-- The counters of the process together with the reservations. -/
structure Counters where
  store : CounterStore
  table : CardCounters
  campaignMeta : UUID → Option CampaignCommandMeta

/-- `GROUP BY application_id`, in the order the database returns the groups: the first application
stands for all, with the number of all commands. -/
def metaOfRows : List (UUID × ℤ) → Option CampaignCommandMeta
  | [] => none
  | (applicationID, n) :: rows => some ⟨applicationID, ((applicationID, n) :: rows).foldl
      (fun total r ↦ total + r.2) 0⟩

/-- The metadata of a campaign: cached, or read; `rows` is what the query returns, `none` when it
fails. -/
def Counters.getCampaignMeta (c : Counters) (campaignID : UUID) (rows : Option (List (UUID × ℤ))) :
    Option CampaignCommandMeta :=
  match c.campaignMeta campaignID with
  | some cached => some cached
  | none => rows.bind metaOfRows

/-- The counter part of `PreloadShard`. A failed or empty metadata query reserves nothing. -/
def Counters.preloadShard (c : Counters) (campaignID : UUID) (cardIDs : List UUID)
    (rows : Option (List (UUID × ℤ))) : Counters :=
  if cardIDs.isEmpty then c
  else
    match c.getCampaignMeta campaignID rows with
    | none => c
    | some m =>
      let cached := update c.campaignMeta campaignID (some m)
      if m.stepCount > 0 then
        let r := preloadCounters c.table c.store cardIDs m.applicationID m.stepCount
        ⟨r.2, r.1, cached⟩
      else { c with campaignMeta := cached }

theorem Counters.counter_preloadShard (c : Counters) (campaignID : UUID) (cardIDs : List UUID)
    (rows : Option (List (UUID × ℤ))) (cardID appID : UUID) :
    (c.preloadShard campaignID cardIDs rows).store.counter cardID appID
        = c.store.counter cardID appID ∨
      cardID ∈ cardIDs ∧ (∃ m, c.getCampaignMeta campaignID rows = some m ∧
          m.applicationID = appID) ∧
        (c.preloadShard campaignID cardIDs rows).store.counter cardID appID
          = some ((c.table cardID appID).getD 0) := by
  unfold Counters.preloadShard
  split_ifs with hempty
  · exact Or.inl rfl
  · cases hm : c.getCampaignMeta campaignID rows with
    | none => exact Or.inl rfl
    | some m =>
      dsimp only
      split_ifs with hsteps
      · rcases c.store.counter_preloadCounters cardID appID (cardIDs.dedup.map fun cardID ↦
          (counterKey cardID m.applicationID, (c.table cardID m.applicationID).getD 0))
          with hsame | ⟨v, hv, hset⟩
        · exact Or.inl hsame
        · obtain ⟨cardID', hcard', hkv⟩ := mem_map.mp hv
          obtain ⟨hkey, rfl⟩ := Prod.mk.inj hkv
          obtain ⟨rfl, rfl⟩ := counterKey_injective hkey
          exact Or.inr ⟨mem_dedup.mp hcard', ⟨m, rfl, rfl⟩, hset⟩
      · exact Or.inl rfl

theorem Counters.indexed_preloadShard {c : Counters} (h : c.store.Indexed) (campaignID : UUID)
    (cardIDs : List UUID) (rows : Option (List (UUID × ℤ))) :
    (c.preloadShard campaignID cardIDs rows).store.Indexed := by
  unfold Counters.preloadShard
  split_ifs with hempty
  · exact h
  · cases c.getCampaignMeta campaignID rows with
    | none => exact h
    | some m =>
      dsimp only
      split_ifs with hsteps
      · exact h.preloadCounters _
      · exact h

end OtaPlatform
