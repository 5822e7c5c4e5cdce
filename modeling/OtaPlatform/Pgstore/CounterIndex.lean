import OtaPlatform.Pgstore.CounterStore
import OtaPlatform.Smsframe.Reassemble
import OtaPlatform.Transition.Machine

/-!
# The index of the counter store

The counters are kept under the string `cardID:appID`, and a second map lists the applications of a
card, so that its counters can be evicted without a scan. Three writers extend that index:
`IncrCounter` when it sees a key for the first time, `PreloadCounters` for every key it sets, and
`EvictCard`, which drops a card.

## Strings and integers

Strings are the octets they are for the source and values are 64-bit integers, so an application id
may be any string, with colons or without. The counters of canonical identifiers with values that do
not overflow are those of `CounterStore` (`CounterMaps.Represents`).

## The invariant

Every key belongs to a card that lists its application, and every application listed has a counter
(`CounterMaps.Indexed`). What a card id may not contain is the separator: then the part of a key
before the first colon is its card.
-/

namespace OtaPlatform

open List Function

def colon : UInt8 := 0x3A

structure CounterMaps where
  /-- The counter values, by `cardID:appID`. -/
  counters : GoString → Option Int64
  cardApps : GoString → Option (List GoString)

namespace CounterMaps

/-! ## The source -/

def new : CounterMaps := ⟨fun _ ↦ none, fun _ ↦ none⟩

/-- `cardID + ":" + applicationID`. -/
def counterKey (cardID applicationID : GoString) : GoString := cardID ++ colon :: applicationID

/-- `m[cardID] = append(m[cardID], appID)`. -/
def appendApp (cardApps : GoString → Option (List GoString)) (cardID appID : GoString) :
    GoString → Option (List GoString) :=
  update cardApps cardID (some ((cardApps cardID).getD [] ++ [appID]))

section Operations

variable (s : CounterMaps) (cardID applicationID : GoString)

/-- Reads a counter; a missing one is zero. -/
def getCounter : Int64 := (s.counters (counterKey cardID applicationID)).getD 0

/-- Increments a counter and returns the new value. -/
def incrCounter : CounterMaps × Int64 :=
  let key := counterKey cardID applicationID
  let cardApps :=
    if (s.counters key).isNone then appendApp s.cardApps cardID applicationID else s.cardApps
  let value := (s.counters key).getD 0 + 1
  (⟨update s.counters key (some value), cardApps⟩, value)

def incrCounterAsync : CounterMaps := (s.incrCounter cardID applicationID).1

/-- Removes the counters that the index lists for the card, and its entry. -/
def evictCard : CounterMaps where
  counters := ((s.cardApps cardID).getD []).foldl
    (fun counters appID ↦ update counters (counterKey cardID appID) none) s.counters
  cardApps := update s.cardApps cardID none

/-- Sets one counter and adds it to the index, under the part of the key before the first colon. -/
def preloadCounter (kv : GoString × Int64) : CounterMaps where
  counters := update s.counters kv.1 (some kv.2)
  cardApps :=
    match kv.1.idxOf? colon with
    | some idx => appendApp s.cardApps (kv.1.take idx) (kv.1.drop (idx + 1))
    | none => s.cardApps

/-- Sets the counters of a map, in the order in which the map is ranged over. -/
def preloadCounters (values : List (GoString × Int64)) : CounterMaps :=
  values.foldl preloadCounter s

end Operations

end CounterMaps

inductive CounterCall
  | getCounter (cardID applicationID : GoString)
  | incrCounter (cardID applicationID : GoString)
  | incrCounterAsync (cardID applicationID : GoString)
  | preloadCounters (values : List (GoString × Int64))
  | evictCard (cardID : GoString)

/-- The store at work. Card ids contain no colon, and preloaded keys are those of `counterKey`. -/
def counterCalls : Machine CounterMaps CounterCall where
  Enabled _ call :=
    match call with
    | .getCounter cardID _ | .incrCounter cardID _ | .incrCounterAsync cardID _
    | .evictCard cardID => colon ∉ cardID
    | .preloadCounters values => ∀ kv ∈ values, ∃ cardID appID,
        colon ∉ cardID ∧ kv.1 = CounterMaps.counterKey cardID appID
  next s call :=
    match call with
    | .getCounter _ _ => s
    | .incrCounter cardID applicationID => (s.incrCounter cardID applicationID).1
    | .incrCounterAsync cardID applicationID => s.incrCounterAsync cardID applicationID
    | .preloadCounters values => s.preloadCounters values
    | .evictCard cardID => s.evictCard cardID

namespace CounterMaps

/-! ## Keys -/

section Keys

variable {cardID cardID' appID appID' : GoString}

theorem idxOf?_counterKey (h : colon ∉ cardID) :
    (counterKey cardID appID).idxOf? colon = some cardID.length := by
  rw [idxOf?_eq_some_iff]
  refine ⟨by simp [counterKey], by simp [counterKey], ?_⟩
  intro j hj heq
  refine h ?_
  rw [← heq]
  simp only [counterKey, getElem_append_left hj]
  exact getElem_mem hj

theorem counterKey_inj (h : colon ∉ cardID) (h' : colon ∉ cardID') :
    counterKey cardID appID = counterKey cardID' appID' ↔ cardID = cardID' ∧ appID = appID' := by
  constructor
  · intro hkey
    have hlength : cardID.length = cardID'.length := by
      have hidx : (counterKey cardID appID).idxOf? colon = some cardID.length :=
        idxOf?_counterKey h
      rw [hkey, idxOf?_counterKey h'] at hidx
      exact (Option.some.inj hidx).symm
    obtain ⟨hcard, happ⟩ := append_inj hkey hlength
    exact ⟨hcard, (cons.inj happ).2⟩
  · rintro ⟨rfl, rfl⟩
    rfl

end Keys

/-! ## The invariant -/

/-- Every counter is listed under its card, and everything listed has a counter. -/
structure Indexed (s : CounterMaps) : Prop where
  listed : ∀ key, (s.counters key).isSome → ∃ cardID appID apps, colon ∉ cardID ∧
    key = counterKey cardID appID ∧ s.cardApps cardID = some apps ∧ appID ∈ apps
  counted : ∀ cardID apps, s.cardApps cardID = some apps → colon ∉ cardID ∧ apps ≠ [] ∧
    ∀ appID ∈ apps, (s.counters (counterKey cardID appID)).isSome

theorem indexed_new : new.Indexed := ⟨by simp [new], by simp [new]⟩

theorem isSome_update_some {counters : GoString → Option Int64} {key key' : GoString}
    {value : Int64} : (update counters key (some value) key').isSome ↔
      key' = key ∨ (counters key').isSome := by
  by_cases h : key' = key
  · subst h
    simp
  · simp [h]

section Steps

variable {s : CounterMaps} {cardID : GoString} (appID : GoString) (value : Int64)

theorem Indexed.setNew (h : s.Indexed) (hcard : colon ∉ cardID) :
    Indexed ⟨update s.counters (counterKey cardID appID) (some value),
      appendApp s.cardApps cardID appID⟩ := by
  refine ⟨?_, ?_⟩
  · intro key hsome
    rcases isSome_update_some.mp hsome with rfl | hold
    · refine ⟨cardID, appID, _, hcard, rfl, update_self .., ?_⟩
      exact mem_append_right _ mem_cons_self
    · obtain ⟨cardID', appID', apps, hcard', rfl, happs, happ⟩ := h.listed key hold
      by_cases heq : cardID' = cardID
      · subst heq
        refine ⟨cardID', appID', _, hcard', rfl, update_self .., ?_⟩
        rw [happs]
        exact mem_append_left _ happ
      · exact ⟨cardID', appID', apps, hcard', rfl, (update_of_ne heq ..).trans happs, happ⟩
  · intro cardID' apps happs
    by_cases heq : cardID' = cardID
    · subst heq
      change update s.cardApps cardID' _ cardID' = some apps at happs
      rw [update_self] at happs
      obtain rfl := Option.some.inj happs
      refine ⟨hcard, by simp, fun appID' happ ↦ isSome_update_some.mpr ?_⟩
      rcases mem_append.mp happ with hold | hnew
      · cases hcur : s.cardApps cardID' with
        | none => simp [hcur] at hold
        | some cur =>
          rw [hcur] at hold
          exact Or.inr ((h.counted cardID' cur hcur).2.2 appID' hold)
      · rw [mem_singleton.mp hnew]
        exact Or.inl rfl
    · have hold : s.cardApps cardID' = some apps := (update_of_ne heq ..).symm.trans happs
      obtain ⟨hcard', hne, hall⟩ := h.counted cardID' apps hold
      exact ⟨hcard', hne, fun appID' happ ↦ isSome_update_some.mpr (Or.inr (hall appID' happ))⟩

theorem Indexed.setKnown (h : s.Indexed) (hknown : (s.counters (counterKey cardID appID)).isSome) :
    Indexed ⟨update s.counters (counterKey cardID appID) (some value), s.cardApps⟩ := by
  refine ⟨?_, ?_⟩
  · intro key hsome
    rcases isSome_update_some.mp hsome with rfl | hold
    · exact h.listed _ hknown
    · exact h.listed key hold
  · intro cardID' apps happs
    obtain ⟨hcard', hne, hall⟩ := h.counted cardID' apps happs
    exact ⟨hcard', hne, fun appID' happ ↦ isSome_update_some.mpr (Or.inr (hall appID' happ))⟩

theorem Indexed.incrCounter (h : s.Indexed) (hcard : colon ∉ cardID) :
    (s.incrCounter cardID appID).1.Indexed := by
  rw [CounterMaps.incrCounter]
  cases hcounter : s.counters (counterKey cardID appID) with
  | none =>
    simp only [Option.isNone_none, if_true]
    exact h.setNew appID _ hcard
  | some v =>
    simp only [Option.isNone_some, Bool.false_eq_true, if_false]
    exact h.setKnown appID _ (by rw [hcounter]; rfl)

theorem preloadCounter_counterKey (s : CounterMaps) (hcard : colon ∉ cardID) :
    s.preloadCounter (counterKey cardID appID, value)
      = ⟨update s.counters (counterKey cardID appID) (some value),
          appendApp s.cardApps cardID appID⟩ := by
  have hsplit : (counterKey cardID appID).take cardID.length = cardID ∧
      (counterKey cardID appID).drop (cardID.length + 1) = appID := by simp [counterKey]
  simp only [preloadCounter, idxOf?_counterKey hcard, hsplit.1, hsplit.2]

theorem Indexed.preloadCounters (h : s.Indexed) {values : List (GoString × Int64)}
    (hvalues : ∀ kv ∈ values, ∃ cardID appID, colon ∉ cardID ∧ kv.1 = counterKey cardID appID) :
    (s.preloadCounters values).Indexed := by
  induction values generalizing s with
  | nil => exact h
  | cons kv values ih =>
    obtain ⟨key, value⟩ := kv
    obtain ⟨cardID, appID, hcard, rfl⟩ := hvalues _ mem_cons_self
    refine ih ?_ fun kv' hkv' ↦ hvalues kv' (mem_cons_of_mem _ hkv')
    rw [preloadCounter_counterKey appID value s hcard]
    exact h.setNew appID value hcard

end Steps

/-! ## Eviction -/

section Evict

variable (s : CounterMaps) {cardID : GoString}

theorem counters_evictCard (cardID key : GoString) : (s.evictCard cardID).counters key =
      if key ∈ ((s.cardApps cardID).getD []).map (counterKey cardID) then none
      else s.counters key := by
  convert CounterStore.foldl_update_none (counterKey cardID) _ s.counters key
  rfl

theorem counters_evictCard_of_ne {key : GoString} (h : ∀ appID, key ≠ counterKey cardID appID) :
    (s.evictCard cardID).counters key = s.counters key := by
  rw [counters_evictCard, if_neg]
  intro hmem
  obtain ⟨appID, -, hkey⟩ := mem_map.mp hmem
  exact h appID hkey.symm

variable {s}

theorem Indexed.counters_evictCard_self (h : s.Indexed) (hcard : colon ∉ cardID)
    (appID : GoString) : (s.evictCard cardID).counters (counterKey cardID appID) = none := by
  rw [counters_evictCard]
  split_ifs with hmem
  · rfl
  · by_contra hsome
    obtain ⟨cardID', appID', apps, hcard', hkey, happs, happ⟩ :=
      h.listed _ (Option.isSome_iff_ne_none.mpr hsome)
    obtain ⟨rfl, rfl⟩ := (counterKey_inj hcard hcard').mp hkey
    refine hmem (mem_map.mpr ⟨appID, ?_, rfl⟩)
    rw [happs]
    exact happ

theorem Indexed.evictCard (h : s.Indexed) (hcard : colon ∉ cardID) :
    (s.evictCard cardID).Indexed := by
  refine ⟨?_, ?_⟩
  · intro key hsome
    have hother : ∀ appID, key ≠ counterKey cardID appID := by
      rintro appID rfl
      rw [h.counters_evictCard_self hcard] at hsome
      cases hsome
    rw [s.counters_evictCard_of_ne hother] at hsome
    obtain ⟨cardID', appID', apps, hcard', rfl, happs, happ⟩ := h.listed key hsome
    have hne : cardID' ≠ cardID := fun heq ↦ hother appID' (by rw [heq])
    exact ⟨cardID', appID', apps, hcard', rfl, (update_of_ne hne ..).trans happs, happ⟩
  · intro cardID' apps happs
    by_cases heq : cardID' = cardID
    · subst heq
      cases (update_self ..).symm.trans happs
    · have hold : s.cardApps cardID' = some apps := (update_of_ne heq ..).symm.trans happs
      obtain ⟨hcard', hne, hall⟩ := h.counted cardID' apps hold
      refine ⟨hcard', hne, fun appID happ ↦ ?_⟩
      rw [s.counters_evictCard_of_ne fun appID' hkey ↦
        heq ((counterKey_inj hcard' hcard).mp hkey).1]
      exact hall appID happ

end Evict

/-! ## Runs -/

theorem Indexed.next {s : CounterMaps} (h : s.Indexed) {call : CounterCall}
    (henabled : counterCalls.Enabled s call) : (counterCalls.next s call).Indexed := by
  cases call with
  | getCounter cardID applicationID => exact h
  | incrCounter cardID applicationID => exact h.incrCounter applicationID henabled
  | incrCounterAsync cardID applicationID => exact h.incrCounter applicationID henabled
  | preloadCounters values => exact h.preloadCounters henabled
  | evictCard cardID => exact h.evictCard henabled

/-- **The index agrees with the counters.** After any calls, every counter is listed under its card
and every card in the index has a counter. So `EvictCard` removes the counters of the card and no
others. -/
theorem counters_indexed {calls : List CounterCall} (hruns : counterCalls.Runs new calls) :
    let s := counterCalls.after new calls
    (∀ key, (s.counters key).isSome → ∃ cardID appID apps, colon ∉ cardID ∧
      key = counterKey cardID appID ∧ s.cardApps cardID = some apps ∧ appID ∈ apps) ∧
    (∀ cardID, (s.cardApps cardID).isSome →
      ∃ appID, (s.counters (counterKey cardID appID)).isSome) ∧
    (∀ cardID, colon ∉ cardID →
      (∀ appID, (s.evictCard cardID).counters (counterKey cardID appID) = none) ∧
      ∀ cardID' appID, colon ∉ cardID' → cardID' ≠ cardID →
        (s.evictCard cardID).counters (counterKey cardID' appID)
          = s.counters (counterKey cardID' appID)) ∧
    ∀ cardID appID, (s.incrCounter cardID appID).2 = s.getCounter cardID appID + 1 := by
  intro s
  have h : s.Indexed := hruns.invariant (fun _ _ h henabled _ ↦ h.next henabled) indexed_new
  refine ⟨h.listed, ?_, ?_, fun _ _ ↦ rfl⟩
  · intro cardID hsome
    obtain ⟨apps, happs⟩ := Option.isSome_iff_exists.mp hsome
    obtain ⟨-, hne, hall⟩ := h.counted cardID apps happs
    obtain ⟨appID, happ⟩ := exists_mem_of_ne_nil apps hne
    exact ⟨appID, hall appID happ⟩
  · intro cardID hcard
    refine ⟨h.counters_evictCard_self hcard, fun cardID' appID hcard' hne ↦ ?_⟩
    exact s.counters_evictCard_of_ne fun appID' hkey ↦ hne ((counterKey_inj hcard' hcard).mp hkey).1

/-- Card `1` gets the applications `a:b`, preloaded, and `c`, first seen by an increment. -/
def twoApps : List CounterCall :=
  [.preloadCounters [([0x31, colon, 0x61, colon, 0x62], 5)], .incrCounter [0x31] [0x63]]

theorem counters_indexed_two_apps :
    (counterCalls.after new twoApps).cardApps [0x31] = some [[0x61, colon, 0x62], [0x63]] ∧
      ((counterCalls.after new twoApps).incrCounter [0x31] [0x61, colon, 0x62]).2 = 6 ∧
      ((counterCalls.after new twoApps).evictCard [0x31]).counters (counterKey [0x31] [0x63])
        = none := by
  have hruns : counterCalls.Runs new twoApps := by
    refine ⟨⟨?_, trivial⟩, ⟨?_, trivial⟩, trivial⟩
    · exact forall_mem_singleton.mpr ⟨[0x31], [0x61, colon, 0x62], by decide, rfl⟩
    · change colon ∉ _
      decide
  obtain ⟨-, -, hevict, hincr⟩ := counters_indexed hruns
  refine ⟨by decide, ?_, (hevict [0x31] (by decide)).1 [0x63]⟩
  rw [hincr]
  decide

/-! ## The store of identifiers -/

def octets (text : String) : GoString := text.toByteArray.data.toList

theorem octets_injective : Injective octets := fun _ _ h ↦
  String.toByteArray_inj.mp (ByteArray.ext (Array.toList_inj.mp h))

theorem octets_append (a b : String) : octets (a ++ b) = octets a ++ octets b := by
  rw [octets, String.toByteArray_append, ByteArray.data_append, Array.toList_append]
  rfl

theorem octets_key (cardID appID : String) :
    octets (cardID ++ ":" ++ appID) = counterKey (octets cardID) (octets appID) := by
  have hcolon : octets ":" = [colon] := by decide
  rw [octets_append, octets_append, hcolon, append_assoc]
  rfl

/-- The octet of the separator stands for nothing else. -/
theorem colon_notMem_octets {text : String} (h : ':' ∉ text.toList) : colon ∉ octets text := by
  rw [octets, ← String.utf8Encode_toList, utf8Encode, data_toByteArray]
  intro hmem
  obtain ⟨c, hc, hcolon⟩ := mem_flatMap.mp hmem
  refine h ((?_ : c = ':') ▸ hc)
  have hoctet : ∀ n, colon = UInt8.ofNat n → n % 256 = 58 := fun n hn ↦
    (congrArg UInt8.toNat hn).symm
  simp only [String.utf8EncodeChar] at hcolon
  split_ifs at hcolon with h₁ h₂ h₃
  · have hval := hoctet _ (mem_singleton.mp hcolon)
    exact Char.ext (UInt32.toNat.inj (by change c.val.toNat = 58; omega))
  -- the octets of a longer encoding are at least 128
  all_goals simp only [mem_cons, not_mem_nil, or_false] at hcolon
  · rcases hcolon with hn | hn <;> · have := hoctet _ hn; omega
  · rcases hcolon with hn | hn | hn <;> · have := hoctet _ hn; omega
  · rcases hcolon with hn | hn | hn | hn <;> · have := hoctet _ hn; omega

/-- The maps with the octets of the identifiers as keys hold what the store holds. -/
structure Represents (m : CounterMaps) (s : CounterStore) : Prop where
  counters_eq : ∀ key, (m.counters (octets key)).map Int64.toInt = s.counters key
  cardApps_eq : ∀ cardID, (m.cardApps (octets cardID)).getD [] = (s.cardApps cardID).map octets

section Represents

variable {m : CounterMaps} {s : CounterStore}

theorem represents_new : Represents new .new := ⟨fun _ ↦ rfl, fun _ ↦ rfl⟩

theorem update_octets {α β γ : Type} (f : α → γ) (f' : β → γ) {g : GoString → α}
    {g' : String → β} (h : ∀ key, f (g (octets key)) = f' (g' key)) {v : α} {v' : β}
    (hv : f v = f' v') (key key' : String) :
    f (update g (octets key) v (octets key')) = f' (update g' key v' key') := by
  by_cases hkey : key' = key
  · rw [hkey, update_self, update_self, hv]
  · rw [update_of_ne hkey, update_of_ne (octets_injective.ne hkey), h]

variable (h : Represents m s)

include h

theorem Represents.counters_update (cardID appID : UUID) {v : Int64} {v' : ℤ}
    (hv : v.toInt = v') (key : String) :
    (update m.counters (counterKey (octets cardID.text) (octets appID.text)) (some v)
      (octets key)).map Int64.toInt
      = update s.counters (OtaPlatform.counterKey cardID appID) (some v') key := by
  rw [← octets_key]
  refine update_octets (Option.map Int64.toInt) id h.counters_eq ?_ _ key
  exact congrArg some hv

theorem Represents.cardApps_appendApp (cardID appID card : String) :
    (appendApp m.cardApps (octets cardID) (octets appID) (octets card)).getD []
      = (update s.cardApps cardID (s.cardApps cardID ++ [appID]) card).map octets := by
  refine update_octets (Option.getD · []) (map octets) h.cardApps_eq ?_ cardID card
  rw [map_append, ← h.cardApps_eq]
  rfl

theorem Represents.getCounter (cardID appID : UUID) :
    (m.getCounter (octets cardID.text) (octets appID.text)).toInt = s.getCounter cardID appID := by
  rw [CounterMaps.getCounter, CounterStore.getCounter, CounterStore.counter, ← h.counters_eq,
    OtaPlatform.counterKey, octets_key]
  cases m.counters (counterKey (octets cardID.text) (octets appID.text)) <;> rfl

theorem Represents.incrCounter (cardID appID : UUID)
    (hfits : s.getCounter cardID appID < 2 ^ 63 - 1) :
    Represents (m.incrCounterAsync (octets cardID.text) (octets appID.text))
      (s.incrCounter cardID appID) := by
  have hvalue : (m.getCounter (octets cardID.text) (octets appID.text) + 1).toInt
      = s.getCounter cardID appID + 1 := by
    have hmin := (m.getCounter (octets cardID.text) (octets appID.text)).le_toInt
    rw [← h.getCounter] at hfits ⊢
    rw [Int64.toInt_add, Int64.toInt_one, Int.bmod_eq_of_le (by omega) (by omega)]
  refine ⟨fun key ↦ ?_, fun card ↦ ?_⟩
  · exact h.counters_update cardID appID hvalue key
  · have hcounter := h.counters_eq (OtaPlatform.counterKey cardID appID)
    rw [OtaPlatform.counterKey, octets_key] at hcounter
    simp only [incrCounterAsync, CounterMaps.incrCounter, CounterStore.incrCounter,
      CounterStore.counter, OtaPlatform.counterKey, ← hcounter]
    cases m.counters (counterKey (octets cardID.text) (octets appID.text)) with
    | none => exact h.cardApps_appendApp cardID.text appID.text card
    | some v => exact h.cardApps_eq card

theorem Represents.evictCard (cardID : UUID) :
    Represents (m.evictCard (octets cardID.text)) (s.evictCard cardID) := by
  refine ⟨fun key ↦ ?_, fun card ↦ ?_⟩
  · have hmem : octets key ∈ ((m.cardApps (octets cardID.text)).getD []).map
        (counterKey (octets cardID.text)) ↔
          key ∈ (s.cardApps cardID.text).map (cardID.text ++ ":" ++ ·) := by
      rw [h.cardApps_eq, map_map, ← mem_map_of_injective octets_injective, map_map]
      simp only [comp_def, octets_key]
    rw [counters_evictCard, apply_ite (Option.map Int64.toInt), h.counters_eq,
      if_congr hmem rfl rfl]
    exact (CounterStore.foldl_update_none ..).symm
  · exact update_octets (Option.getD · []) (map octets) h.cardApps_eq rfl cardID.text card

theorem Represents.preloadCounters (values : List ((UUID × UUID) × Int64)) : Represents
      (m.preloadCounters (values.map fun kv ↦
        (counterKey (octets kv.1.1.text) (octets kv.1.2.text), kv.2)))
      (s.preloadCounters (values.map fun kv ↦
        (OtaPlatform.counterKey kv.1.1 kv.1.2, kv.2.toInt))) := by
  induction values generalizing m s with
  | nil => exact h
  | cons kv values ih =>
    refine ih ⟨fun key ↦ ?_, fun card ↦ ?_⟩
    · exact h.counters_update kv.1.1 kv.1.2 rfl key
    · rw [preloadCounter_counterKey _ _ _ (colon_notMem_octets kv.1.1.colon_notMem),
        CounterStore.preloadCounter, CounterStore.splitKey_counterKey]
      exact h.cardApps_appendApp kv.1.1.text kv.1.2.text card

end Represents

inductive StoreCall
  | incrCounter (cardID applicationID : UUID)
  | preloadCounters (values : List ((UUID × UUID) × Int64))
  | evictCard (cardID : UUID)

/-- The maps and the store side by side, as long as no counter overflows. -/
def storeCalls : Machine (CounterMaps × CounterStore) StoreCall where
  Enabled p call :=
    match call with
    | .incrCounter cardID appID => p.2.getCounter cardID appID < 2 ^ 63 - 1
    | .preloadCounters _ | .evictCard _ => True
  next p call :=
    match call with
    | .incrCounter cardID appID =>
      (p.1.incrCounterAsync (octets cardID.text) (octets appID.text), p.2.incrCounter cardID appID)
    | .preloadCounters values =>
      (p.1.preloadCounters (values.map fun kv ↦
        (counterKey (octets kv.1.1.text) (octets kv.1.2.text), kv.2)),
      p.2.preloadCounters (values.map fun kv ↦
        (OtaPlatform.counterKey kv.1.1 kv.1.2, kv.2.toInt)))
    | .evictCard cardID => (p.1.evictCard (octets cardID.text), p.2.evictCard cardID)

/-- **The store is what the engine takes it for**: after any calls that overflow no counter, the
counters of the maps are those of `CounterStore`. -/
theorem getCounter_after_calls {calls : List StoreCall}
    (hruns : storeCalls.Runs (new, .new) calls) (cardID appID : UUID) :
    let p := storeCalls.after (new, .new) calls
    (p.1.getCounter (octets cardID.text) (octets appID.text)).toInt
      = p.2.getCounter cardID appID := by
  refine Represents.getCounter (hruns.invariant (I := fun p ↦ Represents p.1 p.2)
    (fun p call h henabled _ ↦ ?_) represents_new) cardID appID
  cases call with
  | incrCounter cardID appID => exact h.incrCounter cardID appID henabled
  | preloadCounters values => exact h.preloadCounters values
  | evictCard cardID => exact h.evictCard cardID

theorem getCounter_after_calls_preloaded :
    let p := storeCalls.after (new, .new)
      [.preloadCounters [((.ofDigit 1, .ofDigit 2), 5)], .incrCounter (.ofDigit 1) (.ofDigit 2)]
    (p.1.getCounter (octets (UUID.ofDigit 1).text) (octets (UUID.ofDigit 2).text)).toInt = 6 := by
  refine (@getCounter_after_calls [_, _] ?_ _ _).trans (by decide +kernel)
  refine ⟨⟨trivial, trivial⟩, ⟨?_, trivial⟩, trivial⟩
  change (_ : ℤ) < _
  decide +kernel

end CounterMaps

end OtaPlatform
