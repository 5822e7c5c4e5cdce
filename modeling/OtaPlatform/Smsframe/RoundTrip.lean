import Mathlib.Data.Fintype.Sigma
import Mathlib.Data.List.GetD
import OtaPlatform.Smsframe.Reassemble

/-!
# Splitting and reassembling under interleaving

Any finite family of messages, split by `splitForConcat` and fed part by part to one `Reassembler`
in any order, comes back whole: every call answers either with a complete packet or with nothing,
and at the end the reassembler is empty again.

## Arrivals

A part is named by its message and its index, so an arrival order is a list over the sigma type
`Arrival msgs` and an index outside the message cannot be written down. What has been collected for
a message is then a function of the arrivals so far, `collected`, and the whole invariant
(`Tracks`) says that the two maps of the reassembler are exactly these functions, spread over the
keys of the messages that are open.

## Where distinctness is used

Messages may share an `msisdn` or a reference, but not both. Through `partKey_injective` this makes
the keys of multi-part messages distinct, which is all that separates two messages inside the maps.
Messages of one part never enter the maps and are not restricted.
-/

namespace OtaPlatform

open List Function

/-! ## Messages -/

/-- A message that was split successfully into at most 254 parts, with the arguments of the split
and the reference it drew. -/
structure Message where
  /-- The subscriber the parts come from. -/
  msisdn : GoString
  packet : Bytes
  /-- The user data size the packet was split for. -/
  maxPartSize : ℤ
  maxParts : ℤ
  refNum : UInt8
  parts : List Bytes
  split : splitForConcat refNum packet maxPartSize maxParts = .ok parts
  /-- One less than the byte counter of the reassembler can count to. -/
  length_le : parts.length ≤ 254

namespace Message

variable (m : Message)

/-- A message that needs concatenation. -/
def MultiPart : Prop := 1 < m.parts.length

instance : Decidable m.MultiPart := inferInstanceAs (Decidable (1 < m.parts.length))

/-- The key its parts are collected under. -/
def key : GoString := partKey m.msisdn m.refNum

/-- The payload of part `i`, after the eight header octets of a concatenated part. -/
def chunk (i : ℕ) : Bytes := (m.parts.getD i []).drop 8

variable {m}

theorem parts_of_not_multiPart (h : ¬ m.MultiPart) : m.parts = [frameOTASMS m.packet none] := by
  rcases splitForConcat_ok m.split with hone | ⟨chunks, htwo, -, -, hparts⟩
  · exact hone
  · refine absurd ?_ h
    rw [MultiPart, hparts, length_frameChunks]
    omega

theorem parts_of_multiPart (h : m.MultiPart) :
    ∃ chunks : List Bytes, chunks.flatten = m.packet ∧ m.parts = frameChunks m.refNum chunks := by
  rcases splitForConcat_ok m.split with hone | ⟨chunks, -, -, hflat, hparts⟩
  · rw [MultiPart, hone] at h
    exact absurd h (by simp)
  · exact ⟨chunks, hflat, hparts⟩

theorem length_parts_pos : 0 < m.parts.length := by
  by_cases h : m.MultiPart
  · exact lt_trans Nat.zero_lt_one h
  · rw [parts_of_not_multiPart h]
    exact Nat.zero_lt_one

theorem getElem_parts (h : m.MultiPart) {i : ℕ} (hi : i < m.parts.length) :
    m.parts[i] = frameOTASMS (m.chunk i)
      (some ⟨m.refNum, UInt8.ofNat m.parts.length, UInt8.ofNat (i + 1)⟩) := by
  obtain ⟨chunks, -, hparts⟩ := parts_of_multiPart h
  have hi' : i < chunks.length := by rwa [hparts, length_frameChunks] at hi
  have hframe : m.parts[i] = frameOTASMS chunks[i]
      (some ⟨m.refNum, UInt8.ofNat chunks.length, UInt8.ofNat (i + 1)⟩) := by
    simp only [hparts]
    exact getElem_frameChunks _ _ _ _ hi'
  have hchunk : m.chunk i = chunks[i] := by
    rw [chunk, getD_eq_getElem _ _ hi, hframe]
    rfl
  rw [hframe, hchunk, hparts, length_frameChunks]

theorem flatten_chunks (h : m.MultiPart) :
    ((range m.parts.length).map m.chunk).flatten = m.packet := by
  obtain ⟨chunks, hflat, hparts⟩ := parts_of_multiPart h
  rw [← hflat]
  congr 1
  have hlen : m.parts.length = chunks.length := by rw [hparts, length_frameChunks]
  refine ext_getElem (by simp [hlen]) fun i hi hi' ↦ ?_
  have hip : i < m.parts.length := by omega
  rw [getElem_map, getElem_range, chunk, getD_eq_getElem _ _ hip]
  simp only [hparts]
  rw [getElem_frameChunks _ _ _ _ hi']
  rfl

end Message

/-! ## Arrivals and what they collect -/

section Arrivals

variable {ι : Type}

/-- One part of one message of the family. -/
abbrev Arrival (msgs : ι → Message) : Type := Σ j, Fin (msgs j).parts.length

variable {msgs : ι → Message}

/-- What reaches `addPart`: the sender and the framed octets. -/
def Arrival.wire (a : Arrival msgs) : GoString × Bytes :=
  ((msgs a.1).msisdn, (msgs a.1).parts.get a.2)

/-- Every part of message `j` has arrived. -/
def Collected (arrivals : List (Arrival msgs)) (j : ι) : Prop :=
  ∀ i, (⟨j, i⟩ : Arrival msgs) ∈ arrivals

instance [DecidableEq ι] (arrivals : List (Arrival msgs)) (j : ι) :
    Decidable (Collected arrivals j) :=
  inferInstanceAs (Decidable (∀ i, (⟨j, i⟩ : Arrival msgs) ∈ arrivals))

/-- Some part of message `j` has arrived and some part is missing. -/
def Incomplete (arrivals : List (Arrival msgs)) (j : ι) : Prop :=
  (∃ i, (⟨j, i⟩ : Arrival msgs) ∈ arrivals) ∧ ¬ Collected arrivals j

theorem ofNat_succ_injective {i k : ℕ} (hi : i < 254) (hk : k < 254)
    (h : UInt8.ofNat (i + 1) = UInt8.ofNat (k + 1)) : i = k := by
  have := congrArg UInt8.toNat h
  rw [UInt8.toNat_ofNat', UInt8.toNat_ofNat', Nat.mod_eq_of_lt (by omega),
    Nat.mod_eq_of_lt (by omega)] at this
  omega

theorem toNat_ofNat_succ {i : ℕ} (hi : i < 254) : (UInt8.ofNat (i + 1)).toNat - 1 = i := by
  rw [UInt8.toNat_ofNat', Nat.mod_eq_of_lt (by omega)]
  omega

theorem index_lt (j : ι) (i : Fin (msgs j).parts.length) : (i : ℕ) < 254 :=
  lt_of_lt_of_le i.2 (msgs j).length_le

theorem mem_append_of_ne {pre : List (Arrival msgs)} {j : ι} {a : Arrival msgs} (h : a.1 ≠ j)
    (i : Fin (msgs j).parts.length) :
    (⟨j, i⟩ : Arrival msgs) ∈ pre ++ [a] ↔ (⟨j, i⟩ : Arrival msgs) ∈ pre := by
  rw [mem_append, mem_singleton]
  refine or_iff_left fun heq ↦ h ?_
  rw [← heq]

theorem incomplete_append_of_ne {pre : List (Arrival msgs)} {j : ι} {a : Arrival msgs}
    (h : a.1 ≠ j) : Incomplete (pre ++ [a]) j ↔ Incomplete pre j := by
  simp only [Incomplete, Collected, mem_append_of_ne h]

/-- The family's multi-part messages have pairwise distinct pairs of sender and reference. -/
def DistinctRefs (msgs : ι → Message) : Prop :=
  ∀ j k, (msgs j).MultiPart → (msgs k).MultiPart →
    ((msgs j).msisdn, (msgs j).refNum) = ((msgs k).msisdn, (msgs k).refNum) → j = k

instance [Fintype ι] [DecidableEq ι] (msgs : ι → Message) : Decidable (DistinctRefs msgs) :=
  inferInstanceAs (Decidable (∀ j k, (msgs j).MultiPart → (msgs k).MultiPart →
    ((msgs j).msisdn, (msgs j).refNum) = ((msgs k).msisdn, (msgs k).refNum) → j = k))

theorem DistinctRefs.key_ne (hrefs : DistinctRefs msgs) {j k : ι} (hj : (msgs j).MultiPart)
    (hk : (msgs k).MultiPart) (hne : j ≠ k) : (msgs j).key ≠ (msgs k).key := by
  intro h
  obtain ⟨hm, hr⟩ := partKey_injective h
  exact hne (hrefs j k hj hk (by rw [hm, hr]))

/-- No part arrives once its message is complete; before that, parts may repeat freely. -/
def NoneAfterComplete (arrivals : List (Arrival msgs)) : Prop :=
  ∀ k, (hk : k < arrivals.length) → ¬ Collected (arrivals.take k) arrivals[k].1

instance [DecidableEq ι] (arrivals : List (Arrival msgs)) :
    Decidable (NoneAfterComplete arrivals) :=
  inferInstanceAs
    (Decidable (∀ k, (hk : k < arrivals.length) → ¬ Collected (arrivals.take k) arrivals[k].1))

theorem NoneAfterComplete.at_cons {pre post : List (Arrival msgs)} {a : Arrival msgs}
    (h : NoneAfterComplete (pre ++ a :: post)) : ¬ Collected pre a.1 := by
  have hk := h pre.length (by simp)
  rw [take_left, getElem_append_right (le_refl _)] at hk
  simpa using hk

variable [DecidableEq ι]

/-- The payloads received for message `j`, by part number. -/
def collected (arrivals : List (Arrival msgs)) (j : ι) : PartMap := fun b ↦
  if ∃ i : Fin (msgs j).parts.length, (⟨j, i⟩ : Arrival msgs) ∈ arrivals ∧
      b = UInt8.ofNat (i + 1) then
    some ((msgs j).chunk (b.toNat - 1))
  else none

theorem collected_append_same (pre : List (Arrival msgs)) (j : ι) (i : Fin (msgs j).parts.length) :
    collected (pre ++ [⟨j, i⟩]) j
      = update (collected pre j) (UInt8.ofNat (i + 1)) (some ((msgs j).chunk i)) := by
  funext b
  by_cases hb : b = UInt8.ofNat (i + 1)
  · subst hb
    rw [update_self, collected, if_pos ⟨i, by simp, rfl⟩, toNat_ofNat_succ (index_lt j i)]
  · rw [update_of_ne hb, collected, collected]
    refine if_congr ?_ rfl rfl
    constructor
    · rintro ⟨k, hk, rfl⟩
      refine ⟨k, ?_, rfl⟩
      rcases mem_append.mp hk with hk | hk
      · exact hk
      · have hki : k = i := by simpa using hk
        exact absurd (by rw [hki]) hb
    · rintro ⟨k, hk, rfl⟩
      exact ⟨k, mem_append_left _ hk, rfl⟩

theorem collected_append_of_ne {pre : List (Arrival msgs)} {j : ι} {a : Arrival msgs}
    (h : a.1 ≠ j) : collected (pre ++ [a]) j = collected pre j := by
  funext b
  simp only [collected, mem_append_of_ne h]

/-- The number of entries is the number of distinct parts seen, because part numbers below 255 do
not wrap. -/
theorem len_collected (arrivals : List (Arrival msgs)) (j : ι) : (collected arrivals j).len
      = (Finset.univ.filter fun i ↦ (⟨j, i⟩ : Arrival msgs) ∈ arrivals).card := by
  rw [PartMap.len]
  have himage : (Finset.univ.filter fun b ↦ (collected arrivals j b).isSome)
      = (Finset.univ.filter fun i ↦ (⟨j, i⟩ : Arrival msgs) ∈ arrivals).image
          fun i : Fin (msgs j).parts.length ↦ UInt8.ofNat (i + 1) := by
    ext b
    simp only [Finset.mem_filter, Finset.mem_univ, true_and, Finset.mem_image]
    by_cases h : ∃ i : Fin (msgs j).parts.length, (⟨j, i⟩ : Arrival msgs) ∈ arrivals ∧
        b = UInt8.ofNat (i + 1)
    · rw [collected, if_pos h]
      obtain ⟨i, hi, rfl⟩ := h
      exact iff_of_true rfl ⟨i, hi, rfl⟩
    · rw [collected, if_neg h]
      refine iff_of_false (by simp) ?_
      rintro ⟨i, hi, rfl⟩
      exact h ⟨i, hi, rfl⟩
  rw [himage]
  refine Finset.card_image_of_injective _ fun i k h ↦ ?_
  exact Fin.ext (ofNat_succ_injective (index_lt j i) (index_lt j k) h)

/-- The byte comparison of `addPart` decides whether a part is missing. -/
theorem len_collected_lt_iff (arrivals : List (Arrival msgs)) (j : ι) :
    UInt8.ofNat (collected arrivals j).len < UInt8.ofNat (msgs j).parts.length
      ↔ ¬ Collected arrivals j := by
  have hlen := (msgs j).length_le
  have hle : (collected arrivals j).len ≤ (msgs j).parts.length := by
    rw [len_collected]
    exact (Finset.card_le_univ _).trans (by rw [Fintype.card_fin])
  rw [UInt8.lt_iff_toNat_lt, UInt8.toNat_ofNat', UInt8.toNat_ofNat', Nat.mod_eq_of_lt (by omega),
    Nat.mod_eq_of_lt (by omega), lt_iff_le_and_ne, and_iff_right hle, not_iff_not, len_collected]
  constructor
  · intro h i
    have huniv := Finset.eq_univ_of_card _ (h.trans (Fintype.card_fin _).symm)
    have hi := Finset.mem_univ i
    rw [← huniv, Finset.mem_filter] at hi
    exact hi.2
  · intro h
    rw [Finset.filter_true_of_mem fun i _ ↦ h i, Finset.card_univ, Fintype.card_fin]

theorem foldl_append_eq_flatten (f : ℕ → Bytes) (l : List ℕ) (acc : Bytes) :
    l.foldl (fun a i ↦ a ++ f i) acc = acc ++ (l.map f).flatten := by
  induction l generalizing acc with
  | nil => simp
  | cons x l ih => rw [foldl_cons, ih, map_cons, flatten_cons, append_assoc]

/-- Reading a complete collection in the order of the part numbers gives the packet. -/
theorem foldl_collected {arrivals : List (Arrival msgs)} {j : ι} (hmulti : (msgs j).MultiPart)
    (hall : Collected arrivals j) : (range' 1 (msgs j).parts.length).foldl
        (fun acc i ↦ acc ++ ((collected arrivals j) (UInt8.ofNat i)).getD []) []
      = (msgs j).packet := by
  rw [foldl_append_eq_flatten, nil_append, ← Message.flatten_chunks hmulti,
    range'_eq_map_range, map_map]
  congr 1
  refine map_congr_left fun i hi ↦ ?_
  have hi' : i < (msgs j).parts.length := mem_range.mp hi
  have hlt : i < 254 := lt_of_lt_of_le hi' (msgs j).length_le
  rw [comp_apply, add_comm 1 i, collected, if_pos ⟨⟨i, hi'⟩, hall ⟨i, hi'⟩, rfl⟩,
    toNat_ofNat_succ hlt, Option.getD_some]

/-! ## The invariant -/

/-- The maps of the reassembler hold exactly the incomplete multi-part messages, each with what has
arrived of it. -/
structure Tracks (r : Reassembler) (arrivals : List (Arrival msgs)) : Prop where
  /-- An incomplete message is stored under its key, with its collection and its total. -/
  stored : ∀ j, (msgs j).MultiPart → Incomplete arrivals j →
    r.parts (msgs j).key = some (collected arrivals j) ∧
      r.total (msgs j).key = some (UInt8.ofNat (msgs j).parts.length)
  absent : ∀ key, (∀ j, (msgs j).MultiPart → Incomplete arrivals j → (msgs j).key ≠ key) →
    r.parts key = none ∧ r.total key = none

theorem tracks_new : Tracks Reassembler.new ([] : List (Arrival msgs)) where
  stored := by
    rintro j - ⟨⟨i, hi⟩, -⟩
    simp at hi
  absent := fun _ _ ↦ ⟨rfl, rfl⟩

/-- What `addPart` finds for a message that is not complete yet, whether or not it has been opened
already. -/
theorem Tracks.entry_eq {r : Reassembler} {pre : List (Arrival msgs)} (ht : Tracks r pre)
    (hrefs : DistinctRefs msgs) {j : ι} (hmulti : (msgs j).MultiPart)
    (hmissing : ¬ Collected pre j) : r.entry (msgs j).key (UInt8.ofNat (msgs j).parts.length)
      = (collected pre j, UInt8.ofNat (msgs j).parts.length) := by
  by_cases hsome : ∃ i, (⟨j, i⟩ : Arrival msgs) ∈ pre
  · obtain ⟨hparts, htotal⟩ := ht.stored j hmulti ⟨hsome, hmissing⟩
    simp only [Reassembler.entry, hparts, htotal, Option.getD_some]
  · have hnone : r.parts (msgs j).key = none := by
      refine (ht.absent _ fun k hk hopen ↦ ?_).1
      refine hrefs.key_ne hk hmulti ?_
      rintro rfl
      exact hsome hopen.1
    have hempty : collected pre j = fun _ ↦ none := by
      funext b
      rw [collected, if_neg]
      rintro ⟨i, hi, -⟩
      exact hsome ⟨i, hi⟩
    simp only [Reassembler.entry, hnone, hempty]

/-- A message leaves or keeps its place in the maps; the others keep theirs. Both outcomes of a
concatenated part are instances, with the new entry `some` or `none`. -/
theorem Tracks.update {r : Reassembler} {pre : List (Arrival msgs)} (ht : Tracks r pre)
    (hrefs : DistinctRefs msgs) {a : Arrival msgs} (hmulti : (msgs a.1).MultiPart)
    {m : Option PartMap} {t : Option UInt8}
    (hopen : Incomplete (pre ++ [a]) a.1 → m = some (collected (pre ++ [a]) a.1) ∧
      t = some (UInt8.ofNat (msgs a.1).parts.length))
    (hclosed : ¬ Incomplete (pre ++ [a]) a.1 → m = none ∧ t = none) :
    Tracks ⟨update r.parts (msgs a.1).key m, update r.total (msgs a.1).key t⟩ (pre ++ [a]) where
  stored := by
    intro j hj hinc
    by_cases hja : a.1 = j
    · subst hja
      obtain ⟨rfl, rfl⟩ := hopen hinc
      simp only [update_self, and_self]
    · have hkey := hrefs.key_ne hj hmulti (Ne.symm hja)
      simp only [update_of_ne hkey, collected_append_of_ne hja]
      exact ht.stored j hj ((incomplete_append_of_ne hja).mp hinc)
  absent := by
    intro key habs
    by_cases hkey : key = (msgs a.1).key
    · subst hkey
      obtain ⟨rfl, rfl⟩ := hclosed fun hinc ↦ habs a.1 hmulti hinc rfl
      simp only [update_self, and_self]
    · simp only [update_of_ne hkey]
      refine ht.absent key fun j hj hinc ↦ ?_
      by_cases hja : a.1 = j
      · subst hja
        exact Ne.symm hkey
      · exact habs j hj ((incomplete_append_of_ne hja).mpr hinc)

/-- The answer to an arrival: the packet at the moment the last missing part is seen, nothing
before. -/
def answer (pre : List (Arrival msgs)) (a : Arrival msgs) : Option Bytes × Bool :=
  if Collected (pre ++ [a]) a.1 then (some (msgs a.1).packet, true) else (none, false)

/-- **One arrival.** The call returns, answers as expected and keeps the invariant. -/
theorem Tracks.addPart {r : Reassembler} {pre : List (Arrival msgs)} (ht : Tracks r pre)
    (hrefs : DistinctRefs msgs) {a : Arrival msgs} (hmissing : ¬ Collected pre a.1) :
    ∃ res, r.addPart a.wire.1 a.wire.2 = some res ∧
      (res.payload, res.complete) = answer pre a ∧ Tracks res.state (pre ++ [a]) := by
  by_cases hmulti : (msgs a.1).MultiPart
  · set concat : ConcatInfo := ⟨(msgs a.1).refNum, UInt8.ofNat (msgs a.1).parts.length,
      UInt8.ofNat (a.2 + 1)⟩ with hconcat
    have hwire : a.wire.2 = frameOTASMS ((msgs a.1).chunk a.2) (some concat) :=
      Message.getElem_parts hmulti a.2.2
    have hentry := ht.entry_eq hrefs hmulti hmissing
    have hnew := collected_append_same pre a.1 a.2
    rw [show (⟨a.1, a.2⟩ : Arrival msgs) = a from rfl] at hnew
    by_cases hall : Collected (pre ++ [a]) a.1
    · have hlen := (len_collected_lt_iff (pre ++ [a]) a.1).not.mpr (not_not.mpr hall)
      rw [hnew] at hlen
      have hcall := addPart_concat_close r (msgs a.1).msisdn ((msgs a.1).chunk a.2) concat
        (msgs a.1).length_le hentry hlen
      rw [← hwire] at hcall
      refine ⟨_, hcall, ?_, ?_⟩
      · rw [answer, if_pos hall, ← hnew, foldl_collected hmulti hall]
      · refine ht.update hrefs hmulti (fun hinc ↦ absurd hall hinc.2) fun _ ↦ ⟨rfl, rfl⟩
    · have hlen := (len_collected_lt_iff (pre ++ [a]) a.1).mpr hall
      rw [hnew] at hlen
      have hcall :=
        addPart_concat_open r (msgs a.1).msisdn ((msgs a.1).chunk a.2) concat hentry hlen
      rw [← hwire] at hcall
      refine ⟨_, hcall, ?_, ?_⟩
      · rw [answer, if_neg hall]
      · refine ht.update hrefs hmulti (fun _ ↦ ⟨by rw [hnew], rfl⟩) fun hclosed ↦ ?_
        exact absurd ⟨⟨a.2, by simp⟩, hall⟩ hclosed
  · -- a single part passes through and is complete at once
    have hparts := Message.parts_of_not_multiPart hmulti
    have hzero : ∀ i : Fin (msgs a.1).parts.length, i = a.2 := by
      intro i
      have hone : (msgs a.1).parts.length = 1 := by rw [hparts]; rfl
      exact Fin.ext (by omega)
    have hwire : a.wire.2 = frameOTASMS (msgs a.1).packet none := by
      have hmem : a.wire.2 ∈ (msgs a.1).parts := get_mem _ _
      rw [hparts, mem_singleton] at hmem
      exact hmem
    have hall : Collected (pre ++ [a]) a.1 := by
      intro i
      rw [hzero i]
      exact mem_append_right _ mem_cons_self
    refine ⟨_, by rw [hwire]; exact addPart_single _ _ _, ?_, ?_⟩
    · rw [answer, if_pos hall]
    · have hne : ∀ j, (msgs j).MultiPart → a.1 ≠ j := by
        rintro j hj rfl
        exact hmulti hj
      refine ⟨fun j hj hinc ↦ ?_, fun key habs ↦ ?_⟩
      · rw [collected_append_of_ne (hne j hj)]
        exact ht.stored j hj ((incomplete_append_of_ne (hne j hj)).mp hinc)
      · exact ht.absent key fun j hj hinc ↦
          habs j hj ((incomplete_append_of_ne (hne j hj)).mpr hinc)

/-! ## Whole runs -/

/-- Feeds a sequence of short messages to the reassembler and collects the answers. -/
def Reassembler.addParts (r : Reassembler) :
    List (GoString × Bytes) → Option (Reassembler × List (Option Bytes × Bool))
  | [] => some (r, [])
  | (msisdn, raw) :: rest => do
    let res ← r.addPart msisdn raw
    let (last, answers) ← res.state.addParts rest
    pure (last, (res.payload, res.complete) :: answers)

/-- The answers expected after the arrivals `pre`. -/
def answersFrom (pre : List (Arrival msgs)) : List (Arrival msgs) → List (Option Bytes × Bool)
  | [] => []
  | a :: rest => answer pre a :: answersFrom (pre ++ [a]) rest

theorem Tracks.addParts {r : Reassembler} {pre : List (Arrival msgs)} (ht : Tracks r pre)
    (hrefs : DistinctRefs msgs) (post : List (Arrival msgs))
    (hnone : NoneAfterComplete (pre ++ post)) :
    ∃ last, r.addParts (post.map Arrival.wire) = some (last, answersFrom pre post) ∧
      Tracks last (pre ++ post) := by
  induction post generalizing r pre with
  | nil => exact ⟨r, rfl, by rwa [append_nil]⟩
  | cons a post ih =>
    obtain ⟨res, hres, hans, htr⟩ := ht.addPart hrefs hnone.at_cons
    have hassoc : pre ++ a :: post = (pre ++ [a]) ++ post := by simp
    rw [hassoc] at hnone ⊢
    obtain ⟨last, hlast, hend⟩ := ih htr hnone
    refine ⟨last, ?_, hend⟩
    simp only [map_cons, Reassembler.addParts, hres, hlast, Option.bind_eq_bind,
      Option.bind_some, Option.pure_def, answersFrom, hans]

theorem length_answersFrom (pre post : List (Arrival msgs)) :
    (answersFrom pre post).length = post.length := by
  induction post generalizing pre with
  | nil => rfl
  | cons a post ih => rw [answersFrom, length_cons, length_cons, ih]

theorem getElem?_answersFrom (pre post : List (Arrival msgs)) (k : ℕ) :
    (answersFrom pre post)[k]? = post[k]?.map fun a ↦ answer (pre ++ post.take k) a := by
  induction post generalizing pre k with
  | nil => simp [answersFrom]
  | cons a post ih =>
    cases k with
    | zero => simp [answersFrom]
    | succ k => simp [answersFrom, ih]

theorem exists_completing (arrivals : List (Arrival msgs)) (j : ι) (hall : Collected arrivals j) :
    ∃ k a, arrivals[k]? = some a ∧ a.1 = j ∧ Collected (arrivals.take k ++ [a]) j := by
  induction arrivals using reverseRecOn with
  | nil =>
    have hpos : 0 < (msgs j).parts.length := Message.length_parts_pos
    exact absurd (hall ⟨0, hpos⟩) (by simp)
  | append_singleton pre a ih =>
    by_cases haj : a.1 = j
    · refine ⟨pre.length, a, by simp, haj, ?_⟩
      rwa [take_left]
    · have hpre : Collected pre j := fun i ↦ (mem_append_of_ne haj i).mp (hall i)
      obtain ⟨k, b, hk, hb, hcol⟩ := ih hpre
      have hlt : k < pre.length := (List.getElem?_eq_some_iff.mp hk).1
      refine ⟨k, b, ?_, hb, ?_⟩
      · rw [getElem?_append_left hlt, hk]
      · rwa [take_append_of_le_length hlt.le]

/-- **Concatenation round trip under interleaving.** The parts of a finite family of messages
arrive in any order, each at least once and none after its message is complete. Every call of
`addPart` returns; it answers with the packet at the first moment all parts of the message have been
seen and with `(nil, false)` at every other part, so that each message has exactly one completing
arrival; and at the end no entry is left. -/
theorem addParts_interleaved (hrefs : DistinctRefs msgs)
    (arrivals : List (Arrival msgs)) (hall : ∀ a, a ∈ arrivals)
    (hnone : NoneAfterComplete arrivals) :
    ∃ last answers, Reassembler.new.addParts (arrivals.map Arrival.wire) = some (last, answers) ∧
      answers.length = arrivals.length ∧
      (∀ k a, arrivals[k]? = some a → answers[k]? =
        some (if Collected (arrivals.take (k + 1)) a.1 then (some (msgs a.1).packet, true)
          else (none, false))) ∧
      (∀ j, ∃! k : ℕ, arrivals[k]?.map Sigma.fst = some j ∧
        answers[k]? = some (some (msgs j).packet, true)) ∧
      ∀ key, last.parts key = none ∧ last.total key = none := by
  obtain ⟨last, hrun, htracks⟩ := tracks_new.addParts hrefs arrivals hnone
  have hget : ∀ k a, arrivals[k]? = some a →
      (answersFrom [] arrivals)[k]? = some (answer (arrivals.take k) a) := by
    intro k a hk
    rw [getElem?_answersFrom, hk, Option.map_some, nil_append]
  have htake : ∀ k a, arrivals[k]? = some a → arrivals.take k ++ [a] = arrivals.take (k + 1) := by
    intro k a hk
    rw [take_add_one, hk, Option.toList_some]
  refine ⟨last, _, hrun, length_answersFrom _ _, ?_, ?_, ?_⟩
  · intro k a hk
    rw [hget k a hk, answer, htake k a hk]
  · intro j
    obtain ⟨k, a, hk, rfl, hcol⟩ := exists_completing arrivals j fun i ↦ hall ⟨j, i⟩
    refine ⟨k, ⟨by rw [hk, Option.map_some], by rw [hget k a hk, answer, if_pos hcol]⟩, ?_⟩
    rintro k' ⟨hfst, hans⟩
    obtain ⟨b, hb, hba⟩ := Option.map_eq_some_iff.mp hfst
    have hcol' : Collected (arrivals.take k' ++ [b]) b.1 := by
      rw [hget k' b hb, answer] at hans
      by_contra hno
      rw [if_neg hno] at hans
      simp at hans
    -- of two completing arrivals the later one would come after completion
    have hlate : ∀ {l l' : ℕ} {c d : Arrival msgs}, arrivals[l]? = some c →
        arrivals[l']? = some d → c.1 = d.1 → Collected (arrivals.take l ++ [c]) c.1 →
          ¬ l < l' := by
      intro l l' c d hc hd hcd hcol hlt
      obtain ⟨hl', rfl⟩ := List.getElem?_eq_some_iff.mp hd
      refine hnone l' hl' ?_
      rw [← hcd]
      intro i
      rw [htake l c hc] at hcol
      exact (take_subset_take_left _ hlt) (hcol i)
    have h1 : ¬ k < k' := hlate hk hb hba.symm hcol
    have h2 : ¬ k' < k := hlate hb hk hba hcol'
    omega
  · intro key
    exact htracks.absent key fun j _ hinc ↦ absurd (fun i ↦ hall ⟨j, i⟩) hinc.2

end Arrivals

/-- Two messages from one subscriber: fifteen octets in two parts, and three octets in one. -/
def twoMessages : Bool → Message
  | true => ⟨[0x34, 0x39], replicate 15 0xAB, 16, 7, 0x90,
      frameChunks 0x90 [replicate 8 0xAB, replicate 7 0xAB], by decide, by decide⟩
  | false => ⟨[0x34, 0x39], [1, 2, 3], 16, 7, 0x90, [frameOTASMS [1, 2, 3] none], by decide,
      by decide⟩

/-- The second part first, twice, with the other message in between. -/
def twoMessagesArrivals : List (Arrival twoMessages) :=
  [⟨true, ⟨1, by decide⟩⟩, ⟨false, ⟨0, by decide⟩⟩, ⟨true, ⟨1, by decide⟩⟩,
    ⟨true, ⟨0, by decide⟩⟩]

theorem addParts_interleaved_twoMessages :
    ∃ last answers, Reassembler.new.addParts (twoMessagesArrivals.map Arrival.wire)
        = some (last, answers) ∧
      answers[3]? = some (some (replicate 15 0xAB), true) ∧
      ∀ key, last.parts key = none ∧ last.total key = none := by
  obtain ⟨last, answers, hrun, -, hans, -, hend⟩ :=
    addParts_interleaved (by decide) twoMessagesArrivals (by decide) (by decide)
  refine ⟨last, answers, hrun, ?_, hend⟩
  rw [hans 3 ⟨true, ⟨0, by decide⟩⟩ rfl, if_pos (by decide)]
  rfl

end OtaPlatform
