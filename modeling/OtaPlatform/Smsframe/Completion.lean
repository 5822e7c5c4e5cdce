import Mathlib.Order.Interval.Finset.Nat
import OtaPlatform.Smsframe.Elements
import OtaPlatform.Smsframe.RoundTrip

/-!
# When a concatenated message is taken as complete

`addPart` takes a message as complete when the number of distinct part numbers it has stored, cut
to a byte, is no longer below the total of the first part. Nothing relates the numbers to the total.

## What is counted

In a state that calls have led to, an open message has fewer numbers than its total. So a call that
completes a message of `n` parts has made the count exactly `n`, and the numbers `1` to `n` are all
there if and only if there is no number outside them (`addPart_whole_iff`). Part zero, a number
above the total, or a total that is larger in another part of the same message break this.

## The last part of 255

The assembly loops count with a byte and stop when it exceeds the total. No byte exceeds 255, so the
call that completes a message of 255 parts does not return (`addPart_returns_iff`).
-/

namespace OtaPlatform

open Reassembler List Function

/-! ## One call -/

/-- The concatenation data and the payload of a message that has both. -/
def concatPart (raw : Bytes) : Option (ConcatInfo × Bytes) :=
  match parseUDH raw with
  | some (_, some concat, payload) => some (concat, payload)
  | _ => none

/-- What is stored for the message of a part once the part is in, and the total recorded for it. -/
def Reassembler.collect (r : Reassembler) (msisdn : GoString) (concat : ConcatInfo)
    (payload : Bytes) : PartMap × UInt8 :=
  let held := r.entry (partKey msisdn concat.refNum) concat.total
  (update held.1 concat.part (some payload), held.2)

def assemble (stored : PartMap) (total : UInt8) : Option Bytes := do
  let _ ← forBytes total (fun n i ↦ n + ((stored i).getD []).length) 256 1 0
  forBytes total (fun acc i ↦ acc ++ (stored i).getD []) 256 1 []

/-- The payloads stored under the numbers from one to the total, in order. -/
def inOrder (stored : PartMap) (total : UInt8) : Bytes :=
  (range' 1 total.toNat).flatMap fun i ↦ (stored (UInt8.ofNat i)).getD []

theorem forBytes_full {α : Type} (body : α → UInt8 → α) (fuel : ℕ) (i : UInt8) (acc : α) :
    forBytes 255 body fuel i acc = none := by
  induction fuel generalizing i acc with
  | zero => rfl
  | succ fuel ih =>
    rw [forBytes, if_pos, ih]
    rw [UInt8.le_iff_toNat_le]
    exact Nat.le_of_lt_succ i.toNat_lt

theorem assemble_full (stored : PartMap) : assemble stored 255 = none := by
  rw [assemble, forBytes_full]
  rfl

theorem assemble_eq {stored : PartMap} {total : UInt8} (h : total ≠ 255) :
    assemble stored total = some (inOrder stored total) := by
  have hle : total.toNat ≤ 254 := by
    have hlt := total.toNat_lt
    have hne : total.toNat ≠ 255 := fun heq ↦ h (UInt8.toNat.inj heq)
    omega
  have htotal : UInt8.ofNat total.toNat = total := UInt8.ofNat_toNat
  have hloop : ∀ {α : Type} (body : α → UInt8 → α) (acc : α),
      forBytes total body 256 1 acc
        = some ((range' 1 total.toNat).foldl (fun a i ↦ body a (UInt8.ofNat i)) acc) := by
    intro α body acc
    rw [← forBytes_from_one hle, htotal]
  rw [assemble, hloop, hloop, inOrder, flatMap, ← nil_append (flatten _), ← foldl_append_eq_flatten]
  rfl

section Call

variable {r : Reassembler} {msisdn : GoString} {raw : Bytes}

theorem addPart_of_single (h : concatPart raw = none) :
    ∃ payload, r.addPart msisdn raw = some ⟨r, some payload, true⟩ := by
  obtain ⟨udhLen, concat, payload, hparse, -⟩ := parseUDH_safe raw
  rw [concatPart, hparse] at h
  cases concat with
  | some c => cases h
  | none =>
    refine ⟨payload, ?_⟩
    rw [addPart, hparse]
    rfl

/-- A part is stored; its message stays open or is assembled and forgotten. -/
theorem addPart_of_concat {concat : ConcatInfo} {payload : Bytes}
    (h : concatPart raw = some (concat, payload)) : r.addPart msisdn raw =
      let key := partKey msisdn concat.refNum
      let new := r.collect msisdn concat payload
      if UInt8.ofNat new.1.len < new.2 then
        some ⟨⟨update r.parts key (some new.1), update r.total key (some new.2)⟩,
          none, false⟩
      else
        (assemble new.1 new.2).map fun assembled ↦
          ⟨⟨update r.parts key none, update r.total key none⟩,
            some assembled, true⟩ := by
  obtain ⟨udhLen, concat', payload', hparse, -⟩ := parseUDH_safe raw
  rw [concatPart, hparse] at h
  cases concat' with
  | none => cases h
  | some c =>
    obtain ⟨rfl, rfl⟩ := Prod.mk.inj (Option.some.inj h)
    rcases hheld : r.entry (partKey msisdn c.refNum) c.total with ⟨stored, total⟩
    simp only [collect, hheld]
    unfold entry at hheld
    simp only [addPart, hparse, Option.bind_eq_bind, Option.bind_some]
    rw [hheld]
    simp only
    split_ifs with hopen
    · rfl
    · rw [assemble, Option.bind_eq_bind, Option.map_bind]
      exact Option.bind_congr fun _ _ ↦ Option.map_eq_bind.symm

/-- The call that would complete a message of 255 parts. -/
def LastOf255 (r : Reassembler) (msisdn : GoString) (raw : Bytes) : Prop :=
  ∃ concat payload, concatPart raw = some (concat, payload) ∧
    (r.collect msisdn concat payload).2 = 255 ∧ (r.collect msisdn concat payload).1.len = 255

theorem len_le (m : PartMap) : m.len ≤ 256 := by
  rw [PartMap.len]
  calc (Finset.univ.filter fun b ↦ (m b).isSome).card
      ≤ (Finset.range 256).card :=
        Finset.card_le_card_of_injOn UInt8.toNat (fun b _ ↦ Finset.mem_coe.mpr
          (Finset.mem_range.mpr b.toNat_lt)) fun _ _ _ _ h ↦ UInt8.toNat.inj h
    _ = 256 := Finset.card_range 256

theorem ofNat_len_lt_full {m : PartMap} : UInt8.ofNat m.len < 255 ↔ m.len ≠ 255 := by
  have hle := len_le m
  rw [UInt8.lt_iff_toNat_lt, UInt8.toNat_ofNat', show (255 : UInt8).toNat = 255 from rfl]
  omega

theorem addPart_of_last (h : LastOf255 r msisdn raw) : r.addPart msisdn raw = none := by
  obtain ⟨concat, payload, hpart, htotal, hlen⟩ := h
  rw [addPart_of_concat hpart]
  simp only [htotal, assemble_full, Option.map_none]
  rw [if_neg (ofNat_len_lt_full.not.mpr (not_not.mpr hlen))]

theorem exists_addPart (h : ¬LastOf255 r msisdn raw) : ∃ res, r.addPart msisdn raw = some res := by
  cases hpart : concatPart raw with
  | none =>
    obtain ⟨payload, hcall⟩ := addPart_of_single hpart
    exact ⟨_, hcall⟩
  | some part =>
    obtain ⟨concat, payload⟩ := part
    rw [addPart_of_concat hpart]
    by_cases hopen : UInt8.ofNat (r.collect msisdn concat payload).1.len
        < (r.collect msisdn concat payload).2
    · simp only [hopen, if_true]
      exact ⟨_, rfl⟩
    · have hfull : (r.collect msisdn concat payload).2 ≠ 255 := by
        intro hfull
        rw [hfull, ofNat_len_lt_full, not_not] at hopen
        exact h ⟨concat, payload, hpart, hfull, hopen⟩
      simp only [hopen, if_false, assemble_eq hfull]
      exact ⟨_, rfl⟩

end Call

/-- **When a call returns**: for every state and every message, unless the message is the part that
would complete a message of 255 parts. -/
theorem addPart_returns_iff (r : Reassembler) (msisdn : GoString) (raw : Bytes) :
    (∃ res, r.addPart msisdn raw = some res) ↔ ¬LastOf255 r msisdn raw := by
  constructor
  · rintro ⟨res, hres⟩ hlast
    rw [addPart_of_last hlast] at hres
    cases hres
  · exact exists_addPart

/-! ## The parts of one message in order -/

section InOrder

variable {msisdn : GoString} {refNum : UInt8}

theorem concatPart_frame (chunk : Bytes) (concat : ConcatInfo) :
    concatPart (frameOTASMS chunk (some concat)) = some (concat, chunk) := by
  rw [concatPart, parseUDH_frame_some]

def numbersUpTo (k : ℕ) : Finset UInt8 := (Finset.Icc 1 k).image UInt8.ofNat

theorem mem_numbersUpTo {k : ℕ} (hk : k ≤ 255) {b : UInt8} :
    b ∈ numbersUpTo k ↔ 1 ≤ b.toNat ∧ b.toNat ≤ k := by
  rw [numbersUpTo, Finset.mem_image]
  constructor
  · rintro ⟨i, hi, rfl⟩
    rw [Finset.mem_Icc] at hi
    rw [UInt8.toNat_ofNat', Nat.mod_eq_of_lt (by omega)]
    exact hi
  · intro hb
    exact ⟨b.toNat, Finset.mem_Icc.mpr hb, UInt8.ofNat_toNat⟩

theorem card_numbersUpTo {k : ℕ} (hk : k ≤ 255) : (numbersUpTo k).card = k := by
  rw [numbersUpTo, Finset.card_image_of_injOn, Nat.card_Icc, Nat.add_sub_cancel]
  intro i hi j hj hij
  rw [Finset.mem_coe, Finset.mem_Icc] at hi hj
  have hnat := congrArg UInt8.toNat hij
  rwa [UInt8.toNat_ofNat', UInt8.toNat_ofNat', Nat.mod_eq_of_lt (by omega),
    Nat.mod_eq_of_lt (by omega)] at hnat

/-- Stored are the numbers from one to `k`. -/
def HoldsUpTo (m : PartMap) (k : ℕ) : Prop := ∀ b, (m b).isSome ↔ 1 ≤ b.toNat ∧ b.toNat ≤ k

theorem HoldsUpTo.len_eq {m : PartMap} {k : ℕ} (h : HoldsUpTo m k) (hk : k ≤ 255) : m.len = k := by
  have hnumbers : (Finset.univ.filter fun b ↦ (m b).isSome) = numbersUpTo k := by
    ext b
    rw [Finset.mem_filter, and_iff_right (Finset.mem_univ b), h b, mem_numbersUpTo hk]
  rw [PartMap.len, hnumbers, card_numbersUpTo hk]

theorem HoldsUpTo.update {m : PartMap} {k : ℕ} (h : HoldsUpTo m k) (hk : k < 255)
    (payload : Bytes) : HoldsUpTo (update m (UInt8.ofNat (k + 1)) (some payload)) (k + 1) := by
  have hnat : (UInt8.ofNat (k + 1)).toNat = k + 1 := by
    rw [UInt8.toNat_ofNat', Nat.mod_eq_of_lt (by omega)]
  intro b
  by_cases hb : b = UInt8.ofNat (k + 1)
  · rw [hb, update_self, hnat]
    exact iff_of_true rfl ⟨by omega, le_rfl⟩
  · have hne : b.toNat ≠ k + 1 := fun heq ↦ hb (UInt8.toNat.inj (heq.trans hnat.symm))
    rw [update_of_ne hb, h b]
    omega

theorem addParts_cons_eq_some {r r' : Reassembler} {call : GoString × Bytes}
    {calls : List (GoString × Bytes)} {answers : List (Option Bytes × Bool)} :
    r.addParts (call :: calls) = some (r', answers) ↔
      ∃ res rest, r.addPart call.1 call.2 = some res ∧ res.state.addParts calls = some (r', rest) ∧
        (res.payload, res.complete) :: rest = answers := by
  simp only [addParts, Option.bind_eq_bind, Option.bind_eq_some_iff, Option.pure_def,
    Option.some.injEq, Prod.mk.injEq, Prod.exists]
  grind

theorem addParts_append {r r₁ r₂ : Reassembler} {calls calls' : List (GoString × Bytes)}
    {answers answers' : List (Option Bytes × Bool)} (h : r.addParts calls = some (r₁, answers))
    (h' : r₁.addParts calls' = some (r₂, answers')) :
    r.addParts (calls ++ calls') = some (r₂, answers ++ answers') := by
  induction calls generalizing r answers with
  | nil =>
    obtain ⟨rfl, rfl⟩ := Prod.mk.inj (Option.some.inj h)
    exact h'
  | cons call calls ih =>
    obtain ⟨res, rest, hres, hrest, rfl⟩ := addParts_cons_eq_some.mp h
    exact addParts_cons_eq_some.mpr ⟨res, _, hres, ih hrest, rfl⟩

theorem addParts_singleton {r : Reassembler} {raw : Bytes} {res : AddPartResult}
    (h : r.addPart msisdn raw = some res) :
    r.addParts [(msisdn, raw)] = some (res.state, [(res.payload, res.complete)]) :=
  addParts_cons_eq_some.mpr ⟨res, [], h, rfl, rfl⟩

/-- After the first `k` parts of a message of more parts, in order, the message is open and the
numbers up to `k` are stored. -/
theorem exists_addParts_take (chunks : List Bytes) (k : ℕ) (hk : k < chunks.length)
    (h255 : chunks.length ≤ 255) : ∃ r answers, new.addParts
        (((frameChunks refNum chunks).take k).map fun raw ↦ (msisdn, raw)) = some (r, answers) ∧
      ∃ m, r.entry (partKey msisdn refNum) (UInt8.ofNat chunks.length)
          = (m, UInt8.ofNat chunks.length) ∧ HoldsUpTo m k := by
  induction k with
  | zero =>
    refine ⟨_, _, rfl, fun _ ↦ none, rfl, fun b ↦ iff_of_false Bool.false_ne_true ?_⟩
    omega
  | succ k ih =>
    obtain ⟨r, answers, hrun, m, hentry, hm⟩ := ih (by omega)
    have hlt : k < (frameChunks refNum chunks).length := by
      rw [length_frameChunks]
      omega
    have hnew := hm.update (by omega) (chunks[k])
    -- one number less than the total is stored, so the message stays open
    have hopen : UInt8.ofNat (PartMap.len (update m (UInt8.ofNat (k + 1))
        (some chunks[k]))) < UInt8.ofNat chunks.length := by
      rw [hnew.len_eq (by omega), UInt8.lt_iff_toNat_lt, UInt8.toNat_ofNat', UInt8.toNat_ofNat',
        Nat.mod_eq_of_lt (by omega), Nat.mod_eq_of_lt (by omega)]
      exact hk
    have hcall := addPart_concat_open r msisdn chunks[k]
      ⟨refNum, UInt8.ofNat chunks.length, UInt8.ofNat (k + 1)⟩ hentry hopen
    rw [← getElem_frameChunks refNum chunks k hlt (by omega)] at hcall
    have hcalls : ((frameChunks refNum chunks).take (k + 1)).map (fun raw ↦ (msisdn, raw))
        = ((frameChunks refNum chunks).take k).map (fun raw ↦ (msisdn, raw))
          ++ [(msisdn, (frameChunks refNum chunks)[k])] := by
      rw [take_succ_eq_append_getElem hlt, map_append]
      rfl
    have hnext := addParts_append hrun (addParts_singleton hcall)
    rw [← hcalls] at hnext
    refine ⟨_, _, hnext, _, ?_, hnew⟩
    simp only [entry, update_self, Option.getD_some]

theorem addPart_last_in_order (msisdn : GoString) (refNum : UInt8) (chunks : List Bytes)
    (h255 : chunks.length = 255) : ∃ r answers, new.addParts
        (((frameChunks refNum chunks).take 254).map fun raw ↦ (msisdn, raw)) = some (r, answers) ∧
      r.addPart msisdn ((frameChunks refNum chunks).getD 254 []) = none := by
  obtain ⟨r, answers, hrun, m, hentry, hm⟩ :=
    exists_addParts_take chunks 254 (by omega) (by omega)
  refine ⟨r, answers, hrun, addPart_of_last ?_⟩
  have hlt : 254 < (frameChunks refNum chunks).length := by
    rw [length_frameChunks]
    omega
  rw [getD_eq_getElem _ _ hlt, getElem_frameChunks refNum chunks 254 hlt (by omega)]
  refine ⟨_, _, concatPart_frame _ _, ?_⟩
  simp only [collect, hentry]
  exact ⟨by rw [h255]; rfl, (hm.update (by omega) _).len_eq (by omega)⟩

end InOrder

private theorem chunkLoop_replicate (octet : UInt8) {total n offset : ℕ} (h : offset + n ≤ total) :
    chunkLoop (replicate total octet) 1 n offset = replicate n [octet] := by
  induction n generalizing offset with
  | zero => rfl
  | succ n ih =>
    have hone : offset + 1 - offset = 1 := by omega
    rw [chunkLoop, length_replicate, min_eq_left (by omega), ih (by omega),
      take_replicate, drop_replicate, min_eq_left (by omega), hone]
    rfl

private theorem splitForConcat_octets (refNum octet : UInt8) {n : ℕ} (h7 : 7 ≤ n) (h255 : n ≤ 255) :
    splitForConcat refNum (replicate n octet) 9 255
      = .ok (frameChunks refNum (replicate n [octet])) := by
  have hcap : (9 : ℤ) - 8 = 1 := rfl
  have htotal : ((n : ℤ) + 1 - 1) / 1 = n := by omega
  simp only [splitForConcat, length_replicate, hcap, htotal]
  rw [if_neg (by omega), if_neg (by omega), if_neg (by omega), if_neg (by omega),
    if_neg (by omega), splitLoop_eq, Int.toNat_natCast, frameChunks, length_replicate]
  simp only [Int.toNat_one, Nat.zero_add]
  rw [chunkLoop_replicate octet (by omega)]

/-- A packet of 255 octets split into 255 parts: all but the last are taken, and the call with the
last does not return. -/
theorem addPart_endless_last :
    ∃ parts r answers, splitForConcat 7 (replicate 255 0xAB) 9 255 = .ok parts ∧
      new.addParts ((parts.take 254).map fun raw ↦ ([0x34], raw))
        = some (r, answers) ∧
      r.addPart [0x34] (parts.getD 254 []) = none := by
  obtain ⟨r, answers, hrun, hcall⟩ := addPart_last_in_order [0x34] 7
    (replicate 255 [0xAB]) length_replicate
  exact ⟨_, r, answers, splitForConcat_octets 7 0xAB (by omega) le_rfl, hrun, hcall⟩

/-! ## What has been received -/

abbrev CallLog := List ((GoString × Bytes) × Option Bytes × Bool)

/-- One call: a part of the key's message is received, or the message is answered and its entry
removed. -/
def receive (key : GoString) (parts : List (UInt8 × Bytes))
    (entry : (GoString × Bytes) × Option Bytes × Bool) : List (UInt8 × Bytes) :=
  match concatPart entry.1.2 with
  | none => parts
  | some (concat, payload) =>
    if partKey entry.1.1 concat.refNum = key then
      if entry.2.2 then [] else parts ++ [(concat.part, payload)]
    else parts

/-- The parts received under a key since its entry was created. -/
def sinceOpened (key : GoString) (log : CallLog) : List (UInt8 × Bytes) :=
  log.foldl (receive key) []

/-- The payload received last under each number. -/
def latest (parts : List (UInt8 × Bytes)) : PartMap := fun b ↦
  parts.foldl (fun found part ↦ if part.1 = b then some part.2 else found) none

theorem latest_append (parts : List (UInt8 × Bytes)) (b : UInt8) (payload : Bytes) :
    latest (parts ++ [(b, payload)]) = update (latest parts) b (some payload) := by
  funext b'
  rw [latest, foldl_append, foldl_cons, foldl_nil]
  by_cases hb : b' = b
  · rw [hb, update_self, if_pos rfl]
  · rw [update_of_ne hb, if_neg (Ne.symm hb), latest]

theorem isSome_latest_iff {parts : List (UInt8 × Bytes)} {b : UInt8} :
    (latest parts b).isSome ↔ ∃ payload, (b, payload) ∈ parts := by
  induction parts using reverseRecOn with
  | nil => simp [latest]
  | append_singleton parts part ih =>
    obtain ⟨b', payload'⟩ := part
    rw [latest_append]
    by_cases hb : b = b'
    · rw [hb, update_self]
      exact iff_of_true rfl ⟨payload', mem_append_right _ mem_cons_self⟩
    · rw [update_of_ne hb, ih]
      simp [hb]

theorem len_update_le (m : PartMap) (b : UInt8) (payload : Bytes) :
    PartMap.len (update m b (some payload)) ≤ m.len + 1 := by
  rw [PartMap.len, PartMap.len]
  refine (Finset.card_le_card fun b' hb' ↦ ?_).trans (Finset.card_insert_le b _)
  rw [Finset.mem_insert, Finset.mem_filter]
  by_cases hb : b' = b
  · exact .inl hb
  · rw [Finset.mem_filter, update_of_ne hb] at hb'
    exact .inr hb'

/-- The reassembler holds what has been received since each entry was created, and every open
message has fewer numbers than its total. -/
structure Records (r : Reassembler) (log : CallLog) : Prop where
  stored : ∀ key m, r.parts key = some m → m = latest (sinceOpened key log)
  absent : ∀ key, r.parts key = none → sinceOpened key log = []
  counted : ∀ key m, r.parts key = some m → ∃ total, r.total key = some total ∧
    m.len < total.toNat

section Records

variable {r : Reassembler} {log : CallLog} {msisdn : GoString} {raw : Bytes} {concat : ConcatInfo}
  {payload : Bytes}

theorem records_new : Records new [] where
  stored := fun _ _ h ↦ by cases h
  absent := fun _ _ ↦ rfl
  counted := fun _ _ h ↦ by cases h

theorem Records.fst_collect (h : Records r log) : (r.collect msisdn concat payload).1
      = latest (sinceOpened (partKey msisdn concat.refNum) log ++ [(concat.part, payload)]) := by
  rw [latest_append, collect, entry]
  cases hparts : r.parts (partKey msisdn concat.refNum) with
  | none =>
    rw [h.absent _ hparts]
    rfl
  | some m => rw [h.stored _ m hparts]

theorem len_none : PartMap.len (fun _ ↦ none) = 0 := by
  rw [PartMap.len, Finset.card_eq_zero, Finset.filter_eq_empty_iff]
  exact fun _ _ ↦ Bool.false_ne_true

theorem Records.len_collect_le (h : Records r log) : (r.collect msisdn concat payload).1.len
      ≤ max (r.collect msisdn concat payload).2.toNat 1 := by
  rw [collect, entry]
  cases hparts : r.parts (partKey msisdn concat.refNum) with
  | none =>
    have hle := len_update_le (fun _ ↦ none) concat.part payload
    rw [len_none] at hle
    exact le_max_of_le_right hle
  | some m =>
    obtain ⟨total, htotal, hlt⟩ := h.counted _ m hparts
    have hle := len_update_le m concat.part payload
    simp only [htotal, Option.getD_some]
    omega

/-- So a message is completed by the number that makes the count its total. -/
theorem Records.open_iff (h : Records r log) :
    UInt8.ofNat (r.collect msisdn concat payload).1.len < (r.collect msisdn concat payload).2 ↔
      (r.collect msisdn concat payload).1.len < (r.collect msisdn concat payload).2.toNat := by
  have hle : (r.collect msisdn concat payload).1.len
      ≤ max (r.collect msisdn concat payload).2.toNat 1 := h.len_collect_le
  have hlt := (r.collect msisdn concat payload).2.toNat_lt
  rw [UInt8.lt_iff_toNat_lt, UInt8.toNat_ofNat', Nat.mod_eq_of_lt (by omega)]

theorem sinceOpened_append (key : GoString) (log : CallLog)
    (entry : (GoString × Bytes) × Option Bytes × Bool) :
    sinceOpened key (log ++ [entry]) = receive key (sinceOpened key log) entry := by
  rw [sinceOpened, foldl_append, foldl_cons, foldl_nil, sinceOpened]

theorem Records.update (h : Records r log) {entry : (GoString × Bytes) × Option Bytes × Bool}
    {key : GoString} {m : Option PartMap} {total : Option UInt8}
    (hothers : ∀ key', key' ≠ key → receive key' (sinceOpened key' log) entry
      = sinceOpened key' log)
    (hopen : ∀ m', m = some m' → m' = latest (receive key (sinceOpened key log) entry) ∧
      ∃ total', total = some total' ∧ m'.len < total'.toNat)
    (hclosed : m = none → receive key (sinceOpened key log) entry = []) :
    Records ⟨update r.parts key m, update r.total key total⟩ (log ++ [entry]) := by
  refine ⟨fun key' m' hm' ↦ ?_, fun key' hnone ↦ ?_, fun key' m' hm' ↦ ?_⟩
  all_goals by_cases hkey : key' = key
  · subst hkey
    simp only [update_self] at hm'
    rw [sinceOpened_append]
    exact (hopen m' hm').1
  · simp only [update_of_ne hkey] at hm'
    rw [sinceOpened_append, hothers key' hkey]
    exact h.stored key' m' hm'
  · subst hkey
    simp only [update_self] at hnone
    rw [sinceOpened_append]
    exact hclosed hnone
  · simp only [update_of_ne hkey] at hnone
    rw [sinceOpened_append, hothers key' hkey]
    exact h.absent key' hnone
  · subst hkey
    simp only [update_self] at hm' ⊢
    exact (hopen m' hm').2
  · simp only [update_of_ne hkey] at hm' ⊢
    exact h.counted key' m' hm'

/-- **One call** keeps the record. -/
theorem Records.addPart (h : Records r log) {res : AddPartResult}
    (hcall : r.addPart msisdn raw = some res) :
    Records res.state (log ++ [((msisdn, raw), (res.payload, res.complete))]) := by
  cases hpart : concatPart raw with
  | none =>
    obtain ⟨payload, hsingle⟩ : ∃ payload, r.addPart msisdn raw = some ⟨r, some payload, true⟩ :=
      addPart_of_single hpart
    obtain rfl := Option.some.inj (hsingle.symm.trans hcall)
    have hsame : ∀ key, sinceOpened key (log ++ [((msisdn, raw), some payload, true)])
        = sinceOpened key log := by
      intro key
      rw [sinceOpened_append, receive, hpart]
    refine ⟨fun key m hm ↦ ?_, fun key hnone ↦ ?_, h.counted⟩
    · rw [hsame]
      exact h.stored key m hm
    · rw [hsame]
      exact h.absent key hnone
  | some part =>
    obtain ⟨concat, payload⟩ := part
    have hothers : ∀ answer key', key' ≠ partKey msisdn concat.refNum →
        receive key' (sinceOpened key' log) ((msisdn, raw), answer) = sinceOpened key' log := by
      intro answer key' hkey
      simp only [receive, hpart]
      rw [if_neg (Ne.symm hkey)]
    rw [addPart_of_concat hpart] at hcall
    simp only at hcall
    split_ifs at hcall with hopen
    · obtain rfl := Option.some.inj hcall
      refine h.update (hothers _) (fun m' hm' ↦ ?_) fun hnone ↦ by cases hnone
      obtain rfl := Option.some.inj hm'
      refine ⟨?_, _, rfl, h.open_iff.mp hopen⟩
      simp only [receive, hpart, if_true]
      exact h.fst_collect
    · obtain ⟨assembled, -, rfl⟩ := Option.map_eq_some_iff.mp hcall
      refine h.update (hothers _) (fun m' hm' ↦ by cases hm') fun _ ↦ ?_
      simp only [receive, hpart, if_true]

/-- **A run of calls** keeps it. -/
theorem Records.addParts (h : Records r log) {r' : Reassembler} {calls : List (GoString × Bytes)}
    {answers : List (Option Bytes × Bool)} (hrun : r.addParts calls = some (r', answers)) :
    Records r' (log ++ calls.zip answers) := by
  induction calls generalizing r log answers with
  | nil =>
    obtain ⟨rfl, rfl⟩ := Prod.mk.inj (Option.some.inj hrun)
    rw [zip_nil_left, append_nil]
    exact h
  | cons call calls ih =>
    obtain ⟨res, rest, hres, hrest, rfl⟩ := addParts_cons_eq_some.mp hrun
    have hnext := ih (h.addPart hres) hrest
    rw [append_assoc] at hnext
    exact hnext

end Records

/-! ## Completion -/

/-- Every number from one to the total has been received, and the payload is the payloads in
order. -/
structure IsWhole (parts : List (UInt8 × Bytes)) (total : UInt8) (payload : Option Bytes) :
    Prop where
  received : ∀ i, 1 ≤ i → i ≤ total.toNat → ∃ part, (UInt8.ofNat i, part) ∈ parts
  payload_eq : payload = some (inOrder (latest parts) total)

/-- If the call answers a concatenated part with a complete message, the message is whole. -/
def WholeIfComplete (log : CallLog) (r : Reassembler) (msisdn : GoString) (raw : Bytes)
    (res : AddPartResult) : Prop :=
  ∀ concat payload, concatPart raw = some (concat, payload) → res.complete = true →
    IsWhole (sinceOpened (partKey msisdn concat.refNum) log ++ [(concat.part, payload)])
      (r.collect msisdn concat payload).2 res.payload

/-- If the part makes the count of numbers its total, all numbers are from one to the total. -/
def NumbersInRange (r : Reassembler) (msisdn : GoString) (raw : Bytes) : Prop :=
  ∀ concat payload, concatPart raw = some (concat, payload) →
    (r.collect msisdn concat payload).1.len = (r.collect msisdn concat payload).2.toNat →
      ∀ b, ((r.collect msisdn concat payload).1 b).isSome →
        1 ≤ b.toNat ∧ b.toNat ≤ (r.collect msisdn concat payload).2.toNat

/-- As many numbers as the total are in its range if and only if they fill it. -/
theorem inRange_iff {m : PartMap} {total : UInt8} (hlen : m.len = total.toNat) :
    (∀ b, (m b).isSome → 1 ≤ b.toNat ∧ b.toNat ≤ total.toNat) ↔
      ∀ i, 1 ≤ i → i ≤ total.toNat → (m (UInt8.ofNat i)).isSome := by
  have hsmall : total.toNat ≤ 255 := Nat.le_of_lt_succ total.toNat_lt
  set stored := Finset.univ.filter fun b ↦ (m b).isSome with hstored
  have hsome : ∀ b, b ∈ stored ↔ (m b).isSome := fun b ↦ by
    rw [hstored, Finset.mem_filter, and_iff_right (Finset.mem_univ b)]
  have hcard : (numbersUpTo total.toNat).card = stored.card := by
    rw [card_numbersUpTo hsmall, ← hlen, PartMap.len]
  constructor
  · intro h i hone hle
    have heq : stored = numbersUpTo total.toNat :=
      Finset.eq_of_subset_of_card_le
        (fun b hb ↦ (mem_numbersUpTo hsmall).mpr (h b ((hsome b).mp hb))) hcard.le
    rw [← hsome, heq, mem_numbersUpTo hsmall, UInt8.toNat_ofNat', Nat.mod_eq_of_lt (by omega)]
    exact ⟨hone, hle⟩
  · intro h b hb
    have heq : numbersUpTo total.toNat = stored := by
      refine Finset.eq_of_subset_of_card_le (fun b hb ↦ ?_) hcard.ge
      obtain ⟨hone, hle⟩ := (mem_numbersUpTo hsmall).mp hb
      have hget := h b.toNat hone hle
      rw [UInt8.ofNat_toNat] at hget
      exact (hsome b).mpr hget
    rw [← mem_numbersUpTo hsmall, heq, hsome]
    exact hb

theorem Records.complete_iff {r : Reassembler} {log : CallLog} (h : Records r log)
    {msisdn : GoString} {raw payload : Bytes} {concat : ConcatInfo} {res : AddPartResult}
    (hpart : concatPart raw = some (concat, payload)) (hcall : r.addPart msisdn raw = some res) :
    (res.complete = true ↔ (r.collect msisdn concat payload).2.toNat
        ≤ (r.collect msisdn concat payload).1.len) ∧
      (res.complete = true → res.payload = some (inOrder (r.collect msisdn concat payload).1
        (r.collect msisdn concat payload).2)) := by
  rw [addPart_of_concat hpart] at hcall
  simp only [h.open_iff] at hcall
  split_ifs at hcall with hopen
  · obtain rfl := Option.some.inj hcall
    exact ⟨iff_of_false Bool.false_ne_true (not_le.mpr hopen), fun hfalse ↦ by cases hfalse⟩
  · obtain ⟨assembled, hassembled, rfl⟩ := Option.map_eq_some_iff.mp hcall
    refine ⟨iff_of_true rfl (not_lt.mp hopen), fun _ ↦ ?_⟩
    have hfull : (r.collect msisdn concat payload).2 ≠ 255 := by
      intro hfull
      rw [hfull, assemble_full] at hassembled
      cases hassembled
    rw [assemble_eq hfull] at hassembled
    exact hassembled.symm

/-- **Completion means all parts**, exactly if no number outside the total was counted: in the state
after any calls, a call that completes a concatenated message has received every number up to the
total since the entry was created and answers with the payloads in order, if and only if the part
does not fill the count up to the total with numbers outside one to the total. -/
theorem addPart_whole_iff (calls : List (GoString × Bytes)) (r : Reassembler)
    (answers : List (Option Bytes × Bool)) (msisdn : GoString) (raw : Bytes) (res : AddPartResult)
    (hrun : new.addParts calls = some (r, answers))
    (hcall : r.addPart msisdn raw = some res) :
    WholeIfComplete (calls.zip answers) r msisdn raw res ↔ NumbersInRange r msisdn raw := by
  have hrecords : Records r (calls.zip answers) := by
    have h := records_new.addParts hrun
    rwa [nil_append] at h
  refine forall_congr' fun concat ↦ forall_congr' fun payload ↦ forall_congr' fun hpart ↦ ?_
  obtain ⟨hcomplete, hpayload⟩ := hrecords.complete_iff hpart hcall
  have hstored : (r.collect msisdn concat payload).1 = _ := hrecords.fst_collect
  have hle : (r.collect msisdn concat payload).1.len
      ≤ max (r.collect msisdn concat payload).2.toNat 1 := hrecords.len_collect_le
  constructor
  · intro hwhole hlen
    rw [inRange_iff hlen]
    intro i hone hi
    rw [hstored, isSome_latest_iff]
    exact (hwhole (hcomplete.mpr hlen.ge)).received i hone hi
  · intro hrange hdone
    have hge := hcomplete.mp hdone
    refine ⟨fun i hone hi ↦ ?_, by rw [hpayload hdone, hstored]⟩
    rw [← isSome_latest_iff, ← hstored]
    have hlen : (r.collect msisdn concat payload).1.len
        = (r.collect msisdn concat payload).2.toNat := by omega
    exact (inRange_iff hlen).mp (hrange hlen) i hone hi

private theorem addPart_first (part : UInt8) :
    ∃ r, new.addParts [([0x34], frameOTASMS [0xAA] (some ⟨7, 2, part⟩))]
        = some (r, [(none, false)]) ∧ r.entry (partKey [0x34] 7) 2
        = (update (fun _ ↦ none) part (some [0xAA]), UInt8.ofNat 2) := by
  have hlen : UInt8.ofNat (PartMap.len (update (fun _ ↦ none) part (some [0xAA])))
      < UInt8.ofNat 2 := by
    have hle := len_update_le (fun _ ↦ none) part [0xAA]
    rw [len_none] at hle
    rcases Nat.le_one_iff_eq_zero_or_eq_one.mp hle with hzero | hone
    · rw [hzero]
      decide
    · rw [hone]
      decide
  exact ⟨_, addParts_singleton (addPart_concat_open new [0x34] [0xAA] ⟨7, 2, part⟩
    rfl hlen), by simp only [entry, update_self, Option.getD_some]; rfl⟩

/-- Part one and then part two of a message of two parts. -/
theorem addPart_whole_iff_two :
    ∃ r answers res,
      new.addParts [([0x34], frameOTASMS [0xAA] (some ⟨7, 2, 1⟩))] = some (r, answers) ∧
      r.addPart [0x34] (frameOTASMS [0xBB] (some ⟨7, 2, 2⟩)) = some res ∧ res.complete = true ∧
      WholeIfComplete ([([0x34], frameOTASMS [0xAA] (some ⟨7, 2, 1⟩))].zip answers) r [0x34]
        (frameOTASMS [0xBB] (some ⟨7, 2, 2⟩)) res := by
  obtain ⟨r, hrun, hentry⟩ := addPart_first 1
  have hcall := addPart_concat_close r [0x34] [0xBB] ⟨7, 2, 2⟩ (by decide) hentry
    (by decide +kernel)
  refine ⟨r, _, _, hrun, hcall, rfl, ?_⟩
  refine (addPart_whole_iff _ r _ _ _ _ hrun hcall).mpr fun concat payload hpart _ ↦ ?_
  obtain ⟨rfl, rfl⟩ := Prod.mk.inj (Option.some.inj ((concatPart_frame _ _).symm.trans hpart))
  simp only [collect, hentry]
  decide +kernel

/-- Part zero and then part one: two numbers, and part two is missing. -/
theorem addPart_completes_without_last :
    ∃ r answers res,
      new.addParts [([0x34], frameOTASMS [0xAA] (some ⟨7, 2, 0⟩))] = some (r, answers) ∧
      r.addPart [0x34] (frameOTASMS [0xBB] (some ⟨7, 2, 1⟩)) = some res ∧ res.complete = true ∧
      ¬WholeIfComplete ([([0x34], frameOTASMS [0xAA] (some ⟨7, 2, 0⟩))].zip answers) r [0x34]
        (frameOTASMS [0xBB] (some ⟨7, 2, 1⟩)) res := by
  obtain ⟨r, hrun, hentry⟩ := addPart_first 0
  have hcall := addPart_concat_close r [0x34] [0xBB] ⟨7, 2, 1⟩ (by decide) hentry
    (by decide +kernel)
  refine ⟨r, _, _, hrun, hcall, rfl, fun h ↦ ?_⟩
  have hwhole := (h _ _ (concatPart_frame _ _) rfl).received 2 (by decide)
  simp only [collect, hentry] at hwhole
  obtain ⟨part, hmem⟩ := hwhole (by decide)
  have hnumbers : (UInt8.ofNat 2, part) ∈ [((0 : UInt8), ([0xAA] : Bytes)), (1, [0xBB])] := hmem
  simp at hnumbers

end OtaPlatform
