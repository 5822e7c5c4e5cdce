import Mathlib.Data.FinEnum
import OtaPlatform.Smsframe.Frame

/-!
# Header parsing and reassembly

`parseUDH` reads the user data header of a short message and `Reassembler.addPart` collects the
parts of concatenated messages until each message is whole.

## Panics and endless loops

An index outside a slice panics in Go, and `addPart` runs two loops whose counter is a `byte`. Both
are visible here: a read is `raw[pos]?`, a loop takes fuel, and `none` stands for a call that never
returns. Fuel `256` is more than any terminating run of a byte counter needs, so `none` after that
many rounds is an endless loop and not an impatient model.

## Maps

A Go map is a function into `Option`. The inner map of parts is keyed by a byte, so the number of
its entries is the cardinality of a finite set of bytes.
-/

namespace OtaPlatform

open List Function

/-- A Go `string`: any sequence of octets, not only valid UTF-8. -/
abbrev GoString := List UInt8

/-! ## The user data header -/

/-- The loop of `parseUDH` over the information elements, from position `pos`. -/
def parseIEs (raw : Bytes) (endUDH : ℕ) : ℕ → ℕ → Option ConcatInfo → Option (Option ConcatInfo)
  | 0, _, _ => none
  | fuel + 1, pos, concat =>
    if pos < endUDH then
      if endUDH ≤ pos + 1 then some concat
      else do
        let iei ← raw[pos]?
        let ieLen ← raw[pos + 1]?
        if endUDH < pos + 2 + ieLen.toNat then some concat
        else do
          -- 0x70 and 0x71 carry no data to extract, and every other identifier is skipped too
          let concat ←
            if iei = 0x00 ∧ 3 ≤ ieLen.toNat then do
              let refNum ← raw[pos + 2]?
              let total ← raw[pos + 3]?
              let part ← raw[pos + 4]?
              pure (some ⟨refNum, total, part⟩)
            else pure concat
          parseIEs raw endUDH fuel (pos + 2 + ieLen.toNat) concat
    else some concat

/-- The header length, the concatenation data if there is any, and the payload after the header. -/
def parseUDH (raw : Bytes) : Option (ℕ × Option ConcatInfo × Bytes) :=
  match raw with
  | [] => some (0, none, raw)
  | first :: _ =>
    let udhLen := first.toNat
    if raw.length < udhLen + 1 then some (0, none, raw)
    else do
      let concat ← parseIEs raw (udhLen + 1) (udhLen + 2) 1 none
      pure (udhLen, concat, raw.drop (udhLen + 1))

theorem parseUDH_frame_none (packet : Bytes) :
    parseUDH (frameOTASMS packet none) = some (2, none, packet) := by
  have hloop : parseIEs (0x02 :: 0x70 :: 0x00 :: packet) 3 4 1 none = some none := rfl
  simp [parseUDH, frameOTASMS, hloop]

theorem parseUDH_frame_some (packet : Bytes) (concat : ConcatInfo) :
    parseUDH (frameOTASMS packet (some concat)) = some (7, some concat, packet) := by
  have hloop : parseIEs (0x07 :: 0x00 :: 0x03 :: concat.refNum :: concat.total :: concat.part ::
      0x70 :: 0x00 :: packet) 8 9 1 none = some (some concat) := rfl
  simp [parseUDH, frameOTASMS, hloop]

/-! ## The key of a concatenated message -/

/-- Go's `string(rune(b))`: the UTF-8 encoding of the code point `b`, one octet below `0x80` and
two from there on. -/
def runeString (b : UInt8) : GoString :=
  if b < 0x80 then [b] else [(0xC0 : UInt8) ||| (b >>> 6), (0x80 : UInt8) ||| (b &&& 0x3F)]

/-- The key under which the parts of one message are collected,
`msisdn + ":" + string(rune(ref))`. -/
def partKey (msisdn : GoString) (refNum : UInt8) : GoString :=
  msisdn ++ [0x3A] ++ runeString refNum

/-- The last octet of the encoding tells one-octet encodings from two-octet ones. -/
private theorem runeString_cases (b : UInt8) : (b < 0x80 ∧ runeString b = [b]) ∨
      (¬ b < 0x80 ∧ runeString b = [(0xC0 : UInt8) ||| (b >>> 6), (0x80 : UInt8) ||| (b &&& 0x3F)] ∧
        ¬ (0x80 : UInt8) ||| (b &&& 0x3F) < 0x80) := by
  by_cases hb : b < 0x80
  · exact Or.inl ⟨hb, if_pos hb⟩
  · refine Or.inr ⟨hb, if_neg hb, ?_⟩
    revert b
    decide +kernel

/-- Decoding a two-octet encoding: the low two bits of the lead octet and the low six of the other
are the code point. -/
private theorem runeString_decode : ∀ b : UInt8, ¬ b < 0x80 →
    ((0xC0 : UInt8) ||| (b >>> 6)) <<< 6 ||| (((0x80 : UInt8) ||| (b &&& 0x3F)) &&& 0x3F) = b := by
  decide +kernel

/-- **Keys are unambiguous.** Neither a colon inside the `msisdn` nor a reference above `0x7F` can
make two different pairs share a key: the last octet of the key fixes the length of the encoded
reference. -/
theorem partKey_injective {m m' : GoString} {b c : UInt8} (h : partKey m b = partKey m' c) :
    m = m' ∧ b = c := by
  unfold partKey at h
  rcases runeString_cases b with ⟨hb, hbs⟩ | ⟨hb, hbs, hbl⟩ <;>
    rcases runeString_cases c with ⟨hc, hcs⟩ | ⟨hc, hcs, hcl⟩ <;> rw [hbs, hcs] at h
  · obtain ⟨hpre, hlast⟩ := append_inj' h rfl
    exact ⟨(append_inj' hpre rfl).1, head_eq_of_cons_eq hlast⟩
  · have hlast := congrArg getLast? h
    simp only [getLast?_append, getLast?_cons_cons, getLast?_singleton,
      Option.some_or, Option.some.injEq] at hlast
    rw [← hlast] at hcl
    exact absurd hb hcl
  · have hlast := congrArg getLast? h
    simp only [getLast?_append, getLast?_cons_cons, getLast?_singleton,
      Option.some_or, Option.some.injEq] at hlast
    rw [hlast] at hbl
    exact absurd hc hbl
  · obtain ⟨hpre, hlast⟩ := append_inj' h rfl
    simp only [cons.injEq, and_true] at hlast
    refine ⟨(append_inj' hpre rfl).1, ?_⟩
    rw [← runeString_decode b hb, ← runeString_decode c hc, hlast.1, hlast.2]

/-! ## The reassembler -/

/-- A Go `map[byte][]byte`. -/
abbrev PartMap := UInt8 → Option Bytes

def PartMap.len (m : PartMap) : ℕ := (Finset.univ.filter fun b ↦ (m b).isSome).card

/-- The parts collected so far, by key. -/
structure Reassembler where
  /-- The payloads received for each open message. -/
  parts : GoString → Option PartMap
  /-- The number of parts each open message announced. -/
  total : GoString → Option UInt8

def Reassembler.new : Reassembler := ⟨fun _ ↦ none, fun _ ↦ none⟩

/-- The Go loop `for i := byte(1); i <= total; i++`, from `i` on. The counter wraps at 256. -/
def forBytes {α : Type} (total : UInt8) (body : α → UInt8 → α) : ℕ → UInt8 → α → Option α
  | 0, _, _ => none
  | fuel + 1, i, acc =>
    if i ≤ total then forBytes total body fuel (i + 1) (body acc i) else some acc

/-- What one call of `addPart` leaves behind and returns; `payload = none` is the `nil` slice. -/
structure AddPartResult where
  state : Reassembler
  /-- The assembled payload, or `nil`. -/
  payload : Option Bytes
  /-- Whether the message is complete. -/
  complete : Bool

/-- Processes one incoming short message; `none` when the call does not return. -/
def Reassembler.addPart (r : Reassembler) (msisdn : GoString) (raw : Bytes) :
    Option AddPartResult := do
  let (_, concat, payload) ← parseUDH raw
  match concat with
  | none => pure ⟨r, some payload, true⟩
  | some concat =>
    let key := partKey msisdn concat.refNum
    let (stored, total) := match r.parts key with
      | some m => (m, (r.total key).getD 0)
      | none => ((fun _ ↦ none : PartMap), concat.total)
    let stored := update stored concat.part (some payload)
    if UInt8.ofNat (PartMap.len stored) < total then
      pure ⟨⟨update r.parts key (some stored),
        update r.total key (some total)⟩, none, false⟩
    else do
      -- the first loop only sizes the buffer, but it is a loop all the same
      let _ ← forBytes total (fun n i ↦ n + ((stored i).getD []).length) 256 1 0
      let assembled ← forBytes total (fun acc i ↦ acc ++ (stored i).getD []) 256 1 []
      pure ⟨⟨update r.parts key none, update r.total key none⟩,
        some assembled, true⟩

/-! ## The assembly loops -/

/-- Below 255 parts the byte counter reaches the end before it wraps. The loop variable is kept as
a natural number `k` here, which is where the bound on `total` is used. -/
theorem forBytes_eq_foldl {α : Type} (total : ℕ) (body : α → UInt8 → α) (htotal : total ≤ 254)
    (n : ℕ) : ∀ (fuel k : ℕ) (acc : α), k + n = total + 1 → n < fuel →
      forBytes (UInt8.ofNat total) body fuel (UInt8.ofNat k) acc
        = some ((range' k n).foldl (fun a i ↦ body a (UInt8.ofNat i)) acc) := by
  have hle : ∀ k : ℕ, k ≤ 255 → (UInt8.ofNat k ≤ UInt8.ofNat total ↔ k ≤ total) := by
    intro k hk
    rw [UInt8.le_iff_toNat_le, UInt8.toNat_ofNat', UInt8.toNat_ofNat', Nat.mod_eq_of_lt (by omega),
      Nat.mod_eq_of_lt (by omega)]
  induction n with
  | zero =>
    intro fuel k acc hk hfuel
    obtain ⟨fuel, rfl⟩ : ∃ f, fuel = f + 1 := ⟨fuel - 1, by omega⟩
    rw [forBytes, if_neg (by rw [hle k (by omega)]; omega)]
    rfl
  | succ n ih =>
    intro fuel k acc hk hfuel
    obtain ⟨fuel, rfl⟩ : ∃ f, fuel = f + 1 := ⟨fuel - 1, by omega⟩
    rw [forBytes, if_pos (by rw [hle k (by omega)]; omega),
      show UInt8.ofNat k + 1 = UInt8.ofNat (k + 1) from by rw [UInt8.ofNat_add]; rfl,
      ih fuel (k + 1) _ (by omega) (by omega), range'_succ, foldl_cons]

theorem forBytes_from_one {α : Type} {total : ℕ} (htotal : total ≤ 254)
    (body : α → UInt8 → α) (acc : α) : forBytes (UInt8.ofNat total) body 256 1 acc
      = some ((range' 1 total).foldl (fun a i ↦ body a (UInt8.ofNat i)) acc) :=
  forBytes_eq_foldl total body htotal total 256 1 acc (by omega) (by omega)

/-! ## One call -/

theorem addPart_single (r : Reassembler) (msisdn : GoString) (packet : Bytes) :
    r.addPart msisdn (frameOTASMS packet none) = some ⟨r, some packet, true⟩ := by
  simp [Reassembler.addPart, parseUDH_frame_none]

/-- What the reassembler holds for a key, with the total the arriving part would open it with. -/
def Reassembler.entry (r : Reassembler) (key : GoString) (announced : UInt8) : PartMap × UInt8 :=
  match r.parts key with
  | some m => (m, (r.total key).getD 0)
  | none => (fun _ ↦ none, announced)

theorem addPart_concat_open (r : Reassembler) (msisdn : GoString) (chunk : Bytes)
    (concat : ConcatInfo) {stored : PartMap} {total : UInt8}
    (hentry : r.entry (partKey msisdn concat.refNum) concat.total = (stored, total))
    (hlen : UInt8.ofNat (PartMap.len (update stored concat.part (some chunk))) < total) :
    r.addPart msisdn (frameOTASMS chunk (some concat))
      = some ⟨⟨update r.parts (partKey msisdn concat.refNum)
            (some (update stored concat.part (some chunk))),
          update r.total (partKey msisdn concat.refNum) (some total)⟩, none, false⟩ := by
  unfold Reassembler.entry at hentry
  simp only [Reassembler.addPart, parseUDH_frame_some, Option.bind_eq_bind, Option.bind_some]
  rw [hentry]
  simp only [hlen, if_true, Option.pure_def]

theorem addPart_concat_close (r : Reassembler) (msisdn : GoString) (chunk : Bytes)
    (concat : ConcatInfo) {stored : PartMap} {total : ℕ} (htotal : total ≤ 254)
    (hentry : r.entry (partKey msisdn concat.refNum) concat.total = (stored, UInt8.ofNat total))
    (hlen : ¬ UInt8.ofNat (PartMap.len (update stored concat.part (some chunk)))
      < UInt8.ofNat total) : r.addPart msisdn (frameOTASMS chunk (some concat))
      = some ⟨⟨update r.parts (partKey msisdn concat.refNum) none,
          update r.total (partKey msisdn concat.refNum) none⟩,
        some ((range' 1 total).foldl (fun acc i ↦ acc ++
          ((update stored concat.part (some chunk)) (UInt8.ofNat i)).getD []) []), true⟩ := by
  unfold Reassembler.entry at hentry
  simp only [Reassembler.addPart, parseUDH_frame_some, Option.bind_eq_bind, Option.bind_some]
  rw [hentry]
  simp only [hlen, if_false, forBytes_from_one htotal, Option.bind_some, Option.pure_def]

end OtaPlatform
