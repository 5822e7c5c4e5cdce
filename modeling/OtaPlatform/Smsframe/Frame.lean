import Mathlib.Data.List.Basic
import Mathlib.Data.List.Indexes
import Mathlib.Tactic.Ring

/-!
# Framing and splitting of OTA packets

A secured packet travels as the user data of one short message, or of several concatenated ones.
`frameOTASMS` puts the user data header in front, `splitForConcat` cuts a packet that does not fit
one message into chunks and frames each of them.

## What is a parameter

The concatenation reference is drawn by `rand.Intn(256)` inside the split; it is an argument here,
so every statement holds for whatever was drawn. Sizes are `Int` because the source takes Go
integers and subtracts the header lengths before it compares.

## The chunk list

The source cuts and frames in one loop over an offset. `splitLoop` is that loop; `chunkLoop` is the
same loop without the framing, and `splitLoop_eq` separates the two so that the arithmetic of the
offsets is done once, on plain lists.
-/

namespace OtaPlatform

open List

/-- A Go `[]byte`. -/
abbrev Bytes := List UInt8

/-- Concatenation metadata of a multi-part message. -/
structure ConcatInfo where
  /-- The reference shared by the parts of one message. -/
  refNum : UInt8
  total : UInt8
  part : UInt8
deriving DecidableEq, Repr

/-- The user data of one short message: header, then the packet or its chunk. -/
def frameOTASMS (packet : Bytes) : Option ConcatInfo → Bytes
  | none => [0x02, 0x70, 0x00] ++ packet
  | some concat =>
    [0x07, 0x00, 0x03, concat.refNum, concat.total, concat.part, 0x70, 0x00] ++ packet

/-- The framing loop of `splitForConcat`, with `n` parts left, the loop variable at `i` and the
next chunk at `offset`. -/
def splitLoop (refNum : UInt8) (packet : Bytes) (perPartCapacity totalParts : ℕ) :
    ℕ → ℕ → ℕ → List Bytes
  | 0, _, _ => []
  | n + 1, i, offset =>
    let stop := min (offset + perPartCapacity) packet.length
    let chunk := (packet.take stop).drop offset
    frameOTASMS chunk (some ⟨refNum, UInt8.ofNat totalParts, UInt8.ofNat (i + 1)⟩) ::
      splitLoop refNum packet perPartCapacity totalParts n (i + 1) stop

/-- Splits a packet into framed parts of at most `maxPartSize` octets each. -/
def splitForConcat (refNum : UInt8) (packet : Bytes) (maxPartSize maxParts : ℤ) :
    Except String (List Bytes) :=
  let singleCapacity := maxPartSize - 3
  if singleCapacity ≤ 0 then
    .error s!"maxPartSize {maxPartSize} is too small for even a single-part UDH"
  else if (packet.length : ℤ) ≤ singleCapacity then
    .ok [frameOTASMS packet none]
  else
    let perPartCapacity := maxPartSize - 8
    if perPartCapacity ≤ 0 then
      .error s!"maxPartSize {maxPartSize} is too small for concatenated UDH"
    else
      let totalParts := ((packet.length : ℤ) + perPartCapacity - 1) / perPartCapacity
      if totalParts > maxParts then
        .error s!"packet requires {totalParts} parts but maximum is {maxParts}"
      else if totalParts > 255 then
        .error s!"packet requires {totalParts} parts but maximum for concatenation is 255"
      else
        .ok (splitLoop refNum packet perPartCapacity.toNat totalParts.toNat totalParts.toNat 0 0)

/-! ## The chunks -/

/-- The chunks the framing loop cuts, before they are framed. -/
def chunkLoop (packet : Bytes) (capacity : ℕ) : ℕ → ℕ → List Bytes
  | 0, _ => []
  | n + 1, offset =>
    let stop := min (offset + capacity) packet.length
    (packet.take stop).drop offset :: chunkLoop packet capacity n stop

@[simp] theorem length_chunkLoop (packet : Bytes) (capacity n offset : ℕ) :
    (chunkLoop packet capacity n offset).length = n := by
  induction n generalizing offset with
  | zero => rfl
  | succ n ih => rw [chunkLoop, length_cons, ih]

theorem length_le_of_mem_chunkLoop {packet chunk : Bytes} {capacity n offset : ℕ}
    (h : chunk ∈ chunkLoop packet capacity n offset) :
    chunk.length ≤ capacity ∧ chunk.length ≤ packet.length := by
  induction n generalizing offset with
  | zero => exact absurd h not_mem_nil
  | succ n ih =>
    rw [chunkLoop, mem_cons] at h
    rcases h with rfl | h
    · rw [length_drop, length_take]
      omega
    · exact ih h

/-- The loop cuts first and frames second: part `k` of the loop is chunk `k`, numbered `i + k + 1`
by the loop variable. -/
theorem splitLoop_eq (refNum : UInt8) (packet : Bytes) (capacity total n i offset : ℕ) :
    splitLoop refNum packet capacity total n i offset
      = (chunkLoop packet capacity n offset).mapIdx fun k chunk ↦
          frameOTASMS chunk (some ⟨refNum, UInt8.ofNat total, UInt8.ofNat (i + k + 1)⟩) := by
  induction n generalizing i offset with
  | zero => rfl
  | succ n ih =>
    rw [splitLoop, chunkLoop, mapIdx_cons, ih]
    congr 1
    refine congrArg (fun f ↦ mapIdx f _) ?_
    funext k chunk
    rw [show i + 1 + k + 1 = i + (k + 1) + 1 from by omega]

/-- Enough chunks reach the end of the packet. The invariant of the loop is that what the chunks
so far have covered is exactly the prefix up to `offset`. -/
theorem flatten_chunkLoop (packet : Bytes) (capacity n offset : ℕ)
    (hoff : offset ≤ packet.length) (hcover : packet.length ≤ offset + n * capacity) :
    (chunkLoop packet capacity n offset).flatten = packet.drop offset := by
  induction n generalizing offset with
  | zero =>
    have hend : packet.length ≤ offset := by omega
    rw [chunkLoop, flatten_nil, drop_eq_nil_of_le hend]
  | succ n ih =>
    have hstop : min (offset + capacity) packet.length ≤ packet.length := min_le_right _ _
    have hrest : packet.length
        ≤ min (offset + capacity) packet.length + n * capacity := by
      have hmul : (n + 1) * capacity = n * capacity + capacity := by ring
      omega
    rw [chunkLoop, flatten_cons, ih _ hstop hrest]
    set stop := min (offset + capacity) packet.length with hdef
    have hle : offset ≤ stop := by omega
    calc (packet.take stop).drop offset ++ packet.drop stop
        = (packet.take stop).drop offset ++ (packet.drop offset).drop (stop - offset) := by
          rw [drop_drop, Nat.add_sub_cancel' hle]
      _ = (packet.drop offset).take (stop - offset)
            ++ (packet.drop offset).drop (stop - offset) := by
          rw [drop_take]
      _ = packet.drop offset := take_append_drop _ _

/-! ## What a successful split returns -/

/-- The framed parts of a chunk list, numbered from one. -/
def frameChunks (refNum : UInt8) (chunks : List Bytes) : List Bytes :=
  chunks.mapIdx fun k chunk ↦
    frameOTASMS chunk (some ⟨refNum, UInt8.ofNat chunks.length, UInt8.ofNat (k + 1)⟩)

@[simp] theorem length_frameChunks (refNum : UInt8) (chunks : List Bytes) :
    (frameChunks refNum chunks).length = chunks.length := by
  rw [frameChunks, length_mapIdx]

theorem getElem_frameChunks (refNum : UInt8) (chunks : List Bytes) (k : ℕ)
    (hk : k < (frameChunks refNum chunks).length) (hk' : k < chunks.length) :
    (frameChunks refNum chunks)[k] = frameOTASMS chunks[k]
          (some ⟨refNum, UInt8.ofNat chunks.length, UInt8.ofNat (k + 1)⟩) := by
  simp [frameChunks]

/-- **What a successful split returns**: the packet in one part, or at least two and at most 255
parts that frame, under one reference, chunks whose concatenation is the packet. -/
theorem splitForConcat_ok {refNum : UInt8} {packet : Bytes} {maxPartSize maxParts : ℤ}
    {parts : List Bytes} (h : splitForConcat refNum packet maxPartSize maxParts = .ok parts) :
    parts = [frameOTASMS packet none] ∨
      ∃ chunks : List Bytes, 2 ≤ chunks.length ∧ chunks.length ≤ 255 ∧
        chunks.flatten = packet ∧ parts = frameChunks refNum chunks := by
  simp only [splitForConcat] at h
  split_ifs at h with hsmall hsingle hcap hmax h255
  · left
    exact (Except.ok.inj h).symm
  · right
    set cap := maxPartSize - 8 with hcapdef
    obtain ⟨c, hc⟩ : ∃ c : ℕ, cap = c := ⟨cap.toNat, by omega⟩
    rw [hc] at h hmax h255 hcap
    have hcpos : 0 < c := by omega
    -- the Go division of non-negative integers is the division of `ℕ`
    have htotal : ((packet.length : ℤ) + c - 1) / c = ((packet.length + c - 1) / c : ℕ) := by
      rw [Int.natCast_ediv]
      congr 1
      omega
    rw [htotal] at h hmax h255
    set total := (packet.length + c - 1) / c with htot
    have hcover : packet.length ≤ total * c := by
      have hdiv := Nat.div_add_mod (packet.length + c - 1) c
      have hmod := Nat.mod_lt (packet.length + c - 1) hcpos
      rw [← htot, mul_comm] at hdiv
      omega
    have htwo : 2 ≤ total := by
      rw [htot, Nat.le_div_iff_mul_le hcpos]
      omega
    refine ⟨chunkLoop packet c total 0, ?_, ?_, ?_, ?_⟩
    · rwa [length_chunkLoop]
    · rw [length_chunkLoop]
      omega
    · rw [flatten_chunkLoop packet c total 0 (Nat.zero_le _) (by omega), drop_zero]
    · rw [← Except.ok.inj h, splitLoop_eq, frameChunks, length_chunkLoop]
      simp only [Int.toNat_natCast, Nat.zero_add]

/-- A packet of 300 octets in parts of 140 takes three parts. -/
example : (splitForConcat 7 (replicate 300 0) 140 7).map length = .ok 3 := by
  decide +kernel

end OtaPlatform
