import Mathlib.Data.Rat.Floor
import OtaPlatform.Smsframe.Frame

/-!
# Which packets are split, and into what

`splitForConcat` succeeds exactly if the packet fits one message, or fits as many concatenated
messages as are allowed; the number of parts is then the least that can hold the packet
(`splitForConcat_exact`). Sizes are integers of either sign.

The number of parts is stated as a ceiling of rationals. That the loop neither runs out of octets
before its last round nor has any left after it comes down to two inequalities about the ceiling
(`partCount_bounds`).
-/

namespace OtaPlatform

open List

/-! ## The number of parts -/

/-- The number of concatenated parts of the given size that the packet needs. -/
def partCount (packet : Bytes) (maxPartSize : ℤ) : ℤ :=
  ⌈(packet.length : ℚ) / (maxPartSize - 8 : ℤ)⌉

section PartCount

variable {packet : Bytes} {maxPartSize : ℤ}

variable (h : 0 < maxPartSize - 8)

include h

theorem ediv_eq_partCount : ((packet.length : ℤ) + (maxPartSize - 8) - 1) / (maxPartSize - 8)
      = partCount packet maxPartSize := by
  rw [partCount]
  set c := maxPartSize - 8 with hc
  have hpos : (0 : ℚ) < c := Int.cast_pos.mpr h
  have hdiv := Int.mul_ediv_add_emod ((packet.length : ℤ) + c - 1) c
  have hmod := Int.emod_nonneg ((packet.length : ℤ) + c - 1) h.ne'
  have hlt := Int.emod_lt_of_pos ((packet.length : ℤ) + c - 1) h
  set q := ((packet.length : ℤ) + c - 1) / c with hq
  symm
  rw [Int.ceil_eq_iff, lt_div_iff₀ hpos, div_le_iff₀ hpos]
  constructor
  · have hlow : (q - 1) * c < (packet.length : ℤ) := by
      rw [sub_mul, one_mul, mul_comm q c]
      omega
    exact_mod_cast hlow
  · have hhigh : (packet.length : ℤ) ≤ q * c := by
      rw [mul_comm q c]
      omega
    exact_mod_cast hhigh

theorem partCount_bounds : (partCount packet maxPartSize - 1) * (maxPartSize - 8) < packet.length ∧
      packet.length ≤ partCount packet maxPartSize * (maxPartSize - 8) := by
  have hpos : (0 : ℚ) < (maxPartSize - 8 : ℤ) := Int.cast_pos.mpr h
  have hceil : ⌈(packet.length : ℚ) / (maxPartSize - 8 : ℤ)⌉ = partCount packet maxPartSize := rfl
  rw [Int.ceil_eq_iff, lt_div_iff₀ hpos, div_le_iff₀ hpos] at hceil
  exact_mod_cast hceil

theorem two_le_partCount (hlong : maxPartSize - 8 < packet.length) :
    2 ≤ partCount packet maxPartSize := by
  by_contra hlt
  have hone : partCount packet maxPartSize ≤ 1 := by omega
  have hle := (partCount_bounds h).2.trans (mul_le_mul_of_nonneg_right hone h.le)
  omega

end PartCount

/-! ## The chunks of the loop -/

theorem nil_notMem_chunkLoop {packet : Bytes} {capacity : ℕ} (hcap : 0 < capacity) (n offset : ℕ)
    (hleft : offset + n * capacity < packet.length + capacity) :
    [] ∉ chunkLoop packet capacity n offset := by
  induction n generalizing offset with
  | zero => exact not_mem_nil
  | succ n ih =>
    have hstep : (n + 1) * capacity = n * capacity + capacity := by ring
    have hlt : offset < packet.length := by
      have hnonneg := Nat.zero_le (n * capacity)
      omega
    rw [chunkLoop, mem_cons, not_or]
    constructor
    · intro hnil
      have hlength := congrArg length hnil
      rw [length_nil, length_drop, length_take] at hlength
      omega
    · exact ih _ (by omega)

/-! ## The split -/

/-- The sizes for which there is a split: the packet fits one message, or as many concatenated
messages as are allowed. -/
def Splittable (packet : Bytes) (maxPartSize maxParts : ℤ) : Prop :=
  3 < maxPartSize ∧ ((packet.length : ℤ) ≤ maxPartSize - 3 ∨
    8 < maxPartSize ∧ partCount packet maxPartSize ≤ min maxParts 255)

/-- The parts of a packet: one with the short header, or the chunks of the packet, none of them
empty, numbered from one under one reference. -/
structure IsSplit (refNum : UInt8) (packet : Bytes) (maxPartSize : ℤ) (parts : List Bytes) :
    Prop where
  bounded : ∀ part ∈ parts, (part.length : ℤ) ≤ maxPartSize
  single : (packet.length : ℤ) ≤ maxPartSize - 3 → parts = [[0x02, 0x70, 0x00] ++ packet]
  concatenated : maxPartSize - 3 < packet.length → ∃ chunks : List Bytes,
    chunks.length = partCount packet maxPartSize ∧ 2 ≤ chunks.length ∧ chunks.length ≤ 255 ∧
      [] ∉ chunks ∧ chunks.flatten = packet ∧
      parts = chunks.mapIdx fun k chunk ↦
        [0x07, 0x00, 0x03, refNum, UInt8.ofNat chunks.length, UInt8.ofNat (k + 1), 0x70, 0x00]
          ++ chunk

section Split

variable {refNum : UInt8} {packet : Bytes} {maxPartSize maxParts : ℤ}

theorem isSplit_single (hsingle : (packet.length : ℤ) ≤ maxPartSize - 3) :
    IsSplit refNum packet maxPartSize [frameOTASMS packet none] where
  bounded := by
    intro part hpart
    rw [mem_singleton.mp hpart, frameOTASMS, length_append]
    simp only [length_cons, length_nil]
    omega
  single := fun _ ↦ rfl
  concatenated := fun hlong ↦ absurd hlong (by omega)

theorem isSplit_loop (hcap : 0 < maxPartSize - 8) (hlong : maxPartSize - 3 < packet.length)
    (h255 : partCount packet maxPartSize ≤ 255) : IsSplit refNum packet maxPartSize
      (splitLoop refNum packet (maxPartSize - 8).toNat (partCount packet maxPartSize).toNat
        (partCount packet maxPartSize).toNat 0 0) := by
  obtain ⟨hlow, hhigh⟩ := @partCount_bounds packet maxPartSize hcap
  have htwo : 2 ≤ partCount packet maxPartSize := two_le_partCount hcap (by omega)
  obtain ⟨c, hc⟩ : ∃ c : ℕ, maxPartSize - 8 = c := ⟨(maxPartSize - 8).toNat, by omega⟩
  obtain ⟨n, hn⟩ : ∃ n : ℕ, partCount packet maxPartSize = n :=
    ⟨(partCount packet maxPartSize).toNat, by omega⟩
  rw [hc] at hlow hhigh hcap ⊢
  rw [hn] at hlow hhigh htwo h255 ⊢
  rw [Int.toNat_natCast, Int.toNat_natCast, splitLoop_eq]
  have hleft : 0 + n * c < packet.length + c := by
    have hsub : ((n : ℤ) - 1) * c = n * c - c := by ring
    rw [hsub] at hlow
    zify
    omega
  have hcover : packet.length ≤ 0 + n * c := by
    zify
    omega
  refine ⟨?_, fun hsingle ↦ absurd hsingle (by omega), fun _ ↦ ?_⟩
  · intro part hpart
    obtain ⟨k, hk, rfl⟩ := mem_mapIdx.mp hpart
    have hchunk := (length_le_of_mem_chunkLoop (getElem_mem hk)).1
    rw [frameOTASMS, length_append]
    simp only [length_cons, length_nil]
    omega
  · refine ⟨chunkLoop packet c n 0, ?_, ?_, ?_, nil_notMem_chunkLoop (by omega) n 0 hleft, ?_, ?_⟩
    · rw [length_chunkLoop, hn]
    · rw [length_chunkLoop]
      omega
    · rw [length_chunkLoop]
      omega
    · rw [flatten_chunkLoop packet c n 0 (Nat.zero_le _) hcover, drop_zero]
    · rw [length_chunkLoop]
      simp only [Nat.zero_add, frameOTASMS]

end Split

/-- **Splitting is exact.** For every packet and all sizes, a split exists if and only if the packet
fits one message or the allowed number of concatenated ones, and what is returned are its parts. -/
theorem splitForConcat_exact (refNum : UInt8) (packet : Bytes) (maxPartSize maxParts : ℤ) :
    ((∃ parts, splitForConcat refNum packet maxPartSize maxParts = .ok parts) ↔
        Splittable packet maxPartSize maxParts) ∧
      ∀ parts, splitForConcat refNum packet maxPartSize maxParts = .ok parts →
        IsSplit refNum packet maxPartSize parts := by
  simp only [splitForConcat, Splittable, le_min_iff]
  -- the four errors are the four ways in which the sizes do not fit
  split_ifs with hsmall hsingle hcap hmax h255
  · exact ⟨iff_of_false (not_exists.mpr fun _ ↦ id) (fun h ↦ by omega), fun _ ↦ False.elim⟩
  · refine ⟨iff_of_true ⟨_, rfl⟩ ⟨by omega, .inl hsingle⟩, fun parts h ↦ ?_⟩
    rw [← Except.ok.inj h]
    exact isSplit_single hsingle
  · exact ⟨iff_of_false (not_exists.mpr fun _ ↦ id) (fun h ↦ by omega), fun _ ↦ False.elim⟩
  all_goals rw [ediv_eq_partCount (by omega)] at hmax
  · exact ⟨iff_of_false (not_exists.mpr fun _ ↦ id) (fun h ↦ by omega), fun _ ↦ False.elim⟩
  all_goals rw [ediv_eq_partCount (by omega)] at h255
  · exact ⟨iff_of_false (not_exists.mpr fun _ ↦ id) (fun h ↦ by omega), fun _ ↦ False.elim⟩
  · refine ⟨iff_of_true ⟨_, rfl⟩ ⟨by omega, .inr ⟨by omega, by omega, by omega⟩⟩,
      fun parts h ↦ ?_⟩
    rw [← Except.ok.inj h, ediv_eq_partCount (by omega)]
    exact isSplit_loop (by omega) (by omega) (by omega)

/-- Fifteen octets in parts of at most sixteen: two chunks of at most eight. -/
theorem splitForConcat_exact_two :
    IsSplit 7 (replicate 15 0xAB) 16
      (frameChunks 7 [replicate 8 0xAB, replicate 7 0xAB]) :=
  (splitForConcat_exact 7 (replicate 15 0xAB) 16 2).2 _ (by decide)

end OtaPlatform
