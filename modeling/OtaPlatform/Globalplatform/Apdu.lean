import OtaPlatform.Smsframe.Frame

/-!
# Card commands

The commands that load a package onto a card and delete it. All of them have the same shape: class,
instruction, two parameters, the number of data octets (Lc) and the data. The number is one octet,
and so is the number of a load block: larger numbers are cut off.

A Go panic is an error here. `int` has 64 bits; where the source computes the number of blocks, the
sum is reduced accordingly. In the loop itself no sum leaves that range: as long as a block is not
the last one, its end is an offset of the load file.
-/

namespace OtaPlatform

open List

/-- A 64-bit `int`. -/
def wrapInt (n : ℤ) : ℤ := n.bmod (2 ^ 64)

theorem wrapInt_of_lt {n : ℤ} (h0 : 0 ≤ n) (h : n < 2 ^ 63) : wrapInt n = n := by
  rw [wrapInt, Int.bmod_def]
  omega

def claGlobalPlatform : UInt8 := 0x80

def insInstall : UInt8 := 0xE6

def insDelete : UInt8 := 0xE4

def insLoad : UInt8 := 0xE8

def buildAPDU (ins p1 p2 : UInt8) (data : Bytes) : Bytes :=
  [claGlobalPlatform, ins, p1, p2, UInt8.ofNat data.length] ++ data

/-- A field that begins with its length. -/
def lengthPrefixed (field : Bytes) : Bytes := UInt8.ofNat field.length :: field

/-- DELETE: an applet is removed, and with `deleteRelated` what belongs to it. -/
def buildDeleteAPDU (aid : Bytes) (deleteRelated : Bool) : Except String Bytes :=
  if aid.length = 0 then .error "AID must not be empty"
  else .ok (buildAPDU insDelete 0x00 (if deleteRelated then 0x80 else 0x00)
    (0x4F :: lengthPrefixed aid))

/-- INSTALL [for LOAD]: no hash, no parameters and no token. -/
def buildInstallForLoadAPDU (loadFileAID securityDomainAID : Bytes) : Bytes :=
  buildAPDU insInstall 0x02 0x00
    (lengthPrefixed loadFileAID ++ lengthPrefixed securityDomainAID ++ [0x00, 0x00, 0x00])

/-- The loop of `buildLoadBlockAPDUs`, from an offset and a block number on. There are at most
`fuel` blocks. -/
def loadBlockLoop (loadFileData : Bytes) (maxBlockSize : ℕ) : ℕ → ℕ → ℕ → List Bytes
  | 0, _, _ => []
  | fuel + 1, offset, blockNum =>
    if offset < loadFileData.length then
      let stop := min (offset + maxBlockSize) loadFileData.length
      let p1 := if stop ≥ loadFileData.length then 0x80 else 0x00
      buildAPDU insLoad p1 (UInt8.ofNat blockNum) ((loadFileData.take stop).drop offset) ::
        loadBlockLoop loadFileData maxBlockSize fuel stop (blockNum + 1)
    else []

/-- LOAD: the load file in blocks. Each block has an octet at least, so that there are not more
blocks than octets. -/
def buildLoadBlockAPDUs (loadFileData : Bytes) (maxBlockSize : ℤ) : Except String (List Bytes) :=
  if maxBlockSize ≤ 0 then
    .error ("maxBlockSize must be positive, got " ++ toString maxBlockSize)
  else
    let totalBlocks := (wrapInt (loadFileData.length + maxBlockSize - 1)).tdiv maxBlockSize
    if totalBlocks < 0 then .error "runtime error: makeslice: cap out of range"
    else .ok (loadBlockLoop loadFileData maxBlockSize.toNat loadFileData.length 0 0)

/-! ## Reading commands -/

def apduLc (apdu : Bytes) : Option ℕ := apdu[4]?.map UInt8.toNat

def apduData (apdu : Bytes) : Bytes := apdu.drop 5

/-- The data octets, as many as Lc says. -/
def apduRead (apdu : Bytes) : Bytes := (apduData apdu).take ((apduLc apdu).getD 0)

def apduP1 (apdu : Bytes) : Option UInt8 := apdu[2]?

def apduP2 (apdu : Bytes) : Option ℕ := apdu[3]?.map UInt8.toNat

variable (ins p1 p2 : UInt8) (data : Bytes)

@[simp] theorem apduData_buildAPDU : apduData (buildAPDU ins p1 p2 data) = data := rfl

@[simp] theorem apduP1_buildAPDU : apduP1 (buildAPDU ins p1 p2 data) = some p1 := rfl

@[simp] theorem apduP2_buildAPDU : apduP2 (buildAPDU ins p1 p2 data) = some p2.toNat := rfl

theorem apduLc_buildAPDU : apduLc (buildAPDU ins p1 p2 data) = some (data.length % 256) := by
  change some (UInt8.ofNat data.length).toNat = _
  rw [UInt8.toNat_ofNat']

/-- **When Lc is right.** -/
theorem apduLc_eq_length_iff :
    apduLc (buildAPDU ins p1 p2 data) = some (apduData (buildAPDU ins p1 p2 data)).length ↔
      data.length ≤ 255 := by
  rw [apduLc_buildAPDU, apduData_buildAPDU, Option.some_inj]
  omega

/-! ## The load blocks -/

/-- **The load blocks are the chunks of the load file.** The invariant of the loop is that `n` is
the number of blocks left: all but the last begin before the end, and together they reach it. -/
theorem loadBlockLoop_eq {loadFileData : Bytes} {maxBlockSize : ℕ} {n fuel offset blockNum : ℕ}
    (hfuel : loadFileData.length ≤ offset + fuel)
    (hbefore : ∀ m < n, offset + m * maxBlockSize < loadFileData.length)
    (hcover : loadFileData.length ≤ offset + n * maxBlockSize) :
    loadBlockLoop loadFileData maxBlockSize fuel offset blockNum
      = (chunkLoop loadFileData maxBlockSize n offset).mapIdx fun k chunk ↦
          buildAPDU insLoad (if k + 1 = n then 0x80 else 0x00) (UInt8.ofNat (blockNum + k))
            chunk := by
  induction n generalizing fuel offset blockNum with
  | zero =>
    cases fuel with
    | zero => rfl
    | succ fuel =>
      rw [loadBlockLoop, if_neg (by omega)]
      rfl
  | succ n ih =>
    have hoffset : offset < loadFileData.length := by
      have h := hbefore 0 (Nat.succ_pos n)
      omega
    obtain ⟨fuel, rfl⟩ : ∃ m, fuel = m + 1 := ⟨fuel - 1, by omega⟩
    set stop := min (offset + maxBlockSize) loadFileData.length with hstop
    have hmul : (n + 1) * maxBlockSize = n * maxBlockSize + maxBlockSize := Nat.succ_mul _ _
    have hpos : 0 < maxBlockSize := by
      by_contra hzero
      rw [Nat.eq_zero_of_not_pos hzero, Nat.mul_zero] at hcover
      omega
    have hlast : stop ≥ loadFileData.length ↔ 0 + 1 = n + 1 := by
      rcases Nat.eq_zero_or_pos n with rfl | hn
      · omega
      · have h := hbefore 1 (by omega)
        omega
    have hrest : loadBlockLoop loadFileData maxBlockSize fuel stop (blockNum + 1)
        = (chunkLoop loadFileData maxBlockSize n stop).mapIdx fun k chunk ↦
            buildAPDU insLoad (if k + 1 = n then 0x80 else 0x00) (UInt8.ofNat (blockNum + 1 + k))
              chunk := by
      refine ih (by omega) (fun m hm ↦ ?_) (by omega)
      have h := hbefore (m + 1) (by omega)
      rw [Nat.succ_mul] at h
      omega
    rw [loadBlockLoop, if_pos hoffset, chunkLoop, mapIdx_cons]
    simp only [← hstop, hrest, hlast]
    congr 2
    funext k chunk
    rw [show blockNum + 1 + k = blockNum + (k + 1) by omega]
    simp only [Nat.add_right_cancel_iff]

def loadBlockCount (loadFileData : Bytes) (maxBlockSize : ℕ) : ℕ :=
  (loadFileData.length + maxBlockSize - 1) / maxBlockSize

section LoadBlocks

variable {loadFileData : Bytes} {maxBlockSize : ℕ}

theorem loadBlockCount_le_iff (hmax : 0 < maxBlockSize) {n : ℕ} :
    loadBlockCount loadFileData maxBlockSize ≤ n ↔ loadFileData.length ≤ n * maxBlockSize := by
  rw [loadBlockCount, ← Nat.lt_succ_iff, Nat.div_lt_iff_lt_mul hmax, Nat.succ_mul]
  omega

theorem le_loadBlockCount_mul (hmax : 0 < maxBlockSize) :
    loadFileData.length ≤ loadBlockCount loadFileData maxBlockSize * maxBlockSize :=
  (loadBlockCount_le_iff hmax).mp le_rfl

theorem mul_lt_of_lt_loadBlockCount (hmax : 0 < maxBlockSize) {m : ℕ}
    (hm : m < loadBlockCount loadFileData maxBlockSize) :
    m * maxBlockSize < loadFileData.length := by
  rw [loadBlockCount, Nat.lt_iff_add_one_le, Nat.le_div_iff_mul_le hmax, Nat.succ_mul] at hm
  omega

def loadChunks (loadFileData : Bytes) (maxBlockSize : ℕ) : List Bytes :=
  chunkLoop loadFileData maxBlockSize (loadBlockCount loadFileData maxBlockSize) 0

theorem flatten_loadChunks (hmax : 0 < maxBlockSize) :
    (loadChunks loadFileData maxBlockSize).flatten = loadFileData := by
  rw [loadChunks, flatten_chunkLoop _ _ _ _ (Nat.zero_le _), drop_zero]
  rw [Nat.zero_add]
  exact le_loadBlockCount_mul hmax

theorem length_loadChunks :
    (loadChunks loadFileData maxBlockSize).length = loadBlockCount loadFileData maxBlockSize :=
  length_chunkLoop _ _ _ _

def loadBlocks (loadFileData : Bytes) (maxBlockSize : ℕ) : List Bytes :=
  (loadChunks loadFileData maxBlockSize).mapIdx fun k chunk ↦
    buildAPDU insLoad (if k + 1 = loadBlockCount loadFileData maxBlockSize then 0x80 else 0x00)
      (UInt8.ofNat k) chunk

theorem loadBlockLoop_eq_loadBlocks (hmax : 0 < maxBlockSize) :
    loadBlockLoop loadFileData maxBlockSize loadFileData.length 0 0
      = loadBlocks loadFileData maxBlockSize := by
  rw [loadBlocks, loadChunks, loadBlockLoop_eq (n := loadBlockCount loadFileData maxBlockSize)]
  · simp only [Nat.zero_add]
  · omega
  · intro m hm
    rw [Nat.zero_add]
    exact mul_lt_of_lt_loadBlockCount hmax hm
  · rw [Nat.zero_add]
    exact le_loadBlockCount_mul hmax

theorem length_loadBlocks :
    (loadBlocks loadFileData maxBlockSize).length = loadBlockCount loadFileData maxBlockSize := by
  rw [loadBlocks, length_mapIdx, length_loadChunks]

theorem loadBlockCount_pos (hmax : 0 < maxBlockSize) (hdata : loadFileData ≠ []) :
    0 < loadBlockCount loadFileData maxBlockSize := by
  have hlength := length_pos_iff.mpr hdata
  rw [loadBlockCount, Nat.div_pos_iff]
  omega

theorem getElem_loadBlocks {k : ℕ} (hk : k < (loadBlocks loadFileData maxBlockSize).length)
    (hk' : k < (loadChunks loadFileData maxBlockSize).length) :
    (loadBlocks loadFileData maxBlockSize)[k] = buildAPDU insLoad
      (if k + 1 = loadBlockCount loadFileData maxBlockSize then 0x80 else 0x00) (UInt8.ofNat k)
      (loadChunks loadFileData maxBlockSize)[k] := by
  simp only [loadBlocks, getElem_mapIdx]

theorem map_apduData_loadBlocks :
    (loadBlocks loadFileData maxBlockSize).map apduData = loadChunks loadFileData maxBlockSize := by
  refine ext_getElem ?_ fun k hk hk' ↦ ?_
  · rw [length_map, length_loadBlocks, length_loadChunks]
  · rw [getElem_map, getElem_loadBlocks _ hk', apduData_buildAPDU]

/-- **Which blocks say that they are the last one.** -/
theorem apduP1_loadBlocks {k : ℕ} (hk : k < (loadBlocks loadFileData maxBlockSize).length) :
    apduP1 (loadBlocks loadFileData maxBlockSize)[k] = some 0x80 ↔
      k + 1 = (loadBlocks loadFileData maxBlockSize).length := by
  have hk' := hk
  rw [length_loadBlocks, ← length_loadChunks] at hk'
  rw [getElem_loadBlocks hk hk', apduP1_buildAPDU, length_loadBlocks]
  split_ifs with hlast
  · exact iff_of_true rfl hlast
  · exact iff_of_false (by decide) hlast

/-- **When the blocks are numbered from zero on.** -/
theorem apduP2_loadBlocks_iff : (loadBlocks loadFileData maxBlockSize).map apduP2
        = (range (loadBlocks loadFileData maxBlockSize).length).map some ↔
      loadBlockCount loadFileData maxBlockSize ≤ 256 := by
  have hnumber : ∀ k (hk : k < (loadBlocks loadFileData maxBlockSize).length),
      apduP2 (loadBlocks loadFileData maxBlockSize)[k] = some (k % 256) := by
    intro k hk
    have hk' := hk
    rw [length_loadBlocks, ← length_loadChunks] at hk'
    rw [getElem_loadBlocks hk hk', apduP2_buildAPDU, UInt8.toNat_ofNat']
  constructor
  · intro h
    by_contra hmany
    have hk : 256 < (loadBlocks loadFileData maxBlockSize).length := by
      rw [length_loadBlocks]
      omega
    have hget := congrArg (·[256]?) h
    simp only [getElem?_map, getElem?_eq_getElem hk, getElem?_range hk,
      Option.map_some, hnumber 256 hk] at hget
    exact absurd (Option.some_inj.mp (Option.some_inj.mp hget)) (by decide)
  · intro hfew
    refine ext_getElem ?_ fun k hk hk' ↦ ?_
    · rw [length_map, length_map, length_range]
    · rw [length_map] at hk
      rw [getElem_map, hnumber k hk, getElem_map, getElem_range]
      rw [length_loadBlocks] at hk
      rw [Nat.mod_eq_of_lt (by omega)]

/-- **When Lc is right in every block.** -/
theorem apduLc_loadBlocks_iff (hmax : 0 < maxBlockSize) (hdata : loadFileData ≠ []) :
    (∀ apdu ∈ loadBlocks loadFileData maxBlockSize, apduLc apdu = some (apduData apdu).length) ↔
      maxBlockSize ≤ 255 ∨ loadFileData.length ≤ 255 := by
  have hlc : ∀ k (hk : k < (loadBlocks loadFileData maxBlockSize).length)
      (hk' : k < (loadChunks loadFileData maxBlockSize).length),
      apduLc (loadBlocks loadFileData maxBlockSize)[k]
        = some (apduData (loadBlocks loadFileData maxBlockSize)[k]).length ↔
      (loadChunks loadFileData maxBlockSize)[k].length ≤ 255 := by
    intro k hk hk'
    rw [getElem_loadBlocks hk hk']
    exact apduLc_eq_length_iff _ _ _ _
  constructor
  · intro h
    -- the first block is as long as any
    have hpos := loadBlockCount_pos hmax hdata
    obtain ⟨n, hn⟩ : ∃ n, loadBlockCount loadFileData maxBlockSize = n + 1 :=
      ⟨_, (Nat.succ_pred_eq_of_pos hpos).symm⟩
    have hk : 0 < (loadBlocks loadFileData maxBlockSize).length := by rwa [length_loadBlocks]
    have hk' : 0 < (loadChunks loadFileData maxBlockSize).length := by rwa [length_loadChunks]
    have hfirst := (hlc 0 hk hk').mp (h _ (getElem_mem hk))
    simp only [loadChunks, hn, chunkLoop, getElem_cons_zero, drop_zero, length_take] at hfirst
    omega
  · intro hshort apdu hapdu
    obtain ⟨k, hk, rfl⟩ := getElem_of_mem hapdu
    have hk' := hk
    rw [length_loadBlocks, ← length_loadChunks] at hk'
    have hchunk := length_le_of_mem_chunkLoop (getElem_mem hk')
    rw [hlc k hk hk']
    omega

theorem flatMap_apduRead {blocks : List Bytes}
    (h : ∀ apdu ∈ blocks, apduLc apdu = some (apduData apdu).length) :
    blocks.flatMap apduRead = (blocks.map apduData).flatten := by
  rw [flatMap_def]
  refine congrArg flatten (map_congr_left fun apdu hapdu ↦ ?_)
  rw [apduRead, h apdu hapdu, Option.getD_some, take_length]

theorem buildLoadBlockAPDUs_eq_ok (hmax : 0 < maxBlockSize) {blocks : List Bytes} :
    buildLoadBlockAPDUs loadFileData maxBlockSize = .ok blocks ↔
      0 ≤ (wrapInt (loadFileData.length + maxBlockSize - 1)).tdiv maxBlockSize ∧
        blocks = loadBlocks loadFileData maxBlockSize := by
  have hpos : ¬ (maxBlockSize : ℤ) ≤ 0 := by omega
  rw [buildLoadBlockAPDUs, if_neg hpos, Int.toNat_natCast, loadBlockLoop_eq_loadBlocks hmax]
  simp only
  split_ifs with hneg
  · refine iff_of_false ?_ fun h ↦ absurd h.1 (not_le.mpr hneg)
    rintro ⟨⟩
  · rw [Except.ok.injEq]
    exact ⟨fun h ↦ ⟨not_lt.mp hneg, h.symm⟩, fun h ↦ h.2.symm⟩

end LoadBlocks

theorem buildDeleteAPDU_eq_ok {aid apdu : Bytes} {deleteRelated : Bool} :
    buildDeleteAPDU aid deleteRelated = .ok apdu ↔ aid ≠ [] ∧
      apdu = buildAPDU insDelete 0x00 (if deleteRelated then 0x80 else 0x00)
        (0x4F :: lengthPrefixed aid) := by
  by_cases hnil : aid = []
  · refine iff_of_false ?_ fun h ↦ h.1 hnil
    rw [buildDeleteAPDU, if_pos (length_eq_zero_iff.mpr hnil)]
    rintro ⟨⟩
  · rw [buildDeleteAPDU, if_neg fun hempty ↦ hnil (length_eq_zero_iff.mp hempty), Except.ok.injEq]
    exact ⟨fun h ↦ ⟨hnil, h.symm⟩, fun h ↦ h.2.symm⟩

end OtaPlatform
