import OtaPlatform.Globalplatform.Apdu
import OtaPlatform.Globalplatform.CapFile

/-!
# The commands of a CAP file

`PreviewCAPAPDUs` builds INSTALL [for LOAD], the LOAD blocks and DELETE from the AID and the load
file of a CAP file and from a block size that the caller may choose. Both are taken from
`parseCAPFile` here. The stored row in between is left out: GORM maps the field `AID` to a column
`a_id`, the migrations create `aid`, and so no row gives the AID back.

* `buildPreview_wellFormed_iff`: for which AIDs, load files and block sizes these commands are
  well formed.
-/

namespace OtaPlatform

open List

/-! ## Building the commands -/

def parseIntLoop : List Char → ℤ → ℤ
  | [], n => n
  | c :: cs, n =>
    if c < '0' ∨ '9' < c then 0 else parseIntLoop cs (wrapInt (n * 10 + (c.toNat - 48)))

/-- A number in a query; zero if it is none. -/
def parseInt (s : String) : ℤ := parseIntLoop s.toList 0

def previewBlockSize (query : String) : ℤ :=
  if query = "" then 0xD8
  else if parseInt query > 0 then parseInt query
  else 0xD8

/-- The default security domain. -/
def isdAID : Bytes := [0xA0, 0x00, 0x00, 0x00, 0x03, 0x00, 0x00, 0x00]

structure Preview where
  installForLoad : Bytes
  loadBlocks : List Bytes
  deleteAPDU : Bytes
deriving DecidableEq

def buildPreview (aid loadFileData : Bytes) (maxBlockSize : ℤ) : Except String Preview := do
  let installForLoad := buildInstallForLoadAPDU aid isdAID
  let loadBlocks ← buildLoadBlockAPDUs loadFileData maxBlockSize
  let deleteAPDU ← buildDeleteAPDU aid true
  return ⟨installForLoad, loadBlocks, deleteAPDU⟩

structure Preview.WellFormed (p : Preview) (loadFile : Bytes) : Prop where
  lc : ∀ apdu ∈ p.installForLoad :: p.deleteAPDU :: p.loadBlocks,
    apduLc apdu = some (apduData apdu).length
  numbered : p.loadBlocks.map apduP2 = (range p.loadBlocks.length).map some
  /-- The last block is marked as such, and no other one. -/
  last : ∀ (k : ℕ) (hk : k < p.loadBlocks.length),
    apduP1 p.loadBlocks[k] = some 0x80 ↔ k + 1 = p.loadBlocks.length
  read_eq : p.loadBlocks.flatMap apduRead = loadFile

/-- **The condition.** The AID has one to 242 octets; blocks have at most 255 octets, because of
their size or because the load file has no more; there are at most 256 blocks; and the number of
blocks does not come out negative by an overflow. -/
structure PreviewFits (aid loadFile : Bytes) (maxBlockSize : ℤ) : Prop where
  aid_ne_nil : aid ≠ []
  aid_le : aid.length ≤ 242
  block_le : maxBlockSize ≤ 255 ∨ loadFile.length ≤ 255
  blocks_le : (loadFile.length : ℤ) ≤ 256 * maxBlockSize
  sum_fits : (loadFile.length : ℤ) + maxBlockSize ≤ 2 ^ 63 ∨
    2 ^ 64 + 1 < (loadFile.length : ℤ) + 2 * maxBlockSize

/-! ## The block size -/

theorem wrapInt_lt (n : ℤ) : wrapInt n < 2 ^ 63 := by
  rw [wrapInt, Int.bmod_def]
  omega

theorem parseIntLoop_lt (cs : List Char) {n : ℤ} (hn : n < 2 ^ 63) :
    parseIntLoop cs n < 2 ^ 63 := by
  induction cs generalizing n with
  | nil => exact hn
  | cons c cs ih =>
    rw [parseIntLoop]
    split_ifs
    · decide
    · exact ih (wrapInt_lt _)

theorem exists_previewBlockSize (query : String) :
    ∃ m : ℕ, previewBlockSize query = m ∧ 0 < m ∧ m < 2 ^ 63 := by
  have hlt : parseInt query < 2 ^ 63 := parseIntLoop_lt _ (by decide)
  rw [previewBlockSize]
  split_ifs with hempty hpos
  · exact ⟨0xD8, rfl, by decide, by decide⟩
  · exact ⟨(parseInt query).toNat, by omega, by omega, by omega⟩
  · exact ⟨0xD8, rfl, by decide, by decide⟩

/-! ## When a preview is well formed -/

section Preview

variable {aid loadFile : Bytes} {m : ℕ}

theorem tdiv_neg_nonneg_iff (hmax : 0 < m) {b : ℤ} (hb : 0 < b) : 0 ≤ (-b).tdiv m ↔ b < m := by
  rw [Int.neg_tdiv, Int.tdiv_eq_ediv_of_nonneg hb.le, Int.neg_nonneg]
  constructor
  · intro h
    by_contra hle
    have hone : 1 ≤ b / m := Int.le_ediv_of_mul_le (by omega) (by omega)
    omega
  · intro h
    rw [Int.ediv_eq_zero_of_lt hb.le h]

/-- **When the number of blocks is not negative.** -/
theorem totalBlocks_nonneg_iff (hmax : 0 < m) (hlt : m < 2 ^ 63)
    (hblock : (m : ℤ) ≤ 255 ∨ loadFile.length ≤ 255) (hblocks : (loadFile.length : ℤ) ≤ 256 * m) :
    0 ≤ (wrapInt (loadFile.length + m - 1)).tdiv m ↔
      (loadFile.length : ℤ) + m ≤ 2 ^ 63 ∨ 2 ^ 64 + 1 < (loadFile.length : ℤ) + 2 * m := by
  rcases lt_or_ge ((loadFile.length : ℤ) + m - 1) (2 ^ 63) with hsmall | hlarge
  · rw [wrapInt_of_lt (by omega) hsmall]
    refine iff_of_true (Int.tdiv_nonneg (by omega) (by omega)) (Or.inl (by omega))
  · have hwrap : wrapInt (loadFile.length + m - 1) = -(2 ^ 64 - (loadFile.length + m - 1)) := by
      rw [wrapInt, Int.bmod_def]
      omega
    rw [hwrap, tdiv_neg_nonneg_iff hmax (by omega)]
    omega

theorem buildPreview_eq_ok {p : Preview} (hmax : 0 < m) : buildPreview aid loadFile m = .ok p ↔
      0 ≤ (wrapInt (loadFile.length + m - 1)).tdiv m ∧ aid ≠ [] ∧
        p = ⟨buildInstallForLoadAPDU aid isdAID, loadBlocks loadFile m,
          buildAPDU insDelete 0x00 0x80 (0x4F :: lengthPrefixed aid)⟩ := by
  rw [buildPreview, bind_eq_ok]
  constructor
  · rintro ⟨blocks, hblocks, h⟩
    obtain ⟨deleteAPDU, hdelete, h⟩ := bind_eq_ok.mp h
    obtain ⟨htotal, rfl⟩ := (buildLoadBlockAPDUs_eq_ok hmax).mp hblocks
    obtain ⟨haid, rfl⟩ := buildDeleteAPDU_eq_ok.mp hdelete
    exact ⟨htotal, haid, (Except.ok.inj h).symm⟩
  · rintro ⟨htotal, haid, rfl⟩
    exact ⟨_, (buildLoadBlockAPDUs_eq_ok hmax).mpr ⟨htotal, rfl⟩,
      bind_eq_ok.mpr ⟨_, buildDeleteAPDU_eq_ok.mpr ⟨haid, rfl⟩, rfl⟩⟩

/-- **When the commands that were built are well formed.** -/
theorem wellFormed_iff (hmax : 0 < m) (hload : loadFile ≠ []) :
    Preview.WellFormed ⟨buildInstallForLoadAPDU aid isdAID, loadBlocks loadFile m,
        buildAPDU insDelete 0x00 0x80 (0x4F :: lengthPrefixed aid)⟩ loadFile ↔
      aid.length ≤ 242 ∧ ((m : ℤ) ≤ 255 ∨ loadFile.length ≤ 255) ∧
        (loadFile.length : ℤ) ≤ 256 * m := by
  have hinstall : apduLc (buildInstallForLoadAPDU aid isdAID)
      = some (apduData (buildInstallForLoadAPDU aid isdAID)).length ↔ aid.length ≤ 242 := by
    rw [buildInstallForLoadAPDU, apduLc_eq_length_iff]
    simp only [lengthPrefixed, isdAID, length_append, length_cons, length_nil]
    omega
  have hdelete : apduLc (buildAPDU insDelete 0x00 0x80 (0x4F :: lengthPrefixed aid))
      = some (apduData (buildAPDU insDelete 0x00 0x80 (0x4F :: lengthPrefixed aid))).length ↔
      aid.length ≤ 253 := by
    rw [apduLc_eq_length_iff]
    simp only [lengthPrefixed, length_cons]
    omega
  have hlc := apduLc_loadBlocks_iff hmax hload
  have hcount : loadBlockCount loadFile m ≤ 256 ↔ (loadFile.length : ℤ) ≤ 256 * m := by
    rw [loadBlockCount_le_iff hmax]
    omega
  constructor
  · intro h
    refine ⟨?_, ?_, ?_⟩
    · exact hinstall.mp (h.lc _ mem_cons_self)
    · have hblocks := hlc.mp fun apdu hapdu ↦
        h.lc apdu (mem_cons_of_mem _ (mem_cons_of_mem _ hapdu))
      omega
    · exact hcount.mp (apduP2_loadBlocks_iff.mp h.numbered)
  · rintro ⟨haidle, hblock, hblocks⟩
    have hall := hlc.mpr (by omega)
    refine ⟨?_, apduP2_loadBlocks_iff.mpr (hcount.mpr hblocks), fun k hk ↦ apduP1_loadBlocks hk, ?_⟩
    · intro apdu hapdu
      rcases mem_cons.mp hapdu with rfl | hapdu
      · exact hinstall.mpr haidle
      · rcases mem_cons.mp hapdu with rfl | hapdu
        · exact hdelete.mpr (by omega)
        · exact hall apdu hapdu
    · rw [flatMap_apduRead hall, map_apduData_loadBlocks, flatten_loadChunks hmax]

end Preview

/-- **When a preview is well formed.** For every archive that is accepted and every block size the
commands are built and well formed exactly if they fit. -/
theorem buildPreview_wellFormed_iff {archive : Except String (List ZipEntry)} {filename : String}
    {cap : CAPFile} (h : parseCAPFile archive filename = .ok cap) (query : String) :
    (∃ p, buildPreview cap.aid cap.loadFile (previewBlockSize query) = .ok p ∧
        p.WellFormed cap.loadFile) ↔
      PreviewFits cap.aid cap.loadFile (previewBlockSize query) := by
  obtain ⟨m, hm, hmax, hlt⟩ := exists_previewBlockSize query
  obtain ⟨haidEq, hloadEq⟩ := parseCAPFile_spec h
  have hload : cap.aid ≠ [] → cap.loadFile ≠ [] := by
    rw [haidEq, hloadEq]
    exact assembleLoadFile_ne_nil
  rw [hm]
  constructor
  · rintro ⟨p, hbuild, hwell⟩
    obtain ⟨htotal, haid, rfl⟩ := (buildPreview_eq_ok hmax).mp hbuild
    obtain ⟨haidle, hblock, hblocks⟩ := (wellFormed_iff hmax (hload haid)).mp hwell
    rw [totalBlocks_nonneg_iff hmax hlt hblock hblocks] at htotal
    exact ⟨haid, haidle, hblock, hblocks, htotal⟩
  · rintro ⟨haid, haidle, hblock, hblocks, hsum⟩
    have htotal := (totalBlocks_nonneg_iff hmax hlt hblock hblocks).mpr hsum
    refine ⟨_, (buildPreview_eq_ok hmax).mpr ⟨htotal, haid, rfl⟩, ?_⟩
    exact (wellFormed_iff hmax (hload haid)).mpr ⟨haidle, hblock, hblocks⟩

namespace SmallPackage

/-- A header component with an AID of five octets. -/
def header : Bytes := replicate 12 0x01 ++ 0x05 :: replicate 5 0xA0

def method : ZipEntry := ⟨"app/javacard/Method.cap", .ok (replicate 300 0x07)⟩

def sections : CAPSections :=
  (AList.insert "Header" header ∅).insert "Method" (replicate 300 0x07)

/-- The file with the header and the component. -/
def cap : CAPFile := ⟨"app.cap", extractAID sections, sections, assembleLoadFile sections⟩

theorem parseCAPFile_cap :
    parseCAPFile (.ok [⟨"app/javacard/Header.cap", .ok header⟩, method]) "app.cap" = .ok cap := by
  have hread : readSections [⟨"app/javacard/Header.cap", .ok header⟩, method] ∅
      = .ok sections := rfl
  rw [parseCAPFile, hread]
  rfl

def sectionsWithoutHeader : CAPSections := AList.insert "Method" (replicate 300 0x07) ∅

/-- The file with the component alone. -/
def capWithoutHeader : CAPFile :=
  ⟨"app.cap", [], sectionsWithoutHeader, assembleLoadFile sectionsWithoutHeader⟩

theorem parseCAPFile_capWithoutHeader :
    parseCAPFile (.ok [method]) "app.cap" = .ok capWithoutHeader := by
  have hread : readSections [method] ∅ = .ok sectionsWithoutHeader := rfl
  rw [parseCAPFile, hread]
  rfl

end SmallPackage

open SmallPackage in
/-- With the default block size there are two blocks. -/
theorem buildPreview_wellFormed_small :
    ∃ p, buildPreview cap.aid cap.loadFile (previewBlockSize "") = .ok p ∧
      p.WellFormed cap.loadFile :=
  (buildPreview_wellFormed_iff parseCAPFile_cap "").mpr
    ⟨by decide +kernel, by decide +kernel, by decide +kernel, by decide +kernel,
      by decide +kernel⟩

open SmallPackage in
/-- **Without a header the preview panics**, and with blocks of 300 octets Lc is wrong. -/
theorem preview_malformed :
    (parseCAPFile (.ok [method]) "app.cap" = .ok capWithoutHeader ∧
      buildPreview capWithoutHeader.aid capWithoutHeader.loadFile (previewBlockSize "")
        = .error "AID must not be empty") ∧
    parseCAPFile (.ok [⟨"app/javacard/Header.cap", .ok header⟩, method]) "app.cap" = .ok cap ∧
      ¬ ∃ p, buildPreview cap.aid cap.loadFile (previewBlockSize "300") = .ok p ∧
        p.WellFormed cap.loadFile := by
  refine ⟨⟨parseCAPFile_capWithoutHeader, by decide +kernel⟩, parseCAPFile_cap, ?_⟩
  rintro ⟨p, hbuild, hwell⟩
  have hsize : previewBlockSize "300" = (300 : ℕ) := by decide +kernel
  rw [hsize] at hbuild
  obtain ⟨-, -, rfl⟩ := (buildPreview_eq_ok (by decide)).mp hbuild
  have hlength : cap.loadFile.length = 318 := by decide +kernel
  have hload : cap.loadFile ≠ [] := length_pos_iff.mp (by omega)
  rw [wellFormed_iff (by decide) hload, hlength] at hwell
  omega

end OtaPlatform
