import Mathlib.Tactic.IntervalCases
import OtaPlatform.Gsm0348.Builder
import OtaPlatform.Transition.Program

/-!
# What a command packet carries

`receiveCommandPacket` is not in the source, whose other half runs on the card. It states what a
packet is for: it reads the octets at their offsets, decrypts the rest, cuts the checksum off and
the padding away, and computes the redundancy check or the MAC itself over what it has read.
`receive_buildCommandPacket` says that it gets back what went in, for every profile and input a
packet is built from.

`buildCommandPacket_succeeds_iff` says for which ciphered profiles a packet is built at all. The
user data alone is padded to the block size, the checksum is put in front of it afterwards, so the
two together are whole blocks only if the checksum is.
-/

namespace OtaPlatform

open List Crypto

/-! ## The receiver -/

/-- The fields of the security octets, each as wide as its place in its octet. -/
structure SecurityParameters where
  certMode : UInt8
  ciphered : Bool
  counterMode : UInt8
  porMode : UInt8
  porCertMode : UInt8
  porCiphered : Bool
  porProtocol : UInt8
  kicAlgo : UInt8
  kicMode : UInt8
  kicKeysetID : UInt8
  kidAlgo : UInt8
  kidMode : UInt8
  kidKeysetID : UInt8
deriving DecidableEq, Repr

/-- Reads the fields off the octets. -/
def SecurityParameters.decode (spi1 spi2 kic kid : UInt8) : SecurityParameters where
  certMode := spi1 &&& 0x03
  ciphered := spi1 &&& 0x04 ≠ 0
  counterMode := (spi1 >>> 3) &&& 0x03
  porMode := spi2 &&& 0x03
  porCertMode := (spi2 >>> 2) &&& 0x03
  porCiphered := spi2 &&& 0x10 ≠ 0
  porProtocol := (spi2 >>> 5) &&& 0x03
  kicAlgo := kic &&& 0x03
  kicMode := (kic >>> 2) &&& 0x03
  kicKeysetID := (kic >>> 4) &&& 0x07
  kidAlgo := kid &&& 0x03
  kidMode := (kid >>> 2) &&& 0x03
  kidKeysetID := (kid >>> 4) &&& 0x07

/-- The fields as the profile has them, cut to their width. -/
def SecurityProfile.parameters (sp : SecurityProfile) : SecurityParameters where
  certMode := sp.certMode &&& (0x03 : UInt8)
  ciphered := sp.ciphered
  counterMode := sp.counterMode &&& (0x03 : UInt8)
  porMode := sp.porMode &&& (0x03 : UInt8)
  porCertMode := sp.porCertMode &&& (0x03 : UInt8)
  porCiphered := sp.porCiphered
  porProtocol := sp.porProtocol &&& 0x03
  kicAlgo := sp.kicAlgo &&& 0x03
  kicMode := sp.kicMode &&& (0x03 : UInt8)
  kicKeysetID := sp.kicKeysetID &&& 0x07
  kidAlgo := sp.kidAlgo &&& 0x03
  kidMode := sp.kidMode &&& (0x03 : UInt8)
  kidKeysetID := sp.kidKeysetID &&& 0x07

/-- What a receiver takes out of a command packet. -/
structure ReceivedCommand where
  cpl : ℕ
  chl : ℕ
  /-- The octets SPI1, SPI2, KIc and KID. -/
  security : List UInt8
  parameters : SecurityParameters
  tar : Bytes
  counter : Bytes
  pcntr : UInt8
  signature : Bytes
  checksum : Bytes
  userData : Bytes
deriving DecidableEq, Repr

section Receiver

variable (std : StdCiphers) (sp : SecurityProfile)

/-- Decrypts whole blocks under the zero initial value, with the cipher of the mode and key. -/
def decryptSecured (mode : CipherMode) (key data : Bytes) : Except String Bytes := do
  let block ← encryptionCipher std mode key
  if data.length % block.blockSize ≠ 0 then .error "secured data is not whole blocks"
  else .ok (cbcDecrypt block (replicate block.blockSize 0) data)

/-- The checksum and padded data in the clear. -/
def openSecured (cipheringKey secured : Bytes) : Except String Bytes :=
  if sp.ciphered then decryptSecured std sp.kicMode cipheringKey secured else .ok secured

/-- The checksum of the mode over what was read: the redundancy check in four octets, or the first
eight octets of the MAC. -/
def receivedChecksum (signingKey header padded : Bytes) : Except String Bytes :=
  if sp.certMode = certRC then .ok (computeCRC header padded 4)
  else if sp.certMode = certCC then
    (computeMAC std sp.kidMode signingKey header padded).map (take 8)
  else .ok []

/-- Reads a command packet with the keys it was built with. -/
def receiveCommandPacket (cipheringKey signingKey packet : Bytes) :
    Except String ReceivedCommand := do
  let octet := fun i ↦ packet.getD i 0
  let header := (packet.drop 3).take 13
  let chl := (octet 2).toNat
  let pcntr := octet 15
  let plain ← openSecured std sp cipheringKey (packet.drop 16)
  let padded := plain.drop (chl - 13)
  let checksum ← receivedChecksum std sp signingKey header padded
  return {
    cpl := (octet 0).toNat * 256 + (octet 1).toNat
    chl
    security := [octet 3, octet 4, octet 5, octet 6]
    parameters := SecurityParameters.decode (octet 3) (octet 4) (octet 5) (octet 6)
    tar := (packet.drop 7).take 3
    counter := (packet.drop 10).take 5
    pcntr
    signature := plain.take (chl - 13)
    checksum
    userData := padded.take (padded.length - pcntr.toNat) }

end Receiver

/-! ## Security octets -/

private theorem exists_and_three (x : UInt8) : ∃ a : Fin 4, x &&& 3 = UInt8.ofNat a := by
  have hlt : (x &&& 3).toNat < 4 := by
    rw [UInt8.toNat_and]
    exact Nat.and_lt_two_pow x.toNat (show (3 : UInt8).toNat < 2 ^ 2 by decide)
  exact ⟨⟨(x &&& 3).toNat, hlt⟩, UInt8.ofNat_toNat.symm⟩

private theorem exists_and_seven (x : UInt8) : ∃ a : Fin 8, x &&& 7 = UInt8.ofNat a := by
  have hlt : (x &&& 7).toNat < 8 := by
    rw [UInt8.toNat_and]
    exact Nat.and_lt_two_pow x.toNat (show (7 : UInt8).toNat < 2 ^ 3 by decide)
  exact ⟨⟨(x &&& 7).toNat, hlt⟩, UInt8.ofNat_toNat.symm⟩

private theorem keyOctet_fields : ∀ (a b : Fin 4) (k : Fin 8),
    let e := UInt8.ofNat a ||| (UInt8.ofNat b <<< 2) ||| (UInt8.ofNat k <<< 4)
    e &&& 0x03 = UInt8.ofNat a ∧ (e >>> 2) &&& 0x03 = UInt8.ofNat b ∧
      (e >>> 4) &&& 0x07 = UInt8.ofNat k := by
  decide +kernel

private theorem spi1_fields : ∀ (a c : Fin 4) (b : Bool),
    let e := UInt8.ofNat a ||| (if b then (0x04 : UInt8) else 0) ||| (UInt8.ofNat c <<< 3)
    e &&& 0x03 = UInt8.ofNat a ∧ decide (e &&& 0x04 ≠ 0) = b ∧
      (e >>> 3) &&& 0x03 = UInt8.ofNat c := by
  decide +kernel

private theorem spi2_fields : ∀ (a b d : Fin 4) (c : Bool),
    let e := UInt8.ofNat a ||| (UInt8.ofNat b <<< 2) ||| (if c then (0x10 : UInt8) else 0) |||
      (UInt8.ofNat d <<< 5)
    e &&& 0x03 = UInt8.ofNat a ∧ (e >>> 2) &&& 0x03 = UInt8.ofNat b ∧
      decide (e &&& 0x10 ≠ 0) = c ∧ (e >>> 5) &&& 0x03 = UInt8.ofNat d := by
  decide +kernel

private theorem keyOctet_decodes (algo mode keysetID : UInt8) :
    let e := (algo &&& (0x03 : UInt8)) ||| ((mode &&& (0x03 : UInt8)) <<< 2) |||
      ((keysetID &&& (0x07 : UInt8)) <<< 4)
    e &&& 0x03 = algo &&& 0x03 ∧ (e >>> 2) &&& 0x03 = mode &&& 0x03 ∧
      (e >>> 4) &&& 0x07 = keysetID &&& 0x07 := by
  obtain ⟨a, ha⟩ := exists_and_three algo
  obtain ⟨b, hb⟩ := exists_and_three mode
  obtain ⟨k, hk⟩ := exists_and_seven keysetID
  rw [ha, hb, hk]
  exact keyOctet_fields a b k

variable (sp : SecurityProfile)

/-- **The security octets give the profile back**, each field cut to its width. -/
theorem decode_security :
    SecurityParameters.decode sp.encodeSPI1 sp.encodeSPI2 sp.encodeKIc sp.encodeKID
      = sp.parameters := by
  have hspi1 : sp.encodeSPI1 &&& 0x03 = sp.certMode &&& (0x03 : UInt8) ∧
      decide (sp.encodeSPI1 &&& 0x04 ≠ 0) = sp.ciphered ∧
      (sp.encodeSPI1 >>> 3) &&& 0x03 = sp.counterMode &&& (0x03 : UInt8) := by
    obtain ⟨a, ha⟩ := exists_and_three sp.certMode
    obtain ⟨c, hc⟩ := exists_and_three sp.counterMode
    rw [SecurityProfile.encodeSPI1, ha, hc]
    exact spi1_fields a c sp.ciphered
  have hspi2 : sp.encodeSPI2 &&& 0x03 = sp.porMode &&& (0x03 : UInt8) ∧
      (sp.encodeSPI2 >>> 2) &&& 0x03 = sp.porCertMode &&& (0x03 : UInt8) ∧
      decide (sp.encodeSPI2 &&& 0x10 ≠ 0) = sp.porCiphered ∧
      (sp.encodeSPI2 >>> 5) &&& 0x03 = sp.porProtocol &&& 0x03 := by
    obtain ⟨a, ha⟩ := exists_and_three sp.porMode
    obtain ⟨b, hb⟩ := exists_and_three sp.porCertMode
    obtain ⟨d, hd⟩ := exists_and_three sp.porProtocol
    rw [SecurityProfile.encodeSPI2, ha, hb, hd]
    exact spi2_fields a b d sp.porCiphered
  have hkic := keyOctet_decodes sp.kicAlgo sp.kicMode sp.kicKeysetID
  have hkid := keyOctet_decodes sp.kidAlgo sp.kidMode sp.kidKeysetID
  simp only [SecurityParameters.decode, SecurityProfile.parameters, SecurityParameters.mk.injEq]
  exact ⟨hspi1.1, hspi1.2.1, hspi1.2.2, hspi2.1, hspi2.2.1, hspi2.2.2.1, hspi2.2.2.2,
    hkic.1, hkic.2.1, hkic.2.2, hkid.1, hkid.2.1, hkid.2.2⟩

/-! ## Padding -/

theorem cipherBlockSize_cases : sp.cipherBlockSize = 8 ∨ sp.cipherBlockSize = 16 := by
  unfold SecurityProfile.cipherBlockSize
  split <;> simp

theorem toNat_ofNat_small {n : ℕ} (h : n < 256) : (UInt8.ofNat n).toNat = n := by
  rw [UInt8.toNat_ofNat', Nat.mod_eq_of_lt h]

theorem length_padData_mod {blockSize : ℕ} (data : Bytes) (hpos : 0 < blockSize) :
    (padData data blockSize).1.length % blockSize = 0 := by
  unfold padData
  split
  · rw [length_replicate, Nat.mod_self]
  · simp only
    split
    · assumption
    · have hlt := Nat.mod_lt data.length hpos
      have hsplit := Nat.mod_add_div data.length blockSize
      have hsum : data.length + (blockSize - data.length % blockSize)
          = blockSize * (data.length / blockSize + 1) := by
        rw [Nat.mul_add, Nat.mul_one]
        omega
      rw [length_append, length_replicate, hsum, Nat.mul_mod_right]

theorem take_padData {blockSize : ℕ} (data : Bytes) (hsmall : blockSize < 256) :
    (padData data blockSize).1.take
      ((padData data blockSize).1.length - (padData data blockSize).2.toNat) = data := by
  unfold padData
  split
  · next hempty =>
    rw [toNat_ofNat_small hsmall, length_replicate, Nat.sub_self, take_zero,
      length_eq_zero_iff.mp hempty]
  · simp only
    split
    · exact take_length
    · have hle : blockSize - data.length % blockSize < 256 := by omega
      rw [toNat_ofNat_small hle, length_append, length_replicate, Nat.add_sub_cancel, take_left]

theorem take_paddedUserData (userData : Bytes) : (paddedUserData sp userData).1.take
      ((paddedUserData sp userData).1.length - (paddedUserData sp userData).2.toNat)
      = userData := by
  unfold paddedUserData
  split
  · exact take_padData userData (by rcases cipherBlockSize_cases sp with h | h <;> omega)
  · exact take_length

theorem length_paddedUserData_mod (userData : Bytes) (hciphered : sp.ciphered = true) :
    (paddedUserData sp userData).1.length % sp.cipherBlockSize = 0 := by
  rw [paddedUserData, if_pos hciphered]
  exact length_padData_mod userData (by rcases cipherBlockSize_cases sp with h | h <;> omega)

/-! ## Checksums -/

theorem signatureLength_le : sp.signatureLength ≤ 8 := by
  unfold SecurityProfile.signatureLength
  split_ifs <;> omega

@[simp] theorem length_crcLoop (length i : ℕ) (input crc : Bytes) :
    (crcLoop length i input crc).length = crc.length := by
  induction input generalizing i crc with
  | nil => rfl
  | cons b rest ih => rw [crcLoop, ih, length_modify]

theorem length_computeCRC (header data : Bytes) (length : ℕ) :
    (computeCRC header data length).length = length := by
  rw [computeCRC, length_crcLoop, length_crcLoop, length_replicate]

variable {std : StdCiphers} {sp : SecurityProfile}

theorem length_commandSignature {provider : Option CryptoProvider} {signingKey : Bytes}
    {cardID : Option UUID} {header padded signature : Bytes}
    (h : commandSignature std provider sp signingKey cardID header padded = .ok signature) :
    signature.length = sp.signatureLength := by
  unfold commandSignature at h
  split at h
  · cases h
    exact length_computeCRC _ _ _
  split at h
  · obtain ⟨mac, -, hmac⟩ := bind_eq_ok.mp h
    split at hmac
    · cases hmac
    · cases hmac
      rw [length_take]
      omega
  split at h
  · cases h
  · cases h
    rw [length_replicate]

/-- The sender puts the checksum of the mode into the packet. -/
theorem receivedChecksum_eq {signingKey : Bytes} {cardID : Option UUID}
    {header padded signature : Bytes}
    (h : commandSignature std none sp signingKey cardID header padded = .ok signature) :
    receivedChecksum std sp signingKey header padded = .ok signature := by
  unfold commandSignature at h
  rw [receivedChecksum]
  split at h
  · next hrc =>
    have hlength : sp.signatureLength = 4 := by
      rw [SecurityProfile.signatureLength, hrc]
      rfl
    rw [if_pos hrc, ← hlength]
    exact h
  · next hrc =>
    rw [if_neg hrc]
    split at h
    · next hcc =>
      have hlength : sp.signatureLength = 8 := by
        rw [SecurityProfile.signatureLength, hcc]
        rfl
      obtain ⟨mac, hmac, h⟩ := bind_eq_ok.mp h
      have hcomputed : computeMAC std sp.kidMode signingKey header padded = .ok mac :=
        mapError_eq_ok.mp hmac
      rw [if_pos hcc, hcomputed]
      split at h
      · cases h
      · rw [hlength] at h
        exact h
    · next hcc =>
      rw [if_neg hcc]
      split at h
      · cases h
      · rw [SecurityProfile.signatureLength, if_neg hrc, if_neg hcc, ite_self,
          replicate_zero] at h
        exact h

/-! ## Decryption -/

theorem xor_cancel (a b : UInt8) : a ^^^ b ^^^ b = a := by
  rw [UInt8.xor_assoc, UInt8.xor_self, UInt8.xor_zero]

variable {key : Bytes}

theorem decryptSecured_encryptData {mode : CipherMode} {data out : Bytes}
    (h : encryptData std mode key data = .ok out) : decryptSecured std mode key out = .ok data := by
  obtain ⟨block, hblock, hout⟩ := bind_eq_ok.mp h
  split at hout
  · cases hout
  · next haligned =>
    rw [not_not] at haligned
    cases hout
    refine bind_eq_ok.mpr ⟨block, hblock, ?_⟩
    rw [if_neg (by rw [length_cbcEncrypt haligned, haligned]; exact not_not.mpr rfl),
      cbcDecrypt_cbcEncrypt xor_cancel haligned]

/-! ## A cipher to compute with -/

def maskCipher (blockSize : ℕ) (hpos : 0 < blockSize) (key : Bytes) : BlockCipher UInt8 where
  blockSize := blockSize
  blockSize_pos := hpos
  encrypt := fun b ↦ xorBytes b key
  decrypt := fun b ↦ xorBytes b key
  length_encrypt := fun b hb ↦ (length_xorBytes b key).trans hb
  length_decrypt := fun b hb ↦ (length_xorBytes b key).trans hb
  decrypt_encrypt := fun b _ ↦ xorBytes_xorBytes xor_cancel b key

/-- Masking in the place of all three ciphers. -/
def maskCiphers : StdCiphers where
  des := maskCipher 8 (by decide)
  tripleDES := maskCipher 8 (by decide)
  aes := maskCipher 16 (by decide)
  blockSize_des := fun _ ↦ rfl
  blockSize_tripleDES := fun _ ↦ rfl
  blockSize_aes := fun _ ↦ rfl

/-- A ciphered profile with the given checksum and ciphering mode. -/
def cipheredProfile (certMode : CertificationMode) (kicMode : CipherMode) : SecurityProfile where
  certMode := certMode
  ciphered := true
  counterMode := counterReplayCheck
  porMode := porAlways
  porCertMode := certNone
  porCiphered := false
  porProtocol := 1
  kicAlgo := 1
  kicMode := kicMode
  kicKeysetID := 1
  kidAlgo := 1
  kidMode := cipher3DESCBC2Keys
  kidKeysetID := 1
  securityBytesWithLengthsAndUDHL := false

/-- An input of the given user data, with keys of two blocks. -/
def keyedInput (userData : Bytes) : CommandPacketInput where
  tar := [0xB0, 0x00, 0x10]
  counter := [0, 0, 0, 0, 7]
  cipheringKey := (range 16).map UInt8.ofNat
  signingKey := (range 16).map UInt8.ofNat
  userData := userData

/-! ## The packet -/

section Packet

variable {input : CommandPacketInput} {packet : Bytes}

theorem buildCommandPacket_eq_ok {provider : Option CryptoProvider} :
    buildCommandPacket std provider sp input = .ok packet ↔ ∃ signature secured,
        commandSignature std provider sp input.signingKey input.cardID (commandHeader sp input)
          (paddedUserData sp input.userData).1 = .ok signature ∧
        secure std provider sp input (signature ++ (paddedUserData sp input.userData).1)
          = .ok secured ∧
        packet = [UInt8.ofNat ((1 + (commandHeader sp input).length + secured.length) >>> 8),
            UInt8.ofNat ((1 + (commandHeader sp input).length + secured.length) &&& 0xFF)] ++
          [UInt8.ofNat (13 + sp.signatureLength)] ++ commandHeader sp input ++ secured := by
  constructor
  · intro h
    obtain ⟨signature, hsignature, h⟩ := bind_eq_ok.mp h
    obtain ⟨secured, hsecured, h⟩ := bind_eq_ok.mp h
    cases h
    exact ⟨signature, secured, hsignature, hsecured, rfl⟩
  · rintro ⟨signature, secured, hsignature, hsecured, rfl⟩
    exact bind_eq_ok.mpr ⟨signature, hsignature, bind_eq_ok.mpr ⟨secured, hsecured, rfl⟩⟩

theorem openSecured_secure {plain secured : Bytes}
    (h : secure std none sp input plain = .ok secured) :
    openSecured std sp input.cipheringKey secured = .ok plain := by
  unfold secure at h
  split at h
  · next hciphered =>
    rw [openSecured, if_pos hciphered]
    exact decryptSecured_encryptData (mapError_eq_ok.mp h)
  · next hplain =>
    cases h
    rw [openSecured, if_neg hplain]

theorem lengthOctets (n : ℕ) :
    (UInt8.ofNat (n >>> 8)).toNat * 256 + (UInt8.ofNat (n &&& 0xFF)).toNat = n % 65536 := by
  have hlow : n &&& 0xFF = n % 256 := Nat.and_two_pow_sub_one_eq_mod n 8
  have hhigh : n >>> 8 = n / 256 := Nat.shiftRight_eq_div_pow n 8
  rw [hlow, hhigh, UInt8.toNat_ofNat', UInt8.toNat_ofNat']
  omega

theorem length_commandHeader (htar : input.tar.length = 3) (hcounter : input.counter.length = 5) :
    (commandHeader sp input).length = 13 := by
  simp [commandHeader, htar, hcounter]

private theorem packet_octets (hi lo chl : UInt8) (secured : Bytes) :
    [hi, lo] ++ [chl] ++ commandHeader sp input ++ secured
      = hi :: lo :: chl :: sp.encodeSPI1 :: sp.encodeSPI2 :: sp.encodeKIc :: sp.encodeKID ::
          (input.tar ++ (input.counter ++ ((paddedUserData sp input.userData).2 :: secured))) := by
  simp [commandHeader]

private theorem receive_octets (std : StdCiphers) (sp : SecurityProfile) (key key' : Bytes)
    (hi lo chl spi1 spi2 kic kid pcntr : UInt8) (secured : Bytes) :
    ∀ tar counter : Bytes, tar.length = 3 → counter.length = 5 →
      receiveCommandPacket std sp key key' (hi :: lo :: chl :: spi1 :: spi2 :: kic :: kid ::
            (tar ++ (counter ++ (pcntr :: secured)))) = (do
          let plain ← openSecured std sp key secured
          let padded := plain.drop (chl.toNat - 13)
          let checksum ← receivedChecksum std sp key'
            ([spi1, spi2] ++ [kic] ++ [kid] ++ tar ++ counter ++ [pcntr]) padded return {
            cpl := hi.toNat * 256 + lo.toNat
            chl := chl.toNat
            security := [spi1, spi2, kic, kid]
            parameters := SecurityParameters.decode spi1 spi2 kic kid
            tar, counter, pcntr
            signature := plain.take (chl.toNat - 13)
            checksum
            userData := padded.take (padded.length - pcntr.toNat) })
  | [_, _, _], [_, _, _, _, _], _, _ => rfl

/-- **A command packet is decodable.** For every profile and input from which a packet is built with
raw keys and whose length fits the two octets for it, a receiver with the same keys reads the
lengths, the security octets, the application, the counter and the padding counter at their places,
and gets back the user data and a checksum equal to the one it computes itself. -/
theorem receive_buildCommandPacket (std : StdCiphers) (sp : SecurityProfile)
    (input : CommandPacketInput) (packet : Bytes) (htar : input.tar.length = 3)
    (hcounter : input.counter.length = 5)
    (hbuild : buildCommandPacket std none sp input = .ok packet)
    (hfits : packet.length - 2 < 65536) :
    ∃ signature : Bytes, signature.length = sp.signatureLength ∧
      receiveCommandPacket std sp input.cipheringKey input.signingKey packet = .ok
        { cpl := packet.length - 2
          chl := 13 + sp.signatureLength
          security := [sp.encodeSPI1, sp.encodeSPI2, sp.encodeKIc, sp.encodeKID]
          parameters := sp.parameters
          tar := input.tar
          counter := input.counter
          pcntr := (paddedUserData sp input.userData).2
          signature := signature
          checksum := signature
          userData := input.userData } := by
  obtain ⟨signature, secured, hsignature, hsecured, rfl⟩ := buildCommandPacket_eq_ok.mp hbuild
  have hlength := length_commandSignature hsignature
  refine ⟨signature, hlength, ?_⟩
  have hcpl : ([UInt8.ofNat ((1 + (commandHeader sp input).length + secured.length) >>> 8),
            UInt8.ofNat ((1 + (commandHeader sp input).length + secured.length) &&& 0xFF)] ++
          [UInt8.ofNat (13 + sp.signatureLength)] ++ commandHeader sp input ++ secured).length - 2
      = 1 + (commandHeader sp input).length + secured.length := by
    simp only [length_append, length_cons, length_nil]
    omega
  have hchl : (UInt8.ofNat (13 + sp.signatureLength)).toNat = 13 + sp.signatureLength :=
    toNat_ofNat_small (by have := signatureLength_le sp; omega)
  have hcut : 13 + sp.signatureLength - 13 = signature.length := by omega
  rw [hcpl] at hfits ⊢
  rw [packet_octets, receive_octets _ _ _ _ _ _ _ _ _ _ _ _ _ _ _ htar hcounter,
    openSecured_secure hsecured]
  refine bind_eq_ok.mpr ⟨_, rfl, ?_⟩
  rw [hchl, hcut, drop_left, take_left]
  refine bind_eq_ok.mpr ⟨signature, receivedChecksum_eq hsignature, ?_⟩
  rw [take_paddedUserData, decode_security, lengthOctets, Nat.mod_eq_of_lt hfits]
  rfl

/-- Five octets, padded to a block, under a checksum with two keys. -/
theorem receive_buildCommandPacket_five :
    let sp := cipheredProfile certCC cipher3DESCBC2Keys
    let input := keyedInput [0xA0, 0xA4, 0x00, 0x00, 0x02]
    ∃ packet, buildCommandPacket maskCiphers none sp input = .ok packet ∧
      packet.length - 2 < 65536 ∧
      ∃ signature : Bytes, signature.length = 8 ∧
        receiveCommandPacket maskCiphers sp input.cipheringKey input.signingKey packet = .ok
          { cpl := packet.length - 2
            chl := 21
            security := [sp.encodeSPI1, sp.encodeSPI2, sp.encodeKIc, sp.encodeKID]
            parameters := sp.parameters
            tar := [0xB0, 0x00, 0x10]
            counter := [0, 0, 0, 0, 7]
            pcntr := 3
            signature := signature
            checksum := signature
            userData := [0xA0, 0xA4, 0x00, 0x00, 0x02] } := by
  refine ⟨_, rfl, by decide, ?_⟩
  exact receive_buildCommandPacket maskCiphers (cipheredProfile certCC cipher3DESCBC2Keys)
    (keyedInput [0xA0, 0xA4, 0x00, 0x00, 0x02]) _ rfl rfl rfl (by decide)

end Packet

/-! ## Which packets can be built -/

/-- The octets a ciphering key must have for its mode. -/
def cipheringKeyLength (mode : CipherMode) : ℕ :=
  if mode = cipherAESCBC then 16
  else if mode = cipherDESCBC then 8
  else if mode = cipher3DESCBC2Keys then 16
  else 24

/-- The octets a signing key must have for its mode. -/
def signingKeyLength (mode : CipherMode) : ℕ :=
  if mode = cipherDESCBC then 8 else if mode = cipher3DESCBC2Keys then 16 else 24

/-- The profile is one of those meant to be supported: ciphered, a checksum mode that is
implemented, named cipher modes, and keys long enough for them. -/
structure Supported (sp : SecurityProfile) (input : CommandPacketInput) : Prop where
  cert : sp.certMode = certNone ∨ sp.certMode = certRC ∨ sp.certMode = certCC
  ciphered : sp.ciphered = true
  kic : sp.kicMode = cipherDESCBC ∨ sp.kicMode = cipher3DESCBC2Keys ∨
    sp.kicMode = cipher3DESCBC3Keys ∨ sp.kicMode = cipherAESCBC
  kid : sp.kidMode = cipherDESCBC ∨ sp.kidMode = cipher3DESCBC2Keys ∨
    sp.kidMode = cipher3DESCBC3Keys
  cipheringKey : cipheringKeyLength sp.kicMode ≤ input.cipheringKey.length
  signingKey : signingKeyLength sp.kidMode ≤ input.signingKey.length

private theorem newDES_eq_ok (h : key.length = 8) : std.newDES key = .ok (std.des key) := if_pos h

private theorem newTripleDES_eq_ok (h : key.length = 24) :
    std.newTripleDES key = .ok (std.tripleDES key) := if_pos h

private theorem length_subkey {i j : ℕ} (hj : j ≤ key.length) :
    ((key.take j).drop i).length = j - i := by
  rw [length_drop, length_take, min_eq_left hj]

variable {input : CommandPacketInput}

/-- A long enough ciphering key gives a cipher of the block size the data is padded to. -/
theorem exists_encryptionCipher (std : StdCiphers) (h : Supported sp input) :
    ∃ block, encryptionCipher std sp.kicMode input.cipheringKey = .ok block ∧
      block.blockSize = sp.cipherBlockSize := by
  have hkey := h.cipheringKey
  rw [SecurityProfile.cipherBlockSize]
  rcases h.kic with hmode | hmode | hmode | hmode
  · have hkey : 8 ≤ input.cipheringKey.length := by rw [hmode] at hkey; exact hkey
    refine ⟨std.des (input.cipheringKey.take 8), ?_, ?_⟩
    · rw [hmode, encryptionCipher, if_neg (by decide), if_pos rfl, if_neg (by omega)]
      exact newDES_eq_ok (length_take_of_le hkey)
    · rw [hmode]
      exact std.blockSize_des _
  · have hkey : 16 ≤ input.cipheringKey.length := by rw [hmode] at hkey; exact hkey
    refine ⟨std.tripleDES (input.cipheringKey.take 16 ++ input.cipheringKey.take 8), ?_, ?_⟩
    · rw [hmode, encryptionCipher, if_neg (by decide), if_neg (by decide), if_pos rfl,
        if_neg (by omega)]
      apply newTripleDES_eq_ok
      rw [length_append, length_take, length_take]
      omega
    · rw [hmode]
      exact std.blockSize_tripleDES _
  · have hkey : 24 ≤ input.cipheringKey.length := by rw [hmode] at hkey; exact hkey
    refine ⟨std.tripleDES (input.cipheringKey.take 24), ?_, ?_⟩
    · rw [hmode, encryptionCipher, if_neg (by decide), if_neg (by decide), if_neg (by decide),
        if_pos rfl, if_neg (by omega)]
      exact newTripleDES_eq_ok (length_take_of_le hkey)
    · rw [hmode]
      exact std.blockSize_tripleDES _
  · have hkey : 16 ≤ input.cipheringKey.length := by rw [hmode] at hkey; exact hkey
    rw [hmode, if_pos rfl, encryptionCipher, if_pos rfl]
    -- The longest prefix that is an AES key is taken.
    have htake : ∀ n, n = 16 ∨ n = 24 ∨ n = 32 → n ≤ input.cipheringKey.length →
        ∃ block, std.newAES (input.cipheringKey.take n) = .ok block ∧ block.blockSize = 16 := by
      intro n hn hle
      refine ⟨std.aes (input.cipheringKey.take n), ?_, std.blockSize_aes _⟩
      rw [StdCiphers.newAES, if_pos]
      rw [length_take]
      omega
    by_cases h32 : 32 ≤ input.cipheringKey.length
    · rw [if_pos h32]
      exact htake 32 (by decide) h32
    · rw [if_neg h32]
      by_cases h24 : 24 ≤ input.cipheringKey.length
      · rw [if_pos h24]
        exact htake 24 (by decide) h24
      · rw [if_neg h24, if_pos hkey]
        exact htake 16 (by decide) hkey

private theorem length_desMac (key data : Bytes) :
    (cbcMac (std.des key) (replicate 8 0) data).length = 8 := by
  rw [length_cbcMac, std.blockSize_des]
  rw [length_replicate, std.blockSize_des]

private theorem length_retail (key key' : Bytes) {mac : Bytes} (hmac : mac.length = 8) :
    ((std.des key).encrypt ((std.des key').decrypt mac)).length = 8 := by
  rw [(std.des key).length_encrypt, std.blockSize_des]
  rw [(std.des key').length_decrypt, std.blockSize_des, std.blockSize_des]
  rw [hmac, std.blockSize_des]

theorem exists_computeRetailMACDES (h : 8 ≤ key.length) (data : Bytes) :
    ∃ mac, computeRetailMACDES std key data = .ok mac ∧ mac.length = 8 := by
  rw [computeRetailMACDES, if_neg (by omega), newDES_eq_ok (length_take_of_le h)]
  exact ⟨_, rfl, length_desMac _ _⟩

theorem exists_computeRetailMAC3DES2Keys (h : 16 ≤ key.length) (data : Bytes) :
    ∃ mac, computeRetailMAC3DES2Keys std key data = .ok mac ∧ mac.length = 8 := by
  rw [computeRetailMAC3DES2Keys, if_neg (by omega),
    newDES_eq_ok (length_take_of_le (show 8 ≤ key.length by omega)), newDES_eq_ok (length_subkey h)]
  exact ⟨_, rfl, length_retail _ _ (length_desMac _ _)⟩

theorem exists_computeRetailMAC3DES3Keys (h : 24 ≤ key.length) (data : Bytes) :
    ∃ mac, computeRetailMAC3DES3Keys std key data = .ok mac ∧ mac.length = 8 := by
  rw [computeRetailMAC3DES3Keys, if_neg (by omega),
    newDES_eq_ok (length_take_of_le (show 8 ≤ key.length by omega)),
    newDES_eq_ok (length_subkey (i := 8) (j := 16) (by omega)), newDES_eq_ok (length_subkey h)]
  exact ⟨_, rfl, length_retail _ _ (length_desMac _ _)⟩

theorem exists_computeMAC (std : StdCiphers) (h : Supported sp input) (header data : Bytes) :
    ∃ mac, computeMAC std sp.kidMode input.signingKey header data = .ok mac ∧ mac.length = 8 := by
  have hkey := h.signingKey
  rcases h.kid with hmode | hmode | hmode
  · rw [hmode] at hkey ⊢
    exact exists_computeRetailMACDES hkey _
  · rw [hmode] at hkey ⊢
    exact exists_computeRetailMAC3DES2Keys hkey _
  · rw [hmode] at hkey ⊢
    exact exists_computeRetailMAC3DES3Keys hkey _

theorem exists_commandSignature (h : Supported sp input) (header padded : Bytes) :
    ∃ signature, commandSignature std none sp input.signingKey input.cardID header padded
      = .ok signature := by
  rcases h.cert with hcert | hcert | hcert
  · exact ⟨_, by rw [commandSignature, hcert]; rfl⟩
  · exact ⟨_, if_pos hcert⟩
  · obtain ⟨mac, hmac, hlength⟩ := exists_computeMAC std h header padded
    have hsigLen : sp.signatureLength = 8 := by rw [SecurityProfile.signatureLength, hcert]; rfl
    rw [commandSignature, if_neg (by rw [hcert]; decide), if_pos hcert]
    simp only [hmac]
    refine ⟨mac.take sp.signatureLength, bind_eq_ok.mpr ⟨mac, rfl, if_neg ?_⟩⟩
    omega

theorem exists_secure_iff (std : StdCiphers) (h : Supported sp input) (plain : Bytes) :
    (∃ secured, secure std none sp input plain = .ok secured)
      ↔ plain.length % sp.cipherBlockSize = 0 := by
  obtain ⟨block, hblock, hsize⟩ := exists_encryptionCipher std h
  simp only [secure, if_pos h.ciphered, mapError_eq_ok, encryptData, bind_eq_ok, hblock,
    Except.ok.injEq, ← hsize]
  constructor
  · rintro ⟨secured, a, rfl, ha⟩
    by_contra hne
    rw [if_pos hne] at ha
    cases ha
  · intro haligned
    exact ⟨_, block, rfl, if_neg (not_not.mpr haligned)⟩

/-- Whether checksum and padded data are whole blocks is up to the checksum. -/
private theorem secured_aligned_iff {signature : Bytes} {userData : Bytes}
    (hciphered : sp.ciphered = true) (hlength : signature.length = sp.signatureLength) :
    (signature ++ (paddedUserData sp userData).1).length % sp.cipherBlockSize = 0
      ↔ sp.signatureLength % sp.cipherBlockSize = 0 := by
  have hpadded := length_paddedUserData_mod sp userData hciphered
  rw [length_append, hlength, Nat.add_mod, hpadded, Nat.add_zero, Nat.mod_mod]

private theorem signature_aligned_iff (hcert : sp.certMode = certNone ∨ sp.certMode = certRC ∨
    sp.certMode = certCC) : sp.signatureLength % sp.cipherBlockSize = 0
      ↔ sp.certMode = certNone ∨ (sp.certMode = certCC ∧ sp.kicMode ≠ cipherAESCBC) := by
  unfold SecurityProfile.signatureLength SecurityProfile.cipherBlockSize
  rcases hcert with hcert | hcert | hcert <;> rw [hcert] <;>
    by_cases haes : sp.kicMode = cipherAESCBC <;> simp [haes, certNone, certRC, certCC]

/-- **Which supported packets can be built.** With a ciphered profile, named modes and long enough
keys, a packet is built exactly without a checksum, or with a cryptographic one under a cipher of
eight-octet blocks. In all other cases `encryptData` refuses the data as not aligned, whatever the
user data. -/
theorem buildCommandPacket_succeeds_iff (std : StdCiphers) (sp : SecurityProfile)
    (input : CommandPacketInput) (h : Supported sp input) :
    (∃ packet, buildCommandPacket std none sp input = .ok packet)
      ↔ sp.certMode = certNone ∨ (sp.certMode = certCC ∧ sp.kicMode ≠ cipherAESCBC) := by
  rw [← signature_aligned_iff h.cert]
  constructor
  · rintro ⟨packet, hbuild⟩
    obtain ⟨signature, secured, hsignature, hsecured, -⟩ := buildCommandPacket_eq_ok.mp hbuild
    have haligned := (exists_secure_iff std h _).mp ⟨secured, hsecured⟩
    exact (secured_aligned_iff h.ciphered (length_commandSignature hsignature)).mp haligned
  · intro haligned
    obtain ⟨signature, hsignature⟩ := exists_commandSignature h (commandHeader sp input)
      (paddedUserData sp input.userData).1
    obtain ⟨secured, hsecured⟩ := (exists_secure_iff std h _).mpr
      ((secured_aligned_iff h.ciphered (length_commandSignature hsignature)).mpr haligned)
    exact ⟨_, buildCommandPacket_eq_ok.mpr ⟨signature, secured, hsignature, hsecured, rfl⟩⟩

/-- A cryptographic checksum under a cipher of eight-octet blocks. -/
theorem buildCommandPacket_succeeds_mac :
    Supported (cipheredProfile certCC cipher3DESCBC2Keys) (keyedInput [1]) ∧
      ∃ packet, buildCommandPacket maskCiphers none (cipheredProfile certCC cipher3DESCBC2Keys)
        (keyedInput [1]) = .ok packet := by
  have hsupported : Supported (cipheredProfile certCC cipher3DESCBC2Keys) (keyedInput [1]) :=
    ⟨by decide, rfl, by decide, by decide, by decide, by decide⟩
  exact ⟨hsupported, (buildCommandPacket_succeeds_iff maskCiphers _ _ hsupported).mpr (by decide)⟩

/-- A redundancy check is four octets, so with it the secured data is never whole blocks. -/
theorem buildCommandPacket_fails_rc :
    Supported (cipheredProfile certRC cipher3DESCBC2Keys) (keyedInput [1]) ∧
      buildCommandPacket maskCiphers none (cipheredProfile certRC cipher3DESCBC2Keys)
        (keyedInput [1]) = .error
          "gsm0348: encrypt data: gsm0348: data length 12 is not a multiple of block size 8" :=
  ⟨⟨by decide, rfl, by decide, by decide, by decide, by decide⟩, rfl⟩

end OtaPlatform
