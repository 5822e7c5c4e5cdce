import OtaPlatform.Gsm0348.CommandPacket

/-!
# Response packets

A response packet is

    RPL(2) RHL(1) TAR(3) CNTR(5) PCNTR(1) status(1) signature data

and the data is decrypted if the profile says that responses are ciphered.

`decryptData` is written apart from `encryptData`, with a key selection of its own. The two agree on
DES and triple DES, and there decryption inverts encryption; AES is known to `encryptData` only
(`decryptData_encryptData_iff`).
-/

namespace OtaPlatform

open List Crypto

/-! ## Decryption -/

section Decryption

variable (std : StdCiphers)

/-- The block cipher `decryptData` makes of a mode and a key. -/
def decryptionCipher (mode : CipherMode) (key : Bytes) : Except String (BlockCipher UInt8) :=
  if mode = cipherDESCBC then
    if key.length < 8 then .error "gsm0348: DES key must be at least 8 bytes"
    else std.newDES (key.take 8)
  else if mode = cipher3DESCBC2Keys then
    if key.length < 16 then
      .error ("gsm0348: 3DES-2-key requires 16-byte key, got " ++ toString key.length)
    else std.newTripleDES (key.take 16 ++ key.take 8)
  else if mode = cipher3DESCBC3Keys then
    if key.length < 24 then
      .error ("gsm0348: 3DES-3-key requires 24-byte key, got " ++ toString key.length)
    else std.newTripleDES (key.take 24)
  else .error ("gsm0348: unsupported decryption cipher mode: " ++ toString mode.toNat)

/-- Decrypts whole blocks under the zero initial value. -/
def decryptData (mode : CipherMode) (key data : Bytes) : Except String Bytes := do
  let block ← decryptionCipher std mode key
  if data.length % block.blockSize ≠ 0 then
    .error ("gsm0348: encrypted data length " ++ toString data.length ++
      " is not a multiple of block size " ++ toString block.blockSize)
  else .ok (cbcDecrypt block (replicate block.blockSize 0) data)

end Decryption

/-! ## Parsing -/

section Parsing

variable (std : StdCiphers) (sp : SecurityProfile)

/-- The data without its padding; a padding counter above the length is ignored. -/
def removePadding (pcntr : UInt8) (data : Bytes) : Bytes :=
  if 0 < pcntr.toNat ∧ pcntr.toNat ≤ data.length then data.take (data.length - pcntr.toNat)
  else data

def responseData (cipherKey data : Bytes) : Except String Bytes :=
  if sp.porCiphered = true ∧ 0 < data.length then
    (decryptData std sp.kicMode cipherKey data).mapError ("gsm0348: decrypt response data: " ++ ·)
  else .ok data

/-- Parses a response packet. The signing key is not used. -/
def parseResponsePacket (raw cipherKey _signKey : Bytes) : Except String ResponsePacket := do
  let octet := fun i ↦ raw.getD i 0
  if raw.length < 2 then .error "gsm0348: response packet too short for RPL"
  let rpl := (octet 0).toNat <<< 8 ||| (octet 1).toNat
  if raw.length < 2 + rpl then
    .error ("gsm0348: response packet truncated: RPL=" ++ toString rpl ++ " but only " ++
      toString (raw.length - 2) ++ " bytes remain")
  if raw.length ≤ 2 then .error "gsm0348: response packet too short for RHL"
  let rhl := (octet 2).toNat
  if raw.length < 3 + 3 then .error "gsm0348: response packet too short for TAR"
  if raw.length < 6 + 5 then .error "gsm0348: response packet too short for CNTR"
  if raw.length ≤ 11 then .error "gsm0348: response packet too short for PCNTR"
  let pcntr := octet 11
  if raw.length ≤ 12 then .error "gsm0348: response packet too short for StatusCode"
  -- a header length below ten means that there is no signature
  let sigLen := rhl - 10
  if 0 < sigLen ∧ raw.length < 13 + sigLen then
    .error "gsm0348: response packet too short for signature"
  let data := (raw.take (2 + rpl)).drop (13 + sigLen)
  let data ← responseData std sp cipherKey data
  return {
    tar := (raw.drop 3).take 3
    counter := (raw.drop 6).take 5
    pcntr
    statusCode := octet 12
    signature := (raw.drop 13).take sigLen
    data := removePadding pcntr data }

end Parsing

/-- The packet layer the executor is built with. -/
def packetLayer (std : StdCiphers) (provider : Option CryptoProvider) : SecuredPackets where
  buildCommandPacket := buildCommandPacket std provider
  parseResponsePacket := parseResponsePacket std

/-! ## Decryption inverts encryption -/

section Inversion

variable {std : StdCiphers} {mode : CipherMode} {key data out : Bytes}

theorem decryptionCipher_of_ne {block : BlockCipher UInt8} (hmode : mode ≠ cipherAESCBC)
    (h : encryptionCipher std mode key = .ok block) :
    decryptionCipher std mode key = .ok block := by
  rw [encryptionCipher, if_neg hmode] at h
  rw [decryptionCipher]
  split_ifs at h ⊢ with hdes hshort htwo hshort hthree hshort
  · exact h
  · exact h
  · exact h

theorem decryptData_aes (std : StdCiphers) (key data : Bytes) :
    decryptData std cipherAESCBC key data
      = .error "gsm0348: unsupported decryption cipher mode: 3" := rfl

theorem decryptData_eq_ok {block : BlockCipher UInt8}
    (hblock : decryptionCipher std mode key = .ok block) : decryptData std mode key out = .ok data ↔
      out.length % block.blockSize = 0 ∧
        cbcDecrypt block (replicate block.blockSize 0) out = data := by
  rw [decryptData, hblock]
  change (if _ then _ else _) = _ ↔ _
  split_ifs with haligned
  · constructor
    · intro h
      cases h
    · intro h
      exact absurd h.1 haligned
  · rw [not_not] at haligned
    rw [Except.ok.injEq, and_iff_right haligned]

end Inversion

/-- **Decryption inverts encryption** exactly in the modes that `decryptData` knows: whatever
`encryptData` returns is decrypted to the data, unless the mode is AES. -/
theorem decryptData_encryptData_iff (std : StdCiphers) (mode : CipherMode) (key data out : Bytes)
    (h : encryptData std mode key data = .ok out) :
    decryptData std mode key out = .ok data ↔ mode ≠ cipherAESCBC := by
  constructor
  · rintro hdecrypt rfl
    rw [decryptData_aes] at hdecrypt
    cases hdecrypt
  · intro hmode
    obtain ⟨block, hblock, hout⟩ := bind_eq_ok.mp h
    split_ifs at hout with haligned
    rw [not_not] at haligned
    obtain rfl := Except.ok.inj hout
    rw [decryptData_eq_ok (decryptionCipher_of_ne hmode hblock)]
    exact ⟨by rw [length_cbcEncrypt haligned, haligned], cbcDecrypt_cbcEncrypt xor_cancel haligned⟩

/-- Sixteen octets under two-key triple DES. -/
theorem decryptData_encryptData_twoKeys :
    decryptData maskCiphers cipher3DESCBC2Keys ((range 16).map UInt8.ofNat)
        (cbcEncrypt (maskCiphers.tripleDES ((range 16).map UInt8.ofNat ++
          (range 8).map UInt8.ofNat)) (replicate 8 0) (replicate 16 7))
      = .ok (replicate 16 7) :=
  (decryptData_encryptData_iff maskCiphers cipher3DESCBC2Keys _ _ _ rfl).mpr (by decide)

/-- With AES, whatever the block cipher is, data is encrypted that cannot be decrypted. -/
theorem exists_encryptData_aes (std : StdCiphers) :
    ∃ out, encryptData std cipherAESCBC (replicate 16 0) (replicate 16 7) = .ok out ∧
      decryptData std cipherAESCBC (replicate 16 0) out ≠ .ok (replicate 16 7) := by
  have hcipher : encryptionCipher std cipherAESCBC (replicate 16 0)
      = .ok (std.aes (replicate 16 0)) := rfl
  refine ⟨cbcEncrypt (std.aes (replicate 16 0)) (replicate 16 0) (replicate 16 7),
    bind_eq_ok.mpr ⟨_, hcipher, ?_⟩, ?_⟩
  · rw [std.blockSize_aes]
    rfl
  · rw [decryptData_aes]
    intro h
    cases h

theorem decryptData_fails_aes :
    ∃ out, encryptData maskCiphers cipherAESCBC (replicate 16 0) (replicate 16 7)
        = .ok out ∧
      decryptData maskCiphers cipherAESCBC (replicate 16 0) out
        ≠ .ok (replicate 16 7) :=
  exists_encryptData_aes maskCiphers

end OtaPlatform
