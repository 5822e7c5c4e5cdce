import OtaPlatform.Crypto.Cbc
import OtaPlatform.Gsm0348.Types

/-!
# Building command packets

A command packet is

    CPL(2) CHL(1) SPI(2) KIc(1) KID(1) TAR(3) CNTR(5) PCNTR(1) secured data

where the secured data is the checksum followed by the padded user data, ciphered if the profile
says so. The packet is built with raw keys or through a crypto provider that holds them.

## The block ciphers

DES, triple DES and AES are those of the standard library. `StdCiphers` is what is used of them:
for every key a block cipher of the right block size. A constructor refuses a key of the wrong
length, as the library's do.
-/

namespace OtaPlatform

open List Crypto

/-! ## Ciphers -/

/-- The block ciphers of the standard library, by key. -/
structure StdCiphers where
  des : Bytes → BlockCipher UInt8
  tripleDES : Bytes → BlockCipher UInt8
  aes : Bytes → BlockCipher UInt8
  blockSize_des : ∀ key, (des key).blockSize = 8
  blockSize_tripleDES : ∀ key, (tripleDES key).blockSize = 8
  blockSize_aes : ∀ key, (aes key).blockSize = 16

namespace StdCiphers

variable (std : StdCiphers)

def newDES (key : Bytes) : Except String (BlockCipher UInt8) :=
  if key.length = 8 then .ok (std.des key)
  else .error ("crypto/des: invalid key size " ++ toString key.length)

def newTripleDES (key : Bytes) : Except String (BlockCipher UInt8) :=
  if key.length = 24 then .ok (std.tripleDES key)
  else .error ("crypto/des: invalid key size " ++ toString key.length)

def newAES (key : Bytes) : Except String (BlockCipher UInt8) :=
  if key.length = 16 ∨ key.length = 24 ∨ key.length = 32 then .ok (std.aes key)
  else .error ("crypto/aes: invalid key size " ++ toString key.length)

end StdCiphers

/-- A holder of keys that computes checksums and ciphers without giving the keys away. The
arguments are the card, the names of the algorithm and of the mode, and the data. -/
structure CryptoProvider where
  computeMAC : Option UUID → String → String → Bytes → Except String Bytes
  encrypt : Option UUID → String → String → Bytes → Except String Bytes

def algoName (algo : UInt8) : String := if algo = 0x02 then "AES" else "DES"

def cipherModeName (mode : CipherMode) : String :=
  if mode = cipherDESCBC then "DES_CBC"
  else if mode = cipher3DESCBC2Keys then "TRIPLE_DES_CBC_2_KEYS"
  else if mode = cipher3DESCBC3Keys then "TRIPLE_DES_CBC_3_KEYS"
  else if mode = cipherAESCBC then "AES_CBC"
  else "DES_CBC"

/-! ## Header octets -/

namespace SecurityProfile

variable (sp : SecurityProfile)

/-- Checksum mode in bits 0 and 1, ciphering in bit 2, counter mode in bits 3 and 4. -/
def encodeSPI1 : UInt8 :=
  (sp.certMode &&& (0x03 : UInt8)) ||| (if sp.ciphered then (0x04 : UInt8) else 0) |||
    ((sp.counterMode &&& (0x03 : UInt8)) <<< 3)

/-- Response mode in bits 0 and 1, its checksum mode in bits 2 and 3, its ciphering in bit 4, its
protocol in bits 5 and 6. -/
def encodeSPI2 : UInt8 :=
  (sp.porMode &&& (0x03 : UInt8)) ||| ((sp.porCertMode &&& (0x03 : UInt8)) <<< 2) |||
    (if sp.porCiphered then (0x10 : UInt8) else 0) ||| ((sp.porProtocol &&& (0x03 : UInt8)) <<< 5)

/-- The ciphering key: algorithm in bits 0 and 1, mode in bits 2 and 3, key set in bits 4 to 6. -/
def encodeKIc : UInt8 :=
  (sp.kicAlgo &&& (0x03 : UInt8)) ||| ((sp.kicMode &&& (0x03 : UInt8)) <<< 2) |||
    ((sp.kicKeysetID &&& (0x07 : UInt8)) <<< 4)

/-- The signing key, with the bits of `encodeKIc`. -/
def encodeKID : UInt8 :=
  (sp.kidAlgo &&& (0x03 : UInt8)) ||| ((sp.kidMode &&& (0x03 : UInt8)) <<< 2) |||
    ((sp.kidKeysetID &&& (0x07 : UInt8)) <<< 4)

def signatureLength : ℕ :=
  if sp.certMode = certNone then 0
  else if sp.certMode = certRC then 4
  else if sp.certMode = certCC then 8
  else 0

/-- The block size the user data is padded to. -/
def cipherBlockSize : ℕ := if sp.kicMode = cipherAESCBC then 16 else 8

end SecurityProfile

/-- Pads with zeros to a multiple of the block size; also the number of octets added. Empty data
becomes one whole block. -/
def padData (data : Bytes) (blockSize : ℕ) : Bytes × UInt8 :=
  if data.length = 0 then (replicate blockSize 0, UInt8.ofNat blockSize)
  else
    let remainder := data.length % blockSize
    if remainder = 0 then (data, 0)
    else (data ++ replicate (blockSize - remainder) 0, UInt8.ofNat (blockSize - remainder))

/-! ## Checksums -/

/-- Adds octets into the check, cyclically, from the position `i` on. -/
def crcLoop (length : ℕ) : ℕ → Bytes → Bytes → Bytes
  | _, [], crc => crc
  | i, b :: rest, crc => crcLoop length (i + 1) rest (crc.modify (i % length) (· ^^^ b))

/-- The redundancy check over header and data. -/
def computeCRC (header data : Bytes) (length : ℕ) : Bytes :=
  crcLoop length header.length data (crcLoop length 0 header (replicate length 0))

/-- The buffer of `computeMAC`: header and data, zero-padded to whole blocks of eight octets. -/
def macInput (header data : Bytes) : Bytes :=
  let total := header.length + data.length
  header ++ data ++ replicate (if total % 8 = 0 then 0 else 8 - total % 8) 0

/-- What a provider computes the checksum over: header and data, and zeros if the last block is not
full. -/
def providerMACInput (header data : Bytes) : Bytes :=
  let joined := header ++ data
  if joined.length % 8 ≠ 0 then joined ++ replicate (8 - joined.length % 8) 0 else joined

section Macs

variable (std : StdCiphers)

def computeRetailMACDES (key data : Bytes) : Except String Bytes :=
  if key.length < 8 then
    .error ("gsm0348: DES key must be at least 8 bytes, got " ++ toString key.length)
  else do
    let block ← std.newDES (key.take 8)
    return cbcMac block (replicate 8 0) data

/-- The retail checksum with two keys: chain with the first, decrypt with the second, encrypt with
the first. -/
def computeRetailMAC3DES2Keys (key data : Bytes) : Except String Bytes :=
  if key.length < 16 then
    .error ("gsm0348: 3DES-2-key MAC requires 16-byte key, got " ++ toString key.length)
  else do
    let block1 ← std.newDES (key.take 8)
    let mac := cbcMac block1 (replicate 8 0) data
    let block2 ← std.newDES ((key.take 16).drop 8)
    return block1.encrypt (block2.decrypt mac)

/-- The retail checksum with three keys: the last step encrypts with the third. -/
def computeRetailMAC3DES3Keys (key data : Bytes) : Except String Bytes :=
  if key.length < 24 then
    .error ("gsm0348: 3DES-3-key MAC requires 24-byte key, got " ++ toString key.length)
  else do
    let block1 ← std.newDES (key.take 8)
    let mac := cbcMac block1 (replicate 8 0) data
    let block2 ← std.newDES ((key.take 16).drop 8)
    let block3 ← std.newDES ((key.take 24).drop 16)
    return block3.encrypt (block2.decrypt mac)

/-- The cryptographic checksum over header and data. -/
def computeMAC (mode : CipherMode) (key header data : Bytes) : Except String Bytes :=
  let input := macInput header data
  if mode = cipherDESCBC then computeRetailMACDES std key input
  else if mode = cipher3DESCBC2Keys then computeRetailMAC3DES2Keys std key input
  else if mode = cipher3DESCBC3Keys then computeRetailMAC3DES3Keys std key input
  else .error ("gsm0348: unsupported MAC cipher mode: " ++ toString mode.toNat)

end Macs

/-! ## Encryption -/

section Encryption

variable (std : StdCiphers)

/-- The block cipher `encryptData` makes of a mode and a key. -/
def encryptionCipher (mode : CipherMode) (key : Bytes) : Except String (BlockCipher UInt8) :=
  if mode = cipherAESCBC then
    if 32 ≤ key.length then std.newAES (key.take 32)
    else if 24 ≤ key.length then std.newAES (key.take 24)
    else if 16 ≤ key.length then std.newAES (key.take 16)
    else .error ("gsm0348: AES key must be at least 16 bytes, got " ++ toString key.length)
  else if mode = cipherDESCBC then
    if key.length < 8 then .error "gsm0348: DES key must be at least 8 bytes"
    else std.newDES (key.take 8)
  else if mode = cipher3DESCBC2Keys then
    if key.length < 16 then
      .error ("gsm0348: 3DES-2-key requires 16-byte key, got " ++ toString key.length)
    -- K1|K2 is used as K1|K2|K1.
    else std.newTripleDES (key.take 16 ++ key.take 8)
  else if mode = cipher3DESCBC3Keys then
    if key.length < 24 then
      .error ("gsm0348: 3DES-3-key requires 24-byte key, got " ++ toString key.length)
    else std.newTripleDES (key.take 24)
  else .error ("gsm0348: unsupported encryption cipher mode: " ++ toString mode.toNat)

/-- Encrypts whole blocks under the zero initial value. -/
def encryptData (mode : CipherMode) (key data : Bytes) : Except String Bytes := do
  let block ← encryptionCipher std mode key
  if data.length % block.blockSize ≠ 0 then
    .error ("gsm0348: data length " ++ toString data.length ++ " is not a multiple of block size "
      ++ toString block.blockSize)
  else .ok (cbcEncrypt block (replicate block.blockSize 0) data)

end Encryption

/-! ## The packet -/

section Packet

variable (std : StdCiphers) (provider : Option CryptoProvider) (sp : SecurityProfile)

/-- The user data as it is secured, and the padding counter. -/
def paddedUserData (userData : Bytes) : Bytes × UInt8 :=
  if sp.ciphered then padData userData sp.cipherBlockSize else (userData, 0)

/-- The thirteen octets from SPI to PCNTR. -/
def commandHeader (input : CommandPacketInput) : Bytes :=
  [sp.encodeSPI1, sp.encodeSPI2] ++ [sp.encodeKIc] ++ [sp.encodeKID] ++ input.tar ++
    input.counter ++ [(paddedUserData sp input.userData).2]

/-- The checksum over header and padded data, by the mode of the profile. -/
def commandSignature (signingKey : Bytes) (cardID : Option UUID) (header padded : Bytes) :
    Except String Bytes :=
  if sp.certMode = certRC then .ok (computeCRC header padded sp.signatureLength)
  else if sp.certMode = certCC then do
    let computed := match provider with
      | some p =>
        p.computeMAC cardID (algoName sp.kidAlgo) (cipherModeName sp.kidMode)
          (providerMACInput header padded)
      | none => computeMAC std sp.kidMode signingKey header padded
    let mac ← computed.mapError ("gsm0348: compute MAC: " ++ ·)
    -- The slice of the first octets panics on a shorter checksum.
    if mac.length < sp.signatureLength then .error "runtime error: slice bounds out of range"
    else .ok (mac.take sp.signatureLength)
  else if sp.certMode = certDS then
    .error "gsm0348: digital signature (DS) mode not implemented"
  else .ok (replicate sp.signatureLength 0)

/-- Checksum and padded data, ciphered if the profile says so. -/
def secure (input : CommandPacketInput) (plain : Bytes) : Except String Bytes :=
  if sp.ciphered then
    let encrypted := match provider with
      | some p => p.encrypt input.cardID (algoName sp.kicAlgo) (cipherModeName sp.kicMode) plain
      | none => encryptData std sp.kicMode input.cipheringKey plain
    encrypted.mapError ("gsm0348: encrypt data: " ++ ·)
  else .ok plain

def buildCommandPacket (input : CommandPacketInput) : Except String Bytes := do
  let chl := UInt8.ofNat (13 + sp.signatureLength)
  let padded := (paddedUserData sp input.userData).1
  let header := commandHeader sp input
  let signature ← commandSignature std provider sp input.signingKey input.cardID header padded
  let securedData ← secure std provider sp input (signature ++ padded)
  let cpl := 1 + header.length + securedData.length
  return [UInt8.ofNat (cpl >>> 8), UInt8.ofNat (cpl &&& 0xFF)] ++ [chl] ++ header ++ securedData

end Packet

end OtaPlatform
