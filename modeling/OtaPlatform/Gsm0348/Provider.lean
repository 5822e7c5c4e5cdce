import OtaPlatform.Gsm0348.CommandPacket

/-!
# Packets built through a crypto provider

With a crypto provider, `BuildCommandPacket` pads the checksum input itself and asks the provider by
the name of the mode; with raw keys, `computeMAC` pads and the mode is used directly. A provider
that maps the name back and computes with the same keys gives the same packet, or the same error
(`buildCommandPacket_provider`).

The point is that padding is idempotent: the provider pads again what was padded.
-/

namespace OtaPlatform

/-- One of the four modes that have a name. -/
def IsNamedMode (mode : CipherMode) : Prop :=
  mode = cipherDESCBC ∨ mode = cipher3DESCBC2Keys ∨ mode = cipher3DESCBC3Keys ∨ mode = cipherAESCBC

/-- The provider maps the name of a mode back and computes with the keys. -/
structure CryptoProvider.Delegates (p : CryptoProvider) (std : StdCiphers)
    (signingKey cipheringKey : Bytes) : Prop where
  computeMAC : ∀ cardID algo mode data, IsNamedMode mode →
    p.computeMAC cardID algo (cipherModeName mode) data
      = OtaPlatform.computeMAC std mode signingKey [] data
  encrypt : ∀ cardID algo mode data, IsNamedMode mode →
    p.encrypt cardID algo (cipherModeName mode) data = encryptData std mode cipheringKey data

/-! ## Padding twice -/

theorem length_macInput_mod (header data : Bytes) : (macInput header data).length % 8 = 0 := by
  rw [macInput]
  simp only [List.length_append, List.length_replicate]
  split_ifs <;> omega

theorem providerMACInput_eq (header data : Bytes) :
    providerMACInput header data = macInput header data := by
  rw [providerMACInput, macInput]
  simp only [List.length_append]
  by_cases hrem : (header.length + data.length) % 8 = 0
  · rw [if_neg (not_not.mpr hrem), if_pos hrem, List.replicate_zero, List.append_nil]
  · rw [if_pos hrem, if_neg hrem]

theorem macInput_nil_of_mod {data : Bytes} (h : data.length % 8 = 0) : macInput [] data = data := by
  rw [macInput]
  simp [h]

theorem computeMAC_macInput (std : StdCiphers) (mode : CipherMode) (key header data : Bytes) :
    computeMAC std mode key [] (macInput header data) = computeMAC std mode key header data := by
  rw [computeMAC, macInput_nil_of_mod (length_macInput_mod header data), computeMAC]

/-! ## The packet -/

section Packet

variable {std : StdCiphers} {p : CryptoProvider} {sp : SecurityProfile}
  {signingKey cipheringKey : Bytes}

theorem commandSignature_provider (hp : p.Delegates std signingKey cipheringKey)
    (hkid : IsNamedMode sp.kidMode) (key : Bytes) (cardID cardID' : Option UUID)
    (header padded : Bytes) : commandSignature std (some p) sp key cardID header padded
      = commandSignature std none sp signingKey cardID' header padded := by
  simp only [commandSignature]
  rw [hp.computeMAC _ _ _ _ hkid, providerMACInput_eq, computeMAC_macInput]

theorem secure_provider (hp : p.Delegates std signingKey cipheringKey)
    (hkic : IsNamedMode sp.kicMode) (input input' : CommandPacketInput)
    (hkey : input'.cipheringKey = cipheringKey) (plain : Bytes) :
    secure std (some p) sp input plain = secure std none sp input' plain := by
  simp only [secure]
  rw [hp.encrypt _ _ _ _ hkic, hkey]

end Packet

/-- **The provider path equals the raw-key path.** A provider that delegates to the keys of the
input builds the packet that the keys build, whatever keys and card its own input carries. -/
theorem buildCommandPacket_provider (std : StdCiphers) (sp : SecurityProfile)
    (input : CommandPacketInput) (p : CryptoProvider)
    (hkic : IsNamedMode sp.kicMode) (hkid : IsNamedMode sp.kidMode)
    (hp : p.Delegates std input.signingKey input.cipheringKey)
    (cipheringKey signingKey : Bytes) (cardID : Option UUID) :
    buildCommandPacket std (some p) sp { input with cipheringKey, signingKey, cardID }
      = buildCommandPacket std none sp input := by
  rw [buildCommandPacket, buildCommandPacket,
    commandSignature_provider hp hkid signingKey cardID input.cardID]
  simp only [secure_provider hp hkic _ input rfl]
  rfl

/-! ## A provider in software -/

def mapCipherMode (name : String) : CipherMode :=
  if name.toUpper ∈ ["DES_CBC", "DES"] then cipherDESCBC
  else if name.toUpper ∈ ["TRIPLE_DES_CBC_2_KEYS", "3DES_CBC_2_KEYS", "3DES_2_KEYS"] then
    cipher3DESCBC2Keys
  else if name.toUpper ∈ ["TRIPLE_DES_CBC_3_KEYS", "3DES_CBC_3_KEYS", "3DES_3_KEYS"] then
    cipher3DESCBC3Keys
  else if name.toUpper ∈ ["AES_CBC", "AES"] then cipherAESCBC
  else cipherDESCBC

/-- A provider that computes with the keys it is given. -/
def softwareProvider (std : StdCiphers) (signingKey cipheringKey : Bytes) : CryptoProvider where
  computeMAC _ _ mode data := computeMAC std (mapCipherMode mode) signingKey [] data
  encrypt _ _ mode data := encryptData std (mapCipherMode mode) cipheringKey data

theorem mapCipherMode_cipherModeName {mode : CipherMode} (h : IsNamedMode mode) :
    mapCipherMode (cipherModeName mode) = mode := by
  rcases h with rfl | rfl | rfl | rfl <;> decide +kernel

theorem delegates_softwareProvider (std : StdCiphers) (signingKey cipheringKey : Bytes) :
    (softwareProvider std signingKey cipheringKey).Delegates std signingKey cipheringKey where
  computeMAC cardID algo mode data hmode := by
    change computeMAC std (mapCipherMode (cipherModeName mode)) signingKey [] data = _
    rw [mapCipherMode_cipherModeName hmode]
  encrypt cardID algo mode data hmode := by
    change encryptData std (mapCipherMode (cipherModeName mode)) cipheringKey data = _
    rw [mapCipherMode_cipherModeName hmode]

/-- Seven octets, checked and ciphered with two-key triple DES. -/
theorem buildCommandPacket_provider_seven :
    let input := keyedInput [0xA0, 0xA4, 0x00, 0x00, 0x02, 0x3F, 0x00]
    buildCommandPacket maskCiphers
        (some (softwareProvider maskCiphers input.signingKey input.cipheringKey))
        (cipheredProfile certCC cipher3DESCBC2Keys)
        { input with cipheringKey := [], signingKey := [], cardID := none }
      = buildCommandPacket maskCiphers none (cipheredProfile certCC cipher3DESCBC2Keys) input :=
  buildCommandPacket_provider maskCiphers (cipheredProfile certCC cipher3DESCBC2Keys) _ _
    (Or.inr (Or.inl rfl)) (Or.inr (Or.inl rfl)) (delegates_softwareProvider _ _ _) [] [] none

end OtaPlatform
