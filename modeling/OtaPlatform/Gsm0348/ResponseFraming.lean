import OtaPlatform.Gsm0348.Response

/-!
# The frame of a response packet

Three numbers of a response say where its fields end: the packet length, the header length and the
padding counter. This file says what the parser makes of them.

A response that a card sends has a frame by construction, and it is read back exactly, whatever
octets follow it (`parseResponsePacket_responseOctets`).

The parser compares every position with the length of the buffer, never with the packet length, and
takes any header length and padding counter. So a packet that declares fewer octets than its header
has is completed from whatever follows it. `staysInside_iff` says for which inputs this cannot
happen: a proper frame, a packet that is cut short, or data that does not decrypt.
-/

namespace OtaPlatform

open List Crypto

/-! ## What is accepted -/

/-- The packet length, RPL: the number of octets after it. -/
def declaredLength (raw : Bytes) : ℕ := (raw.getD 0 0).toNat <<< 8 ||| (raw.getD 1 0).toNat

/-- The header length, RHL: the number of header octets after it. -/
def headerLength (raw : Bytes) : ℕ := (raw.getD 2 0).toNat

/-- The octets from the end of the signature to the end of the packet. -/
def dataOctets (raw : Bytes) : Bytes :=
  (raw.take (2 + declaredLength raw)).drop (13 + (headerLength raw - 10))

/-- The fields at their places, with the given data in the clear. -/
def responseFields (raw data : Bytes) : ResponsePacket where
  tar := (raw.drop 3).take 3
  counter := (raw.drop 6).take 5
  pcntr := raw.getD 11 0
  statusCode := raw.getD 12 0
  signature := (raw.drop 13).take (headerLength raw - 10)
  data := removePadding (raw.getD 11 0) data

section Accepted

variable {std : StdCiphers} {sp : SecurityProfile} {raw cipherKey signKey : Bytes}
  {packet : ResponsePacket}

/-- A response is accepted if the buffer holds the declared packet and the whole header, and the
data decrypts. -/
theorem parseResponsePacket_eq_ok : parseResponsePacket std sp raw cipherKey signKey = .ok packet ↔
      2 + declaredLength raw ≤ raw.length ∧ 13 + (headerLength raw - 10) ≤ raw.length ∧
        ∃ data, responseData std sp cipherKey (dataOctets raw) = .ok data ∧
          responseFields raw data = packet := by
  rw [parseResponsePacket]
  simp only [guard_eq_ok, bind_eq_ok, not_lt, not_le, not_and]
  constructor
  · rintro ⟨-, hrpl, -, -, -, -, hstatus, hsignature, data, hdata, hpacket⟩
    refine ⟨hrpl, ?_, data, hdata, Except.ok.inj hpacket⟩
    rw [headerLength]
    omega
  · rintro ⟨hrpl, hsignature, data, hdata, rfl⟩
    refine ⟨?_, hrpl, ?_, ?_, ?_, ?_, ?_, fun _ ↦ hsignature, data, hdata, rfl⟩
    all_goals omega

end Accepted

/-! ## The round trip -/

section RoundTrip

variable (std : StdCiphers) (sp : SecurityProfile)

/-- How a card secures the data of a response: not at all, or by chaining with one of the ciphers
for which the parser has a key. -/
inductive SecuredAs (cipherKey plain : Bytes) : Bytes → Prop
  | clear (h : sp.porCiphered = false) : SecuredAs cipherKey plain plain
  | ciphered (block : BlockCipher UInt8) (h : sp.porCiphered = true)
      (hmode : sp.kicMode = cipherDESCBC ∨ sp.kicMode = cipher3DESCBC2Keys ∨
        sp.kicMode = cipher3DESCBC3Keys)
      (hblock : encryptionCipher std sp.kicMode cipherKey = .ok block)
      (haligned : plain.length % block.blockSize = 0) :
      SecuredAs cipherKey plain (cbcEncrypt block (replicate block.blockSize 0) plain)

/-- The octets a card sends for these fields and the secured data. -/
def responseOctets (fields : ResponsePacket) (secured : Bytes) : Bytes :=
  let rpl := 11 + fields.signature.length + secured.length
  [UInt8.ofNat (rpl / 256), UInt8.ofNat (rpl % 256)] ++
    [UInt8.ofNat (10 + fields.signature.length)] ++ fields.tar ++ fields.counter ++
    [fields.pcntr, fields.statusCode] ++ fields.signature ++ secured

variable {std sp}

theorem responseData_of_securedAs {cipherKey plain secured : Bytes}
    (h : SecuredAs std sp cipherKey plain secured) :
    responseData std sp cipherKey secured = .ok plain := by
  cases h with
  | clear hclear =>
    rw [responseData, if_neg]
    rw [hclear]
    intro h
    exact Bool.false_ne_true h.1
  | ciphered block hciphered hmode hblock haligned =>
    have hlength : (cbcEncrypt block (replicate block.blockSize 0) plain).length
        = plain.length := length_cbcEncrypt haligned
    rw [responseData]
    split_ifs with hdata
    · have hne : sp.kicMode ≠ cipherAESCBC := by
        rcases hmode with h | h | h <;> rw [h] <;> decide
      rw [mapError_eq_ok, decryptData_eq_ok (decryptionCipher_of_ne hne hblock)]
      exact ⟨by rw [hlength, haligned], cbcDecrypt_cbcEncrypt xor_cancel haligned⟩
    · -- no data is not decrypted, and nothing is what it was encrypted from
      have hnil : plain.length = 0 := by
        rw [hlength] at hdata
        exact Nat.eq_zero_of_not_pos fun h ↦ hdata ⟨hciphered, h⟩
      rw [eq_nil_of_length_eq_zero (hlength.trans hnil), eq_nil_of_length_eq_zero hnil]

theorem removePadding_append (pcntr : UInt8) (data : Bytes) :
    removePadding pcntr (data ++ replicate pcntr.toNat 0) = data := by
  rw [removePadding, length_append, length_replicate]
  split_ifs with h
  · rw [Nat.add_sub_cancel, take_left]
  · have hzero : pcntr.toNat = 0 := by omega
    rw [hzero, replicate_zero, append_nil]

theorem declaredLength_octets {n : ℕ} (rest : Bytes) (h : n < 65536) :
    declaredLength (UInt8.ofNat (n / 256) :: UInt8.ofNat (n % 256) :: rest) = n := by
  have hlow : n % 256 < 2 ^ 8 := Nat.mod_lt n (by decide)
  rw [declaredLength, getD_cons_zero, getD_cons_succ, getD_cons_zero,
    toNat_ofNat_small (by omega), toNat_ofNat_small hlow, ← Nat.shiftLeft_add_eq_or_of_lt hlow,
    Nat.shiftLeft_eq]
  omega

private theorem fields_octets (hi lo rhl pcntr status : UInt8) (rest : Bytes) :
    ∀ tar counter : Bytes, tar.length = 3 → counter.length = 5 →
      ∀ raw, [hi, lo] ++ [rhl] ++ tar ++ counter ++ [pcntr, status] ++ rest = raw →
        ∃ header : Bytes, header.length = 13 ∧ raw = header ++ rest ∧
          (raw.drop 3).take 3 = tar ∧ (raw.drop 6).take 5 = counter ∧
          raw.getD 11 0 = pcntr ∧ raw.getD 12 0 = status ∧ headerLength raw = rhl.toNat
  | [_, _, _], [_, _, _, _, _], _, _, _, rfl => ⟨_, rfl, rfl, rfl, rfl, rfl, rfl, rfl⟩

end RoundTrip

/-- **A response is read back.** Whatever fields and secured data of a length that fits the length
octets a card sends, and whatever octets follow, the parser returns the fields and the data without
its padding. -/
theorem parseResponsePacket_responseOctets (std : StdCiphers) (sp : SecurityProfile)
    (cipherKey signKey : Bytes) (fields : ResponsePacket) (secured trailing : Bytes)
    (htar : fields.tar.length = 3) (hcounter : fields.counter.length = 5)
    (hsignature : fields.signature.length ≤ 245)
    (hfits : 11 + fields.signature.length + secured.length ≤ 65535)
    (hsecured : SecuredAs std sp cipherKey
      (fields.data ++ replicate fields.pcntr.toNat 0) secured) :
    parseResponsePacket std sp (responseOctets fields secured ++ trailing) cipherKey signKey
      = .ok fields := by
  set rpl := 11 + fields.signature.length + secured.length with hrpl
  generalize hraw : responseOctets fields secured ++ trailing = raw
  have hdeclared : declaredLength raw = rpl := by
    rw [← hraw]
    exact declaredLength_octets _ (by omega)
  rw [responseOctets, append_assoc, append_assoc] at hraw
  obtain ⟨header, hheader, hsplit, hgetTar, hgetCounter, hpcntr, hstatus, hrhl⟩ :=
    fields_octets _ _ _ _ _ _ _ _ htar hcounter raw hraw
  rw [toNat_ofNat_small (by omega)] at hrhl
  have hsigLen : headerLength raw - 10 = fields.signature.length := by omega
  have hafter : raw.drop 13 = fields.signature ++ (secured ++ trailing) := by
    rw [hsplit, ← hheader, drop_left]
  have hlength : raw.length = 13 + (fields.signature ++ (secured ++ trailing)).length := by
    rw [hsplit, length_append, hheader]
  have hdata : dataOctets raw = secured := by
    rw [dataOctets, hsigLen, hdeclared, drop_take, ← drop_drop, hafter, drop_left,
      show 2 + rpl - (13 + fields.signature.length) = secured.length by omega, take_left]
  simp only [length_append] at hlength
  rw [parseResponsePacket_eq_ok, hdata, hsigLen, hdeclared]
  refine ⟨by omega, by omega, _, responseData_of_securedAs hsecured, ?_⟩
  rw [responseFields, hgetTar, hgetCounter, hpcntr, hstatus, hsigLen, hafter, take_left,
    removePadding_append]

/-- A profile whose responses are ciphered with two-key triple DES. -/
def cipheredResponses : SecurityProfile :=
  { cipheredProfile certCC cipher3DESCBC2Keys with porCiphered := true }

/-- A response with a checksum of eight octets and five octets of data, padded to a block. -/
def paddedResponse : ResponsePacket where
  tar := [0xB0, 0x00, 0x10]
  counter := [0, 0, 0, 0, 7]
  pcntr := 3
  statusCode := 0
  signature := replicate 8 0xCC
  data := [1, 2, 3, 4, 5]

/-- The padded response, ciphered and followed by two octets. -/
theorem parseResponsePacket_responseOctets_padded :
    parseResponsePacket maskCiphers cipheredResponses
        (responseOctets paddedResponse
          (cbcEncrypt (maskCiphers.tripleDES ((range 16).map UInt8.ofNat ++
            (range 8).map UInt8.ofNat)) (replicate 8 0) [1, 2, 3, 4, 5, 0, 0, 0])
          ++ [0xFF, 0xFF])
        ((range 16).map UInt8.ofNat) []
      = .ok paddedResponse :=
  parseResponsePacket_responseOctets maskCiphers cipheredResponses _ _ paddedResponse _ _
    rfl rfl (by decide) (by decide)
    (.ciphered (maskCiphers.tripleDES _) rfl (.inr (.inl rfl)) rfl rfl)

/-! ## Inside the packet -/

section Prefixes

variable {std : StdCiphers} {sp : SecurityProfile} {raw cipherKey signKey : Bytes} {n : ℕ}

private theorem getD_take {i : ℕ} (h : i < n) : (raw.take n).getD i 0 = raw.getD i 0 := by
  rw [getD_eq_getElem?_getD, getD_eq_getElem?_getD, getElem?_take_of_lt h]

theorem declaredLength_take (h : 2 ≤ n) : declaredLength (raw.take n) = declaredLength raw := by
  rw [declaredLength, declaredLength, getD_take (by omega), getD_take (by omega)]

theorem headerLength_take (h : 3 ≤ n) : headerLength (raw.take n) = headerLength raw := by
  rw [headerLength, headerLength, getD_take (by omega)]

theorem dataOctets_take (h : 3 ≤ n) (hraw : 2 + declaredLength raw ≤ n) :
    dataOctets (raw.take n) = dataOctets raw := by
  rw [dataOctets, dataOctets, declaredLength_take (by omega), headerLength_take h, take_take,
    Nat.min_eq_left hraw]

theorem responseFields_take (data : Bytes) (h : 13 + (headerLength raw - 10) ≤ n) :
    responseFields (raw.take n) data = responseFields raw data := by
  rw [responseFields, responseFields, headerLength_take (by omega), getD_take (by omega),
    getD_take (by omega)]
  simp only [drop_take, take_take]
  rw [Nat.min_eq_left (by omega), Nat.min_eq_left (by omega), Nat.min_eq_left (by omega)]

theorem parseResponsePacket_take {packet : ResponsePacket}
    (hheader : 13 + (headerLength raw - 10) ≤ 2 + declaredLength raw)
    (hraw : 2 + declaredLength raw ≤ raw.length) :
    parseResponsePacket std sp (raw.take (2 + declaredLength raw)) cipherKey signKey = .ok packet ↔
      parseResponsePacket std sp raw cipherKey signKey = .ok packet := by
  rw [parseResponsePacket_eq_ok, parseResponsePacket_eq_ok, declaredLength_take (by omega),
    headerLength_take (by omega), dataOctets_take (by omega) le_rfl, length_take_of_le hraw]
  simp only [responseFields_take _ hheader, le_refl, true_and, hheader, hraw, hheader.trans hraw]

end Prefixes

/-- The frame of a packet: a header of at least the fixed fields, the header inside the packet, and
no more padding than there is data. -/
structure WellFramed (raw : Bytes) : Prop where
  fixed : 10 ≤ headerLength raw
  header : 1 + headerLength raw ≤ declaredLength raw
  padding : (raw.getD 11 0).toNat ≤ declaredLength raw - (1 + headerLength raw)

/-- The mode is one that can be decrypted, and the key is long enough for it. -/
def HasDecryptionKey (mode : CipherMode) (key : Bytes) : Prop :=
  mode = cipherDESCBC ∧ 8 ≤ key.length ∨ mode = cipher3DESCBC2Keys ∧ 16 ≤ key.length ∨
    mode = cipher3DESCBC3Keys ∧ 24 ≤ key.length

section Decryptable

variable {std : StdCiphers} {mode : CipherMode} {key out : Bytes} {block : BlockCipher UInt8}

private theorem blockSize_of_newDES (h : std.newDES key = .ok block) : block.blockSize = 8 := by
  rw [StdCiphers.newDES] at h
  split_ifs at h
  cases h
  exact std.blockSize_des _

private theorem blockSize_of_newTripleDES (h : std.newTripleDES key = .ok block) :
    block.blockSize = 8 := by
  rw [StdCiphers.newTripleDES] at h
  split_ifs at h
  cases h
  exact std.blockSize_tripleDES _

/-- There is a cipher only with a key, and its blocks are of eight octets. -/
theorem hasDecryptionKey_of_cipher (h : decryptionCipher std mode key = .ok block) :
    HasDecryptionKey mode key ∧ block.blockSize = 8 := by
  rw [decryptionCipher] at h
  split_ifs at h with hdes hshort htwo hshort hthree hshort
  · exact ⟨.inl ⟨hdes, not_lt.mp hshort⟩, blockSize_of_newDES h⟩
  · exact ⟨.inr (.inl ⟨htwo, not_lt.mp hshort⟩), blockSize_of_newTripleDES h⟩
  · exact ⟨.inr (.inr ⟨hthree, not_lt.mp hshort⟩), blockSize_of_newTripleDES h⟩

theorem exists_decryptionCipher (h : HasDecryptionKey mode key) :
    ∃ block, decryptionCipher std mode key = .ok block := by
  rcases h with ⟨rfl, hkey⟩ | ⟨rfl, hkey⟩ | ⟨rfl, hkey⟩
  · refine ⟨std.des (key.take 8), ?_⟩
    rw [decryptionCipher, if_pos rfl, if_neg (not_lt.mpr hkey)]
    exact if_pos (length_take_of_le hkey)
  · refine ⟨std.tripleDES (key.take 16 ++ key.take 8), ?_⟩
    rw [decryptionCipher, if_neg (by decide), if_pos rfl, if_neg (not_lt.mpr hkey)]
    refine if_pos ?_
    rw [length_append, length_take, length_take]
    omega
  · refine ⟨std.tripleDES (key.take 24), ?_⟩
    rw [decryptionCipher, if_neg (by decide), if_neg (by decide), if_pos rfl,
      if_neg (not_lt.mpr hkey)]
    exact if_pos (length_take_of_le hkey)

theorem exists_decryptData_iff : (∃ data, decryptData std mode key out = .ok data) ↔
      HasDecryptionKey mode key ∧ out.length % 8 = 0 := by
  constructor
  · rintro ⟨data, hdata⟩
    obtain ⟨block, hblock, -⟩ := bind_eq_ok.mp hdata
    obtain ⟨hkey, hsize⟩ := hasDecryptionKey_of_cipher hblock
    have haligned := ((decryptData_eq_ok hblock).mp hdata).1
    rw [hsize] at haligned
    exact ⟨hkey, haligned⟩
  · rintro ⟨hkey, haligned⟩
    obtain ⟨block, hblock⟩ : ∃ block, decryptionCipher std mode key = .ok block :=
      exists_decryptionCipher hkey
    refine ⟨_, (decryptData_eq_ok hblock).mpr ⟨?_, rfl⟩⟩
    rw [(hasDecryptionKey_of_cipher hblock).2, haligned]

end Decryptable

section StaysInside

variable (std : StdCiphers) (sp : SecurityProfile) (cipherKey signKey raw : Bytes)

/-- The parser reads this input and no further than its declared length: what follows makes no
difference, and only a proper frame is accepted. -/
structure StaysInside : Prop where
  agree : ∀ other : Bytes, 2 + declaredLength raw ≤ raw.length →
    2 + declaredLength raw ≤ other.length →
    raw.take (2 + declaredLength raw) = other.take (2 + declaredLength raw) →
    (parseResponsePacket std sp raw cipherKey signKey).toOption
      = (parseResponsePacket std sp other cipherKey signKey).toOption
  framed : ∀ packet, parseResponsePacket std sp raw cipherKey signKey = .ok packet →
    WellFramed raw

/-- There is data that is ciphered and cannot be deciphered: there is no key for it, or it is not
whole blocks. -/
def Undecryptable : Prop :=
  sp.porCiphered = true ∧ 0 < (dataOctets raw).length ∧
    (¬HasDecryptionKey sp.kicMode cipherKey ∨ (dataOctets raw).length % 8 ≠ 0)

variable {std sp cipherKey signKey raw}

theorem exists_responseData_iff :
    (∃ data, responseData std sp cipherKey (dataOctets raw) = .ok data) ↔
      ¬Undecryptable sp cipherKey raw := by
  rw [responseData, Undecryptable]
  split_ifs with h
  · simp only [mapError_eq_ok, exists_decryptData_iff, h.1, h.2, true_and, not_or, not_not]
  · exact iff_of_true ⟨_, rfl⟩ fun hdata ↦ h ⟨hdata.1, hdata.2.1⟩

private theorem toOption_eq_of_ok_iff {ε α : Type} {x y : Except ε α}
    (h : ∀ a, x = .ok a ↔ y = .ok a) : x.toOption = y.toOption := by
  cases x with
  | ok a => rw [(h a).mp rfl]
  | error e =>
    cases y with
    | ok b =>
      have hb := (h b).mpr rfl
      cases hb
    | error e' => rfl

theorem toOption_parse_eq {other : Bytes}
    (hheader : 13 + (headerLength raw - 10) ≤ 2 + declaredLength raw)
    (hraw : 2 + declaredLength raw ≤ raw.length) (hother : 2 + declaredLength raw ≤ other.length)
    (hagree : raw.take (2 + declaredLength raw) = other.take (2 + declaredLength raw)) :
    (parseResponsePacket std sp raw cipherKey signKey).toOption
      = (parseResponsePacket std sp other cipherKey signKey).toOption := by
  have hdeclared : declaredLength other = declaredLength raw := by
    rw [← declaredLength_take (n := 2 + declaredLength raw) (by omega), ← hagree,
      declaredLength_take (by omega)]
  have hheaders : headerLength other = headerLength raw := by
    rw [← headerLength_take (n := 2 + declaredLength raw) (by omega), ← hagree,
      headerLength_take (by omega)]
  refine toOption_eq_of_ok_iff fun packet ↦ ?_
  rw [← parseResponsePacket_take hheader hraw, hagree, ← hdeclared]
  exact parseResponsePacket_take (by rw [hheaders, hdeclared]; exact hheader)
    (by rw [hdeclared]; exact hother)

private theorem getD_append_zeros (i k : ℕ) : (raw ++ replicate k 0).getD i 0 = raw.getD i 0 := by
  rw [getD_eq_getElem?_getD, getD_eq_getElem?_getD, getElem?_append]
  split_ifs with h
  · rfl
  · rw [getElem?_replicate, getElem?_eq_none (by omega)]
    split_ifs <;> rfl

/-- Given octets enough after it, every packet whose data can be read is accepted. -/
theorem exists_parse_append (hraw : 2 + declaredLength raw ≤ raw.length)
    (hdata : ¬Undecryptable sp cipherKey raw) :
    ∃ packet, parseResponsePacket std sp (raw ++ replicate 258 0) cipherKey signKey
      = .ok packet := by
  obtain ⟨data, hdata⟩ := exists_responseData_iff.mpr hdata
  have hdeclared : declaredLength (raw ++ replicate 258 0) = declaredLength raw := by
    rw [declaredLength, getD_append_zeros, getD_append_zeros]
    rfl
  have hheader : headerLength (raw ++ replicate 258 0) = headerLength raw := by
    rw [headerLength, getD_append_zeros]
    rfl
  have hoctets : dataOctets (raw ++ replicate 258 0) = dataOctets raw := by
    rw [dataOctets, hdeclared, hheader, take_append_of_le_length hraw]
    rfl
  have hsmall : headerLength raw < 256 := (raw.getD 2 0).toNat_lt
  refine ⟨_, parseResponsePacket_eq_ok.mpr ⟨?_, ?_, data, ?_, rfl⟩⟩
  · rw [hdeclared, length_append]
    omega
  · rw [hheader, length_append, length_replicate]
    omega
  · rw [hoctets]
    exact hdata

private theorem header_le_of_data (h : 0 < (dataOctets raw).length) :
    13 + (headerLength raw - 10) ≤ 2 + declaredLength raw := by
  rw [dataOctets, length_drop, length_take] at h
  omega

end StaysInside

/-- **The parser stays inside the packet** for an input exactly if the declared packet is not all
there, if its frame is proper, or if its data does not decrypt. -/
theorem staysInside_iff (std : StdCiphers) (sp : SecurityProfile) (cipherKey signKey raw : Bytes) :
    StaysInside std sp cipherKey signKey raw ↔
      raw.length < 2 + declaredLength raw ∨ WellFramed raw ∨
        Undecryptable sp cipherKey raw := by
  constructor
  · intro hinside
    by_cases hraw : raw.length < 2 + declaredLength raw
    · exact .inl hraw
    by_cases hdata : Undecryptable sp cipherKey raw
    · exact .inr (.inr hdata)
    rw [not_lt] at hraw
    -- with zeros after it the packet is accepted, so it has to be accepted as it is
    obtain ⟨packet, hpacket⟩ : ∃ packet, parseResponsePacket std sp
        (raw ++ replicate 258 0) cipherKey signKey = .ok packet :=
      exists_parse_append hraw hdata
    have halike := hinside.agree (raw ++ replicate 258 0) hraw
      (by rw [length_append]; omega) (take_append_of_le_length hraw).symm
    rw [hpacket] at halike
    cases hparse : parseResponsePacket std sp raw cipherKey signKey with
    | ok accepted => exact .inr (.inl (hinside.framed accepted hparse))
    | error e =>
      rw [hparse] at halike
      cases halike
  · rintro (hshort | hframed | hdata)
    · refine ⟨fun other hraw ↦ absurd hraw (by omega), fun packet hpacket ↦ ?_⟩
      have hraw := (parseResponsePacket_eq_ok.mp hpacket).1
      omega
    · have hheader : 13 + (headerLength raw - 10) ≤ 2 + declaredLength raw := by
        have hfixed := hframed.fixed
        have hinside := hframed.header
        omega
      exact ⟨fun other ↦ toOption_parse_eq hheader, fun _ _ ↦ hframed⟩
    · refine ⟨fun other ↦ toOption_parse_eq (header_le_of_data hdata.2.1), fun packet hpacket ↦ ?_⟩
      obtain ⟨-, -, data, hread, -⟩ := parseResponsePacket_eq_ok.mp hpacket
      exact absurd hdata (exists_responseData_iff.mp ⟨data, hread⟩)

/-- A packet that declares ten octets, one less than its header has, and the octet after it. -/
def shortResponse (next : UInt8) : Bytes :=
  [0, 10] ++ [10] ++ [0xB0, 0x00, 0x10] ++ [0, 0, 0, 0, 7] ++ [0] ++ [next]

/-- The octet after the short packet is read as its status. -/
theorem response_read_outside :
    ¬StaysInside maskCiphers cipheredResponses [] [] (shortResponse 0) := by
  intro h
  have hstatus := h.agree (shortResponse 1) (by decide) (by decide) (by decide)
  exact absurd hstatus (by decide)

end OtaPlatform
