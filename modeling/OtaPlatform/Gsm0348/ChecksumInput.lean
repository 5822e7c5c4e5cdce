import OtaPlatform.Gsm0348.Provider

/-!
# What the checksum of a command packet covers

The cryptographic checksum is computed over the header and the padded user data, filled with zeros
to whole blocks. The length octets CPL and CHL are not part of it.

In a ciphered packet the header has the padding counter, and the user data can be read off the
octets. In a packet that is not ciphered the counter is zero and the fill cannot be told from the
user data: data that differs only in the zeros at its end has the same checksum, as long as it fills
the same number of blocks (`macOctets_ne_iff`).
-/

namespace OtaPlatform

open List

/-- The octets the cryptographic checksum of a packet is computed over. -/
def macOctets (sp : SecurityProfile) (input : CommandPacketInput) : Option Bytes :=
  if sp.certMode = certCC then
    some (macInput (commandHeader sp input) (paddedUserData sp input.userData).1)
  else none

/-- The checksum of a packet depends on its header and user data through these octets only. -/
theorem commandSignature_of_macOctets {std : StdCiphers} {provider : Option CryptoProvider}
    {sp : SecurityProfile} {input input' : CommandPacketInput} (key : Bytes) (cardID : Option UUID)
    (hcc : sp.certMode = certCC) (h : macOctets sp input = macOctets sp input') :
    commandSignature std provider sp key cardID (commandHeader sp input)
        (paddedUserData sp input.userData).1
      = commandSignature std provider sp key cardID (commandHeader sp input')
        (paddedUserData sp input'.userData).1 := by
  rw [macOctets, macOctets, if_pos hcc, if_pos hcc, Option.some.injEq] at h
  have hrc : sp.certMode ≠ certRC := by
    rw [hcc]
    decide
  cases provider with
  | none => simp only [commandSignature, if_neg hrc, computeMAC, h]
  | some p => simp only [commandSignature, if_neg hrc, providerMACInput_eq, h]

/-! ## Filling with zeros -/

/-- The two strings fill the same number of blocks after a header of thirteen octets, and one is the
other with zeros after it. -/
def FillAlike (data data' : Bytes) : Prop :=
  (13 + data.length + 7) / 8 = (13 + data'.length + 7) / 8 ∧
    ((∃ k, data' = data ++ replicate k 0) ∨ ∃ k, data = data' ++ replicate k 0)

section Fill

variable {data data' header header' : Bytes}

private theorem exists_zeros_of_append_eq {m m' : ℕ}
    (h : data ++ replicate m 0 = data' ++ replicate m' 0) :
    (∃ k, data' = data ++ replicate k 0) ∨ ∃ k, data = data' ++ replicate k 0 := by
  rcases append_eq_append_iff.mp h with ⟨zeros, hdata, hzeros⟩ | ⟨zeros, hdata, hzeros⟩
  · refine .inl ⟨zeros.length, ?_⟩
    rw [hdata, ← (append_eq_replicate_iff.mp hzeros.symm).2.1]
  · refine .inr ⟨zeros.length, ?_⟩
    rw [hdata, ← (append_eq_replicate_iff.mp hzeros.symm).2.1]

private theorem append_zeros_eq {k m m' : ℕ} (h : m = k + m') :
    data ++ replicate m 0 = data ++ replicate k 0 ++ replicate m' 0 := by
  rw [append_assoc, replicate_append_replicate, h]

/-- Under one header of thirteen octets, the octets agree if the data fills alike. -/
theorem macInput_eq_iff_fillAlike (hheader : header.length = 13) :
    macInput header data = macInput header data' ↔ FillAlike data data' := by
  rw [macInput, macInput, append_assoc, append_assoc, append_cancel_left_eq, FillAlike, hheader]
  constructor
  · intro h
    refine ⟨?_, exists_zeros_of_append_eq h⟩
    have hlength := congrArg length h
    simp only [length_append, length_replicate] at hlength
    split_ifs at hlength <;> omega
  · rintro ⟨hblocks, ⟨k, rfl⟩ | ⟨k, rfl⟩⟩
    · rw [length_append, length_replicate] at hblocks ⊢
      apply append_zeros_eq
      split_ifs <;> omega
    · rw [length_append, length_replicate] at hblocks ⊢
      symm
      apply append_zeros_eq
      split_ifs <;> omega

theorem eq_of_macInput_eq (hheader : header.length = header'.length) (hdata : data.length % 8 = 0)
    (hdata' : data'.length % 8 = 0) (h : macInput header data = macInput header' data') :
    header = header' ∧ data = data' := by
  rw [macInput, macInput, append_assoc, append_assoc] at h
  obtain ⟨hheaders, hfilled⟩ := append_inj h hheader
  refine ⟨hheaders, (append_inj' hfilled ?_).1⟩
  rw [length_replicate, length_replicate, hheader]
  split_ifs <;> omega

end Fill

/-! ## The user data -/

section UserData

variable {sp : SecurityProfile} {input : CommandPacketInput} {userData userData' : Bytes}

theorem commandHeader_of_clear (userData userData' : Bytes) (hclear : sp.ciphered = false) :
    commandHeader sp { input with userData := userData }
      = commandHeader sp { input with userData := userData' } := by
  simp only [commandHeader, paddedUserData, hclear, Bool.false_eq_true, if_false]

/-- With ciphering, the header and the padded data give back the user data. -/
theorem userData_eq_of_ciphered (hheader : commandHeader sp { input with userData := userData }
      = commandHeader sp { input with userData := userData' })
    (hpadded : (paddedUserData sp userData).1 = (paddedUserData sp userData').1) :
    userData = userData' := by
  have hpcntr : (paddedUserData sp userData).2 = (paddedUserData sp userData').2 :=
    singleton_inj.mp (append_cancel_left hheader)
  rw [← take_paddedUserData sp userData, ← take_paddedUserData sp userData', hpadded, hpcntr]

theorem length_padded_mod_eight (hciphered : sp.ciphered = true) :
    (paddedUserData sp userData).1.length % 8 = 0 := by
  have hblocks := length_paddedUserData_mod sp userData hciphered
  rcases cipherBlockSize_cases sp with h | h
  · rw [h] at hblocks
    exact hblocks
  · rw [h] at hblocks
    omega

end UserData

/-- **The checksum binds the user data** exactly where the end of the data can be told from the
fill: for every profile with a cryptographic checksum, every application and counter, two different
user data are checksummed over different octets if and only if the packet is ciphered or the data
does not fill the blocks alike. -/
theorem macOctets_ne_iff (sp : SecurityProfile) (input : CommandPacketInput)
    (userData userData' : Bytes) (hcc : sp.certMode = certCC) (htar : input.tar.length = 3)
    (hcounter : input.counter.length = 5) (hne : userData ≠ userData') :
    macOctets sp { input with userData := userData }
        ≠ macOctets sp { input with userData := userData' } ↔
      sp.ciphered = true ∨ ¬FillAlike userData userData' := by
  have hheader : ∀ data, (commandHeader sp { input with userData := data }).length = 13 :=
    fun _ ↦ length_commandHeader htar hcounter
  rw [macOctets, macOctets, if_pos hcc, if_pos hcc, ne_eq, Option.some.injEq]
  cases hciphered : sp.ciphered with
  | true =>
    refine iff_of_true (fun h ↦ ?_) (.inl rfl)
    obtain ⟨hheaders, hpadded⟩ := eq_of_macInput_eq
      ((hheader _).trans (hheader _).symm)
      (length_padded_mod_eight hciphered) (length_padded_mod_eight hciphered) h
    exact hne (userData_eq_of_ciphered hheaders hpadded)
  | false =>
    have hdata : ∀ data, (paddedUserData sp data).1 = data := by
      intro data
      rw [paddedUserData, hciphered]
      rfl
    rw [hdata, hdata, commandHeader_of_clear userData userData' hciphered,
      macInput_eq_iff_fillAlike (hheader _)]
    simp only [Bool.false_eq_true, false_or]

/-- A profile with a cryptographic checksum and no ciphering. -/
def clearProfile : SecurityProfile :=
  { cipheredProfile certCC cipher3DESCBC2Keys with ciphered := false }

/-- One octet more at the end is told apart when it is not zero. -/
theorem macOctets_ne_iff_last :
    macOctets clearProfile { keyedInput [] with userData := [0xA0] }
        ≠ macOctets clearProfile { keyedInput [] with userData := [0xA0, 0x01] } :=
  (macOctets_ne_iff clearProfile (keyedInput []) [0xA0] [0xA0, 0x01] rfl rfl rfl (by decide)).mpr
    (.inr (by
      rintro ⟨-, ⟨k, hk⟩ | ⟨k, hk⟩⟩
      · cases k with
        | zero => exact absurd hk (by decide)
        | succ k => exact absurd (cons.inj (cons.inj hk).2).1 (by decide)
      · exact absurd (congrArg length hk) (by simp)))

/-- One zero more at the end is not, whatever the ciphers and the key. -/
theorem macOctets_eq_zero_added :
    clearProfile.certMode = certCC ∧ ([0xA0] : Bytes) ≠ [0xA0, 0] ∧
      macOctets clearProfile (keyedInput [0xA0]) = macOctets clearProfile (keyedInput [0xA0, 0]) ∧
      ∀ std provider key cardID,
        commandSignature std provider clearProfile key cardID
            (commandHeader clearProfile (keyedInput [0xA0])) [0xA0]
          = commandSignature std provider clearProfile key cardID
            (commandHeader clearProfile (keyedInput [0xA0, 0])) [0xA0, 0] :=
  ⟨rfl, by decide, by decide, fun _ _ key cardID ↦
    commandSignature_of_macOctets key cardID rfl (by decide)⟩

end OtaPlatform
