import OtaPlatform.Engine.System
import OtaPlatform.Executor.Progress
import OtaPlatform.Gsm0348.Response

/-!
# Packets that are too long for their length field

The first two octets of a command packet are the number of octets that follow. `BuildCommandPacket`
takes the low sixteen bits of that number and does not look at the rest. Nothing before it limits
the size of a script, and `SplitForConcat` limits the number of parts but not their size. So a
packet whose length does not fit is built and sent, and the card reads a length that is not the
packet's.

## When the length can be trusted

The octets after the length field are CHL, the header and the secured data, and their number
follows from the certification mode, the block size and the size of the user data
(`securedLength`). The length field is right if and only if that number fits
(`cpl_trusted_iff`), both for `BuildCommandPacket` and for what `handleActivate` sends.
-/

namespace OtaPlatform

open List

/-- The length field of a packet. -/
def packetCPL : Bytes → ℕ
  | hi :: lo :: _ => hi.toNat * 256 + lo.toNat
  | _ => 0

/-! ## Lengths -/

/-- The size of the user data after padding: whole blocks, and at least one. -/
def SecurityProfile.paddedLength (sp : SecurityProfile) (size : ℕ) : ℕ :=
  if sp.ciphered then
    (max size 1 + sp.cipherBlockSize - 1) / sp.cipherBlockSize * sp.cipherBlockSize
  else size

/-- The size of checksum and padded data. -/
def SecurityProfile.securedLength (sp : SecurityProfile) (size : ℕ) : ℕ :=
  sp.signatureLength + sp.paddedLength size

/-- **The condition.** CHL, header and secured data are at most 65535 octets. If a provider does the
ciphering, the size of the secured data is that of its answer. -/
def CplFits (std : StdCiphers) (provider : Option CryptoProvider) (sp : SecurityProfile)
    (input : CommandPacketInput) : Prop :=
  match provider with
  | none => 14 + sp.securedLength input.userData.length ≤ 65535
  | some p =>
    if sp.ciphered then
      ∀ signature encrypted,
        commandSignature std (some p) sp input.signingKey input.cardID (commandHeader sp input)
          (paddedUserData sp input.userData).1 = .ok signature →
        p.encrypt input.cardID (algoName sp.kicAlgo) (cipherModeName sp.kicMode)
          (signature ++ (paddedUserData sp input.userData).1) = .ok encrypted →
        14 + encrypted.length ≤ 65535
    else 14 + sp.securedLength input.userData.length ≤ 65535

theorem length_padData {blockSize : ℕ} (data : Bytes) (hpos : 0 < blockSize) :
    (padData data blockSize).1.length
      = (max data.length 1 + blockSize - 1) / blockSize * blockSize := by
  unfold padData
  by_cases hempty : data.length = 0
  · have hone : max data.length 1 + blockSize - 1 = blockSize := by omega
    rw [if_pos hempty, length_replicate, hone, Nat.div_self hpos, Nat.one_mul]
  · have hmax : max data.length 1 = data.length := by omega
    have hsplit := Nat.div_add_mod data.length blockSize
    have hlt := Nat.mod_lt data.length hpos
    rw [if_neg hempty, hmax]
    simp only
    split_ifs with hrest
    · have hup : data.length + blockSize - 1
          = blockSize * (data.length / blockSize) + (blockSize - 1) := by omega
      have hlast : blockSize - 1 < blockSize := by omega
      rw [hup, Nat.mul_add_div hpos, Nat.div_eq_of_lt hlast, Nat.add_zero, Nat.mul_comm]
      change data.length = _
      omega
    · have hup : data.length + blockSize - 1
          = blockSize * (data.length / blockSize + 1) + (data.length % blockSize - 1) := by
        rw [Nat.mul_add, Nat.mul_one]
        omega
      have hlast : data.length % blockSize - 1 < blockSize := by omega
      rw [hup, Nat.mul_add_div hpos, Nat.div_eq_of_lt hlast, Nat.add_zero, Nat.mul_comm,
        Nat.mul_add, Nat.mul_one, length_append, length_replicate]
      omega

theorem length_paddedUserData (sp : SecurityProfile) (userData : Bytes) :
    (paddedUserData sp userData).1.length = sp.paddedLength userData.length := by
  rw [paddedUserData, SecurityProfile.paddedLength]
  split
  · exact length_padData userData (by rcases cipherBlockSize_cases sp with h | h <;> omega)
  · rfl

theorem length_encryptData {std : StdCiphers} {mode : CipherMode} {key data out : Bytes}
    (h : encryptData std mode key data = .ok out) : out.length = data.length := by
  obtain ⟨block, -, h⟩ := bind_eq_ok.mp h
  split at h
  · cases h
  · next haligned =>
    cases h
    exact Crypto.length_cbcEncrypt (not_not.mp haligned)

theorem packetCPL_octets (n : ℕ) (rest : Bytes) :
    packetCPL (UInt8.ofNat (n >>> 8) :: UInt8.ofNat (n &&& 0xFF) :: rest) = n % 65536 :=
  lengthOctets n

/-! ## BuildCommandPacket -/

section Build

variable {std : StdCiphers} {provider : Option CryptoProvider} {sp : SecurityProfile}
  {input : CommandPacketInput} {packet : Bytes}

theorem cplFits_iff {signature secured : Bytes}
    (hsignature : commandSignature std provider sp input.signingKey input.cardID
      (commandHeader sp input) (paddedUserData sp input.userData).1 = .ok signature)
    (hsecured : secure std provider sp input (signature ++ (paddedUserData sp input.userData).1)
      = .ok secured) : CplFits std provider sp input ↔ 14 + secured.length ≤ 65535 := by
  have hplain : (signature ++ (paddedUserData sp input.userData).1).length
      = sp.securedLength input.userData.length := by
    rw [length_append, length_commandSignature hsignature, length_paddedUserData,
      SecurityProfile.securedLength]
  by_cases hciphered : sp.ciphered = true
  · rw [secure.eq_def, if_pos hciphered] at hsecured
    have hencrypted := mapError_eq_ok.mp hsecured
    cases provider with
    | none =>
      rw [length_encryptData hencrypted, hplain]
      exact Iff.rfl
    | some p =>
      rw [CplFits]
      simp only [if_pos hciphered]
      constructor
      · intro h
        exact h signature secured hsignature hencrypted
      · intro h signature' encrypted hsignature' hencrypted'
        rw [hsignature] at hsignature'
        cases hsignature'
        have hsame := hencrypted.symm.trans hencrypted'
        cases hsame
        exact h
  · rw [secure.eq_def, if_neg hciphered] at hsecured
    cases hsecured
    rw [hplain]
    cases provider with
    | none => exact Iff.rfl
    | some p =>
      rw [CplFits]
      simp only [if_neg hciphered]

/-- **The length field of a packet that is built.** -/
theorem packetCPL_build (htar : input.tar.length = 3) (hcounter : input.counter.length = 5)
    (h : buildCommandPacket std provider sp input = .ok packet) :
    packetCPL packet = packet.length - 2 ↔ CplFits std provider sp input := by
  obtain ⟨signature, secured, hsignature, hsecured, rfl⟩ := buildCommandPacket_eq_ok.mp h
  rw [cplFits_iff hsignature hsecured, length_commandHeader htar hcounter]
  simp only [cons_append, nil_append, packetCPL_octets, length_cons,
    length_append, length_commandHeader htar hcounter]
  omega

end Build

/-! ## handleActivate -/

section Activate

variable {s : Process} {lib : SecuredPackets} {cryptoProvider : Bool} {ans : Answers}
  {event : CardEvent} {campaignID : UUID} {msg : SendSMSMessage} {origin : PacketOrigin}

theorem not_sms_of_overflow {cardID : UUID} {st after : Option CardState} {outs : List Output}
    {evicted : Bool} (h : OverflowOutcome cardID campaignID st after outs evicted) :
    .sms msg origin ∉ outs := by
  cases h with
  | quiet => exact not_mem_nil
  | fails => simp
  | unwritten => exact not_mem_nil

theorem passed_of_sms
    (h : .sms msg origin ∈ ((handleActivate lib cryptoProvider ans event campaignID).run
      workerSemantics s).outputs) :
    ∃ ctx, ans.context = .ok ctx ∧ throttled ans ctx.params = false := by
  obtain ⟨after, outs, counters, hout, hleaves⟩ :=
    handleActivate_outcome s lib cryptoProvider ans event campaignID
  have hmem : .sms msg origin ∈ outs := by
    rw [← hleaves.outputs, visible, mem_filter]
    exact ⟨h, rfl⟩
  cases hout with
  | quiet | consumed => cases hmem
  | delayed => simp at hmem
  | overflowed _ _ _ hoverflow => exact absurd hmem (not_sms_of_overflow hoverflow)
  | unsent => cases hmem
  | sent msg' origin' hctx hcmd hpass => exact ⟨_, hctx, hpass⟩

theorem payloads_smsMessage (cardKeys : CardKeyMaterial) (profile : Profile) (parts : List Bytes) :
    (smsMessage ans event campaignID cardKeys profile parts).parts.map (·.payload) = parts := by
  apply ext_getElem
  · simp [smsMessage]
  · intro i _ _
    simp [smsMessage]

/-- **What is sent was framed.** The parts of a message that `handleActivate` publishes are those
of a packet that was built and split. -/
theorem frames_of_sms
    (h : .sms msg origin ∈ ((handleActivate lib cryptoProvider ans event campaignID).run
      workerSemantics s).outputs) : ∃ ctx cmd cardKeys packet profile,
      s.Frames lib cryptoProvider ans event ctx cmd cardKeys packet profile
        (msg.parts.map (·.payload)) := by
  obtain ⟨ctx', hctx', hpass⟩ := passed_of_sms h
  rcases run_handleActivate_cases s lib cryptoProvider ans event campaignID with
    ⟨value, cache, -, hrun⟩ | ⟨ctx, cmd, err, cache, -, -, hrun⟩ |
    ⟨ctx, cmd, cardKeys, packet, profile, parts, cache, hframes, hrun⟩
  · rw [hrun] at h
    cases h
  · rw [hrun] at h
    cases h
  · obtain rfl := Except.ok.inj (hctx'.symm.trans hframes.context)
    rw [hrun, throttleOrSend, hpass, if_neg Bool.false_ne_true] at h
    obtain ⟨hleaves, -⟩ := sendCommand_leaves
      ⟨s.states, s.counters.incrCounter event.cardID cmd.applicationID, cache⟩ ans event campaignID
      cmd cardKeys profile (s.counters.getCounter event.cardID cmd.applicationID) packet parts
    have hmem : .sms msg origin ∈ sentOutputs ans event campaignID cmd cardKeys profile
        (s.counters.getCounter event.cardID cmd.applicationID) parts := by
      rw [← hleaves.outputs, visible, mem_filter]
      exact ⟨h, rfl⟩
    rw [sentOutputs] at hmem
    have hmsg : msg = smsMessage ans event campaignID cardKeys profile parts := by
      split_ifs at hmem <;> simp at hmem <;> exact hmem.1
    rw [hmsg, payloads_smsMessage]
    exact ⟨ctx', cmd, cardKeys, packet, profile, hframes⟩

/-- What can be framed is sent, unless the throttle refuses or it cannot be published. -/
theorem sms_of_frames {ctx : CampaignContext} {cmd : CampaignCommand} {cardKeys : CardKeyMaterial}
    {packet : Bytes} {profile : Profile} {parts : List Bytes}
    (h : s.Frames lib cryptoProvider ans event ctx cmd cardKeys packet profile parts)
    (hpass : throttled ans ctx.params = false) (hsms : ans.smsError = none) :
    ∃ origin, .sms (smsMessage ans event campaignID cardKeys profile parts) origin ∈
      ((handleActivate lib cryptoProvider ans event campaignID).run workerSemantics s).outputs := by
  obtain ⟨cache, hload⟩ := run_loadCardKeys s ans event.cardID
  refine ⟨⟨event.step, cmd.applicationID, s.counters.getCounter event.cardID cmd.applicationID,
    counterBytes (s.counters.getCounter event.cardID cmd.applicationID)⟩, ?_⟩
  simp [handleActivate, h.status, h.context, h.command, hload, h.keys, frameCommand, h.build,
    h.loaded, h.split, hpass, sendCommand, hsms]

end Activate

theorem length_tarBytes (tar : Bytes) : (tarBytes tar).length = 3 := by
  rw [tarBytes, length_take, length_append]
  simp

/-! ## A script of zeros -/

/-- A command with a script of so many octets, neither signed nor ciphered. -/
def zerosCommand (size : ℕ) : CampaignCommand :=
  { sequence := 1, applicationID := .ofDigit 2, expectResponse := false
    script := replicate size 0 }

/-- The campaign has this command, and the profile of the card allows long parts. -/
def zerosAnswers (size : ℕ) : Answers :=
  { Answers.plain ⟨[zerosCommand size], { maxRetries := 3 }⟩ (.ofDigit 7) with
    profile := .ok { maxConcatSMS := 7, bufferSize := 70000 } }

/-- A process that has just started. -/
def newProcess : Process := (Engine.new fun _ ↦ none).process

private theorem frames_zeros {size : ℕ} (h : size ≤ 69000) :
    ∃ packet, packet.length = size + 16 ∧ packetCPL packet = (14 + size) % 65536 ∧
      newProcess.Frames (packetLayer maskCiphers none) false (zerosAnswers size)
        (plainActivate (.ofDigit 1) (.ofDigit 9)) ⟨[zerosCommand size], { maxRetries := 3 }⟩
        (zerosCommand size) {} packet { maxConcatSMS := 7, bufferSize := 70000 }
        [frameOTASMS packet none] := by
  set sp := buildSecProfileFromCache (zerosCommand size) with hsp
  set input := commandInput false (plainActivate (.ofDigit 1) (.ofDigit 9)) (zerosCommand size) {} 0
    with hinput
  have hheader : (commandHeader sp input).length = 13 := length_commandHeader rfl rfl
  obtain ⟨packet, hpacket⟩ : ∃ packet, packet =
      UInt8.ofNat ((1 + (commandHeader sp input).length + (replicate size (0 : UInt8)).length)
        >>> 8) ::
      UInt8.ofNat ((1 + (commandHeader sp input).length + (replicate size (0 : UInt8)).length)
        &&& 0xFF) :: UInt8.ofNat (13 + sp.signatureLength) ::
      (commandHeader sp input ++ replicate size 0) := ⟨_, rfl⟩
  have hbuild : buildCommandPacket maskCiphers none sp input = .ok packet :=
    buildCommandPacket_eq_ok.mpr ⟨[], replicate size 0, rfl, rfl, hpacket⟩
  have hlength : packet.length = size + 16 := by
    rw [hpacket]
    simp only [length_cons, length_append, hheader, length_replicate]
    omega
  refine ⟨packet, hlength, ?_, rfl, rfl, rfl, rfl, hbuild, rfl, ?_⟩
  · rw [hpacket, packetCPL_octets, hheader, length_replicate]
  · have hcapacity : ¬(70000 - 3 : ℤ) ≤ 0 := by decide
    have hsmall : (packet.length : ℤ) ≤ 70000 - 3 := by omega
    rw [splitForConcat]
    simp only [if_neg hcapacity, if_pos hsmall]

/-- **When the length field can be trusted.** The length field of a packet that `BuildCommandPacket`
returns is the number of octets after it if and only if that number fits two octets; and every
message that `handleActivate` publishes carries a packet of which the same is true. -/
theorem cpl_trusted_iff (std : StdCiphers) (provider : Option CryptoProvider) :
    (∀ (sp : SecurityProfile) (input : CommandPacketInput) (packet : Bytes),
      input.tar.length = 3 → input.counter.length = 5 →
      buildCommandPacket std provider sp input = .ok packet →
      (packetCPL packet = packet.length - 2 ↔ CplFits std provider sp input)) ∧
    ∀ (lib : SecuredPackets), lib.buildCommandPacket = buildCommandPacket std provider →
      ∀ (s : Process) (ans : Answers) (event : CardEvent) (campaignID : UUID)
        (msg : SendSMSMessage) (origin : PacketOrigin),
      .sms msg origin ∈ ((handleActivate lib provider.isSome ans event campaignID).run
        workerSemantics s).outputs →
      ∃ ctx cmd cardKeys packet profile,
        s.Frames lib provider.isSome ans event ctx cmd cardKeys packet profile
          (msg.parts.map (·.payload)) ∧
        (packetCPL packet = packet.length - 2 ↔
          CplFits std provider (buildSecProfileFromCache cmd)
            (commandInput provider.isSome event cmd cardKeys
              (s.counters.getCounter event.cardID cmd.applicationID))) := by
  refine ⟨?_, ?_⟩
  · intro sp input packet htar hcounter hbuild
    exact packetCPL_build htar hcounter hbuild
  · intro lib hlib s ans event campaignID msg origin hsms
    obtain ⟨ctx, cmd, cardKeys, packet, profile, hframes⟩ := frames_of_sms hsms
    refine ⟨ctx, cmd, cardKeys, packet, profile, hframes, ?_⟩
    have hbuild := hframes.build
    rw [hlib] at hbuild
    refine packetCPL_build ?_ ?_ hbuild
    · rw [commandInput]
      split
      · exact length_tarBytes _
      · exact length_tarBytes _
    · rw [commandInput]
      split
      · rfl
      · rfl

/-- Five octets, checked and ciphered, and a script of five octets that is sent as it is. -/
theorem cpl_trusted_iff_five :
    (∃ packet, buildCommandPacket maskCiphers none (cipheredProfile certCC cipher3DESCBC2Keys)
        (keyedInput [0xA0, 0xA4, 0x00, 0x00, 0x02]) = .ok packet ∧
      packetCPL packet = packet.length - 2) ∧
    ∃ msg origin, .sms msg origin ∈ ((handleActivate (packetLayer maskCiphers none) false
        (zerosAnswers 5) (plainActivate (.ofDigit 1) (.ofDigit 9)) (.ofDigit 9)).run workerSemantics
          newProcess).outputs ∧
      ∃ ctx cmd cardKeys packet profile,
        newProcess.Frames (packetLayer maskCiphers none) false (zerosAnswers 5)
          (plainActivate (.ofDigit 1) (.ofDigit 9)) ctx cmd cardKeys packet profile
          (msg.parts.map (·.payload)) ∧
        packetCPL packet = packet.length - 2 := by
  refine ⟨⟨_, rfl, ?_⟩, ?_⟩
  · refine ((cpl_trusted_iff maskCiphers none).1 (cipheredProfile certCC cipher3DESCBC2Keys)
      (keyedInput [0xA0, 0xA4, 0x00, 0x00, 0x02]) _ rfl rfl rfl).mpr ?_
    change 14 + (cipheredProfile certCC cipher3DESCBC2Keys).securedLength 5 ≤ 65535
    decide
  · obtain ⟨packet, -, -, hframes⟩ := frames_zeros (show 5 ≤ 69000 by decide)
    obtain ⟨origin, hsms⟩ := sms_of_frames hframes rfl rfl
    refine ⟨_, origin, hsms, ?_⟩
    obtain ⟨ctx, cmd, cardKeys, packet', profile, hframes', hiff⟩ :=
      (cpl_trusted_iff maskCiphers none).2 (packetLayer maskCiphers none) rfl newProcess _ _ _ _
        origin hsms
    refine ⟨ctx, cmd, cardKeys, packet', profile, hframes', hiff.mpr ?_⟩
    cases hframes'.context
    cases hframes'.command
    change 14 + (buildSecProfileFromCache (zerosCommand 5)).securedLength 5 ≤ 65535
    decide

/-- A script of 65522 octets gives a packet of 65536 octets after the length field, which is zero.
It is sent, in one part to a card whose profile allows that. -/
theorem oversized_packet_sent :
    ∃ packet msg origin,
      buildCommandPacket maskCiphers none (buildSecProfileFromCache (zerosCommand 65522))
        (commandInput false (plainActivate (.ofDigit 1) (.ofDigit 9)) (zerosCommand 65522) {} 0)
        = .ok packet ∧
      packet.length - 2 = 65536 ∧ packetCPL packet = 0 ∧
      .sms msg origin ∈ ((handleActivate (packetLayer maskCiphers none) false (zerosAnswers 65522)
        (plainActivate (.ofDigit 1) (.ofDigit 9)) (.ofDigit 9)).run workerSemantics
          newProcess).outputs ∧
      msg.parts.map (·.payload) = [frameOTASMS packet none] := by
  obtain ⟨packet, hlength, hcpl, hframes⟩ := frames_zeros (show 65522 ≤ 69000 by decide)
  obtain ⟨origin, hsms⟩ := sms_of_frames hframes rfl rfl
  refine ⟨packet, _, origin, hframes.build, ?_, hcpl, hsms, payloads_smsMessage ..⟩
  rw [hlength]

end OtaPlatform
