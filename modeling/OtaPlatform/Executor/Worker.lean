import OtaPlatform.Gsm0348.Types
import OtaPlatform.Pgstore.Coordination
import OtaPlatform.Pgstore.CounterStore
import OtaPlatform.Transition.Program

/-!
# The card worker

`CardWorker` drives every card through the commands of a campaign: it sends a command, waits for the
delivery report and, where the command asks for one, for the response, then sends the next command
or completes the card.

## Operations

A handler is a program over the operations it uses of other components: the card states, the
counters, the key cache, the channels. Everything else it computes itself. What the outside answers
during one call (a clock reading, a fresh identifier, a row the database returns, an error of a
channel) is an `Answers` record, so a call is a function of its event, its answers and the state of
the process.

## What is left out

Web-socket broadcasts, log lines and telemetry. The campaign caches of the worker are not modelled
either: the commands and parameters of a campaign are immutable, so a cached context is the loaded
one, and a status lookup is answered from outside because the cache makes it lag behind the table.
-/

namespace OtaPlatform

open List

/-! ## Data -/

structure CampaignCommand where
  sequence : ℤ
  applicationID : UUID
  script : Bytes := []
  expectResponse : Bool
  /-- The application's address on the card. -/
  tar : Bytes := []
  kicAlgo : String := ""
  kicMode : String := ""
  kicKeysetID : ℤ := 0
  kidAlgo : String := ""
  kidMode : String := ""
  kidKeysetID : ℤ := 0
  certMode : String := ""
  ciphered : Bool := false
  counterMode : String := ""
  porMode : String := ""
  porProtocol : String := ""
  porCiphered : Bool := false
  porCertMode : String := ""
deriving DecidableEq, Repr

structure CampaignParams where
  /-- Overrides the profile's limit of parts. -/
  maxConcatOverride : Option ℤ := none
  throttleSMSPerSec : Option ℤ := none
  /-- The number of attempts per step. -/
  maxRetries : ℤ
deriving DecidableEq, Repr

structure CampaignContext where
  commands : List CampaignCommand
  params : CampaignParams
deriving DecidableEq, Repr

/-- `commandByStep`: filled in order, so a later command of the same step replaces an earlier. -/
def CampaignContext.commandByStep (c : CampaignContext) (step : ℤ) : Option CampaignCommand :=
  c.commands.reverse.find? fun cmd ↦ cmd.sequence = step

structure CardKeyMaterial where
  encKey : Bytes := []
  authKey : Bytes := []
  profileID : String := ""
  msisdn : String := ""
deriving DecidableEq, Repr

structure Profile where
  maxConcatSMS : ℤ
  bufferSize : ℤ
  pid : ℤ := 0
  dcs : ℤ := 0
deriving DecidableEq, Repr

/-- What a published packet was built from. The message itself does not say; it is kept beside it
to state properties of the counters and of the steps. -/
structure PacketOrigin where
  step : ℤ
  applicationID : UUID
  counterVal : ℤ
  counter : Bytes
deriving DecidableEq, Repr

/-! ## Parameters of the security profile -/

def parseCertificationMode : String → CertificationMode
  | "NO_SECURITY" | "NONE" => certNone
  | "RC" => certRC
  | "CC" => certCC
  | "DS" => certDS
  | _ => certNone

def parseCounterMode : String → CounterMode
  | "NO_COUNTER" | "NONE" => counterNone
  | "COUNTER_NO_REPLAY" => counterNoReplay
  | "COUNTER_REPLAY_OR_CHECK" => counterReplayCheck
  | _ => counterNone

def parsePoRMode : String → PoRMode
  | "NO_REPLY" | "NONE" => porNone
  | "REPLY_ALWAYS" => porAlways
  | "REPLY_ON_ERROR" => porOnError
  | _ => porNone

def parseCipherMode : String → CipherMode
  | "DES_CBC" => cipherDESCBC
  | "TRIPLE_DES_CBC_2_KEYS" => cipher3DESCBC2Keys
  | "TRIPLE_DES_CBC_3_KEYS" => cipher3DESCBC3Keys
  | "AES_CBC" => cipherAESCBC
  | _ => cipherDESCBC

def parseAlgo : String → UInt8
  | "DES" => 0x01
  | "AES" => 0x02
  | _ => 0x01

def parsePoRProtocol : String → UInt8
  | "SMS_DELIVER_REPORT" => 0x01
  | "SMS_SUBMIT" => 0x02
  | _ => 0x02

def buildSecProfileFromCache (cmd : CampaignCommand) : SecurityProfile where
  certMode := parseCertificationMode cmd.certMode
  ciphered := cmd.ciphered
  counterMode := parseCounterMode cmd.counterMode
  porMode := parsePoRMode cmd.porMode
  porCertMode := parseCertificationMode cmd.porCertMode
  porCiphered := cmd.porCiphered
  porProtocol := parsePoRProtocol cmd.porProtocol
  kicAlgo := parseAlgo cmd.kicAlgo
  kicMode := parseCipherMode cmd.kicMode
  kicKeysetID := UInt8.ofNat (cmd.kicKeysetID % 256).toNat
  kidAlgo := parseAlgo cmd.kidAlgo
  kidMode := parseCipherMode cmd.kidMode
  kidKeysetID := UInt8.ofNat (cmd.kidKeysetID % 256).toNat
  securityBytesWithLengthsAndUDHL := true

def porStatusDescription (code : UInt8) : String :=
  match code.toNat with
  | 0x00 => "command executed successfully"
  | 0x01 => "RC/CC/DS verification failed"
  | 0x02 => "counter too low"
  | 0x03 => "counter too high, not updated"
  | 0x04 => "counter too high, updated"
  | 0x05 => "counter blocked"
  | 0x06 => "cryptographic error"
  | 0x07 => "instruction not supported"
  | 0x08 => "counter increase not allowed"
  | 0x09 => "TAR unknown"
  | 0x0A => "insufficient memory"
  | _ => "unknown status"

/-! ## Bytes and text -/

/-- The low octet of an integer. -/
def lowByte (v : ℤ) : UInt8 := UInt8.ofNat (v % 256).toNat

/-- The five counter octets: `byte(v >> 32)`, then the low 32 bits, big-endian. -/
def counterBytes (v : ℤ) : Bytes :=
  [lowByte (v / 2 ^ 32), lowByte (v / 2 ^ 24), lowByte (v / 2 ^ 16), lowByte (v / 2 ^ 8), lowByte v]

/-- `copy(tar[:], cmd.TAR)` into three octets. -/
def tarBytes (tar : Bytes) : Bytes := (tar ++ [0, 0, 0]).take 3

def hexDigit (lower : Bool) (n : ℕ) : Char :=
  if n < 10 then Char.ofNat (48 + n) else Char.ofNat ((if lower then 87 else 55) + n)

def hexEncode (data : Bytes) : String :=
  String.ofList (data.flatMap fun b ↦
    [hexDigit true (b.toNat / 16), hexDigit true (b.toNat % 16)])

/-- `fmt.Sprintf("0x%02X", b)`. -/
def hexByte (b : UInt8) : String :=
  String.ofList ['0', 'x', hexDigit false (b.toNat / 16), hexDigit false (b.toNat % 16)]

/-- The value of a hexadecimal digit. -/
def fromHexChar (c : Char) : Option ℕ :=
  if '0' ≤ c ∧ c ≤ '9' then some (c.toNat - 48)
  else if 'a' ≤ c ∧ c ≤ 'f' then some (c.toNat - 87)
  else if 'A' ≤ c ∧ c ≤ 'F' then some (c.toNat - 55)
  else none

/-- `hex.DecodeString` on an even number of octets. -/
def hexDecodePairs : List Char → Except String Bytes
  | [] => .ok []
  | c :: d :: cs =>
    match fromHexChar c, fromHexChar d with
    | some hi, some lo => (hexDecodePairs cs).map fun rest ↦ UInt8.ofNat (16 * hi + lo) :: rest
    | _, _ => .error "encoding/hex: invalid byte"
  | [_] => .error "encoding/hex: invalid byte"

def isSpace (c : Char) : Bool :=
  [0x09, 0x0A, 0x0B, 0x0C, 0x0D, 0x20, 0x85, 0xA0, 0x1680, 0x2028, 0x2029, 0x202F, 0x205F,
    0x3000].contains c.toNat || (0x2000 ≤ c.toNat && c.toNat ≤ 0x200A)

def trimSpace (s : String) : List Char :=
  ((s.toList.dropWhile isSpace).reverse.dropWhile isSpace).reverse

/-- `hexutil.Decode`: surrounding blanks are dropped and an odd number of octets is refused. -/
def hexDecode (s : String) : Except String Bytes :=
  let trimmed := trimSpace s
  if (trimmed.map Char.utf8Size).sum % 2 ≠ 0 then
    .error ("hexutil: odd-length hex string: \"" ++ String.ofList trimmed ++ "\"")
  else hexDecodePairs trimmed

/-- A hexadecimal digit is read as the number it was written for; it is one octet and no blank. -/
private theorem hexDigit_spec : ∀ n < 16, fromHexChar (hexDigit true n) = some n ∧
    (hexDigit true n).utf8Size = 1 ∧ isSpace (hexDigit true n) = false := by
  decide

private theorem hexDecodePairs_encode (data : Bytes) : hexDecodePairs (data.flatMap fun b ↦
      [hexDigit true (b.toNat / 16), hexDigit true (b.toNat % 16)]) = .ok data := by
  induction data with
  | nil => rfl
  | cons b data ih =>
    have hlt := b.toNat_lt
    obtain ⟨hhi, -, -⟩ := hexDigit_spec (b.toNat / 16) (by omega)
    obtain ⟨hlo, -, -⟩ := hexDigit_spec (b.toNat % 16) (by omega)
    have hb : UInt8.ofNat (16 * (b.toNat / 16) + b.toNat % 16) = b := by
      rw [Nat.div_add_mod, UInt8.ofNat_toNat]
    rw [flatMap_cons, cons_append, cons_append, nil_append, hexDecodePairs, hhi, hlo, ih]
    simp only [Except.map, hb]

theorem hexDecode_hexEncode (data : Bytes) : hexDecode (hexEncode data) = .ok data := by
  rw [hexEncode]
  set digits := data.flatMap fun b ↦
    [hexDigit true (b.toNat / 16), hexDigit true (b.toNat % 16)] with hdigits
  have hdigit : ∀ c ∈ digits, c.utf8Size = 1 ∧ isSpace c = false := by
    intro c hc
    obtain ⟨b, -, hb⟩ := mem_flatMap.mp hc
    have hlt := b.toNat_lt
    rcases mem_pair.mp hb with rfl | rfl
    · exact (hexDigit_spec (b.toNat / 16) (by omega)).2
    · exact (hexDigit_spec (b.toNat % 16) (by omega)).2
  have hdrop : ∀ l : List Char, (∀ c ∈ l, isSpace c = false) → l.dropWhile isSpace = l := by
    rintro (_ | ⟨c, l⟩) hl
    · rfl
    · rw [dropWhile_cons_of_neg]
      rw [hl c mem_cons_self]
      exact Bool.false_ne_true
  have htrim : trimSpace (String.ofList digits) = digits := by
    rw [trimSpace, String.toList_ofList, hdrop digits fun c hc ↦ (hdigit c hc).2,
      hdrop digits.reverse fun c hc ↦ (hdigit c (mem_reverse.mp hc)).2, reverse_reverse]
  have hlength : (digits.map Char.utf8Size).sum % 2 = 0 := by
    have hones : digits.map Char.utf8Size = replicate digits.length 1 := by
      rw [eq_replicate_iff, length_map]
      refine ⟨rfl, fun n hn ↦ ?_⟩
      obtain ⟨c, hc, rfl⟩ := mem_map.mp hn
      exact (hdigit c hc).1
    have htwo : digits.length = data.length * 2 := by
      rw [hdigits, length_flatMap]
      simp
    rw [hones, sum_replicate_nat, htwo, Nat.mul_one, Nat.mul_mod_left]
  rw [hexDecode, htrim]
  simp only [hlength, ne_eq, not_true_eq_false, if_false]
  exact hexDecodePairs_encode data

end OtaPlatform
