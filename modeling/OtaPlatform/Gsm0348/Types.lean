import OtaPlatform.Pipeline.Types

/-!
# Secured packets: types

The parameters, inputs and results of the GSM 03.48 packet layer. The modes are bytes with named
values, as in the source, so an unnamed value is a value like any other.

`SecuredPackets` is what the executor needs of that layer: one function that builds a command packet
and one that parses a response. The executor is modelled for whatever these two functions are.
-/

namespace OtaPlatform

/-- The cryptographic checksum mode. -/
abbrev CertificationMode := UInt8

/-- The counter replay protection mode. -/
abbrev CounterMode := UInt8

/-- The proof of receipt mode. -/
abbrev PoRMode := UInt8

abbrev CipherMode := UInt8

def certNone : CertificationMode := 0x00
def certRC : CertificationMode := 0x01
def certCC : CertificationMode := 0x02
def certDS : CertificationMode := 0x03

def counterNone : CounterMode := 0x00
def counterNoReplay : CounterMode := 0x01
def counterReplayCheck : CounterMode := 0x02

def porNone : PoRMode := 0x00
def porAlways : PoRMode := 0x01
def porOnError : PoRMode := 0x02

def cipherDESCBC : CipherMode := 0x00
def cipher3DESCBC2Keys : CipherMode := 0x01
def cipher3DESCBC3Keys : CipherMode := 0x02
def cipherAESCBC : CipherMode := 0x03

/-- The response status of a command that was executed. -/
def respOK : UInt8 := 0x00

structure SecurityProfile where
  certMode : CertificationMode
  ciphered : Bool
  counterMode : CounterMode
  porMode : PoRMode
  porCertMode : CertificationMode
  porCiphered : Bool
  porProtocol : UInt8
  kicAlgo : UInt8
  kicMode : CipherMode
  kicKeysetID : UInt8
  kidAlgo : UInt8
  kidMode : CipherMode
  kidKeysetID : UInt8
  /-- The packet length counts the header and length octets. -/
  securityBytesWithLengthsAndUDHL : Bool
deriving DecidableEq, Repr

structure CommandPacketInput where
  tar : Bytes
  /-- The replay counter, five octets. -/
  counter : Bytes
  /-- The ciphering key, without a crypto provider. -/
  cipheringKey : Bytes := []
  /-- The signing key, without a crypto provider. -/
  signingKey : Bytes := []
  userData : Bytes
  /-- The card whose keys a crypto provider uses. -/
  cardID : Option UUID := none
deriving DecidableEq, Repr

structure ResponsePacket where
  tar : Bytes
  counter : Bytes
  pcntr : UInt8
  statusCode : UInt8
  signature : Bytes
  data : Bytes
deriving DecidableEq, Repr

/-- The packet layer as the executor sees it. -/
structure SecuredPackets where
  buildCommandPacket : SecurityProfile → CommandPacketInput → Except String Bytes
  /-- Parses a response, given the ciphering and the signing key. -/
  parseResponsePacket : SecurityProfile → Bytes → Bytes → Bytes → Except String ResponsePacket

end OtaPlatform
