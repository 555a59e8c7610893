import AurixVoice.Protocol.Packet

/-! STUN messages as in `stun.rs`. The walks go over the bytes that are left where the code keeps an offset. -/

namespace AurixVoice.Turn

open Protocol (Suite)

abbrev Bytes := List UInt8

structure TurnSuite extends Suite where
  hmacSha1 : Bytes → Bytes → Vector UInt8 20
  md5 : Bytes → Vector UInt8 16
  base64 : Bytes → Bytes
  base64Url : Bytes → Bytes

def pad (n : ℕ) (bytes : Bytes) : Vector UInt8 n := Vector.ofFn fun i => bytes.getD i 0

@[simp] lemma pad_append {n : ℕ} (v : Vector UInt8 n) (rest : Bytes) : pad n (v.toList ++ rest) = v := by
  apply Vector.ext
  intro i hi
  have hlt : i < v.toList.length := by simpa using hi
  simp [pad, List.getElem?_append_left hlt, Vector.getElem?_eq_getElem hi]

def TurnSuite.masks : TurnSuite where
  toSuite := .masks
  hmacSha1 key text := Vector.zipWith (· ^^^ ·) (pad 20 key) (pad 20 text)
  md5 := pad 16
  base64 := id
  base64Url := id

inductive IpAddr
  | v4 (octets : Vector UInt8 4)
  | v6 (octets : Vector UInt8 16)
  deriving DecidableEq

inductive SocketAddr
  | v4 (ip : Vector UInt8 4) (port : UInt16)
  | v6 (ip : Vector UInt8 16) (port : UInt16) (flowinfo scopeId : UInt32)
  deriving DecidableEq

namespace SocketAddr

def new : IpAddr → UInt16 → SocketAddr
  | .v4 octets, port => v4 octets port
  | .v6 octets, port => v6 octets port 0 0

def ip : SocketAddr → IpAddr
  | v4 octets _ => .v4 octets
  | v6 octets _ _ _ => .v6 octets

def port : SocketAddr → UInt16
  | v4 _ port => port
  | v6 _ port _ _ => port

def isIpv4 : SocketAddr → Bool
  | v4 _ _ => true
  | v6 _ _ _ _ => false

end SocketAddr

def stunMagicCookie : UInt32 := 0x2112A442
def stunHeaderSize : ℕ := 20
def stunFingerprintXor : UInt32 := 0x5354554E

inductive StunMessageType
  | bindingRequest
  | bindingResponse
  | bindingErrorResponse
  | allocateRequest
  | allocateResponse
  | allocateErrorResponse
  | refreshRequest
  | refreshResponse
  | sendIndication
  | dataIndication
  | createPermissionRequest
  | createPermissionResponse
  | channelBindRequest
  | channelBindResponse
  | refreshErrorResponse
  | createPermissionErrorResponse
  | channelBindErrorResponse
  deriving DecidableEq

namespace StunMessageType

def toU16 : StunMessageType → UInt16
  | bindingRequest => 0x0001
  | bindingResponse => 0x0101
  | bindingErrorResponse => 0x0111
  | allocateRequest => 0x0003
  | allocateResponse => 0x0103
  | allocateErrorResponse => 0x0113
  | refreshRequest => 0x0004
  | refreshResponse => 0x0104
  | sendIndication => 0x0016
  | dataIndication => 0x0017
  | createPermissionRequest => 0x0008
  | createPermissionResponse => 0x0108
  | channelBindRequest => 0x0009
  | channelBindResponse => 0x0109
  | refreshErrorResponse => 0x0114
  | createPermissionErrorResponse => 0x0118
  | channelBindErrorResponse => 0x0119

def errorResponse : StunMessageType → StunMessageType
  | bindingRequest => bindingErrorResponse
  | allocateRequest => allocateErrorResponse
  | refreshRequest => refreshErrorResponse
  | createPermissionRequest => createPermissionErrorResponse
  | channelBindRequest => channelBindErrorResponse
  | other => other

def fromU16 (v : UInt16) : Option StunMessageType :=
  match v with
  | 0x0001 => some bindingRequest
  | 0x0101 => some bindingResponse
  | 0x0111 => some bindingErrorResponse
  | 0x0003 => some allocateRequest
  | 0x0103 => some allocateResponse
  | 0x0113 => some allocateErrorResponse
  | 0x0004 => some refreshRequest
  | 0x0104 => some refreshResponse
  | 0x0016 => some sendIndication
  | 0x0017 => some dataIndication
  | 0x0008 => some createPermissionRequest
  | 0x0108 => some createPermissionResponse
  | 0x0009 => some channelBindRequest
  | 0x0109 => some channelBindResponse
  | 0x0114 => some refreshErrorResponse
  | 0x0118 => some createPermissionErrorResponse
  | 0x0119 => some channelBindErrorResponse
  | _ => none

@[simp] lemma fromU16_toU16 (t : StunMessageType) : fromU16 t.toU16 = some t := by
  cases t <;> rfl

lemma toU16_fromU16 {v : UInt16} {t : StunMessageType} (h : fromU16 v = some t) : t.toU16 = v := by
  unfold fromU16 at h
  split at h
  all_goals cases h
  all_goals rfl

end StunMessageType

inductive StunAttributeType
  | mappedAddress
  | username
  | messageIntegrity
  | errorCode
  | unknownAttributes
  | realm
  | nonce
  | xorMappedAddress
  | software
  | fingerprint
  | channelNumber
  | lifetime
  | xorPeerAddress
  | data
  | xorRelayedAddress
  | requestedTransport
  | dontFragment
  | reservationToken
  | evenPort
  | requestedAddressFamily
  deriving DecidableEq

def StunAttributeType.toU16 : StunAttributeType → UInt16
  | mappedAddress => 0x0001
  | username => 0x0006
  | messageIntegrity => 0x0008
  | errorCode => 0x0009
  | unknownAttributes => 0x000A
  | realm => 0x0014
  | nonce => 0x0015
  | xorMappedAddress => 0x0020
  | software => 0x8022
  | fingerprint => 0x8028
  | channelNumber => 0x000C
  | lifetime => 0x000D
  | xorPeerAddress => 0x0012
  | data => 0x0013
  | xorRelayedAddress => 0x0016
  | requestedTransport => 0x0019
  | dontFragment => 0x001A
  | reservationToken => 0x0022
  | evenPort => 0x0018
  | requestedAddressFamily => 0x0017

structure StunAttribute where
  attrType : UInt16
  value : Bytes
  deriving DecidableEq

structure StunMessage where
  msgType : StunMessageType
  transactionId : Vector UInt8 12
  attributes : List StunAttribute
  deriving DecidableEq

def padding (len : ℕ) : ℕ := (4 - len % 4) % 4

def validUtf8 : Bytes → Bool
  | [] => true
  | a :: rest =>
    if a < 0x80 then validUtf8 rest
    else match rest with
      | [] => false
      | b :: rest =>
        if 0xC2 ≤ a ∧ a ≤ 0xDF then continuation b && validUtf8 rest
        else match rest with
          | [] => false
          | c :: rest =>
            if 0xE0 ≤ a ∧ a ≤ 0xEF then
              (if a = 0xE0 then 0xA0 ≤ b && b ≤ 0xBF else if a = 0xED then 0x80 ≤ b && b ≤ 0x9F
                else continuation b) && continuation c && validUtf8 rest
            else match rest with
              | [] => false
              | d :: rest =>
                if 0xF0 ≤ a ∧ a ≤ 0xF4 then
                  (if a = 0xF0 then 0x90 ≤ b && b ≤ 0xBF else if a = 0xF4 then 0x80 ≤ b && b ≤ 0x8F
                    else continuation b) && continuation c && continuation d && validUtf8 rest
                else false
where
  continuation (b : UInt8) : Bool := 0x80 ≤ b && b ≤ 0xBF

def hexU16 (v : UInt16) : String :=
  String.ofList ('0' :: 'x' :: [12, 8, 4, 0].map fun shift => E2ee.hexDigit (v.toNat / 2 ^ shift % 16))

def attributeHeader (rest : Bytes) : UInt16 × ℕ × Bytes :=
  ((getU16 rest).1, (getU16 (getU16 rest).2).1.toNat, (getU16 (getU16 rest).2).2)

lemma attributeHeader_lt {rest : Bytes} (h : 4 ≤ rest.length) (n : ℕ) :
    ((attributeHeader rest).2.2.drop n).length < rest.length := by
  simp only [attributeHeader, getU16, List.length_drop]
  omega

def findFrom (wanted : UInt16) (i : ℕ) (rest : Bytes) : Option ℕ :=
  if _h : rest.length < 4 then none
  else
    let attr := attributeHeader rest
    if attr.1 = wanted then some i
    else findFrom wanted (i + 4 + attr.2.1 + padding attr.2.1) (attr.2.2.drop (attr.2.1 + padding attr.2.1))
termination_by rest.length
decreasing_by exact attributeHeader_lt (Nat.not_lt.mp _h) _

def findAttributeOffset (raw : Bytes) (wanted : UInt16) : Option ℕ :=
  findFrom wanted stunHeaderSize (raw.drop stunHeaderSize)

def decodeAttributes (seenIntegrity : Bool) (rest : Bytes) : Except AurixError (List StunAttribute) :=
  if _h : rest.length < 4 then .ok []
  else
    let attr := attributeHeader rest
    if attr.2.2.length < attr.2.1 then .error (.stunTurn "Attribute exceeds message")
    else
      let ignored := seenIntegrity && attr.1 ≠ StunAttributeType.fingerprint.toU16
      let seen := seenIntegrity || attr.1 = StunAttributeType.messageIntegrity.toU16
      match decodeAttributes seen (attr.2.2.drop (attr.2.1 + padding attr.2.1)) with
      | .error e => .error e
      | .ok later => .ok (if ignored then later else ⟨attr.1, attr.2.2.take attr.2.1⟩ :: later)
termination_by rest.length
decreasing_by exact attributeHeader_lt (Nat.not_lt.mp _h) _

namespace StunMessage

variable (m : StunMessage) (attrType : StunAttributeType)

def new (msgType : StunMessageType) (transactionId : Vector UInt8 12) : StunMessage :=
  ⟨msgType, transactionId, []⟩

def addAttribute (value : Bytes) : StunMessage :=
  { m with attributes := m.attributes ++ [⟨attrType.toU16, value⟩] }

def getAttribute : Option StunAttribute :=
  m.attributes.find? fun a => a.attrType = attrType.toU16

def cookie : Vector UInt8 4 := pad 4 (putU32 stunMagicCookie)

def portMask : UInt16 := (stunMagicCookie >>> 16).toUInt16

def addressMask : Vector UInt8 16 := cookie ++ m.transactionId

def encodeXorAddress : SocketAddr → Bytes
  | .v4 ip port => [0, 1] ++ putU16 (port ^^^ portMask) ++ (Vector.zipWith (· ^^^ ·) ip cookie).toList
  | .v6 ip port _ _ =>
    [0, 2] ++ putU16 (port ^^^ portMask) ++ (Vector.zipWith (· ^^^ ·) ip m.addressMask).toList

def decodeXorAddress (value : Bytes) : Option SocketAddr :=
  if value.length < 8 then none
  else
    let port := (getU16 (value.drop 2)).1 ^^^ portMask
    let octets := value.drop 4
    if value.getD 1 0 = 1 then
      some (.new (.v4 (Vector.zipWith (· ^^^ ·) (pad 4 octets) cookie)) port)
    else if value.getD 1 0 = 2 ∧ 20 ≤ value.length then
      some (.new (.v6 (Vector.zipWith (· ^^^ ·) (pad 16 octets) m.addressMask)) port)
    else none

def addXorAddress (addr : SocketAddr) : StunMessage :=
  m.addAttribute attrType (m.encodeXorAddress addr)

def getXorAddress : Option SocketAddr :=
  (m.getAttribute attrType).bind fun a => m.decodeXorAddress a.value

def getAllXorAddresses : List SocketAddr :=
  (m.attributes.filter fun a => a.attrType = attrType.toU16).filterMap fun a => m.decodeXorAddress a.value

def getU32 : Option UInt32 :=
  (m.getAttribute attrType).bind fun a => if a.value.length < 4 then none else some (AurixVoice.getU32 a.value).1

def getString : Option Bytes :=
  (m.getAttribute attrType).bind fun a => if validUtf8 a.value then some a.value else none

def text (s : String) : Bytes := E2ee.infoBytes s

def addErrorCode (code : ℕ) (reason : String) : StunMessage :=
  m.addAttribute .errorCode ([0, 0, (code / 100).toUInt8, (code % 100).toUInt8] ++ text reason)

def addSoftware (name : String) : StunMessage := m.addAttribute .software (text name)

def isTrailer (a : StunAttribute) : Bool :=
  a.attrType = StunAttributeType.messageIntegrity.toU16 || a.attrType = StunAttributeType.fingerprint.toU16

def encodeAttribute (a : StunAttribute) : Bytes :=
  putU16 a.attrType ++ putU16 (UInt16.ofNat a.value.length) ++ a.value ++ List.replicate (padding a.value.length) 0

def encodeBase : Bytes :=
  let attrsBuf := (m.attributes.filter fun a => !isTrailer a).flatMap encodeAttribute
  putU16 m.msgType.toU16 ++ putU16 (UInt16.ofNat attrsBuf.length) ++ putU32 stunMagicCookie ++
    m.transactionId.toList ++ attrsBuf

def setLength (buf : Bytes) (len : ℕ) : Bytes := buf.take 2 ++ putU16 (UInt16.ofNat len) ++ buf.drop 4

variable (suite : TurnSuite)

def appendFingerprint (buf : Bytes) : Bytes :=
  let buf := setLength buf (buf.length - stunHeaderSize + 8)
  let crc := suite.crc32 buf ^^^ stunFingerprintXor
  buf ++ putU16 StunAttributeType.fingerprint.toU16 ++ putU16 4 ++ putU32 crc

def encode (m : StunMessage) : Bytes := appendFingerprint suite m.encodeBase

def encodeWithIntegrity (m : StunMessage) (key : Bytes) : Bytes :=
  let buf := m.encodeBase
  let buf := setLength buf (buf.length - stunHeaderSize + 24)
  let tag := suite.hmacSha1 key buf
  appendFingerprint suite (buf ++ putU16 StunAttributeType.messageIntegrity.toU16 ++ putU16 20 ++ tag.toList)

def verifyIntegrity (raw key : Bytes) : Bool :=
  match findAttributeOffset raw StunAttributeType.messageIntegrity.toU16 with
  | none => false
  | some miOffset =>
    if raw.length < miOffset + 24 then false
    else
      let adjustedLen := UInt16.ofNat (miOffset - stunHeaderSize + 24)
      let input := raw.take 2 ++ putU16 adjustedLen ++ (raw.take miOffset).drop 4
      (suite.hmacSha1 key input).toList = (raw.drop (miOffset + 4)).take 20

def verifyFingerprint (raw : Bytes) : Bool :=
  match findAttributeOffset raw StunAttributeType.fingerprint.toU16 with
  | none => true
  | some off =>
    if raw.length < off + 8 then false
    else
      let stored := (AurixVoice.getU32 (raw.drop (off + 4))).1
      let head := setLength (raw.take off) (off - stunHeaderSize + 8)
      suite.crc32 head ^^^ stunFingerprintXor = stored

def decode (data : Bytes) : Except AurixError StunMessage :=
  if data.length < stunHeaderSize then .error (.stunTurn "Message too short")
  else
    let msgTypeRaw := (getU16 data).1
    let msgLen := (getU16 (data.drop 2)).1.toNat
    if (AurixVoice.getU32 (data.drop 4)).1 ≠ stunMagicCookie then .error (.stunTurn "Invalid STUN magic cookie")
    else match StunMessageType.fromU16 msgTypeRaw with
      | none => .error (.stunTurn ("Unknown message type: " ++ hexU16 msgTypeRaw))
      | some msgType =>
        let transactionId := pad 12 (data.drop 8)
        if msgLen % 4 ≠ 0 then .error (.stunTurn "Message length not 4-byte aligned")
        else if data.length ≠ stunHeaderSize + msgLen then .error (.stunTurn "Message length mismatch")
        else match decodeAttributes false (data.drop stunHeaderSize) with
          | .error e => .error e
          | .ok attributes => .ok ⟨msgType, transactionId, attributes⟩

def stunFrameLen (data : Bytes) : Option ℕ :=
  if data.length < stunHeaderSize then none
  else if data.getD 0 0 &&& 0xC0 ≠ 0x00 then none
  else if (AurixVoice.getU32 (data.drop 4)).1 ≠ stunMagicCookie then none
  else some (stunHeaderSize + (getU16 (data.drop 2)).1.toNat)

def isStun (data : Bytes) : Bool := (stunFrameLen data).isSome

end StunMessage

end AurixVoice.Turn
