import AurixVoice.Library.Crc
import AurixVoice.Protocol.Packet

/-! The AURX codec of the browser SDK; the numbers of a header only pass through 32-bit operators. -/

namespace AurixVoice.Web

open Protocol (Bytes Suite)

structure AurxHeader where
  packetType : UInt32
  flags : UInt32
  sequence : UInt32
  timestamp : UInt32
  ssrc : UInt32
  channelIdHash : UInt32
  deriving DecidableEq

structure AurxPacket where
  header : AurxHeader
  payload : Bytes
  authTag : Option Bytes
  deriving DecidableEq

def aurxHeaderSize : ℕ := 30
def aurxAuthTagSize : ℕ := 16
def aurxMaxPacketSize : ℕ := 1400
def aurxProtocolVersion : UInt8 := 2
def magic : Bytes := [0x41, 0x55, 0x52, 0x58]

namespace AurxPacketType

def audio : UInt32 := 0x01

end AurxPacketType

namespace AurxFlags

def encrypted : UInt32 := 0x0001
def pcma : UInt32 := 0x0010
def volumeAttenuated : UInt32 := 0x0080
def e2ee : UInt32 := 0x0100
def authenticated : UInt32 := 0x0400
def directional : UInt32 := 0x1000
def pcmu : UInt32 := 0x2000
def mixed : UInt32 := 0x4000

end AurxFlags

def crcTable : Vector UInt32 256 := Vector.ofFn fun n =>
  (List.range 8).foldl (fun (c : UInt32) _ => if c &&& 1 ≠ 0 then (0xedb88320 : UInt32) ^^^ (c >>> 1) else c >>> 1)
    (UInt32.ofNat n)

def crc32 (data : Bytes) : UInt32 :=
  data.foldl (fun (c : UInt32) b => crcTable.get ((c ^^^ b.toUInt32) &&& 0xff).toUInt8.toFin ^^^ (c >>> 8))
    0xffffffff ^^^ 0xffffffff

def encodeHeader (h : AurxHeader) (payloadLength : ℕ) (checksum : UInt32) (out : Bytes) : Bytes :=
  let out := blit out 0 magic
  let out := blit out 4 [aurxProtocolVersion]
  let out := blit out 5 [(h.packetType &&& 0xff).toUInt8]
  let out := blit out 6 (putU16 (h.flags &&& 0xffff).toUInt16)
  let out := blit out 8 (putU32 h.sequence)
  let out := blit out 12 (putU32 h.timestamp)
  let out := blit out 16 (putU32 h.ssrc)
  let out := blit out 20 (putU32 h.channelIdHash)
  let out := blit out 24 (putU16 (UInt16.ofNat payloadLength))
  blit out 26 (putU32 checksum)

def decodePacket (data : Bytes) : Option AurxPacket :=
  if data.length < aurxHeaderSize ∨ aurxMaxPacketSize < data.length then none
  else if slice data 0 4 ≠ magic then none
  else if byteAt data 4 ≠ aurxProtocolVersion then none
  else
    let header : AurxHeader := {
      packetType := (byteAt data 5).toUInt32
      flags := (u16At data 6).toUInt32
      sequence := u32At data 8
      timestamp := u32At data 12
      ssrc := u32At data 16
      channelIdHash := u32At data 20 }
    let payloadLength := (u16At data 24).toNat
    let checksum := u32At data 26
    let authenticated := decide (header.flags &&& AurxFlags.authenticated ≠ 0)
    let expected := aurxHeaderSize + payloadLength + if authenticated then aurxAuthTagSize else 0
    if data.length ≠ expected then none
    else
      let payload := slice data aurxHeaderSize payloadLength
      if crc32 payload ≠ checksum then none
      else some ⟨header, payload,
        if authenticated then some (data.drop (aurxHeaderSize + payloadLength)) else none⟩

variable (suite : Suite)

structure AurxKeys where
  auth : Vector UInt8 32
  enc : Vector UInt8 32
  salt : Vector UInt8 16

def ascii (label : String) : Bytes := label.toList.map fun c => (c.toNat &&& 0x7f).toUInt8

namespace AurxKeys

variable (keys : AurxKeys) (h : AurxHeader)

def derive (master : Bytes) : Except String AurxKeys :=
  if master.length ≠ 32 then .error "AURX master key must be 32 bytes"
  else .ok {
    auth := suite.hmac master (ascii "AURXv2 auth")
    enc := suite.hmac master (ascii "AURXv2 enc")
    salt := (suite.hmac master (ascii "AURXv2 salt")).take 16 }

def ivBytes : Bytes :=
  let iv := List.replicate 16 0
  let iv := blit iv 0 [(h.packetType &&& 0xff).toUInt8]
  let iv := blit iv 2 (putU32 h.ssrc)
  let iv := blit iv 6 (putU32 h.sequence)
  blit iv 10 (putU32 h.timestamp)

def iv : Vector UInt8 16 :=
  Vector.ofFn fun i => (ivBytes h).getD i 0 ^^^ keys.salt.get i

def ctr (data : Bytes) : Bytes :=
  if data.length = 0 then [] else E2ee.aes256Ctr suite.toCrypto keys.enc (keys.iv h) data

def tag (headerAndPayload : Bytes) : Bytes :=
  (suite.hmac keys.auth.toList headerAndPayload).toList.take aurxAuthTagSize

def sealPacket (header : AurxHeader) (payload : Bytes) : Except String Bytes :=
  if aurxMaxPacketSize < aurxHeaderSize + payload.length + aurxAuthTagSize then
    .error "AURX payload too large"
  else
    let h := { header with flags := header.flags ||| AurxFlags.encrypted ||| AurxFlags.authenticated }
    let out := List.replicate (aurxHeaderSize + payload.length + aurxAuthTagSize) 0
    let cipher := keys.ctr suite h payload
    let out := blit out aurxHeaderSize cipher
    let out := encodeHeader h payload.length (crc32 cipher) out
    .ok (blit out (aurxHeaderSize + payload.length)
      (keys.tag suite (slice out 0 (aurxHeaderSize + payload.length))))

def openPacket (data : Bytes) (packet : AurxPacket) : Option AurxPacket :=
  match packet.authTag with
  | none => none
  | some authTag =>
    let signed := slice data 0 (aurxHeaderSize + packet.payload.length)
    let expected := keys.tag suite signed
    let diff := (List.range aurxAuthTagSize).foldl
      (fun d i => d ||| (byteAt expected i ^^^ byteAt authTag i)) 0
    if diff ≠ 0 then none
    else if packet.header.flags &&& AurxFlags.encrypted = 0 then some packet
    else
      let plain := keys.ctr suite packet.header packet.payload
      some {
        header := { packet.header with flags := packet.header.flags &&& ~~~AurxFlags.encrypted }
        payload := plain
        authTag := some authTag }

end AurxKeys

structure AurxDirection where
  azimuth : Float
  elevation : Float

def pi : Float := 3.141592653589793

def decodeVolumeByte (byte : UInt8) : Float := byte.toFloat / 128.0

def decodeDirection (az el : UInt8) : AurxDirection :=
  ⟨az.toInt8.toFloat * pi / 127.0, el.toInt8.toFloat * (pi / 2.0) / 127.0⟩

inductive DownlinkCodec
  | opus
  | pcmu
  | pcma
  deriving DecidableEq

def downlinkCodec (flags : UInt32) : DownlinkCodec :=
  if flags &&& AurxFlags.pcmu ≠ 0 then .pcmu
  else if flags &&& AurxFlags.pcma ≠ 0 then .pcma
  else .opus

structure DownlinkAudio where
  ssrc : UInt32
  sequence : UInt32
  timestamp : UInt32
  channelIdHash : UInt32
  gain : Float
  direction : Option AurxDirection
  e2ee : Bool
  mixed : Bool
  codec : DownlinkCodec
  frame : Bytes

def takeGain (flags : UInt32) (payload : Bytes) : Option (Float × ℕ) :=
  if flags &&& AurxFlags.volumeAttenuated ≠ 0 then
    if payload.length < 1 then none else some (decodeVolumeByte (byteAt payload 0), 1)
  else some (1.0, 0)

def takeDirection (flags : UInt32) (payload : Bytes) (off : ℕ) : Option (Option AurxDirection × ℕ) :=
  if flags &&& AurxFlags.directional ≠ 0 then
    if payload.length < off + 2 then none
    else some (some (decodeDirection (byteAt payload off) (byteAt payload (off + 1))), off + 2)
  else some (none, off)

def parseDownlinkAudio (p : AurxPacket) : Option DownlinkAudio :=
  if p.header.packetType ≠ AurxPacketType.audio then none
  else
    let f := p.header.flags
    match takeGain f p.payload with
    | none => none
    | some (gain, off) =>
      match takeDirection f p.payload off with
      | none => none
      | some (direction, off) => some {
        ssrc := p.header.ssrc
        sequence := p.header.sequence
        timestamp := p.header.timestamp
        channelIdHash := p.header.channelIdHash
        gain
        direction
        e2ee := f &&& AurxFlags.e2ee ≠ 0
        mixed := f &&& AurxFlags.mixed ≠ 0
        codec := downlinkCodec f
        frame := p.payload.drop off }

end AurixVoice.Web
