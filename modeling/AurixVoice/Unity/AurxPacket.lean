import AurixVoice.Library.Crc
import AurixVoice.Protocol.DownlinkMeta

/-! The AURX codec of the Unity SDK, with buffers written at offsets as the C# has them. -/

namespace AurixVoice.Unity

open Protocol (Bytes Suite)

/-- What the SDKs take from their platforms: .NET gives HMAC-SHA256, SHA-256, X25519 and single AES-256
blocks. -/
structure Platform where
  hmac : Bytes → Bytes → Vector UInt8 32
  sha256 : Bytes → Vector UInt8 32
  aes : Vector UInt8 32 → Block → Block
  publicKey : Vector UInt8 32 → Vector UInt8 32
  diffieHellman : Vector UInt8 32 → Vector UInt8 32 → Vector UInt8 32

/-- The same primitives as the native crates and WebCrypto offer them: AES in counter mode, and CRC-32
by its standard. -/
def Platform.suite (pl : Platform) : Suite where
  hmac := pl.hmac
  sha256 := pl.sha256
  keystream key := ctrKeystream (pl.aes key)
  publicKey := pl.publicKey
  diffieHellman := pl.diffieHellman
  crc32 := crc32Ieee

def Platform.masks : Platform where
  hmac := E2ee.Crypto.masks.hmac
  sha256 := E2ee.Crypto.masks.sha256
  aes _ _ := Vector.replicate 16 0
  publicKey := E2ee.Crypto.masks.publicKey
  diffieHellman := E2ee.Crypto.masks.diffieHellman

namespace Crc32

def table : Vector UInt32 256 := Vector.ofFn fun i =>
  (List.range 8).foldl (fun (c : UInt32) _ => if c &&& 1 ≠ 0 then (0xEDB88320 : UInt32) ^^^ (c >>> 1) else c >>> 1)
    (UInt32.ofNat i)

def compute (data : Bytes) : UInt32 :=
  data.foldl (fun (crc : UInt32) b => table.get ((crc ^^^ b.toUInt32) &&& 0xFF).toUInt8.toFin ^^^ (crc >>> 8))
    0xFFFFFFFF ^^^ 0xFFFFFFFF

end Crc32

variable (pl : Platform)

structure MediaKeys where
  auth : Vector UInt8 32
  enc : Vector UInt8 32
  salt : Vector UInt8 16

namespace MediaKeys

def label (master : Bytes) (text : String) : Vector UInt8 32 :=
  pl.hmac master (text.toList.map fun c => c.toNat.toUInt8)

def derive (master : Bytes) : Except String MediaKeys :=
  if master.length = 0 then .error "master key required"
  else .ok {
    auth := label pl master "AURXv2 auth"
    enc := label pl master "AURXv2 enc"
    salt := (label pl master "AURXv2 salt").take 16 }

def computeTag (keys : MediaKeys) (buf : Bytes) (len : ℕ) : Vector UInt8 16 :=
  (pl.hmac keys.auth.toList (buf.take len)).take 16

def ivBytes (packetType : UInt8) (ssrc sequence timestamp : UInt32) : Bytes :=
  let iv := List.replicate 16 0
  let iv := blit iv 0 [packetType]
  let iv := blit iv 2 (putU32 ssrc)
  let iv := blit iv 6 (putU32 sequence)
  blit iv 10 (putU32 timestamp)

def iv (keys : MediaKeys) (packetType : UInt8) (ssrc sequence timestamp : UInt32) : Block :=
  Vector.ofFn fun i => (ivBytes packetType ssrc sequence timestamp).getD i 0 ^^^ keys.salt.get i

def applyCtr (keys : MediaKeys) (iv : Block) (data : Bytes) : Bytes :=
  if data.length = 0 then data
  else List.zipWith (· ^^^ ·) data (blockStream (pl.aes keys.enc) iv ((data.length + 15) / 16))

end MediaKeys

def protocolVersion : UInt8 := 2
def magic : Bytes := [0x41, 0x55, 0x52, 0x58]
def maxPacketSize : ℕ := 1400
def headerSize : ℕ := 30
def authTagSize : ℕ := 16

def packetTypes : List UInt8 :=
  [0x01, 0x02, 0x10, 0x20, 0x21, 0x30, 0x31, 0x32, 0x33, 0x34, 0x40, 0x41, 0x42, 0x50, 0x60, 0x61, 0x70, 0x71,
    0x80, 0xFF]

namespace PacketFlags

def encrypted : UInt16 := 0x0001
def volumeAttenuated : UInt16 := 0x0080
def authenticated : UInt16 := 0x0400
def directional : UInt16 := 0x1000

end PacketFlags

structure PacketHeader where
  version : UInt8
  type : UInt8
  flags : UInt16
  sequence : UInt32
  timestamp : UInt32
  ssrc : UInt32
  channelIdHash : UInt32
  payloadLength : UInt16
  checksum : UInt32
  deriving DecidableEq

namespace PacketHeader

def encode (h : PacketHeader) (dst : Bytes) : Bytes :=
  let dst := blit dst 0 magic
  let dst := blit dst 4 [h.version]
  let dst := blit dst 5 [h.type]
  let dst := blit dst 6 (putU16 h.flags)
  let dst := blit dst 8 (putU32 h.sequence)
  let dst := blit dst 12 (putU32 h.timestamp)
  let dst := blit dst 16 (putU32 h.ssrc)
  let dst := blit dst 20 (putU32 h.channelIdHash)
  let dst := blit dst 24 (putU16 h.payloadLength)
  blit dst 26 (putU32 h.checksum)

def tryDecode (src : Bytes) : Except String PacketHeader :=
  if src.length < headerSize then .error "packet too short for header"
  else if slice src 0 4 ≠ magic then .error "invalid magic"
  else if byteAt src 4 ≠ protocolVersion then .error "unsupported protocol version"
  else if byteAt src 5 ∉ packetTypes then .error "unknown packet type"
  else .ok {
    version := byteAt src 4
    type := byteAt src 5
    flags := u16At src 6
    sequence := u32At src 8
    timestamp := u32At src 12
    ssrc := u32At src 16
    channelIdHash := u32At src 20
    payloadLength := u16At src 24
    checksum := u32At src 26 }

end PacketHeader

structure AurxPacket where
  header : PacketHeader
  payload : Bytes
  authTag : Option Bytes
  deriving DecidableEq

namespace AurxPacket

variable (p : AurxPacket) (keys : MediaKeys)

def isEncrypted : Bool := p.header.flags &&& PacketFlags.encrypted ≠ 0

def sealPacket : Bytes :=
  let header := { p.header with
    flags := p.header.flags ||| (PacketFlags.authenticated ||| PacketFlags.encrypted)
    payloadLength := UInt16.ofNat p.payload.length }
  let buf := List.replicate (headerSize + p.payload.length + authTagSize) 0
  let buf := blit buf headerSize p.payload
  let iv := keys.iv header.type header.ssrc header.sequence header.timestamp
  let buf := blit buf headerSize (keys.applyCtr pl iv (slice buf headerSize p.payload.length))
  let header := { header with checksum := Crc32.compute (slice buf headerSize p.payload.length) }
  let buf := header.encode buf
  blit buf (headerSize + p.payload.length) (keys.computeTag pl buf (headerSize + p.payload.length)).toList

def tryDecode (data : Bytes) : Except String AurxPacket :=
  if maxPacketSize < data.length then .error "packet exceeds max size"
  else
    match PacketHeader.tryDecode data with
    | .error e => .error e
    | .ok header =>
      let authenticated := decide (header.flags &&& PacketFlags.authenticated ≠ 0)
      let expected := header.payloadLength.toNat + if authenticated then authTagSize else 0
      let rest := data.drop headerSize
      if rest.length < expected then .error "payload truncated"
      else if expected < rest.length then .error "trailing bytes after payload"
      else
        let payload := slice rest 0 header.payloadLength.toNat
        if Crc32.compute payload ≠ header.checksum then .error "checksum mismatch"
        else .ok ⟨header, payload,
          if authenticated then some (slice rest header.payloadLength.toNat authTagSize) else none⟩

def constantTimeEquals (a b : Bytes) : Bool :=
  if a.length ≠ b.length then false
  else (List.zipWith (· ^^^ ·) a b).foldl (· ||| ·) 0 = 0

def verifyAuth : Bool :=
  match p.authTag with
  | none => false
  | some tag =>
    let buf := List.replicate (headerSize + p.payload.length) 0
    let buf := blit (p.header.encode buf) headerSize p.payload
    constantTimeEquals (keys.computeTag pl buf buf.length).toList tag

def openPacket : Bool × AurxPacket :=
  if !p.verifyAuth pl keys then (false, p)
  else if p.isEncrypted then
    let iv := keys.iv p.header.type p.header.ssrc p.header.sequence p.header.timestamp
    let payload := keys.applyCtr pl iv p.payload
    (true, { p with
      header := { p.header with
        flags := p.header.flags &&& ~~~PacketFlags.encrypted, checksum := Crc32.compute payload }
      payload })
  else (true, p)

structure Direction where
  azimuth : Float32
  elevation : Float32

def azimuthScale : Float32 := 127.0 / 3.14159274
def elevationScale : Float32 := 127.0 / (3.14159274 / 2.0)

def Direction.decode (azimuth elevation : UInt8) : Direction :=
  ⟨azimuth.toInt8.toFloat32 / azimuthScale, elevation.toInt8.toFloat32 / elevationScale⟩

def volumeUnity : Float32 := 128.0

def volumeBytes : ℕ :=
  if p.header.flags &&& PacketFlags.volumeAttenuated ≠ 0 ∧ 0 < p.payload.length then 1 else 0

def directionBytes : ℕ :=
  if p.header.flags &&& PacketFlags.directional ≠ 0 ∧ p.volumeBytes + 2 ≤ p.payload.length then 2 else 0

def volume : Float32 :=
  if p.header.flags &&& PacketFlags.volumeAttenuated ≠ 0 ∧ 0 < p.payload.length then
    (byteAt p.payload 0).toFloat32 / volumeUnity
  else 1.0

def direction : Option Direction :=
  if p.directionBytes = 0 then none
  else some (.decode (byteAt p.payload p.volumeBytes) (byteAt p.payload (p.volumeBytes + 1)))

def takeDownlinkMeta : (Float32 × Option Direction) × AurxPacket :=
  let skip := p.volumeBytes + p.directionBytes
  let flags := p.header.flags &&& ~~~(PacketFlags.volumeAttenuated ||| PacketFlags.directional)
  if skip = 0 then ((p.volume, p.direction), { p with header := { p.header with flags } })
  else
    let rest := p.payload.drop skip
    ((p.volume, p.direction),
      { p with
        header := { p.header with flags, payloadLength := UInt16.ofNat rest.length }
        payload := rest })

end AurxPacket

end AurixVoice.Unity
