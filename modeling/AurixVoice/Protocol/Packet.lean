import AurixVoice.E2ee.Primitives
import AurixVoice.Library.CounterMode
import AurixVoice.Protocol.Header

namespace AurixVoice.Protocol

open E2ee (Crypto aes256Ctr infoBytes)

structure Suite extends Crypto where
  crc32 : Bytes → UInt32

def Suite.masks : Suite where
  toCrypto := .masks
  crc32 bytes := bytes.foldl (fun n b => n + b.toUInt32) 0

variable (suite : Suite)

structure MediaKeys where
  auth : Vector UInt8 32
  enc : Vector UInt8 32
  salt : Vector UInt8 16
  deriving DecidableEq

namespace MediaKeys

def derive (master : Bytes) : MediaKeys where
  auth := suite.hmac master (infoBytes "AURXv2 auth")
  enc := suite.hmac master (infoBytes "AURXv2 enc")
  salt := (suite.hmac master (infoBytes "AURXv2 salt")).take 16

def nonce (packetType : UInt8) (ssrc sequence timestamp : UInt32) : Vector UInt8 16 :=
  ⟨([packetType, 0] ++ putU32 ssrc ++ putU32 sequence ++ putU32 timestamp ++ [0, 0]).toArray, by simp⟩

def iv (keys : MediaKeys) (packetType : UInt8) (ssrc sequence timestamp : UInt32) : Vector UInt8 16 :=
  Vector.zipWith (· ^^^ ·) (nonce packetType ssrc sequence timestamp) keys.salt

def applyCtr (keys : MediaKeys) (iv : Vector UInt8 16) (data : Bytes) : Bytes :=
  aes256Ctr suite.toCrypto keys.enc iv data

def tag (keys : MediaKeys) (buf : Bytes) : Vector UInt8 16 := (suite.hmac keys.auth.toList buf).take 16

end MediaKeys

def PacketHeader.iv (h : PacketHeader) (keys : MediaKeys) : Vector UInt8 16 :=
  keys.iv h.packetType.toU8 h.ssrc h.sequence h.timestamp

def PacketHeader.nonceFields (h : PacketHeader) : PacketType × UInt32 × UInt32 × UInt32 :=
  (h.packetType, h.ssrc, h.sequence, h.timestamp)

lemma MediaKeys.nonce_inj {t t' : UInt8} {ssrc ssrc' seq seq' ts ts' : UInt32}
    (h : nonce t ssrc seq ts = nonce t' ssrc' seq' ts') : t = t' ∧ ssrc = ssrc' ∧ seq = seq' ∧ ts = ts' := by
  have hlist := congrArg Vector.toList h
  simp only [nonce, List.append_assoc, List.cons_append, List.nil_append, Vector.toList_mk,
    List.cons.injEq, true_and] at hlist
  obtain ⟨ht, hrest⟩ := hlist
  have hssrc := congrArg getU32 hrest
  simp only [getU32_put, Prod.mk.injEq] at hssrc
  obtain ⟨hssrc, hrest⟩ := hssrc
  have hseq := congrArg getU32 hrest
  simp only [getU32_put, Prod.mk.injEq] at hseq
  obtain ⟨hseq, hrest⟩ := hseq
  have hts := congrArg getU32 hrest
  simp only [getU32_put, Prod.mk.injEq] at hts
  exact ⟨ht, hssrc, hseq, hts.1⟩

lemma MediaKeys.iv_inj {keys : MediaKeys} {t t' : UInt8} {ssrc ssrc' seq seq' ts ts' : UInt32}
    (h : keys.iv t ssrc seq ts = keys.iv t' ssrc' seq' ts') : t = t' ∧ ssrc = ssrc' ∧ seq = seq' ∧ ts = ts' := by
  apply nonce_inj
  apply Vector.ext
  intro i hi
  have hbyte := congrArg (fun v : Vector UInt8 16 => v[i]) h
  simp only [iv, Vector.getElem_zipWith] at hbyte
  exact (UInt8.xor_left_inj _).mp hbyte

/-- The salt covers the two low bytes, which no field fills, so counting carries differently into the
fields of two packets only if the counts differ by 65536 blocks. -/
theorem MediaKeys.counterBlocks_disjoint (keys : MediaKeys) {t t' : UInt8} {ssrc ssrc' seq seq' ts ts' : UInt32}
    (hne : (t, ssrc, seq, ts) ≠ (t', ssrc', seq', ts')) {i j : ℕ} (hi : i < 65536) (hj : j < 65536) :
    counterBlock (keys.iv t ssrc seq ts) i ≠ counterBlock (keys.iv t' ssrc' seq' ts') j := by
  intro h
  have hlow (k : ℕ) (hk : 14 ≤ k ∧ k < 16) : (keys.iv t ssrc seq ts)[k] = (keys.iv t' ssrc' seq' ts')[k] := by
    obtain rfl | rfl : k = 14 ∨ k = 15 := by omega
    · simp [iv, nonce]
    · simp [iv, nonce]
  have hiv := eq_of_counterBlock_eq (hlow 14 (by decide)) (hlow 15 (by decide)) hi hj h
  obtain ⟨rfl, rfl, rfl, rfl⟩ := iv_inj hiv
  exact hne rfl

theorem MediaKeys.counterBlocks_disjoint_carried :
    counterBlock ((⟨.replicate 32 0, .replicate 32 0, .replicate 16 255⟩ : MediaKeys).iv 1 5 9 3) 1 ≠
      counterBlock ((⟨.replicate 32 0, .replicate 32 0, .replicate 16 255⟩ : MediaKeys).iv 1 5 9 2) 65535 :=
  counterBlocks_disjoint _ (by decide) (by decide) (by decide)

lemma PacketHeader.iv_inj {h h' : PacketHeader} {keys : MediaKeys} (heq : h.iv keys = h'.iv keys) :
    h.nonceFields = h'.nonceFields := by
  obtain ⟨htype, hssrc, hseq, hts⟩ := MediaKeys.iv_inj heq
  simp [nonceFields, PacketType.toU8_inj htype, hssrc, hseq, hts]

structure AurixPacket where
  header : PacketHeader
  payload : Bytes
  authTag : Option (Vector UInt8 16)
  deriving DecidableEq

namespace AurixPacket

variable (p : AurixPacket) (keys : MediaKeys)

def new (header : PacketHeader) (payload : Bytes) : AurixPacket := ⟨header, payload, none⟩

def finalizedHeader : PacketHeader :=
  { p.header with payloadLength := UInt16.ofNat p.payload.length, checksum := suite.crc32 p.payload }

def encode : Bytes :=
  ((p.finalizedHeader suite).clearFlag .authenticated).encode ++ p.payload

def encodeAuthenticated : Bytes :=
  let header := ((p.finalizedHeader suite).setFlag .authenticated).clearFlag .encrypted
  let buf := header.encode ++ p.payload
  buf ++ (keys.tag suite buf).toList

def sealParts (header : PacketHeader) (payload : Bytes) (keys : MediaKeys) : Bytes :=
  let body := keys.applyCtr suite (header.iv keys) payload
  let header := { (header.setFlag .authenticated).setFlag .encrypted with
    payloadLength := UInt16.ofNat payload.length, checksum := suite.crc32 body }
  let buf := header.encode ++ body
  buf ++ (keys.tag suite buf).toList

def sealPacket : Bytes := sealParts suite p.header p.payload keys

def tagOf (bytes : Bytes) : Vector UInt8 16 := Vector.ofFn fun i => bytes.getD i 0

def decodeBounded (data : Bytes) (maxSize : ℕ) : Except AurixError AurixPacket :=
  if maxSize < data.length then .error (.transport "Packet exceeds maximum size")
  else
    match PacketHeader.decode data with
    | .error e => .error e
    | .ok (header, bytes) =>
      let authenticated := header.hasFlag .authenticated
      let expected := header.payloadLength.toNat + if authenticated then authTagSize else 0
      if bytes.length < expected then .error (.transport "Payload truncated")
      else if expected < bytes.length then .error (.transport "Trailing bytes after payload")
      else
        let payload := bytes.take header.payloadLength.toNat
        if suite.crc32 payload ≠ header.checksum then .error (.transport "Checksum mismatch")
        else .ok ⟨header, payload,
          if authenticated then some (tagOf (bytes.drop header.payloadLength.toNat)) else none⟩

def decode (data : Bytes) : Except AurixError AurixPacket := decodeBounded suite data maxPacketSize

def verifyAuth : Bool :=
  match p.authTag with
  | none => false
  | some tag => keys.tag suite (p.header.encode ++ p.payload) = tag

def openPacket : Bool × AurixPacket :=
  if !p.verifyAuth suite keys then (false, p)
  else if p.header.hasFlag .encrypted then
    let plain := keys.applyCtr suite (p.header.iv keys) p.payload
    (true, { p with
      header := { p.header.clearFlag .encrypted with checksum := suite.crc32 plain }, payload := plain })
  else (true, p)

def isAuthenticated : Bool := p.authTag.isSome

end AurixPacket

end AurixVoice.Protocol
