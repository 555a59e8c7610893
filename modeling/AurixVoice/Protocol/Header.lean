import AurixVoice.Types
import AurixVoice.Library.Buffer

namespace AurixVoice.Protocol

open List

abbrev Bytes := List UInt8

def protocolVersion : UInt8 := 2
def magicBytes : Bytes := [0x41, 0x55, 0x52, 0x58]
def headerSize : ℕ := 30
def authTagSize : ℕ := 16
def maxPacketSize : ℕ := 1400
def maxRelayPacketSize : ℕ := maxPacketSize + headerSize + authTagSize

inductive PacketType
  | audio
  | audioFec
  | control
  | heartbeat
  | heartbeatAck
  | sessionInit
  | sessionInitAck
  | sessionClose
  | sessionBind
  | sessionBindAck
  | channelJoin
  | channelJoinAck
  | channelLeave
  | positionUpdate
  | muteState
  | speakingState
  | qualityReport
  | bitrateCommand
  | relay
  | error
  deriving DecidableEq, Repr

namespace PacketType

def toU8 : PacketType → UInt8
  | audio => 0x01
  | audioFec => 0x02
  | control => 0x10
  | heartbeat => 0x20
  | heartbeatAck => 0x21
  | sessionInit => 0x30
  | sessionInitAck => 0x31
  | sessionClose => 0x32
  | sessionBind => 0x33
  | sessionBindAck => 0x34
  | channelJoin => 0x40
  | channelJoinAck => 0x41
  | channelLeave => 0x42
  | positionUpdate => 0x50
  | muteState => 0x60
  | speakingState => 0x61
  | qualityReport => 0x70
  | bitrateCommand => 0x71
  | relay => 0x80
  | error => 0xFF

def fromU8 (v : UInt8) : Option PacketType :=
  match v with
  | 0x01 => some audio
  | 0x02 => some audioFec
  | 0x10 => some control
  | 0x20 => some heartbeat
  | 0x21 => some heartbeatAck
  | 0x30 => some sessionInit
  | 0x31 => some sessionInitAck
  | 0x32 => some sessionClose
  | 0x33 => some sessionBind
  | 0x34 => some sessionBindAck
  | 0x40 => some channelJoin
  | 0x41 => some channelJoinAck
  | 0x42 => some channelLeave
  | 0x50 => some positionUpdate
  | 0x60 => some muteState
  | 0x61 => some speakingState
  | 0x70 => some qualityReport
  | 0x71 => some bitrateCommand
  | 0x80 => some relay
  | 0xFF => some error
  | _ => none

@[simp] lemma fromU8_toU8 (t : PacketType) : fromU8 t.toU8 = some t := by
  cases t <;> rfl

variable {t : PacketType}

lemma toU8_inj {t' : PacketType} (h : t.toU8 = t'.toU8) : t = t' := by
  apply Option.some.inj
  rw [← fromU8_toU8, h, fromU8_toU8]

lemma toU8_fromU8 {v : UInt8} (h : fromU8 v = some t) : t.toU8 = v := by
  unfold fromU8 at h
  split at h
  all_goals cases h
  all_goals rfl

end PacketType

inductive PacketFlags
  | encrypted
  | compressed
  | dtx
  | fec
  | pcma
  | priority
  | relay
  | volumeAttenuated
  | e2ee
  | rtp
  | authenticated
  | energy
  | directional
  | pcmu
  | mixed
  | relayHop
  deriving DecidableEq, Repr

def PacketFlags.bits : PacketFlags → UInt16
  | encrypted => 0x0001
  | compressed => 0x0002
  | dtx => 0x0004
  | fec => 0x0008
  | pcma => 0x0010
  | priority => 0x0020
  | relay => 0x0040
  | volumeAttenuated => 0x0080
  | e2ee => 0x0100
  | rtp => 0x0200
  | authenticated => 0x0400
  | energy => 0x0800
  | directional => 0x1000
  | pcmu => 0x2000
  | mixed => 0x4000
  | relayHop => 0x8000

abbrev Flags := UInt16

namespace Flags

def has (flags : Flags) (flag : PacketFlags) : Bool := flags &&& flag.bits ≠ 0
def set (flags : Flags) (flag : PacketFlags) : Flags := flags ||| flag.bits
def clear (flags : Flags) (flag : PacketFlags) : Flags := flags &&& ~~~flag.bits

lemma and_or_right (a b c : UInt16) : (a ||| b) &&& c = (a &&& c) ||| (b &&& c) := by
  apply UInt16.toBitVec_inj.mp
  apply BitVec.eq_of_getLsbD_eq
  simp [Bool.and_or_distrib_right]

lemma has_or (a b : Flags) (flag : PacketFlags) : has (a ||| b) flag = (has a flag || has b flag) := by
  simp only [has, and_or_right, ne_eq, UInt16.or_eq_zero_iff, not_and_or, Bool.decide_or]

variable (flags : Flags) (f g : PacketFlags)

lemma has_bits : has f.bits g = decide (f = g) := by
  cases f <;> cases g <;> decide

@[simp] lemma has_set : has (set flags f) g = (has flags g || decide (f = g)) := by
  rw [set, has_or, has_bits]

lemma not_bits_and_bits : ~~~f.bits &&& g.bits = if f = g then 0 else g.bits := by
  cases f <;> cases g <;> decide

@[simp] lemma has_clear : has (clear flags f) g = (has flags g && !decide (f = g)) := by
  rw [has, clear, UInt16.and_assoc, not_bits_and_bits]
  by_cases h : f = g <;> simp [h, has]

@[simp] lemma clear_set : clear (set flags f) f = clear flags f := by
  have hself : f.bits &&& ~~~f.bits = 0 := by rw [UInt16.and_comm, not_bits_and_bits, if_pos rfl]
  rw [clear, set, and_or_right, hself, UInt16.or_zero, clear]

end Flags

structure PacketHeader where
  version : UInt8
  packetType : PacketType
  flags : Flags
  sequence : UInt32
  timestamp : UInt32
  ssrc : UInt32
  channelIdHash : UInt32
  payloadLength : UInt16
  checksum : UInt32
  deriving DecidableEq

namespace PacketHeader

def new (packetType : PacketType) (sequence timestamp ssrc : UInt32) : PacketHeader :=
  ⟨protocolVersion, packetType, 0, sequence, timestamp, ssrc, 0, 0, 0⟩

def encode (h : PacketHeader) : Bytes :=
  magicBytes ++ [h.version, h.packetType.toU8] ++ putU16 h.flags ++ putU32 h.sequence ++
    putU32 h.timestamp ++ putU32 h.ssrc ++ putU32 h.channelIdHash ++ putU16 h.payloadLength ++
    putU32 h.checksum

def readFields (version : UInt8) (packetType : PacketType) (buf : Bytes) : PacketHeader × Bytes :=
  let flags := getU16 buf
  let sequence := getU32 flags.2
  let timestamp := getU32 sequence.2
  let ssrc := getU32 timestamp.2
  let channelIdHash := getU32 ssrc.2
  let payloadLength := getU16 channelIdHash.2
  let checksum := getU32 payloadLength.2
  (⟨version, packetType, flags.1, sequence.1, timestamp.1, ssrc.1, channelIdHash.1, payloadLength.1,
    checksum.1⟩, checksum.2)

def decode (buf : Bytes) : Except AurixError (PacketHeader × Bytes) :=
  if buf.length < headerSize then .error (.transport "Packet too short for header")
  else if buf.take 4 ≠ magicBytes then .error (.transport "Invalid magic bytes")
  else
    let version := getU8 (buf.drop 4)
    if version.1 ≠ protocolVersion then
      .error (.transport ("Unsupported protocol version: " ++ toString version.1))
    else
      let ptypeRaw := getU8 version.2
      match PacketType.fromU8 ptypeRaw.1 with
      | none => .error (.transport ("Unknown packet type: " ++ toString ptypeRaw.1))
      | some packetType => .ok (readFields version.1 packetType ptypeRaw.2)

def hasFlag (h : PacketHeader) (flag : PacketFlags) : Bool := h.flags.has flag
def setFlag (h : PacketHeader) (flag : PacketFlags) : PacketHeader := { h with flags := h.flags.set flag }
def clearFlag (h : PacketHeader) (flag : PacketFlags) : PacketHeader := { h with flags := h.flags.clear flag }

variable (h : PacketHeader) (version : UInt8) (f : PacketFlags) (packetType : PacketType) (g : PacketFlags)

@[simp] lemma hasFlag_setFlag : (h.setFlag f).hasFlag g = (h.hasFlag g || decide (f = g)) := Flags.has_set h.flags f g

@[simp] lemma hasFlag_clearFlag :
    (h.clearFlag f).hasFlag g = (h.hasFlag g && !decide (f = g)) := Flags.has_clear h.flags f g

@[simp] lemma length_encode : h.encode.length = headerSize := by
  simp [encode, magicBytes, headerSize]

lemma readFields_put (rest : Bytes) :
    readFields h.version h.packetType (putU16 h.flags ++ (putU32 h.sequence ++ (putU32 h.timestamp ++
      (putU32 h.ssrc ++ (putU32 h.channelIdHash ++ (putU16 h.payloadLength ++
      (putU32 h.checksum ++ rest))))))) = (h, rest) := by
  simp [readFields]

lemma encode_readFields {buf : Bytes} (h : 24 ≤ buf.length) :
    (readFields version packetType buf).1.encode ++ (readFields version packetType buf).2 =
      magicBytes ++ (version :: packetType.toU8 :: buf) := by
  simp only [encode, readFields, append_assoc, cons_append, nil_append]
  rw [put_getU32, put_getU16, put_getU32, put_getU32, put_getU32, put_getU32, put_getU16 (by omega)]
  all_goals simp only [getU16, getU32, length_drop]
  all_goals omega

lemma decode_encode {h : PacketHeader} (hv : h.version = protocolVersion) (rest : Bytes) :
    decode (h.encode ++ rest) = .ok (h, rest) := by
  have hlen : ¬ (h.encode ++ rest).length < headerSize := by simp
  have hput := readFields_put h rest
  unfold decode
  rw [if_neg hlen]
  simp only [encode, magicBytes, append_assoc, cons_append, nil_append,
    take_succ_cons, take_zero, ne_eq, not_true_eq_false, ↓reduceIte, drop_succ_cons,
    drop_zero, getU8_cons, PacketType.fromU8_toU8, hv]
  rw [← hv, hput]

lemma packetType_of_encode {h h' : PacketHeader} (heq : h.encode = h'.encode) : h.packetType = h'.packetType := by
  simp only [encode, magicBytes, append_assoc, cons_append, nil_append, cons.injEq, true_and] at heq
  exact PacketType.toU8_inj heq.2.1

lemma encode_of_decode {buf rest : Bytes} {h : PacketHeader} (hd : decode buf = .ok (h, rest)) :
    h.encode ++ rest = buf ∧ h.version = protocolVersion := by
  unfold decode at hd
  split at hd
  · cases hd
  rename_i hlen
  split at hd
  · cases hd
  rename_i hmagic
  dsimp only at hd
  split at hd
  · cases hd
  rename_i hversion
  split at hd
  · cases hd
  rename_i packetType htype
  have hlen : 30 ≤ buf.length := not_lt.mp hlen
  have hraw : 1 ≤ (getU8 (buf.drop 4)).2.length := by simp only [getU8, length_drop]; omega
  have hfields : 24 ≤ (getU8 (getU8 (buf.drop 4)).2).2.length := by
    simp only [getU8, length_drop]
    omega
  have hencode := encode_readFields (getU8 (buf.drop 4)).1 packetType hfields
  rw [Except.ok.inj hd, PacketType.toU8_fromU8 htype, put_getU8 hraw,
    put_getU8 (by rw [length_drop]; omega), ← not_not.mp hmagic, take_append_drop] at hencode
  refine ⟨hencode, ?_⟩
  have hsame : h.version = (getU8 (buf.drop 4)).1 :=
    (congrArg (fun r => r.1.version) (Except.ok.inj hd)).symm
  rw [hsame]
  exact not_not.mp hversion

lemma readFields_at (data : Bytes) :
    readFields version packetType (data.drop 6) =
      (⟨version, packetType, u16At data 6, u32At data 8, u32At data 12, u32At data 16, u32At data 20,
        u16At data 24, u32At data 26⟩, data.drop 30) := by
  simp [readFields, u16At, u32At, getU16, getU32, drop_drop]

def readAt (packetType : PacketType) (data : Bytes) : PacketHeader :=
  ⟨protocolVersion, packetType, u16At data 6, u32At data 8, u32At data 12, u32At data 16, u32At data 20,
    u16At data 24, u32At data 26⟩

lemma decode_toOption (data : Bytes) :
    (decode data).toOption =
      if data.length < headerSize then none
      else if slice data 0 4 ≠ magicBytes then none
      else if byteAt data 4 ≠ protocolVersion then none
      else (PacketType.fromU8 (byteAt data 5)).map fun t => (readAt t data, data.drop headerSize) := by
  have htype : (getU8 (getU8 (data.drop 4)).2).1 = byteAt data 5 := by simp [byteAt, getU8, drop_drop]
  have hrest : (getU8 (getU8 (data.drop 4)).2).2 = data.drop 6 := by simp [getU8, drop_drop]
  unfold decode
  by_cases hshort : data.length < headerSize
  · rw [if_pos hshort, if_pos hshort]
    rfl
  rw [if_neg hshort, if_neg hshort]
  by_cases hmagic : slice data 0 4 ≠ magicBytes
  · rw [if_pos hmagic]
    exact congrArg Except.toOption (if_pos hmagic)
  rw [if_neg hmagic, if_neg (show ¬ data.take 4 ≠ magicBytes from hmagic)]
  by_cases hversion : byteAt data 4 ≠ protocolVersion
  · rw [if_pos hversion]
    exact congrArg Except.toOption (if_pos hversion)
  have hversion' : (getU8 (data.drop 4)).1 = protocolVersion := not_not.mp hversion
  dsimp only
  rw [if_neg hversion, if_neg (not_not.mpr hversion'), htype, hrest, hversion']
  cases PacketType.fromU8 (byteAt data 5) with
  | none => rfl
  | some t => exact congrArg some (readFields_at protocolVersion t data)

lemma decode_eq_ok {data bytes : Bytes} {h : PacketHeader} (hd : decode data = .ok (h, bytes)) :
    headerSize ≤ data.length ∧ slice data 0 4 = magicBytes ∧ byteAt data 4 = protocolVersion ∧
      PacketType.fromU8 (byteAt data 5) = some h.packetType ∧ h = readAt h.packetType data ∧
      bytes = data.drop headerSize := by
  have hat := decode_toOption data
  rw [hd] at hat
  split at hat
  · cases hat
  rename_i hshort
  split at hat
  · cases hat
  rename_i hmagic
  split at hat
  · cases hat
  rename_i hversion
  obtain ⟨t, htype, heq⟩ := Option.map_eq_some_iff.mp hat.symm
  obtain ⟨rfl, rfl⟩ := Prod.mk.inj heq
  exact ⟨not_lt.mp hshort, not_not.mp hmagic, not_not.mp hversion, htype, rfl, rfl⟩

end PacketHeader

end AurixVoice.Protocol
