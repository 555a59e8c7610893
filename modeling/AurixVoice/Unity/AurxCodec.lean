import AurixVoice.Unity.AurxPacket

namespace AurixVoice.Unity

open Protocol (Bytes)
open AurxPacket MediaKeys Protocol.AurixPacket
open List hiding Vector

lemma Crc32.compute_eq (data : Bytes) : Crc32.compute data = crc32Ieee data := by
  apply crc32Ieee_of_table fun b => table.get b.toFin
  intro b
  have hval : b.toFin.val = b.toNat := rfl
  rw [Crc32.table, vector_get_ofFn, hval]
  simp [crcWordShift]

lemma headerSize_eq : headerSize = Protocol.headerSize := rfl
lemma authTagSize_eq : authTagSize = Protocol.authTagSize := rfl
lemma maxPacketSize_eq : maxPacketSize = Protocol.maxPacketSize := rfl
lemma magic_eq : magic = Protocol.magicBytes := rfl
lemma protocolVersion_eq : protocolVersion = Protocol.protocolVersion := rfl

def PacketHeader.ofNative (h : Protocol.PacketHeader) : PacketHeader :=
  ⟨h.version, h.packetType.toU8, h.flags, h.sequence, h.timestamp, h.ssrc, h.channelIdHash,
    h.payloadLength, h.checksum⟩

def AurxPacket.ofNative (p : Protocol.AurixPacket) : AurxPacket :=
  ⟨.ofNative p.header, p.payload, p.authTag.map Vector.toList⟩

lemma mem_packetTypes (b : UInt8) : b ∈ packetTypes ↔ (Protocol.PacketType.fromU8 b).isSome = true := by
  have hall : ∀ i : Fin 256, (UInt8.ofFin i ∈ packetTypes ↔
      (Protocol.PacketType.fromU8 (UInt8.ofFin i)).isSome = true) := by decide +kernel
  exact hall b.toFin

lemma PacketHeader.tryDecode_toOption (data : Bytes) :
    (PacketHeader.tryDecode data).toOption =
      (Protocol.PacketHeader.decode data).toOption.map fun h => PacketHeader.ofNative h.1 := by
  rw [Protocol.PacketHeader.decode_toOption]
  unfold tryDecode
  rw [headerSize_eq, magic_eq, protocolVersion_eq]
  by_cases hshort : data.length < Protocol.headerSize
  · rw [if_pos hshort, if_pos hshort]
    rfl
  rw [if_neg hshort, if_neg hshort]
  by_cases hmagic : slice data 0 4 ≠ Protocol.magicBytes
  · rw [if_pos hmagic, if_pos hmagic]
    rfl
  rw [if_neg hmagic, if_neg hmagic]
  by_cases hversion : byteAt data 4 ≠ Protocol.protocolVersion
  · rw [if_pos hversion, if_pos hversion]
    rfl
  rw [if_neg hversion, if_neg hversion, not_not.mp hversion]
  cases htype : Protocol.PacketType.fromU8 (byteAt data 5) with
  | none =>
    have hunknown : byteAt data 5 ∉ packetTypes := by
      rw [mem_packetTypes, htype]
      decide
    rw [if_pos hunknown]
    rfl
  | some =>
    have hknown : ¬ byteAt data 5 ∉ packetTypes := by
      rw [not_not, mem_packetTypes, htype]
      rfl
    rw [if_neg hknown, ← Protocol.PacketType.toU8_fromU8 htype]
    rfl

lemma AurxPacket.tryDecode_toOption (pl : Platform) (data : Bytes) :
    (tryDecode data).toOption =
      (decode pl.suite data).toOption.map ofNative := by
  have hheader := PacketHeader.tryDecode_toOption data
  unfold tryDecode decode decodeBounded
  rw [maxPacketSize_eq]
  by_cases hlong : Protocol.maxPacketSize < data.length
  · rw [if_pos hlong, if_pos hlong]
    rfl
  rw [if_neg hlong, if_neg hlong]
  cases hdecode : Protocol.PacketHeader.decode data with
  | error =>
    rw [hdecode] at hheader
    cases htry : PacketHeader.tryDecode data with
    | error => rfl
    | ok => rw [htry] at hheader; cases hheader
  | ok found =>
    obtain ⟨header, bytes⟩ := found
    rw [hdecode] at hheader
    obtain ⟨-, -, -, -, -, rfl⟩ := Protocol.PacketHeader.decode_eq_ok hdecode
    cases htry : PacketHeader.tryDecode data with
    | error => rw [htry] at hheader; cases hheader
    | ok =>
      rw [htry] at hheader
      obtain rfl := Option.some.inj hheader
      have hauth : decide ((PacketHeader.ofNative header).flags &&& PacketFlags.authenticated ≠ 0) =
          header.hasFlag .authenticated := rfl
      have hlen : (PacketHeader.ofNative header).payloadLength = header.payloadLength := rfl
      have hsum : (PacketHeader.ofNative header).checksum = header.checksum := rfl
      have hslice : slice (data.drop Protocol.headerSize) 0 header.payloadLength.toNat =
          (data.drop Protocol.headerSize).take header.payloadLength.toNat := rfl
      have hcrc : pl.suite.crc32 = crc32Ieee := rfl
      dsimp only
      rw [hauth, hlen, hsum, authTagSize_eq, headerSize_eq, Crc32.compute_eq, hslice, hcrc]
      generalize hexpected : header.payloadLength.toNat +
        (if header.hasFlag .authenticated then Protocol.authTagSize else 0) = expected
      generalize hbytes : data.drop Protocol.headerSize = bytes
      split
      · rfl
      · split
        · rfl
        · split
          · rfl
          · cases hflag : header.hasFlag .authenticated with
            | false => simp [ofNative, Except.toOption]
            | true =>
              rw [hflag, if_pos rfl] at hexpected
              have htag : (bytes.drop header.payloadLength.toNat).length = Protocol.authTagSize := by
                rw [length_drop]
                omega
              simp [ofNative, Except.toOption, slice, toList_tagOf htag, htag]

variable (pl : Platform)

def MediaKeys.ofNative (keys : Protocol.MediaKeys) : MediaKeys := ⟨keys.auth, keys.enc, keys.salt⟩

lemma MediaKeys.derive_eq {master : Bytes} (h : master ≠ []) :
    derive pl master = .ok (.ofNative (Protocol.MediaKeys.derive pl.suite master)) := by
  have hlen : ¬ master.length = 0 := fun hzero => h (length_eq_zero_iff.mp hzero)
  rw [derive, if_neg hlen]
  rfl

lemma MediaKeys.ivBytes_eq (t : UInt8) (ssrc sequence timestamp : UInt32) :
    MediaKeys.ivBytes t ssrc sequence timestamp =
      [t, 0] ++ putU32 ssrc ++ putU32 sequence ++ putU32 timestamp ++ [0, 0] := by
  have hfirst : blit (replicate 16 0) 0 [t] = [t, 0] ++ replicate 14 0 := rfl
  unfold ivBytes
  dsimp only
  rw [hfirst, blit_append (by rfl), blit_append (by simp), blit_append (by simp)]
  simp

variable (keys : Protocol.MediaKeys) (p : Protocol.AurixPacket)

lemma MediaKeys.iv_ofNative (t : UInt8) (ssrc sequence timestamp : UInt32) :
    (MediaKeys.ofNative keys).iv t ssrc sequence timestamp = keys.iv t ssrc sequence timestamp := by
  have hsize : (ivBytes t ssrc sequence timestamp).toArray.size = 16 := by
    rw [ivBytes_eq]
    simp
  rw [iv, ofFn_getD_xor hsize]
  rfl

lemma MediaKeys.applyCtr_ofNative (iv : Block) (data : Bytes) :
    (MediaKeys.ofNative keys).applyCtr pl iv data = keys.applyCtr pl.suite iv data := by
  unfold applyCtr
  split
  next hempty =>
    rw [length_eq_zero_iff.mp hempty]
    rfl
  · exact zipWith_blockStream (pl.aes keys.enc) iv data

lemma MediaKeys.computeTag_ofNative (buf : Bytes) (len : ℕ) :
    (MediaKeys.ofNative keys).computeTag pl buf len = keys.tag pl.suite (buf.take len) := rfl

lemma PacketHeader.encode_ofNative (h : Protocol.PacketHeader) (dst : Bytes) :
    (PacketHeader.ofNative h).encode dst = h.encode ++ dst.drop Protocol.headerSize := by
  unfold encode
  dsimp only
  rw [blit_zero, blit_append (by rfl), blit_append (by simp [magic]), blit_append (by simp [magic]),
    blit_append (by simp [magic]), blit_append (by simp [magic]), blit_append (by simp [magic]),
    blit_append (by simp [magic]), blit_append (by simp [magic]), blit_append (by simp [magic])]
  simp [Protocol.PacketHeader.encode, ofNative, magic, Protocol.magicBytes, Protocol.headerSize, drop_drop]

lemma AurxPacket.sealPacket_ofNative (keys : Protocol.MediaKeys) :
    (ofNative p).sealPacket pl (.ofNative keys) = p.sealPacket pl.suite keys := by
  have hslice : ∀ body : Bytes, body.length = p.payload.length →
      slice (replicate headerSize 0 ++ (body ++ replicate authTagSize 0)) headerSize
        p.payload.length = body := fun body hlen => slice_append length_replicate hlen
  have hlen : (keys.applyCtr pl.suite (p.header.iv keys) p.payload).length = p.payload.length :=
    Protocol.MediaKeys.applyCtr_length keys _ _
  have hiv : (MediaKeys.ofNative keys).iv (PacketHeader.ofNative p.header).type
      (PacketHeader.ofNative p.header).ssrc (PacketHeader.ofNative p.header).sequence
      (PacketHeader.ofNative p.header).timestamp = p.header.iv keys := iv_ofNative ..
  unfold sealPacket
  simp only [ofNative]
  rw [hiv, blit_zeros, hslice p.payload rfl, applyCtr_ofNative,
    blit_over length_replicate hlen.symm, hslice _ hlen, Crc32.compute_eq]
  generalize hb : keys.applyCtr pl.suite (p.header.iv keys) p.payload = body at hlen ⊢
  let header : Protocol.PacketHeader := { (p.header.setFlag .authenticated).setFlag .encrypted with
    payloadLength := UInt16.ofNat p.payload.length, checksum := pl.suite.crc32 body }
  have hflags : (PacketHeader.ofNative p.header).flags |||
      (PacketFlags.authenticated ||| PacketFlags.encrypted) = header.flags := (UInt16.or_assoc ..).symm
  have hencode : (PacketHeader.ofNative header).encode
      (replicate headerSize 0 ++ (body ++ replicate authTagSize 0)) =
      (header.encode ++ body) ++ replicate authTagSize 0 := by
    rw [PacketHeader.encode_ofNative, ← headerSize_eq, drop_left' length_replicate, append_assoc]
  have hsigned : (header.encode ++ body).length = headerSize + p.payload.length := by
    rw [length_append, Protocol.PacketHeader.length_encode, hlen, headerSize_eq]
  rw [hflags]
  change blit ((PacketHeader.ofNative header).encode _) _ (computeTag pl _
    ((PacketHeader.ofNative header).encode _) _).toList = _
  rw [hencode, computeTag_ofNative, take_left' hsigned, blit_append hsigned]
  simp only [Protocol.AurixPacket.sealPacket, sealParts, hb, Vector.length_toList, authTagSize,
    drop_replicate, Nat.sub_self, replicate_zero, append_nil]
  rfl

lemma AurxPacket.constantTimeEquals_eq (a b : Bytes) : constantTimeEquals a b = decide (a = b) := by
  unfold constantTimeEquals
  split
  next hlen =>
    rw [eq_comm, decide_eq_false]
    rintro rfl
    exact hlen rfl
  next hlen =>
    apply decide_eq_decide.mpr
    exact zipWith_xor_zero (not_not.mp hlen)

lemma AurxPacket.verifyAuth_ofNative (keys : Protocol.MediaKeys) :
    (ofNative p).verifyAuth pl (.ofNative keys) = p.verifyAuth pl.suite keys := by
  unfold verifyAuth Protocol.AurixPacket.verifyAuth
  have hbuf : blit ((PacketHeader.ofNative p.header).encode
      (replicate (headerSize + p.payload.length) 0)) headerSize p.payload =
      p.header.encode ++ p.payload := by
    rw [PacketHeader.encode_ofNative, headerSize_eq, blit_append (Protocol.PacketHeader.length_encode _)]
    simp
  cases htag : p.authTag with
  | none => simp [ofNative, htag]
  | some =>
    simp only [ofNative, htag, Option.map_some]
    rw [hbuf, constantTimeEquals_eq, computeTag_ofNative, take_length]
    simp [Vector.toList_inj]

lemma AurxPacket.openPacket_ofNative (keys : Protocol.MediaKeys) :
    (ofNative p).openPacket pl (.ofNative keys) =
      ((p.openPacket pl.suite keys).1, ofNative (p.openPacket pl.suite keys).2) := by
  unfold openPacket Protocol.AurixPacket.openPacket
  rw [verifyAuth_ofNative]
  split
  · rfl
  · have hflag : (ofNative p).isEncrypted = p.header.hasFlag .encrypted := rfl
    rw [hflag]
    split
    · dsimp only
      rw [iv_ofNative, applyCtr_ofNative, Crc32.compute_eq]
      rfl
    · rfl

end AurixVoice.Unity
