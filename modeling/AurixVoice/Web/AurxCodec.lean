import AurixVoice.Unity.AurxCodec
import AurixVoice.Web.Aurx

namespace AurixVoice.Web

open Protocol.AurixPacket Protocol.PacketHeader AurxKeys Protocol AurxFlags
open List hiding Vector

lemma crc32_eq (data : Bytes) : crc32 data = crc32Ieee data := by
  apply crc32Ieee_of_table fun b => crcTable.get b.toFin
  intro b
  have hval : b.toFin.val = b.toNat := rfl
  rw [crcTable, vector_get_ofFn, hval]
  simp [crcWordShift]

lemma aurxHeaderSize_eq : aurxHeaderSize = headerSize := rfl
lemma aurxAuthTagSize_eq : aurxAuthTagSize = authTagSize := rfl
lemma aurxMaxPacketSize_eq : aurxMaxPacketSize = maxPacketSize := rfl
lemma magic_eq : magic = magicBytes := rfl
lemma aurxProtocolVersion_eq : aurxProtocolVersion = protocolVersion := rfl

def AurxHeader.ofNative (h : PacketHeader) : AurxHeader :=
  ⟨h.packetType.toU8.toUInt32, h.flags.toUInt32, h.sequence, h.timestamp, h.ssrc, h.channelIdHash⟩

def AurxPacket.ofNative (p : AurixPacket) : AurxPacket :=
  ⟨.ofNative p.header, p.payload, p.authTag.map Vector.toList⟩

variable {p : AurixPacket} (flags : Flags) (f : PacketFlags)

lemma flags_and : flags.toUInt32 &&& f.bits.toUInt32 = 0 ↔ flags.has f = false := by
  rw [← UInt16.toUInt32_and, Flags.has, decide_eq_false_iff_not, not_not]
  exact UInt16.toUInt32_inj (b := 0)

lemma flags_and_not : flags.toUInt32 &&& ~~~f.bits.toUInt32 = (flags.clear f).toUInt32 := by
  have hmask : (-1 : UInt16).toUInt32 &&& ~~~f.bits.toUInt32 = (~~~f.bits).toUInt32 := by
    cases f <;> decide
  have hflags : flags.toUInt32 = flags.toUInt32 &&& (-1 : UInt16).toUInt32 := by
    rw [← UInt16.toUInt32_and, UInt16.and_neg_one]
  rw [hflags, UInt32.and_assoc, hmask, ← UInt16.toUInt32_and, Flags.clear]

lemma toUInt8_toUInt32 (b : UInt8) : (b.toUInt32 &&& 0xff).toUInt8 = b := by
  have hmask : (0xff : UInt32).toUInt8 = -1 := by decide
  rw [UInt32.toUInt8_and, hmask, UInt8.and_neg_one, UInt8.toUInt8_toUInt32]

lemma toUInt16_toUInt32 (n : UInt16) : (n.toUInt32 &&& 0xffff).toUInt16 = n := by
  have hmask : (0xffff : UInt32).toUInt16 = -1 := by decide
  rw [UInt32.toUInt16_and, hmask, UInt16.and_neg_one, UInt16.toUInt16_toUInt32]

lemma decodePacket_of_decode (pl : Unity.Platform) {data : Bytes}
    (h : decode pl.suite data = .ok p) : decodePacket data = some (.ofNative p) := by
  obtain ⟨hp, hwire, hsize⟩ := wire_of_decodeBounded h
  have hdecode : decode data = .ok (p.header, p.payload ++ p.tagBytes) := by
    rw [← hwire]
    exact PacketHeader.decode_encode hp.version _
  obtain ⟨hshort, hmagic, hversion, htype, hheader, -⟩ := decode_eq_ok hdecode
  have hfields : AurxHeader.mk (byteAt data 5).toUInt32 (u16At data 6).toUInt32 (u32At data 8) (u32At data 12)
      (u32At data 16) (u32At data 20) = .ofNative p.header := by
    rw [hheader, ← PacketType.toU8_fromU8 htype]
    rfl
  have hpayloadLength : u16At data 24 = p.header.payloadLength :=
    (congrArg payloadLength hheader).symm
  have hchecksum : u32At data 26 = p.header.checksum := (congrArg checksum hheader).symm
  have hauth : decide ((u16At data 6).toUInt32 &&& authenticated ≠ 0) = p.authTag.isSome := by
    have hflag : (u16At data 6).toUInt32 &&& authenticated = 0 ↔
        Flags.has (u16At data 6) .authenticated = false := flags_and (u16At data 6) .authenticated
    have hflags : p.header.hasFlag .authenticated = Flags.has (u16At data 6) .authenticated :=
      congrArg (fun h => hasFlag h .authenticated) hheader
    rw [hp.tag, hflags]
    simp [hflag]
  have hlength := length_wire (p := p)
  rw [hwire, ← aurxHeaderSize_eq, ← aurxAuthTagSize_eq] at hlength
  have hpayload : slice data aurxHeaderSize p.payload.length = p.payload := by
    rw [← hwire]
    exact slice_append (PacketHeader.length_encode _) rfl
  have htag : data.drop (aurxHeaderSize + p.payload.length) = p.tagBytes := by
    rw [← hwire, wire, ← append_assoc]
    apply drop_left'
    rw [length_append, PacketHeader.length_encode, aurxHeaderSize_eq]
  unfold decodePacket
  rw [if_neg (by rw [aurxHeaderSize_eq, aurxMaxPacketSize_eq]; omega), magic_eq, if_neg (not_not.mpr hmagic),
    aurxProtocolVersion_eq, if_neg (not_not.mpr hversion)]
  dsimp only
  rw [hauth, hfields, hpayloadLength, hp.length, hchecksum, hpayload, htag, crc32_eq, hp.checksum,
    if_neg (not_not.mpr hlength)]
  change (if crc32Ieee p.payload ≠ crc32Ieee p.payload then none else _) = _
  cases hp : p.authTag <;> simp [AurxPacket.ofNative, tagBytes, hp]

variable (pl : Unity.Platform)

def AurxKeys.ofNative (keys : MediaKeys) : AurxKeys := ⟨keys.auth, keys.enc, keys.salt⟩

lemma AurxKeys.derive_eq {master : Bytes} (h : master.length = 32) :
    derive pl.suite master = .ok (.ofNative (MediaKeys.derive pl.suite master)) := by
  rw [derive, if_neg (not_not.mpr h)]
  rfl

variable (keys : MediaKeys)

lemma AurxKeys.iv_ofNative (h : PacketHeader) : (ofNative keys).iv (.ofNative h) = h.iv keys := by
  have hbytes : ivBytes (.ofNative h) =
      Unity.MediaKeys.ivBytes h.packetType.toU8 h.ssrc h.sequence h.timestamp := by
    unfold ivBytes Unity.MediaKeys.ivBytes
    simp only [AurxHeader.ofNative, toUInt8_toUInt32]
  rw [iv, hbytes]
  exact Unity.MediaKeys.iv_ofNative keys ..

lemma AurxKeys.ctr_ofNative (h : PacketHeader) (data : Bytes) :
    (ofNative keys).ctr pl.suite (.ofNative h) data = keys.applyCtr pl.suite (h.iv keys) data := by
  unfold ctr
  rw [iv_ofNative]
  split
  next hempty =>
    rw [length_eq_zero_iff.mp hempty]
    rfl
  · rfl

lemma AurxKeys.tag_ofNative (buf : Bytes) : (ofNative keys).tag pl.suite buf = (keys.tag pl.suite buf).toList := by
  rw [tag, MediaKeys.tag, Vector.toList_take]
  rfl

lemma encodeHeader_ofNative {h : PacketHeader} (hv : h.version = protocolVersion) {length : ℕ}
    (hlength : UInt16.ofNat length = h.payloadLength) (out : Bytes) :
    encodeHeader (.ofNative h) length h.checksum out = h.encode ++ out.drop headerSize := by
  rw [← Unity.PacketHeader.encode_ofNative]
  unfold encodeHeader Unity.PacketHeader.encode
  simp only [AurxHeader.ofNative, Unity.PacketHeader.ofNative, toUInt8_toUInt32, toUInt16_toUInt32, hlength, hv]
  rfl

lemma AurxKeys.sealPacket_ofNative {h : PacketHeader} (hv : h.version = protocolVersion)
    (keys : MediaKeys) {payload : Bytes} (hsize : headerSize + payload.length + authTagSize ≤ maxPacketSize) :
    (ofNative keys).sealPacket pl.suite (.ofNative h) payload =
      .ok (sealParts pl.suite h payload keys) := by
  obtain ⟨body, hbody⟩ : ∃ body, keys.applyCtr pl.suite (h.iv keys) payload = body := ⟨_, rfl⟩
  have hlen : body.length = payload.length := by
    rw [← hbody]
    exact MediaKeys.applyCtr_length keys _ _
  let header : PacketHeader := { (h.setFlag .authenticated).setFlag .encrypted with
    payloadLength := UInt16.ofNat payload.length, checksum := pl.suite.crc32 body }
  have hheader : { AurxHeader.ofNative h with
      flags := (AurxHeader.ofNative h).flags ||| encrypted ||| authenticated } =
      AurxHeader.ofNative header := by
    have hflags : (AurxHeader.ofNative h).flags ||| encrypted ||| authenticated =
        header.flags.toUInt32 := by
      change _ = (h.flags ||| _ ||| _).toUInt32
      rw [UInt32.or_assoc, UInt32.or_comm encrypted, ← UInt32.or_assoc, UInt16.toUInt32_or, UInt16.toUInt32_or]
      rfl
    rw [hflags]
    rfl
  have hencode : encodeHeader (.ofNative header) payload.length (crc32 body)
      (replicate aurxHeaderSize 0 ++ (body ++ replicate aurxAuthTagSize 0)) =
      (header.encode ++ body) ++ replicate aurxAuthTagSize 0 := by
    rw [crc32_eq]
    change encodeHeader (.ofNative header) payload.length header.checksum _ = _
    have hversion : header.version = protocolVersion := hv
    rw [encodeHeader_ofNative hversion rfl, ← aurxHeaderSize_eq, drop_left' length_replicate, append_assoc]
  have hsigned : (header.encode ++ body).length = aurxHeaderSize + payload.length := by
    rw [length_append, PacketHeader.length_encode, hlen, aurxHeaderSize_eq]
  have hctr : (ofNative keys).ctr pl.suite (.ofNative header) payload = body :=
    (ctr_ofNative pl keys header payload).trans hbody
  unfold sealPacket
  rw [aurxMaxPacketSize_eq, aurxHeaderSize_eq, aurxAuthTagSize_eq, if_neg (not_lt.mpr hsize),
    ← aurxHeaderSize_eq, ← aurxAuthTagSize_eq]
  dsimp only
  rw [hheader, hctr, ← hlen, blit_zeros, hlen, hencode]
  have hslice : slice ((header.encode ++ body) ++ replicate aurxAuthTagSize 0) 0
      (aurxHeaderSize + payload.length) = header.encode ++ body := take_left' hsigned
  rw [hslice, tag_ofNative, blit_append hsigned]
  simp only [sealParts, hbody, Vector.length_toList, aurxAuthTagSize, drop_replicate,
    Nat.sub_self, replicate_zero, append_nil]
  rfl

lemma tagDiff_eq_zero {a b : Bytes} (ha : a.length = aurxAuthTagSize) (hb : b.length = aurxAuthTagSize) :
    (range aurxAuthTagSize).foldl (fun d i => d ||| (byteAt a i ^^^ byteAt b i)) 0 = 0 ↔ a = b := by
  rw [← zipWith_xor_zero (ha.trans hb.symm), zipWith_eq_map_range ha hb, foldl_map]

lemma AurxKeys.openPacket_ofNative {data : Bytes} (h : decode pl.suite data = .ok p) (keys : MediaKeys) :
    (ofNative keys).openPacket pl.suite data (.ofNative p) =
      if (p.openPacket pl.suite keys).1 then some (.ofNative (p.openPacket pl.suite keys).2) else none := by
  obtain ⟨-, hwire, -⟩ := wire_of_decodeBounded h
  have hsigned : slice data 0 (aurxHeaderSize + p.payload.length) = p.header.encode ++ p.payload := by
    rw [← hwire, wire, ← append_assoc]
    apply take_left'
    rw [length_append, PacketHeader.length_encode, aurxHeaderSize_eq]
  unfold openPacket
  cases htag : p.authTag with
  | none =>
    have hverify : p.verifyAuth pl.suite keys = false := by simp [verifyAuth, htag]
    rw [openPacket_of_not_verifyAuth hverify]
    simp [AurxPacket.ofNative, htag]
  | some tag =>
    have hpayload : (AurxPacket.ofNative p).payload = p.payload := rfl
    have hsome : (AurxPacket.ofNative p).authTag = some tag.toList := congrArg (Option.map Vector.toList) htag
    have hverify : p.verifyAuth pl.suite keys = decide (keys.tag pl.suite (p.header.encode ++ p.payload) = tag) := by
      rw [verifyAuth, htag]
    have hdiff : (range aurxAuthTagSize).foldl (fun d i =>
        d ||| (byteAt (keys.tag pl.suite (p.header.encode ++ p.payload)).toList i ^^^ byteAt tag.toList i)) 0 = 0 ↔
        keys.tag pl.suite (p.header.encode ++ p.payload) = tag := by
      rw [← Vector.toList_inj]
      exact tagDiff_eq_zero Vector.length_toList Vector.length_toList
    rw [hsome]
    dsimp only
    rw [hpayload, hsigned, tag_ofNative]
    by_cases heq : keys.tag pl.suite (p.header.encode ++ p.payload) = tag
    · rw [if_neg (not_not.mpr (hdiff.mpr heq)), AurixPacket.openPacket, hverify, decide_eq_true heq]
      have hencrypted : (AurxPacket.ofNative p).header.flags &&& encrypted = 0 ↔
        p.header.hasFlag .encrypted = false := flags_and p.header.flags .encrypted
      cases hflag : p.header.hasFlag .encrypted with
      | false =>
        rw [if_pos (hencrypted.mpr hflag)]
        rfl
      | true =>
        have hclear : (AurxPacket.ofNative p).header.flags &&& ~~~encrypted =
            (p.header.clearFlag .encrypted).flags.toUInt32 :=
          flags_and_not p.header.flags .encrypted
        have hctr : (ofNative keys).ctr pl.suite (AurxPacket.ofNative p).header p.payload =
          keys.applyCtr pl.suite (p.header.iv keys) p.payload := ctr_ofNative pl keys p.header p.payload
        rw [if_neg (by rw [hencrypted, hflag]; decide), hclear, hctr, ← hsome]
        rfl
    · rw [if_pos fun hzero => heq (hdiff.mp hzero),
        openPacket_of_not_verifyAuth (hverify.trans (decide_eq_false heq))]
      rfl

end AurixVoice.Web
