import AurixVoice.Protocol.Packet

namespace AurixVoice.Protocol

open E2ee (aes256Ctr_length aes256Ctr_involutive)
open PacketHeader

variable {suite : Suite}

@[simp] lemma MediaKeys.applyCtr_length (keys : MediaKeys) (iv : Vector UInt8 16) (data : Bytes) :
    (keys.applyCtr suite iv data).length = data.length := aes256Ctr_length ..

@[simp] lemma MediaKeys.applyCtr_involutive (keys : MediaKeys) (iv : Vector UInt8 16) (data : Bytes) :
    keys.applyCtr suite iv (keys.applyCtr suite iv data) = data := aes256Ctr_involutive ..

namespace AurixPacket

def tagBytes (p : AurixPacket) : Bytes := (p.authTag.map Vector.toList).getD []

def wire (p : AurixPacket) : Bytes := p.header.encode ++ (p.payload ++ p.tagBytes)

variable (suite) in
structure WellFormed (p : AurixPacket) : Prop where
  version : p.header.version = protocolVersion
  length : p.header.payloadLength.toNat = p.payload.length
  checksum : p.header.checksum = suite.crc32 p.payload
  tag : p.authTag.isSome = p.header.hasFlag .authenticated

lemma toList_tagOf {bytes : Bytes} (h : bytes.length = authTagSize) : (tagOf bytes).toList = bytes := by
  apply List.ext_getElem
  · simp [h, authTagSize]
  · intro i hi hi'
    simp [tagOf, hi']

@[simp] lemma tagOf_toList (tag : Vector UInt8 16) : tagOf tag.toList = tag := by
  apply Vector.ext
  simp [tagOf]

lemma length_tagBytes (p : AurixPacket) : p.tagBytes.length = if p.authTag.isSome then authTagSize else 0 := by
  cases h : p.authTag <;> simp [tagBytes, h, authTagSize]

variable {p : AurixPacket} {maxSize : ℕ} {data : Bytes}

lemma length_wire : p.wire.length = headerSize + p.payload.length + if p.authTag.isSome then authTagSize else 0 := by
  rw [wire, List.length_append, List.length_append, length_tagBytes, length_encode, add_assoc]

lemma decodeBounded_wire (h : p.WellFormed suite) (hsize : p.wire.length ≤ maxSize) :
    decodeBounded suite p.wire maxSize = .ok p := by
  have hlen : (p.payload ++ p.tagBytes).length =
      p.header.payloadLength.toNat + if p.header.hasFlag .authenticated then authTagSize else 0 := by
    rw [List.length_append, length_tagBytes, h.tag, h.length]
  have htake : (p.payload ++ p.tagBytes).take p.header.payloadLength.toNat = p.payload :=
    List.take_left' h.length.symm
  have hdrop : (p.payload ++ p.tagBytes).drop p.header.payloadLength.toNat = p.tagBytes :=
    List.drop_left' h.length.symm
  have htag : (if p.header.hasFlag .authenticated then some (tagOf p.tagBytes) else none) = p.authTag := by
    rw [← h.tag]
    cases hp : p.authTag <;> simp [tagBytes, hp]
  unfold decodeBounded
  rw [if_neg (not_lt.mpr hsize), wire, PacketHeader.decode_encode h.version]
  simp [hlen, htake, hdrop, h.checksum, htag]

lemma wire_of_decodeBounded (h : decodeBounded suite data maxSize = .ok p) :
    p.WellFormed suite ∧ p.wire = data ∧ data.length ≤ maxSize := by
  unfold decodeBounded at h
  split at h
  · cases h
  rename_i hsize
  split at h
  · cases h
  rename_i header bytes hheader
  obtain ⟨hencode, hversion⟩ := encode_of_decode hheader
  dsimp only at h
  generalize hexpected : header.payloadLength.toNat +
    (if header.hasFlag .authenticated then authTagSize else 0) = expected at h
  split at h
  · cases h
  split at h
  · cases h
  split at h
  · cases h
  rename_i hchecksum
  obtain rfl := Except.ok.inj h
  have hlen : bytes.length =
      header.payloadLength.toNat + if header.hasFlag .authenticated then authTagSize else 0 := by omega
  have hrest : (bytes.drop header.payloadLength.toNat).length =
      if header.hasFlag .authenticated then authTagSize else 0 := by
    rw [List.length_drop, hlen, Nat.add_sub_cancel_left]
  refine ⟨⟨hversion, ?_, (not_not.mp hchecksum).symm, ?_⟩, ?_, not_lt.mp hsize⟩
  · rw [List.length_take_of_le (by omega)]
  · cases header.hasFlag .authenticated <;> rfl
  · rw [← hencode, wire]
    cases hauth : header.hasFlag .authenticated with
    | true =>
      rw [hauth] at hrest
      simp [tagBytes, toList_tagOf hrest]
    | false =>
      rw [hauth] at hrest
      have hnil : bytes.drop header.payloadLength.toNat = [] := List.length_eq_zero_iff.mp hrest
      have happend := List.take_append_drop header.payloadLength.toNat bytes
      rw [hnil] at happend
      simpa [tagBytes] using happend

lemma length_ofNat {n : ℕ} (h : n < 2 ^ 16) : (UInt16.ofNat n).toNat = n := by
  rw [UInt16.toNat_ofNat', Nat.mod_eq_of_lt h]

section Encoders

variable (suite)

def encoded (p : AurixPacket) : AurixPacket :=
  ⟨(p.finalizedHeader suite).clearFlag .authenticated, p.payload, none⟩

def signed (p : AurixPacket) (keys : MediaKeys) : AurixPacket :=
  let header := ((p.finalizedHeader suite).setFlag .authenticated).clearFlag .encrypted
  ⟨header, p.payload, some (keys.tag suite (header.encode ++ p.payload))⟩

def sealed (header : PacketHeader) (payload : Bytes) (keys : MediaKeys) : AurixPacket :=
  let body := keys.applyCtr suite (header.iv keys) payload
  let header := { (header.setFlag .authenticated).setFlag .encrypted with
    payloadLength := UInt16.ofNat payload.length, checksum := suite.crc32 body }
  ⟨header, body, some (keys.tag suite (header.encode ++ body))⟩

def opened (header : PacketHeader) (payload : Bytes) (keys : MediaKeys) : AurixPacket :=
  { sealed suite header payload keys with
    header := { (header.setFlag .authenticated).clearFlag .encrypted with
      payloadLength := UInt16.ofNat payload.length, checksum := suite.crc32 payload }
    payload := payload }

variable {suite} (p : AurixPacket)

lemma wire_encoded : (p.encoded suite).wire = p.encode suite := by
  simp [wire, encoded, tagBytes, encode]

lemma wire_signed (keys : MediaKeys) : (p.signed suite keys).wire = p.encodeAuthenticated suite keys := by
  simp [wire, signed, tagBytes, encodeAuthenticated]

lemma wire_sealed (header : PacketHeader) (payload : Bytes) (keys : MediaKeys) :
    (sealed suite header payload keys).wire = sealParts suite header payload keys := by
  simp [wire, sealed, tagBytes, sealParts]

lemma length_encode : (p.encode suite).length = headerSize + p.payload.length := by
  simp [encode]

lemma length_encodeAuthenticated (keys : MediaKeys) :
    (p.encodeAuthenticated suite keys).length = headerSize + p.payload.length + authTagSize := by
  simp [encodeAuthenticated, authTagSize, add_assoc]

lemma length_sealParts (header : PacketHeader) (payload : Bytes) (keys : MediaKeys) :
    (sealParts suite header payload keys).length = headerSize + payload.length + authTagSize := by
  simp [sealParts, authTagSize, add_assoc]

lemma encoded_wellFormed {p : AurixPacket} (hv : p.header.version = protocolVersion)
    (hlen : p.payload.length < 2 ^ 16) : (p.encoded suite).WellFormed suite where
  version := hv
  length := length_ofNat hlen
  checksum := rfl
  tag := by simp [encoded, hasFlag, clearFlag]

variable {keys : MediaKeys}

lemma signed_wellFormed {p : AurixPacket} (hv : p.header.version = protocolVersion)
    (hlen : p.payload.length < 2 ^ 16) : (p.signed suite keys).WellFormed suite where
  version := hv
  length := length_ofNat hlen
  checksum := rfl
  tag := by simp [signed, hasFlag, clearFlag, setFlag]

lemma sealed_wellFormed {header : PacketHeader} {payload : Bytes}
    (hv : header.version = protocolVersion) (hlen : payload.length < 2 ^ 16) :
    (sealed suite header payload keys).WellFormed suite where
  version := hv
  length := by rw [sealed, length_ofNat hlen, MediaKeys.applyCtr_length]
  checksum := rfl
  tag := by simp [sealed, hasFlag, setFlag]

lemma verifyAuth_signed (keys : MediaKeys) : (p.signed suite keys).verifyAuth suite keys = true := by
  simp [verifyAuth, signed]

lemma openPacket_sealed (header : PacketHeader) (payload : Bytes) (keys : MediaKeys) :
    (sealed suite header payload keys).openPacket suite keys = (true, opened suite header payload keys) := by
  have hverify : (sealed suite header payload keys).verifyAuth suite keys = true := by
    simp [verifyAuth, sealed]
  have hencrypted : (sealed suite header payload keys).header.hasFlag .encrypted = true := by
    simp [sealed, hasFlag, setFlag]
  have hplain : keys.applyCtr suite ((sealed suite header payload keys).header.iv keys)
      (sealed suite header payload keys).payload = payload :=
    MediaKeys.applyCtr_involutive keys (header.iv keys) payload
  rw [openPacket, hverify, if_neg (by decide), if_pos hencrypted]
  simp only [hplain]
  simp [opened, sealed, setFlag, clearFlag]

lemma openPacket_of_not_verifyAuth {p : AurixPacket}
    (h : p.verifyAuth suite keys = false) : p.openPacket suite keys = (false, p) := by
  rw [openPacket, h, if_pos (by decide)]

lemma decodeBounded_sealParts {header : PacketHeader} {payload : Bytes}
    (hv : header.version = protocolVersion) (hlen : payload.length < 2 ^ 16)
    (hsize : headerSize + payload.length + authTagSize ≤ maxSize) :
    decodeBounded suite (sealParts suite header payload keys) maxSize =
      .ok (sealed suite header payload keys) := by
  rw [← wire_sealed]
  apply decodeBounded_wire (sealed_wellFormed hv hlen)
  rw [wire_sealed, length_sealParts]
  exact hsize

lemma decode_encode {p : AurixPacket} (hv : p.header.version = protocolVersion)
    (hfits : (p.encode suite).length ≤ maxPacketSize) : decode suite (p.encode suite) = .ok (p.encoded suite) := by
  have hlen : headerSize + p.payload.length ≤ maxPacketSize := by rwa [← length_encode]
  rw [← wire_encoded, decode]
  apply decodeBounded_wire (encoded_wellFormed hv _)
  · rwa [wire_encoded]
  · simp only [maxPacketSize] at hlen
    omega

end Encoders

lemma sealed_of_decodeBounded {header : PacketHeader} {payload : Bytes} (hv : header.version = protocolVersion)
    (h : decodeBounded suite (sealParts suite header payload keys) maxRelayPacketSize = .ok p) :
    p = sealed suite header payload keys := by
  obtain ⟨-, -, hsize⟩ := wire_of_decodeBounded h
  rw [length_sealParts] at hsize
  have hlen : payload.length < 2 ^ 16 := by
    simp only [maxRelayPacketSize, maxPacketSize, headerSize, authTagSize] at hsize
    omega
  rw [decodeBounded_sealParts hv hlen hsize] at h
  exact (Except.ok.inj h).symm

lemma packetType_of_decode_encode {q : AurixPacket} (h : decode suite (p.encode suite) = .ok q) :
    q.header.packetType = p.header.packetType := by
  obtain ⟨-, hwire, -⟩ := wire_of_decodeBounded h
  have hheader : q.header.encode = ((p.finalizedHeader suite).clearFlag .authenticated).encode := by
    apply (List.append_inj hwire _).1
    rw [PacketHeader.length_encode, PacketHeader.length_encode]
  have htype := packetType_of_encode hheader
  exact htype

lemma encode_fits_of_decode (h : decode suite data = .ok p) :
    p.header.version = protocolVersion ∧ (p.encode suite).length ≤ maxPacketSize := by
  obtain ⟨hp, hwire, hsize⟩ := wire_of_decodeBounded h
  refine ⟨hp.version, ?_⟩
  rw [← hwire, length_wire] at hsize
  rw [length_encode]
  omega

theorem codec_exact (suite : Suite) (p : AurixPacket) (keys : MediaKeys) (hv : p.header.version = protocolVersion) :
    (∀ b q, b.length ≤ maxPacketSize → decode suite b = .ok q →
      q.header.encode ++ (q.payload ++ q.tagBytes) = b) ∧
    ((p.encode suite).length ≤ maxPacketSize →
      decode suite (p.encode suite) =
        .ok ⟨(p.finalizedHeader suite).clearFlag .authenticated, p.payload, none⟩) ∧
    ((p.encodeAuthenticated suite keys).length ≤ maxPacketSize →
      ∃ q, decode suite (p.encodeAuthenticated suite keys) = .ok q ∧ q.verifyAuth suite keys = true ∧
        q.header = ((p.finalizedHeader suite).setFlag .authenticated).clearFlag .encrypted ∧
        q.payload = p.payload) ∧
    ((p.sealPacket suite keys).length ≤ maxPacketSize →
      ∃ q r, decode suite (p.sealPacket suite keys) = .ok q ∧ q.openPacket suite keys = (true, r) ∧
        r.header = ((p.finalizedHeader suite).setFlag .authenticated).clearFlag .encrypted ∧
        r.payload = p.payload) ∧
    ∀ q : AurixPacket, q.verifyAuth suite keys = false → q.openPacket suite keys = (false, q) := by
  refine ⟨?_, decode_encode hv, ?_, ?_, fun q => openPacket_of_not_verifyAuth⟩
  · intro b q _ hq
    exact (wire_of_decodeBounded hq).2.1
  · intro hfits
    have hlen := hfits
    rw [length_encodeAuthenticated, maxPacketSize] at hlen
    refine ⟨p.signed suite keys, ?_, verifyAuth_signed p keys, rfl, rfl⟩
    rw [← wire_signed, decode]
    apply decodeBounded_wire (signed_wellFormed hv (by omega))
    rwa [wire_signed]
  · intro hfits
    have hlen := hfits
    rw [sealPacket, length_sealParts] at hlen
    refine ⟨sealed suite p.header p.payload keys, opened suite p.header p.payload keys, ?_,
      openPacket_sealed p.header p.payload keys, rfl, rfl⟩
    exact decodeBounded_sealParts hv (by simp only [maxPacketSize] at hlen; omega) hlen

def sampleKeys : MediaKeys := .derive .masks [7, 1, 9]

def sampleAudio : AurixPacket := .new (.new .audio 5 960 0x11223344) [0xf8, 0xff]

theorem codec_exact_sample :
    sampleAudio.header.version = protocolVersion ∧
      decode .masks (sampleAudio.encode .masks) =
        .ok ⟨(sampleAudio.finalizedHeader .masks).clearFlag .authenticated, [0xf8, 0xff], none⟩ :=
  ⟨rfl, (codec_exact .masks sampleAudio sampleKeys rfl).2.1 (by decide)⟩

def olderAudio : AurixPacket := { sampleAudio with header := { sampleAudio.header with version := 1 } }

theorem header_not_returned_as_given :
    ((olderAudio.encode .masks).length ≤ maxPacketSize ∧
      ∀ q, decode .masks (olderAudio.encode .masks) ≠ .ok q) ∧
    (opened .masks sampleAudio.header sampleAudio.payload sampleKeys).header ≠
      sampleAudio.header.clearFlag .encrypted ∧
    (decode .masks (sampleAudio.sealPacket .masks sampleKeys)).map (fun q => (q.openPacket .masks sampleKeys)) =
      .ok (true, opened .masks sampleAudio.header sampleAudio.payload sampleKeys) := by
  refine ⟨⟨by decide, ?_⟩, by decide, ?_⟩
  · intro q hq
    have herror : decode .masks (olderAudio.encode .masks) =
        .error (.transport "Unsupported protocol version: 1") := by rfl
    cases hq
  · rw [sealPacket, decode, decodeBounded_sealParts rfl (by decide) (by decide), ← openPacket_sealed]
    rfl

end AurixPacket

end AurixVoice.Protocol
