import AurixVoice.Protocol.Codec

/-!
Cascade envelopes: a client packet behind the id of its sender and, on relay trees, a hop byte.
-/

namespace AurixVoice

open List

def Uuid.asBytes (u : Uuid) : List UInt8 := toBe 16 u.bits.toNat

def Uuid.fromSlice (bytes : List UInt8) : Uuid := ⟨BitVec.ofNat 128 (ofBe bytes)⟩

@[simp] lemma Uuid.length_asBytes (u : Uuid) : u.asBytes.length = 16 := length_toBe 16 _

@[simp] lemma Uuid.fromSlice_asBytes (u : Uuid) : fromSlice u.asBytes = u := by
  have hlt : u.bits.toNat < 256 ^ 16 := u.bits.isLt
  rw [fromSlice, asBytes, ofBe_toBe, Nat.mod_eq_of_lt hlt, BitVec.ofNat_toNat, BitVec.setWidth_eq]

namespace Protocol

variable (suite : Suite)

def channelIdHash (channel : ChannelId) : UInt32 := suite.crc32 channel.asBytes

def maxRelayHops : UInt8 := 5
def relayHopMark : UInt8 := 0x80
def relayHopMask : UInt8 := 0x0F

def hopByte (hop : UInt8) : UInt8 := relayHopMark ||| (hop &&& relayHopMask)

lemma hopByte_table : ∀ i : Fin 16, hopByte (UInt8.ofNat i) &&& ~~~relayHopMask = relayHopMark ∧
    hopByte (UInt8.ofNat i) &&& relayHopMask = UInt8.ofNat i := by
  decide

lemma hopByte_mark {hop : UInt8} (h : hop ≤ relayHopMask) :
    hopByte hop &&& ~~~relayHopMask = relayHopMark ∧ hopByte hop &&& relayHopMask = hop := by
  have hlt : hop.toNat < 16 := Nat.lt_succ_of_le (UInt8.le_iff_toNat_le.mp h)
  have htable := hopByte_table ⟨hop.toNat, hlt⟩
  rwa [UInt8.ofNat_toNat] at htable

namespace AurixPacket

variable (inner : AurixPacket) (relaySsrc : UInt32)

variable (counter : UInt64) (sender : UserId)

def relayHeader : PacketHeader :=
  { (PacketHeader.new .relay counter.toUInt32 (counter >>> 32).toUInt32 relaySsrc).setFlag .relay with
    channelIdHash := inner.header.channelIdHash }

def relayEnvelopeInner (hop : Option UInt8) : AurixPacket :=
  let hdr := relayHeader inner relaySsrc counter
  let encoded := inner.encode suite
  match hop with
  | none => .new hdr (sender.asBytes ++ encoded)
  | some hop => .new (hdr.setFlag .relayHop) (sender.asBytes ++ (hopByte hop :: encoded))

def relayEnvelope : AurixPacket :=
  relayEnvelopeInner suite inner relaySsrc counter sender none

def relayEnvelopeHop (hop : UInt8) : AurixPacket :=
  relayEnvelopeInner suite inner relaySsrc counter sender (some hop)

def relayInnerHop (p : AurixPacket) : Except AurixError (UserId × Option UInt8 × AurixPacket) :=
  if p.header.packetType ≠ .relay then .error (.transport "Not a Relay packet")
  else
    let withHop := p.header.hasFlag .relayHop
    let start := if withHop then 17 else 16
    if p.payload.length < start + headerSize then .error (.transport "Relay envelope too short")
    else
      let sender := Uuid.fromSlice (p.payload.take 16)
      let b := p.payload.getD 16 0
      if withHop ∧ b &&& ~~~relayHopMask ≠ relayHopMark then
        .error (.transport "Invalid relay hop byte")
      else
        match decode suite (p.payload.drop start) with
        | .error e => .error e
        | .ok inner => .ok (sender, if withHop then some (b &&& relayHopMask) else none, inner)

variable {suite}

lemma finalizedHeader_of_wellFormed {p : AurixPacket} (h : p.WellFormed suite) :
    p.finalizedHeader suite = p.header := by
  rw [finalizedHeader, ← h.length, ← h.checksum, UInt16.ofNat_toNat]

lemma openPacket_wellFormed {p q : AurixPacket} {keys : MediaKeys} (h : p.WellFormed suite)
    (hopen : p.openPacket suite keys = (true, q)) :
    q.WellFormed suite ∧ q.payload.length = p.payload.length ∧ p.authTag.isSome = true := by
  have htag : p.authTag.isSome = true := by
    cases hp : p.authTag with
    | some => rfl
    | none => simp [openPacket, verifyAuth, hp] at hopen
  unfold openPacket at hopen
  split at hopen
  · cases hopen
  split at hopen
  · obtain rfl := (Prod.mk.inj hopen).2
    refine ⟨⟨h.version, ?_, rfl, ?_⟩, MediaKeys.applyCtr_length .., htag⟩
    · exact h.length.trans (MediaKeys.applyCtr_length ..).symm
    · simpa [PacketHeader.hasFlag, PacketHeader.clearFlag] using h.tag
  · obtain rfl := (Prod.mk.inj hopen).2
    exact ⟨h, rfl, htag⟩

lemma length_relayEnvelopeHop (inner : AurixPacket) (relaySsrc : UInt32) (counter : UInt64)
    (sender : UserId) (hop : UInt8) :
    (relayEnvelopeHop suite inner relaySsrc counter sender hop).payload.length =
      17 + headerSize + inner.payload.length := by
  simp only [relayEnvelopeHop, relayEnvelopeInner, new, length_append, length_cons,
    Uuid.length_asBytes, length_encode]
  omega

lemma relayInnerHop_hop {e inner : AurixPacket} {sender : UserId} {hop : UInt8} {encoded : Bytes}
    (htype : e.header.packetType = .relay) (hflag : e.header.hasFlag .relayHop = true)
    (hpayload : e.payload = sender.asBytes ++ (hopByte hop :: encoded)) (hhop : hop ≤ relayHopMask)
    (hlen : headerSize ≤ encoded.length) (hinner : decode suite encoded = .ok inner) :
    e.relayInnerHop suite = .ok (sender, some hop, inner) := by
  have hsize : ¬ e.payload.length < 17 + headerSize := by
    rw [hpayload, length_append, length_cons, Uuid.length_asBytes]
    omega
  have htake : e.payload.take 16 = sender.asBytes := by
    rw [hpayload]
    exact take_left' sender.length_asBytes
  have hdrop16 : e.payload.drop 16 = hopByte hop :: encoded := by
    rw [hpayload]
    exact drop_left' sender.length_asBytes
  have hdrop : e.payload.drop 17 = encoded := by
    rw [← drop_drop (i := 1) (j := 16), hdrop16, drop_succ_cons, drop_zero]
  have hbyte : e.payload.getD 16 0 = hopByte hop := by
    rw [getD_eq_getElem?_getD, ← head?_drop, hdrop16]
    rfl
  obtain ⟨hmark, hmask⟩ := hopByte_mark hhop
  unfold relayInnerHop
  simp only [htype, ne_eq, not_true_eq_false, hflag, ↓reduceIte]
  rw [if_neg hsize, hbyte, htake, hdrop, hinner, if_neg (fun h => h.2 hmark), Uuid.fromSlice_asBytes, hmask]

lemma relayInnerHop_eq_ok {p inner : AurixPacket} {sender : UserId} {hop : Option UInt8}
    (h : p.relayInnerHop suite = .ok (sender, hop, inner)) :
    (p.header.hasFlag .relayHop = false → hop = none) ∧
      decode suite (p.payload.drop (if p.header.hasFlag .relayHop then 17 else 16)) = .ok inner := by
  unfold relayInnerHop at h
  split at h
  · cases h
  dsimp only at h
  generalize (if p.header.hasFlag .relayHop = true then 17 else 16) = start at h ⊢
  split at h
  · cases h
  split at h
  · cases h
  split at h
  · cases h
  next q hq =>
    obtain ⟨-, hrest⟩ := Prod.mk.inj (Except.ok.inj h)
    obtain ⟨rfl, rfl⟩ := Prod.mk.inj hrest
    exact ⟨fun hflag => by simp [hflag], hq⟩

lemma relayInnerHop_opened {inner : AurixPacket} (hv : inner.header.version = protocolVersion)
    (hfits : (inner.encode suite).length ≤ maxPacketSize) (relaySsrc : UInt32) (counter : UInt64)
    (sender : UserId) {hop : UInt8} (hhop : hop ≤ relayHopMask) (keys : MediaKeys) :
    (opened suite (relayEnvelopeHop suite inner relaySsrc counter sender hop).header
      (relayEnvelopeHop suite inner relaySsrc counter sender hop).payload keys).relayInnerHop suite =
      .ok (sender, some hop, inner.encoded suite) := by
  apply relayInnerHop_hop rfl _ rfl hhop _ (decode_encode hv hfits)
  · simp [relayEnvelopeHop, relayEnvelopeInner, new, opened, PacketHeader.hasFlag,
      PacketHeader.setFlag, PacketHeader.clearFlag]
  · rw [length_encode]
    omega

variable (suite) in
/-- The envelope for the hop is accepted by the next node and unwraps to what was put in. -/
def CarriedOver (inner : AurixPacket) (relaySsrc : UInt32) (counter : UInt64) (sender : UserId)
    (hop : UInt8) (relayKeys : MediaKeys) : Prop :=
  ∃ e e', decodeBounded suite
      ((relayEnvelopeHop suite inner relaySsrc counter sender hop).sealPacket suite relayKeys)
      maxRelayPacketSize = .ok e ∧
    e.openPacket suite relayKeys = (true, e') ∧
    e'.relayInnerHop suite =
      .ok (sender, some hop, ⟨inner.header.clearFlag .authenticated, inner.payload, none⟩)

lemma decodeBounded_of_lt {data : Bytes} {maxSize : ℕ} (h : maxSize < data.length) :
    decodeBounded suite data maxSize = .error (.transport "Packet exceeds maximum size") := by
  rw [decodeBounded, if_pos h]

lemma length_sealPacket_relayEnvelopeHop (inner : AurixPacket) (relaySsrc : UInt32) (counter : UInt64)
    (sender : UserId) (hop : UInt8) (relayKeys : MediaKeys) :
    ((relayEnvelopeHop suite inner relaySsrc counter sender hop).sealPacket suite relayKeys).length =
      headerSize + (17 + headerSize + inner.payload.length) + authTagSize := by
  rw [sealPacket, length_sealParts, length_relayEnvelopeHop]

theorem relay_capacity_iff {data : Bytes} {p q : AurixPacket} {keys : MediaKeys} (hdecode : decode suite data = .ok p)
    (hopen : p.openPacket suite keys = (true, q)) (relaySsrc : UInt32) (counter : UInt64) (sender : UserId)
    (relayKeys : MediaKeys) {hop : UInt8} (hhop : hop ≤ maxRelayHops) :
    CarriedOver suite q relaySsrc counter sender hop relayKeys ↔ data.length < maxPacketSize := by
  obtain ⟨hp, rfl, hsize⟩ := wire_of_decodeBounded hdecode
  obtain ⟨hq, hlen, htag⟩ := openPacket_wellFormed hp hopen
  have hmask : hop ≤ relayHopMask := UInt8.le_trans hhop (by decide)
  have hwire : p.wire.length = headerSize + q.payload.length + authTagSize := by
    rw [length_wire, htag, if_pos rfl, hlen]
  have henvelope : ((relayEnvelopeHop suite q relaySsrc counter sender hop).sealPacket suite relayKeys).length =
      headerSize + (17 + headerSize + q.payload.length) + authTagSize :=
    length_sealPacket_relayEnvelopeHop ..
  constructor
  · rintro ⟨e, e', he, -, -⟩
    by_contra hfull
    rw [decodeBounded_of_lt] at he
    · cases he
    · simp only [maxRelayPacketSize, maxPacketSize, headerSize, authTagSize] at *
      omega
  · intro hlt
    have hfits : (q.encode suite).length ≤ maxPacketSize := by
      rw [length_encode]
      omega
    have hinner : q.encoded suite = ⟨q.header.clearFlag .authenticated, q.payload, none⟩ := by
      rw [encoded, finalizedHeader_of_wellFormed hq]
    refine ⟨_, _, decodeBounded_sealParts rfl ?_ ?_, openPacket_sealed _ _ _, ?_⟩
    · rw [length_relayEnvelopeHop]
      simp only [maxPacketSize, headerSize, authTagSize] at *
      omega
    · rw [length_relayEnvelopeHop]
      simp only [maxRelayPacketSize, maxPacketSize, headerSize, authTagSize] at *
      omega
    · rw [relayInnerHop_opened hq.version hfits relaySsrc counter sender hmask, hinner]

theorem relay_capacity_iff_sample :
    CarriedOver .masks (opened .masks sampleAudio.header sampleAudio.payload sampleKeys) 9 1 3 5 sampleKeys ↔
      (sampleAudio.sealPacket .masks sampleKeys).length < maxPacketSize :=
  relay_capacity_iff (decodeBounded_sealParts rfl (by decide) (by decide)) (openPacket_sealed _ _ _) 9 1 3
    sampleKeys (by decide)

def fullAudio : AurixPacket := { sampleAudio with payload := replicate 1354 0 }

lemma length_fullAudio : fullAudio.payload.length = 1354 := length_replicate

lemma length_sealPacket_fullAudio : (fullAudio.sealPacket .masks sampleKeys).length = maxPacketSize := by
  rw [sealPacket, length_sealParts, length_fullAudio]
  rfl

lemma decode_fullAudio : decode .masks (fullAudio.sealPacket .masks sampleKeys) =
    .ok (sealed .masks fullAudio.header fullAudio.payload sampleKeys) :=
  decodeBounded_sealParts rfl (by rw [length_fullAudio]; decide) (by rw [length_fullAudio]; decide)

theorem full_packet_envelope_refused :
    (fullAudio.sealPacket .masks sampleKeys).length = maxPacketSize ∧
    decode .masks (fullAudio.sealPacket .masks sampleKeys) =
      .ok (sealed .masks fullAudio.header fullAudio.payload sampleKeys) ∧
    (sealed .masks fullAudio.header fullAudio.payload sampleKeys).openPacket .masks sampleKeys =
      (true, opened .masks fullAudio.header fullAudio.payload sampleKeys) ∧
    decodeBounded .masks ((relayEnvelopeHop .masks
      (opened .masks fullAudio.header fullAudio.payload sampleKeys) 9 1 3 1).sealPacket .masks sampleKeys)
      maxRelayPacketSize = .error (.transport "Packet exceeds maximum size") ∧
    ¬ CarriedOver .masks (opened .masks fullAudio.header fullAudio.payload sampleKeys) 9 1 3 1 sampleKeys := by
  have hrefused : decodeBounded .masks ((relayEnvelopeHop .masks
      (opened .masks fullAudio.header fullAudio.payload sampleKeys) 9 1 3 1).sealPacket .masks sampleKeys)
      maxRelayPacketSize = .error (.transport "Packet exceeds maximum size") := by
    apply decodeBounded_of_lt
    rw [length_sealPacket_relayEnvelopeHop, opened, length_fullAudio]
    decide
  refine ⟨length_sealPacket_fullAudio, decode_fullAudio, openPacket_sealed _ _ _, hrefused, ?_⟩
  rintro ⟨e, e', he, -, -⟩
  rw [hrefused] at he
  cases he

end AurixPacket

end Protocol

end AurixVoice
