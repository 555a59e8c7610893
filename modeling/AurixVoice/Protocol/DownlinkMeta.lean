import AurixVoice.Protocol.RelayEnvelope

/-! The bytes a hop adds in front of an audio frame: level, gain and direction. -/

namespace AurixVoice.Protocol

def volumeUnity : Float32 := 128.0
def azimuthScale : Float32 := 127.0 / 3.14159274
def elevationScale : Float32 := 127.0 / 1.57079637
def audioLevelSilence : UInt8 := 127
def directionSize : ℕ := 2

def clamp (x lo hi : Float32) : Float32 := if x < lo then lo else if hi < x then hi else x

def encodeVolumeByte (volume : Float32) : UInt8 :=
  (clamp volume 0.0 (255.0 / volumeUnity) * volumeUnity).round.toUInt8

def decodeVolumeByte (byte : UInt8) : Float32 := byte.toFloat32 / volumeUnity

structure Direction where
  azimuth : Float32
  elevation : Float32

def encodeDirection (direction : Direction) : UInt8 × UInt8 :=
  ((clamp (direction.azimuth * azimuthScale).round (-127.0) 127.0).toInt8.toUInt8,
    (clamp (direction.elevation * elevationScale).round (-127.0) 127.0).toInt8.toUInt8)

def decodeDirection (bytes : UInt8 × UInt8) : Direction :=
  ⟨bytes.1.toInt8.toFloat32 / azimuthScale, bytes.2.toInt8.toFloat32 / elevationScale⟩

def attenuated (volume : Float32) : Bool := (volume - 1.0).abs > 0.01

namespace AurixPacket

def takeAudioLevel (p : AurixPacket) : Option UInt8 × AurixPacket :=
  if !p.header.hasFlag .energy then (none, p)
  else
    let header := p.header.clearFlag .energy
    match p.payload with
    | [] => (some audioLevelSilence, { p with header := header })
    | level :: rest => (some (min level audioLevelSilence),
        { p with header := { header with payloadLength := UInt16.ofNat rest.length }, payload := rest })

def withAudioLevel (p : AurixPacket) (level : UInt8) : AurixPacket :=
  .new (p.header.setFlag .energy) (min level audioLevelSilence :: p.payload)

def downlinkPartsWith (p : AurixPacket) (frame : Bytes) (volume : Float32) (direction : Option Direction) :
    PacketHeader × Bytes :=
  if !attenuated volume && direction.isNone then
    ({ p.header with payloadLength := UInt16.ofNat frame.length }, frame)
  else
    let (header, body) :=
      if attenuated volume then (p.header.setFlag .volumeAttenuated, [encodeVolumeByte volume])
      else (p.header, [])
    let (header, body) := match direction with
      | none => (header, body)
      | some d => (header.setFlag .directional, body ++ [(encodeDirection d).1, (encodeDirection d).2])
    let body := body ++ frame
    ({ header with payloadLength := UInt16.ofNat body.length }, body)

def downlinkParts (p : AurixPacket) (volume : Float32) (direction : Option Direction) : PacketHeader × Bytes :=
  p.downlinkPartsWith p.payload volume direction

def takeVolume (p : AurixPacket) : Float32 × AurixPacket :=
  if !p.header.hasFlag .volumeAttenuated then (1.0, p)
  else
    let header := p.header.clearFlag .volumeAttenuated
    match p.payload with
    | [] => (1.0, { p with header := header })
    | b :: rest => (decodeVolumeByte b, { p with header := header, payload := rest })

def takeDirection (p : AurixPacket) : Option Direction × AurixPacket :=
  if !p.header.hasFlag .directional then (none, p)
  else
    let header := p.header.clearFlag .directional
    match p.payload with
    | az :: el :: rest => (some (decodeDirection (az, el)), { p with header := header, payload := rest })
    | _ => (none, { p with header := header })

def takeDownlinkMeta (p : AurixPacket) : (Float32 × Option Direction) × AurixPacket :=
  let (volume, p) := p.takeVolume
  let (direction, p) := p.takeDirection
  ((volume, direction),
    { p with header := { p.header with payloadLength := UInt16.ofNat p.payload.length } })

/-- The metadata of the downlink copy: what `take_downlink_meta` has to find in front of the frame. -/
def volumeBytes (volume : Float32) : Bytes := if attenuated volume then [encodeVolumeByte volume] else []

def directionBytes (direction : Option Direction) : Bytes :=
  match direction with
  | none => []
  | some d => [(encodeDirection d).1, (encodeDirection d).2]

def encodedGain (volume : Float32) : Float32 :=
  if attenuated volume then decodeVolumeByte (encodeVolumeByte volume) else 1.0

def metaSize (volume : Float32) (direction : Option Direction) : ℕ :=
  (if attenuated volume then 1 else 0) + if direction.isSome then directionSize else 0

variable {f : PacketFlags} {rest : Bytes} (p : AurixPacket)

section

variable (frame : Bytes) (volume : Float32) (direction : Option Direction)

lemma downlinkPartsWith_body :
    (p.downlinkPartsWith frame volume direction).2 = volumeBytes volume ++ (directionBytes direction ++ frame) := by
  unfold downlinkPartsWith volumeBytes directionBytes
  cases attenuated volume <;> cases direction <;> simp

lemma downlinkPartsWith_flags (f : PacketFlags) :
    (p.downlinkPartsWith frame volume direction).1.hasFlag f =
      (p.header.hasFlag f || (attenuated volume && decide (f = .volumeAttenuated)) ||
        (direction.isSome && decide (f = .directional))) := by
  unfold downlinkPartsWith
  cases attenuated volume <;> cases direction <;>
    simp [PacketHeader.hasFlag, PacketHeader.setFlag, eq_comm]

lemma downlinkPartsWith_version : (p.downlinkPartsWith frame volume direction).1.version = p.header.version := by
  unfold downlinkPartsWith
  cases attenuated volume <;> cases direction <;> rfl

lemma nonceFields_downlinkPartsWith :
    (p.downlinkPartsWith frame volume direction).1.nonceFields = p.header.nonceFields := by
  unfold downlinkPartsWith
  cases attenuated volume <;> cases direction <;> rfl

lemma length_meta (frame : Bytes) :
    (volumeBytes volume ++ (directionBytes direction ++ frame)).length =
      metaSize volume direction + frame.length := by
  unfold volumeBytes directionBytes metaSize
  cases attenuated volume <;> cases direction <;> simp [directionSize] <;> omega

end

variable {volume : Float32}

lemma takeVolume_body {p : AurixPacket} (hpayload : p.payload = volumeBytes volume ++ rest)
    (hvolume : p.header.hasFlag .volumeAttenuated = attenuated volume) :
    p.takeVolume.1 = encodedGain volume ∧ p.takeVolume.2.payload = rest ∧
      p.takeVolume.2.header.hasFlag .directional = p.header.hasFlag .directional := by
  unfold takeVolume encodedGain
  unfold volumeBytes at hpayload
  cases hatt : attenuated volume with
  | false =>
    rw [hatt] at hvolume hpayload
    simpa [hvolume] using hpayload
  | true =>
    rw [hatt] at hvolume hpayload
    simp [hvolume, hpayload]

variable {direction : Option Direction}

lemma takeDirection_body {p : AurixPacket} (hpayload : p.payload = directionBytes direction ++ rest)
    (hdirection : p.header.hasFlag .directional = direction.isSome) :
    p.takeDirection.1 = (direction.map fun d => decodeDirection (encodeDirection d)) ∧
      p.takeDirection.2.payload = rest := by
  unfold takeDirection
  unfold directionBytes at hpayload
  cases direction with
  | none => simpa [hdirection] using hpayload
  | some => simp [hdirection, hpayload]

lemma takeDownlinkMeta_body {p : AurixPacket}
    {frame : Bytes} (hpayload : p.payload = volumeBytes volume ++ (directionBytes direction ++ frame))
    (hvolume : p.header.hasFlag .volumeAttenuated = attenuated volume)
    (hdirection : p.header.hasFlag .directional = direction.isSome) :
    p.takeDownlinkMeta.1 =
        (encodedGain volume, direction.map fun d => decodeDirection (encodeDirection d)) ∧
      p.takeDownlinkMeta.2.payload = frame := by
  obtain ⟨hgain, hrest, hflag⟩ := takeVolume_body hpayload hvolume
  obtain ⟨hdir, hframe⟩ := takeDirection_body hrest (hflag.trans hdirection)
  exact ⟨Prod.ext hgain hdir, hframe⟩

def routed (p : AurixPacket) (number : UInt32) : AurixPacket :=
  let p := p.takeAudioLevel.2
  { p with header := { p.header with sequence := number } }

lemma nonceFields_takeAudioLevel : p.takeAudioLevel.2.header.nonceFields = p.header.nonceFields := by
  unfold takeAudioLevel
  split
  · rfl
  · split <;> rfl

lemma takeAudioLevel_version : p.takeAudioLevel.2.header.version = p.header.version := by
  unfold takeAudioLevel
  split
  · rfl
  · cases p.payload <;> rfl

lemma takeAudioLevel_hasFlag (h : f ≠ .energy) : p.takeAudioLevel.2.header.hasFlag f = p.header.hasFlag f := by
  have hclear : (p.header.clearFlag .energy).hasFlag f = p.header.hasFlag f := by simp [h.symm]
  unfold takeAudioLevel
  split
  · rfl
  · cases p.payload
    all_goals exact hclear

/-- The receiver decodes and opens the downlink copy and finds the gain, the direction and the frame. -/
def HeardAs (suite : Suite) (p : AurixPacket) (number : UInt32) (volume : Float32)
    (direction : Option Direction) (receiverKeys : MediaKeys) : Prop :=
  let copy := (p.routed number).downlinkParts volume direction
  ∃ e e', decode suite (sealParts suite copy.1 copy.2 receiverKeys) = .ok e ∧
    e.openPacket suite receiverKeys = (true, e') ∧
    e'.takeDownlinkMeta.1 =
      (encodedGain volume, direction.map fun d => decodeDirection (encodeDirection d)) ∧
    e'.takeDownlinkMeta.2.payload = p.takeAudioLevel.2.payload

lemma opened_hasFlag {suite : Suite} (header : PacketHeader) (payload : Bytes) (keys : MediaKeys)
    (hauth : f ≠ .authenticated) (henc : f ≠ .encrypted) :
    (opened suite header payload keys).header.hasFlag f = header.hasFlag f := by
  have hflags : ((header.setFlag .authenticated).clearFlag .encrypted).hasFlag f = header.hasFlag f := by
    simp [hauth.symm, henc.symm]
  exact hflags

theorem downlink_capacity_iff {suite : Suite} {data : Bytes} {p q : AurixPacket} {keys : MediaKeys}
    (hdecode : decode suite data = .ok p) (hopen : p.openPacket suite keys = (true, q))
    (hvolume : q.header.hasFlag .volumeAttenuated = false) (hdirectional : q.header.hasFlag .directional = false)
    (number : UInt32) (volume : Float32) (direction : Option Direction) (receiverKeys : MediaKeys) :
    HeardAs suite q number volume direction receiverKeys ↔
      metaSize volume direction + q.takeAudioLevel.2.payload.length ≤
        maxPacketSize - headerSize - authTagSize := by
  obtain ⟨hp, -, -⟩ := wire_of_decodeBounded hdecode
  obtain ⟨hq, -, -⟩ := openPacket_wellFormed hp hopen
  have hbody : ((q.routed number).downlinkParts volume direction).2 =
      volumeBytes volume ++ (directionBytes direction ++ q.takeAudioLevel.2.payload) :=
    downlinkPartsWith_body ..
  have hlen : ((q.routed number).downlinkParts volume direction).2.length =
      metaSize volume direction + q.takeAudioLevel.2.payload.length := by
    rw [hbody, length_meta]
  have hversion : ((q.routed number).downlinkParts volume direction).1.version = protocolVersion :=
    (downlinkPartsWith_version ..).trans ((takeAudioLevel_version q).trans hq.version)
  constructor
  · rintro ⟨e, e', he, -⟩
    obtain ⟨-, -, hsize⟩ := wire_of_decodeBounded he
    rw [length_sealParts, hlen] at hsize
    omega
  · intro hfits
    refine ⟨_, _, decodeBounded_sealParts hversion ?_ ?_, openPacket_sealed _ _ _, ?_⟩
    · simp only [maxPacketSize, headerSize, authTagSize] at *
      omega
    · simp only [maxPacketSize, headerSize, authTagSize] at *
      omega
    · have hflag : ∀ f, (q.routed number).header.hasFlag f = q.takeAudioLevel.2.header.hasFlag f :=
        fun f => rfl
      apply takeDownlinkMeta_body hbody
      all_goals
        rw [opened_hasFlag _ _ _ (by decide) (by decide), downlinkParts, downlinkPartsWith_flags, hflag,
          takeAudioLevel_hasFlag q (by decide)]
      · simp [hvolume]
      · simp [hdirectional]

lemma metaSize_le (volume : Float32) (direction : Option Direction) : metaSize volume direction ≤ 3 := by
  unfold metaSize directionSize
  split <;> split <;> decide

theorem downlink_capacity_iff_sample :
    HeardAs .masks (opened .masks sampleAudio.header sampleAudio.payload sampleKeys) 0 0.5
      (some ⟨0.25, 0.0⟩) (.derive .masks [3]) := by
  apply (downlink_capacity_iff (decodeBounded_sealParts rfl (by decide) (by decide))
    (openPacket_sealed sampleAudio.header sampleAudio.payload sampleKeys) (by decide) (by decide) 0 0.5
    (some ⟨0.25, 0.0⟩) (.derive .masks [3])).mpr
  have hframe : (opened .masks sampleAudio.header sampleAudio.payload sampleKeys).takeAudioLevel.2.payload.length =
      2 := by decide
  have hmeta := metaSize_le 0.5 (some ⟨0.25, 0.0⟩)
  simp only [maxPacketSize, headerSize, authTagSize]
  omega

theorem full_uplink_not_heard :
    (fullAudio.sealPacket .masks sampleKeys).length = maxPacketSize ∧
    decode .masks (fullAudio.sealPacket .masks sampleKeys) =
      .ok (sealed .masks fullAudio.header fullAudio.payload sampleKeys) ∧
    (sealed .masks fullAudio.header fullAudio.payload sampleKeys).openPacket .masks sampleKeys =
      (true, opened .masks fullAudio.header fullAudio.payload sampleKeys) ∧
    ¬ HeardAs .masks (opened .masks fullAudio.header fullAudio.payload sampleKeys) 0 1.0
      (some ⟨0.25, 0.0⟩) (.derive .masks [3]) := by
  refine ⟨length_sealPacket_fullAudio, decode_fullAudio, openPacket_sealed _ _ _, ?_⟩
  rintro ⟨e, e', he, -⟩
  obtain ⟨-, -, hsize⟩ := wire_of_decodeBounded he
  rw [length_sealParts, downlinkParts, downlinkPartsWith_body, length_meta] at hsize
  have hframe : ((opened .masks fullAudio.header fullAudio.payload sampleKeys).routed 0).payload.length =
      1354 := length_fullAudio
  rw [hframe] at hsize
  simp only [metaSize, Option.isSome_some, ↓reduceIte, directionSize, maxPacketSize, headerSize, authTagSize] at hsize
  omega

end AurixPacket

end AurixVoice.Protocol
