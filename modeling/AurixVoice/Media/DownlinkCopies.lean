import AurixVoice.Media.LiveChannel
import AurixVoice.Media.SyntheticStreams
import AurixVoice.Protocol.DownlinkMeta

/-! The copies of an uplink packet on their way to the client. The sender's flags travel along, but the level's. -/

namespace AurixVoice.Protocol

def AudioCodec.isG711 (codec : AudioCodec) : Bool := decide (codec ≠ .opus)

namespace PacketHeader

def audioCodec (h : PacketHeader) : AudioCodec :=
  if h.hasFlag .pcmu then .pcmu else if h.hasFlag .pcma then .pcma else .opus

variable {f : PacketFlags}

lemma hasFlag_setAudioCodec (h : PacketHeader) (codec : AudioCodec) (hu : f ≠ .pcmu)
    (ha : f ≠ .pcma) : (h.setAudioCodec codec).hasFlag f = h.hasFlag f := by
  cases codec <;> simp [setAudioCodec, hu.symm, ha.symm]

lemma nonceFields_eq {h h' : PacketHeader} (heq : h'.nonceFields = h.nonceFields) :
    h'.packetType = h.packetType ∧ h'.ssrc = h.ssrc ∧ h'.sequence = h.sequence ∧ h'.timestamp = h.timestamp := by
  simpa [nonceFields] using heq

lemma version_setAudioCodec (h : PacketHeader) (codec : AudioCodec) :
    (h.setAudioCodec codec).version = h.version := by
  cases codec <;> rfl

end PacketHeader

namespace AurixPacket

def gainByte (volume : Float32) : Option UInt8 :=
  if attenuated volume then some (encodeVolumeByte volume) else none

lemma volumeBytes_eq (volume : Float32) : volumeBytes volume = (gainByte volume).toList := by
  unfold volumeBytes gainByte
  split <;> rfl

lemma encodedGain_eq (volume : Float32) : encodedGain volume = (gainByte volume).elim 1.0 decodeVolumeByte := by
  unfold encodedGain gainByte
  split <;> rfl

lemma isSome_gainByte (volume : Float32) : (gainByte volume).isSome = attenuated volume := by
  unfold gainByte
  split
  next h => exact h.symm
  next h => exact (Bool.eq_false_of_not_eq_true h).symm

structure Announces (volume directional : Bool) (gain : Option UInt8) (direction : Option Direction)
    (frame : Bytes) : Prop where
  volume : volume = true → gain.isSome ∨ direction = none ∧ frame = []
  directional : directional = true → direction.isSome ∨ frame.length < directionSize

section
variable {p : AurixPacket} {volume directional : Bool} {gain : Option UInt8} {direction : Option Direction}
  {frame : Bytes}

lemma takeVolume_payload (hpayload : p.payload = gain.toList ++ frame)
    (hflag : p.header.hasFlag .volumeAttenuated = (volume || gain.isSome)) :
    p.takeVolume.2.payload = if volume && gain.isNone then frame.tail else frame := by
  unfold takeVolume
  cases gain with
  | some => simp [hflag, hpayload]
  | none =>
    cases volume with
    | false => simpa [hflag] using hpayload
    | true => cases frame <;> simp [hflag, hpayload]

lemma takeVolume_hasFlag (hf : f ≠ .volumeAttenuated) : p.takeVolume.2.header.hasFlag f = p.header.hasFlag f := by
  have hclear : (p.header.clearFlag .volumeAttenuated).hasFlag f = p.header.hasFlag f := by simp [hf.symm]
  unfold takeVolume
  split
  · rfl
  · cases p.payload
    all_goals exact hclear

lemma takeDirection_hasFlag (hf : f ≠ .directional) : p.takeDirection.2.header.hasFlag f = p.header.hasFlag f := by
  have hclear : (p.header.clearFlag .directional).hasFlag f = p.header.hasFlag f := by simp [hf.symm]
  unfold takeDirection
  split
  · rfl
  · split
    all_goals exact hclear

lemma takeDownlinkMeta_hasFlag (hv : f ≠ .volumeAttenuated) (hd : f ≠ .directional) :
    p.takeDownlinkMeta.2.header.hasFlag f = p.header.hasFlag f :=
  (takeDirection_hasFlag hd).trans (takeVolume_hasFlag hv)

lemma takeDirection_payload_length :
    p.takeDirection.2.payload.length =
      if p.header.hasFlag .directional && decide (directionSize ≤ p.payload.length) then
        p.payload.length - directionSize
      else p.payload.length := by
  unfold takeDirection
  cases p.header.hasFlag .directional with
  | false => rfl
  | true =>
    rcases p.payload with _ | ⟨a, _ | ⟨b, rest⟩⟩ <;> simp [directionSize]

variable (hpayload : p.payload = gain.toList ++ (directionBytes direction ++ frame))
  (hvolume : p.header.hasFlag .volumeAttenuated = (volume || gain.isSome))
  (hdirectional : p.header.hasFlag .directional = (directional || direction.isSome))
include hpayload hvolume hdirectional

lemma announces_of_payload (hframe : p.takeDownlinkMeta.2.payload = frame) :
    Announces volume directional gain direction frame := by
  have hrest := takeVolume_payload hpayload hvolume
  have hflag : p.takeVolume.2.header.hasFlag .directional = (directional || direction.isSome) :=
    (takeVolume_hasFlag (by decide)).trans hdirectional
  have hlen : p.takeVolume.2.takeDirection.2.payload.length = frame.length := congrArg List.length hframe
  rw [takeDirection_payload_length, hflag] at hlen
  constructor
  · rintro rfl
    cases gain with
    | some => exact .inl rfl
    | none =>
      right
      rw [hrest] at hlen
      cases direction with
      | some => cases frame <;> simp [directionBytes, directionSize] at hlen
      | none =>
        refine ⟨rfl, ?_⟩
        cases frame with
        | nil => rfl
        | cons b rest =>
          -- what is left is shorter than the frame, whether or not a direction is read from it
          have hshort : (List.tail (directionBytes none ++ b :: rest)).length = rest.length := rfl
          simp only [Option.isNone_none, Bool.and_true, ↓reduceIte, hshort, List.length_cons] at hlen
          split at hlen <;> omega
  · rintro rfl
    cases direction with
    | some => exact .inl rfl
    | none =>
      right
      have hle : p.takeVolume.2.payload.length ≤ frame.length := by
        rw [hrest]
        split
        · exact (List.tail_sublist _).length_le
        · exact le_rfl
      by_contra hlong
      split at hlen
      · simp only [directionSize] at hlen hlong
        omega
      next hread =>
        simp only [Bool.true_or, Bool.true_and, decide_eq_true_eq, hlen] at hread
        exact hlong (not_le.mp hread)

lemma takeDownlinkMeta_of_announces (h : Announces volume directional gain direction frame) :
    p.takeDownlinkMeta.1 =
        (gain.elim 1.0 decodeVolumeByte, direction.map fun d => decodeDirection (encodeDirection d)) ∧
      p.takeDownlinkMeta.2.payload = frame := by
  have hflag : p.takeVolume.2.header.hasFlag .directional = (directional || direction.isSome) :=
    (takeVolume_hasFlag (by decide)).trans hdirectional
  have hgain : p.takeVolume.1 = gain.elim 1.0 decodeVolumeByte ∧
      p.takeVolume.2.payload = directionBytes direction ++ frame := by
    unfold takeVolume
    cases gain with
    | some => simp [hvolume, hpayload]
    | none =>
      cases volume with
      | false => simpa [hvolume] using hpayload
      | true =>
        obtain hsome | ⟨rfl, rfl⟩ := h.volume rfl
        · cases hsome
        · simp [hvolume, hpayload, directionBytes]
  have hdir : p.takeVolume.2.takeDirection.1 = (direction.map fun d => decodeDirection (encodeDirection d)) ∧
      p.takeVolume.2.takeDirection.2.payload = frame := by
    unfold takeDirection
    cases direction with
    | some => simp [hflag, hgain.2, directionBytes]
    | none =>
      have hrest : p.takeVolume.2.payload = frame := hgain.2
      cases directional with
      | false => simpa [hflag] using hrest
      | true =>
        obtain hsome | hshort := h.directional rfl
        · cases hsome
        · rcases frame with _ | ⟨a, _ | ⟨b, rest⟩⟩
          · simp [hflag, hrest]
          · simp [hflag, hrest]
          · simp only [List.length_cons, directionSize] at hshort
            omega
  exact ⟨Prod.ext hgain.1 hdir.1, hdir.2⟩

end

end AurixPacket

end AurixVoice.Protocol

namespace AurixVoice.Media

open Protocol

structure FrameCodecs where
  denoise : Bytes → Option Bytes
  toOpus : AudioCodec → Bytes → Option Bytes
  toG711 : AudioCodec → Bytes → Option Bytes

structure UplinkPolicy where
  e2eeChannel : Bool
  codec : AudioCodec
  cleaned : Bool

def FrameCodecs.prepare (codecs : FrameCodecs) (u : UplinkPolicy) (p : AurixPacket) : Option AurixPacket :=
  if u.e2eeChannel && !p.header.hasFlag .e2ee then none
  else if p.header.audioCodec.isG711 then
    if u.codec ≠ p.header.audioCodec then none
    else if p.header.hasFlag .e2ee then some p
    else (codecs.toOpus p.header.audioCodec p.payload).map (.new (p.header.setAudioCodec .opus))
  else if !p.header.hasFlag .e2ee && u.cleaned then
    some ((codecs.denoise p.payload).elim p (.new p.header))
  else some p

inductive Hop
  | here
  | relayed (level : Option UInt8)

structure CopyReceiver where
  transport : Transport
  active : Bool
  bound : Bool
  e2eeCapable : Bool
  codec : AudioCodec
  keys : MediaKeys

structure ForwardMedia where
  speaker : Option UserId
  senderSsrc : UInt32
  senderTs : UInt32
  volume : Float32
  direction : Option Direction
  e2ee : Bool
  payload : Bytes

inductive Sent
  | rtp (media : ForwardMedia)
  | aurx (wire : Bytes)

structure IncomingAudio where
  senderSsrc : UInt32
  sequence : UInt32
  timestamp : UInt32
  channelHash : UInt32
  volume : Float32
  direction : Option Direction
  codec : AudioCodec
  mixed : Bool
  e2ee : Bool
  payload : Bytes

structure MediaTransport where
  keys : MediaKeys
  replay : ReplayMap

variable (suite : Suite)

def Hop.packet (p : AurixPacket) : Hop → AurixPacket
  | .here => p
  | .relayed level => (((level.elim p p.withAudioLevel).encoded suite).takeAudioLevel).2

def copyFor (codecs : FrameCodecs) (speaker : Option UserId) (p : AurixPacket) (mix : Mix Float32 Direction)
    (r : CopyReceiver) : Option Sent :=
  let e2ee := p.header.hasFlag .e2ee
  if !r.active || (e2ee && !r.e2eeCapable) then none
  else
    match r.transport with
    | .webRtc =>
      if e2ee && speaker.isNone then none
      else some (.rtp ⟨speaker, p.header.ssrc, p.header.timestamp, mix.volume, mix.direction, e2ee, p.payload⟩)
    | .aurx =>
      if !r.bound then none
      else if e2ee then some (.aurx (AurixPacket.sealParts suite p.header p.payload r.keys))
      else if r.codec.isG711 then
        (codecs.toG711 r.codec p.payload).map fun frame =>
          let (header, body) := p.downlinkPartsWith frame mix.volume mix.direction
          .aurx (AurixPacket.sealParts suite (header.setAudioCodec r.codec) body r.keys)
      else
        let (header, body) := p.downlinkParts mix.volume mix.direction
        some (.aurx (AurixPacket.sealParts suite header body r.keys))

def frameFor (codecs : FrameCodecs) (p : AurixPacket) (r : CopyReceiver) : Option Bytes :=
  if !p.header.hasFlag .e2ee && decide (r.transport = .aurx) && r.codec.isG711 then codecs.toG711 r.codec p.payload
  else some p.payload

namespace MediaTransport

def process (t : MediaTransport) (data : Bytes) : Option IncomingAudio × MediaTransport :=
  match AurixPacket.decode suite data with
  | .error _ => (none, t)
  | .ok packet =>
    match packet.openPacket suite t.keys with
    | (false, _) => (none, t)
    | (true, packet) =>
      if packet.header.packetType = .audio ∨ packet.header.packetType = .audioFec then
        match t.replay.check packet.header with
        | (false, replay) => (none, { t with replay := replay })
        | (true, replay) =>
          let (found, plain) := packet.takeDownlinkMeta
          (some ⟨packet.header.ssrc, packet.header.sequence, packet.header.timestamp,
            packet.header.channelIdHash, found.1, found.2, plain.header.audioCodec,
            plain.header.hasFlag .mixed, plain.header.hasFlag .e2ee, plain.payload⟩, { t with replay := replay })
      else (none, t)

end MediaTransport

/-- The receiver finds the gain, the direction and the frame, and no server mix. A sealed frame has
no direction in front of it. -/
def HeardExactly (t : MediaTransport) (e2ee : Bool) (mix : Mix Float32 Direction) (frame : Bytes) : Sent → Prop
  | .rtp media => media.volume = mix.volume ∧ media.direction = mix.direction ∧ media.payload = frame
  | .aurx wire => ∃ audio, (t.process suite wire).1 = some audio ∧
      audio.volume = AurixPacket.encodedGain mix.volume ∧
      audio.direction = (if e2ee then none else mix.direction).map (fun d => decodeDirection (encodeDirection d)) ∧
      audio.payload = frame ∧ audio.mixed = false

def announced (header : PacketHeader) (mix : Mix Float32 Direction) : Option UInt8 × Option Direction :=
  if header.hasFlag .e2ee then (none, none) else (AurixPacket.gainByte mix.volume, mix.direction)

/-- The sender's flags announce no more than the node puts in front of the frame. -/
structure Unforged (header : PacketHeader) (mix : Mix Float32 Direction) (frame : Bytes) : Prop where
  announces : AurixPacket.Announces (header.hasFlag .volumeAttenuated) (header.hasFlag .directional)
    (announced header mix).1 (announced header mix).2 frame
  mixed : header.hasFlag .mixed = false
  unity : header.hasFlag .e2ee = true → AurixPacket.encodedGain mix.volume = 1.0
  fits : (announced header mix).1.toList.length + (AurixPacket.directionBytes (announced header mix).2).length +
    frame.length ≤ maxPacketSize - headerSize - authTagSize

end AurixVoice.Media
