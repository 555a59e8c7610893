import AurixVoice.Web.AurxCodec

namespace AurixVoice.Sdk

open Protocol (Bytes PacketHeader AurixPacket Direction)
open Protocol Web.AurxFlags Web.AurxPacket Web.AurxKeys
open AurixPacket (decode downlinkParts downlinkPartsWith_body downlinkPartsWith_flags length_meta metaSize new opened
  sampleAudio sealParts takeVolume)

structure DownlinkBytes where
  gain : Option UInt8
  direction : Option (UInt8 × UInt8)
  frame : Bytes
  deriving DecidableEq

def takeGainByte : Bool → Bytes → Option UInt8 × Bytes
  | true, b :: rest => (some b, rest)
  | _, payload => (none, payload)

def takeDirectionBytes : Bool → Bytes → Option (UInt8 × UInt8) × Bytes
  | true, az :: el :: rest => (some (az, el), rest)
  | _, payload => (none, payload)

def DownlinkBytes.of (attenuated directional : Bool) (payload : Bytes) : DownlinkBytes :=
  let gain := takeGainByte attenuated payload
  let direction := takeDirectionBytes directional gain.2
  ⟨gain.1, direction.1, direction.2⟩

def announced (attenuated directional : Bool) : ℕ := (if attenuated then 1 else 0) + if directional then 2 else 0

variable {s : DownlinkBytes}

lemma takeDownlinkMeta_native {p : AurixPacket}
    (hs : s = .of (p.header.hasFlag .volumeAttenuated) (p.header.hasFlag .directional) p.payload) :
    p.takeDownlinkMeta.1 =
        (s.gain.elim 1.0 decodeVolumeByte, s.direction.map decodeDirection) ∧
      p.takeDownlinkMeta.2.payload = s.frame := by
  have hvolume : p.takeVolume.1 = s.gain.elim 1.0 decodeVolumeByte ∧
      p.takeVolume.2.payload = (takeGainByte (p.header.hasFlag .volumeAttenuated) p.payload).2 ∧
      p.takeVolume.2.header.hasFlag .directional = p.header.hasFlag .directional := by
    rw [hs]
    unfold takeVolume DownlinkBytes.of
    cases p.header.hasFlag .volumeAttenuated with
    | false => simp [takeGainByte]
    | true => cases hpayload : p.payload <;> simp [takeGainByte]
  obtain ⟨hgain, hrest, hflag⟩ := hvolume
  have hdirection : p.takeVolume.2.takeDirection.1 = s.direction.map decodeDirection ∧
      p.takeVolume.2.takeDirection.2.payload = s.frame := by
    rw [hs]
    unfold AurixPacket.takeDirection DownlinkBytes.of
    rw [hflag]
    generalize p.takeVolume.2 = q at hrest ⊢
    cases p.header.hasFlag .directional with
    | false => simp [takeDirectionBytes, hrest]
    | true =>
      dsimp only
      rw [← hrest]
      match hq : q.payload with
      | [] => simp [takeDirectionBytes]
      | [b] => simp [takeDirectionBytes]
      | az :: el :: rest => simp [takeDirectionBytes]
  exact ⟨Prod.ext hgain hdirection.1, hdirection.2⟩

lemma takeDownlinkMeta_unity {p : Unity.AurxPacket}
    (hs : s = .of (p.header.flags &&& Unity.PacketFlags.volumeAttenuated ≠ 0)
      (p.header.flags &&& Unity.PacketFlags.directional ≠ 0) p.payload) :
    p.takeDownlinkMeta.1 =
        (s.gain.elim 1.0 fun b => b.toFloat32 / Unity.AurxPacket.volumeUnity,
          s.direction.map fun d => Unity.AurxPacket.Direction.decode d.1 d.2) ∧
      p.takeDownlinkMeta.2.payload = s.frame := by
  obtain ⟨header, payload, tag⟩ := p
  subst hs
  unfold Unity.AurxPacket.takeDownlinkMeta Unity.AurxPacket.direction Unity.AurxPacket.volume
    Unity.AurxPacket.directionBytes Unity.AurxPacket.volumeBytes DownlinkBytes.of
  by_cases hvolume : header.flags &&& Unity.PacketFlags.volumeAttenuated = 0 <;>
    by_cases hdirectional : header.flags &&& Unity.PacketFlags.directional = 0
  all_goals
    match payload with
    | [] => simp [hvolume, hdirectional, takeGainByte, takeDirectionBytes]
    | [a] => simp [hvolume, hdirectional, takeGainByte, takeDirectionBytes, byteAt]
    | [a, b] => simp [hvolume, hdirectional, takeGainByte, takeDirectionBytes, byteAt]
    | a :: b :: c :: rest => simp [hvolume, hdirectional, takeGainByte, takeDirectionBytes, byteAt]

lemma parseDownlinkAudio_browser {p : Web.AurxPacket}
    (hs : s = .of (p.header.flags &&& volumeAttenuated ≠ 0) (p.header.flags &&& directional ≠ 0) p.payload) :
    (Web.parseDownlinkAudio p).map (fun a => (a.gain, a.direction, a.frame)) =
      if p.header.packetType = Web.AurxPacketType.audio ∧
          announced (p.header.flags &&& volumeAttenuated ≠ 0)
            (p.header.flags &&& directional ≠ 0) ≤ p.payload.length then
        some (s.gain.elim 1.0 Web.decodeVolumeByte, s.direction.map (fun d => Web.decodeDirection d.1 d.2), s.frame)
      else none := by
  obtain ⟨header, payload, tag⟩ := p
  subst hs
  unfold Web.parseDownlinkAudio Web.takeDirection Web.takeGain DownlinkBytes.of announced
  by_cases htype : header.packetType = Web.AurxPacketType.audio
  · by_cases hvolume : header.flags &&& volumeAttenuated = 0 <;>
      by_cases hdirectional : header.flags &&& directional = 0
    all_goals
      match payload with
      | [] => simp [htype, hvolume, hdirectional, takeGainByte, takeDirectionBytes]
      | [a] => simp [htype, hvolume, hdirectional, takeGainByte, takeDirectionBytes, byteAt]
      | [a, b] => simp [htype, hvolume, hdirectional, takeGainByte, takeDirectionBytes, byteAt]
      | a :: b :: c :: rest =>
        have htwo : ¬ rest.length + 1 + 1 + 1 < 2 := by omega
        have hthree : ¬ rest.length + 1 + 1 + 1 < 3 := by omega
        simp [htype, hvolume, hdirectional, takeGainByte, takeDirectionBytes, byteAt, htwo, hthree]
  · simp [htype]

inductive Implementation
  | native
  | unity
  | browser
  deriving DecidableEq

structure HeaderFields where
  packetType : ℕ
  flags : ℕ
  sequence : ℕ
  timestamp : ℕ
  ssrc : ℕ
  channelIdHash : ℕ
  deriving DecidableEq

def HeaderFields.ofNative (h : PacketHeader) : HeaderFields :=
  ⟨h.packetType.toU8.toNat, h.flags.toNat, h.sequence.toNat, h.timestamp.toNat, h.ssrc.toNat, h.channelIdHash.toNat⟩

def HeaderFields.ofUnity (h : Unity.PacketHeader) : HeaderFields :=
  ⟨h.type.toNat, h.flags.toNat, h.sequence.toNat, h.timestamp.toNat, h.ssrc.toNat, h.channelIdHash.toNat⟩

def HeaderFields.ofBrowser (h : Web.AurxHeader) : HeaderFields :=
  ⟨h.packetType.toNat, h.flags.toNat, h.sequence.toNat, h.timestamp.toNat, h.ssrc.toNat, h.channelIdHash.toNat⟩

lemma HeaderFields.ofBrowser_ofNative (h : PacketHeader) : HeaderFields.ofBrowser (.ofNative h) = .ofNative h := by
  simp [ofBrowser, ofNative, Web.AurxHeader.ofNative]

variable (pl : Unity.Platform) (master : Bytes)

def sealWith (header : PacketHeader) (payload : Bytes) : Implementation → Option Bytes
  | .native => some ((new header payload).sealPacket pl.suite (.derive pl.suite master))
  | .unity => (Unity.MediaKeys.derive pl master).toOption.map
      (Unity.AurxPacket.sealPacket pl ⟨.ofNative header, payload, none⟩)
  | .browser => (derive pl.suite master).toOption.bind fun keys =>
      (keys.sealPacket pl.suite (.ofNative header) payload).toOption

def openNative (data : Bytes) : Option AurixPacket :=
  (decode pl.suite data).toOption.bind fun p =>
    let opened := p.openPacket pl.suite (.derive pl.suite master)
    if opened.1 then some opened.2 else none

def openUnity (data : Bytes) : Option Unity.AurxPacket :=
  (Unity.MediaKeys.derive pl master).toOption.bind fun keys =>
    (Unity.AurxPacket.tryDecode data).toOption.bind fun p =>
      let opened := p.openPacket pl keys
      if opened.1 then some opened.2 else none

def openBrowser (data : Bytes) : Option Web.AurxPacket :=
  (derive pl.suite master).toOption.bind fun keys =>
    (Web.decodePacket data).bind fun p => keys.openPacket pl.suite data p

def openWith (data : Bytes) : Implementation → Option (HeaderFields × Bytes)
  | .native => (openNative pl master data).map fun p => (.ofNative p.header, p.payload)
  | .unity => (openUnity pl master data).map fun p => (.ofUnity p.header, p.payload)
  | .browser => (openBrowser pl master data).map fun p => (.ofBrowser p.header, p.payload)

/-- The implementation opens the copy and takes these bytes off it, each decoded by its own functions. -/
def Strips (data : Bytes) (s : DownlinkBytes) : Implementation → Prop
  | .native => ∃ p, openNative pl master data = some p ∧
      p.takeDownlinkMeta.1 =
        (s.gain.elim 1.0 decodeVolumeByte, s.direction.map decodeDirection) ∧
      p.takeDownlinkMeta.2.payload = s.frame
  | .unity => ∃ p, openUnity pl master data = some p ∧
      p.takeDownlinkMeta.1 =
        (s.gain.elim 1.0 fun b => b.toFloat32 / Unity.AurxPacket.volumeUnity,
          s.direction.map fun d => Unity.AurxPacket.Direction.decode d.1 d.2) ∧
      p.takeDownlinkMeta.2.payload = s.frame
  | .browser => ∃ p, openBrowser pl master data = some p ∧
      (Web.parseDownlinkAudio p).map (fun a => (a.gain, a.direction, a.frame)) =
        some (s.gain.elim 1.0 Web.decodeVolumeByte, s.direction.map (fun d => Web.decodeDirection d.1 d.2), s.frame)

variable {master}

section Agreement

variable (hmaster : master.length = 32)
include hmaster

lemma openUnity_eq (data : Bytes) :
    openUnity pl master data = (openNative pl master data).map Unity.AurxPacket.ofNative := by
  have hne : master ≠ [] := by
    rintro rfl
    cases hmaster
  rw [openUnity, Unity.MediaKeys.derive_eq pl hne, Unity.AurxPacket.tryDecode_toOption pl, openNative]
  cases decode pl.suite data with
  | error => rfl
  | ok p =>
    simp only [Except.toOption, Option.bind_some, Option.map_some, Unity.AurxPacket.openPacket_ofNative]
    cases (p.openPacket pl.suite (.derive pl.suite master)).1 <;> rfl

lemma openBrowser_of_openNative {data : Bytes} {q : AurixPacket} (h : openNative pl master data = some q) :
    openBrowser pl master data = some (.ofNative q) := by
  rw [openNative] at h
  cases hdecode : decode pl.suite data with
  | error => rw [hdecode] at h; cases h
  | ok p =>
    rw [hdecode] at h
    have hopened : (if (p.openPacket pl.suite (.derive pl.suite master)).1 then
        some (p.openPacket pl.suite (.derive pl.suite master)).2 else none) = some q := h
    rw [openBrowser, derive_eq pl hmaster, Web.decodePacket_of_decode pl hdecode]
    change openPacket pl.suite (.ofNative _) data (.ofNative p) = _
    rw [openPacket_ofNative pl hdecode]
    split at hopened
    next hverified => rw [if_pos hverified, Option.some.inj hopened]
    · cases hopened

variable {header : PacketHeader} (hv : header.version = protocolVersion) {payload : Bytes}
  (hsize : headerSize + payload.length + authTagSize ≤ maxPacketSize)
include hv hsize

lemma sealWith_eq (sealer : Implementation) :
    sealWith pl master header payload sealer =
      some (sealParts pl.suite header payload (.derive pl.suite master)) := by
  cases sealer with
  | native => rfl
  | unity =>
    have hne : master ≠ [] := by
      rintro rfl
      cases hmaster
    rw [sealWith, Unity.MediaKeys.derive_eq pl hne]
    exact congrArg some (Unity.AurxPacket.sealPacket_ofNative pl (.new header payload) _)
  | browser =>
    rw [sealWith, derive_eq pl hmaster]
    change (sealPacket pl.suite (.ofNative _) (.ofNative header) payload).toOption = _
    rw [sealPacket_ofNative pl hv _ hsize]
    rfl

omit hmaster in
lemma openNative_sealed :
    openNative pl master (sealParts pl.suite header payload (.derive pl.suite master)) =
      some (opened pl.suite header payload (.derive pl.suite master)) := by
  have hlen : payload.length < 2 ^ 16 := by
    simp only [maxPacketSize] at hsize
    omega
  rw [openNative, decode, AurixPacket.decodeBounded_sealParts hv hlen hsize]
  simp [Except.toOption, AurixPacket.openPacket_sealed]

lemma openWith_sealed (opener : Implementation) :
    openWith pl master (sealParts pl.suite header payload (.derive pl.suite master)) opener =
      some (.ofNative ((header.setFlag .authenticated).clearFlag .encrypted), payload) := by
  have hnative : openNative pl master _ = _ := openNative_sealed pl hv hsize
  cases opener with
  | native =>
    rw [openWith, hnative]
    rfl
  | unity =>
    rw [openWith, openUnity_eq pl hmaster, hnative]
    rfl
  | browser =>
    rw [openWith, openBrowser_of_openNative pl hmaster hnative, Option.map_some]
    exact congrArg (fun fields => some (fields, payload)) (HeaderFields.ofBrowser_ofNative _)

end Agreement

section Copies

variable (p : AurixPacket) (volume : Float32) (direction : Option Direction)

def copyBytes : DownlinkBytes :=
  let copy := p.downlinkParts volume direction
  .of (copy.1.hasFlag .volumeAttenuated) (copy.1.hasFlag .directional) copy.2

def stale : ℕ :=
  announced (p.header.hasFlag .volumeAttenuated && !attenuated volume)
    (p.header.hasFlag .directional && direction.isNone)

lemma copyBytes_of_fresh (hvolume : p.header.hasFlag .volumeAttenuated = false)
    (hdirectional : p.header.hasFlag .directional = false) :
    copyBytes p volume direction =
      ⟨if attenuated volume then some (encodeVolumeByte volume) else none,
        direction.map encodeDirection, p.payload⟩ := by
  unfold copyBytes downlinkParts
  dsimp only
  rw [downlinkPartsWith_flags, downlinkPartsWith_flags, hvolume, hdirectional, downlinkPartsWith_body]
  unfold AurixPacket.volumeBytes AurixPacket.directionBytes
  cases attenuated volume <;> cases direction <;>
    simp [DownlinkBytes.of, takeGainByte, takeDirectionBytes]

lemma announced_le_iff :
    announced ((p.downlinkParts volume direction).1.hasFlag .volumeAttenuated)
        ((p.downlinkParts volume direction).1.hasFlag .directional) ≤
      (p.downlinkParts volume direction).2.length ↔ stale p volume direction ≤ p.payload.length := by
  rw [downlinkParts, downlinkPartsWith_flags, downlinkPartsWith_flags,
    downlinkPartsWith_body, length_meta, metaSize, stale]
  cases p.header.hasFlag .volumeAttenuated <;> cases p.header.hasFlag .directional <;>
    cases attenuated volume <;> cases direction <;>
    simp [announced, directionSize] <;> omega

variable (keys : Protocol.MediaKeys)

def openedCopy : AurixPacket :=
  let copy := p.downlinkParts volume direction
  .opened pl.suite copy.1 copy.2 keys

lemma openedCopy_hasFlag {f : Protocol.PacketFlags} (hauth : f ≠ .authenticated) (henc : f ≠ .encrypted) :
    (openedCopy pl p volume direction keys).header.hasFlag f =
      (p.downlinkParts volume direction).1.hasFlag f := AurixPacket.opened_hasFlag _ _ _ hauth henc

lemma copyBytes_native :
    copyBytes p volume direction =
      .of ((openedCopy pl p volume direction keys).header.hasFlag .volumeAttenuated)
        ((openedCopy pl p volume direction keys).header.hasFlag .directional)
        (openedCopy pl p volume direction keys).payload := by
  rw [openedCopy_hasFlag pl p volume direction keys (by decide) (by decide),
    openedCopy_hasFlag pl p volume direction keys (by decide) (by decide)]
  rfl

omit pl in
lemma browser_hasFlag (q : AurixPacket) (f : Protocol.PacketFlags) :
    decide ((ofNative q).header.flags &&& f.bits.toUInt32 ≠ 0) = q.header.hasFlag f := by
  have hflag : (ofNative q).header.flags &&& f.bits.toUInt32 = 0 ↔ q.header.hasFlag f = false :=
    Web.flags_and q.header.flags f
  simp [hflag]

omit pl in
lemma parse_ofNative (q : AurixPacket)
    (hs : s = .of (q.header.hasFlag .volumeAttenuated) (q.header.hasFlag .directional) q.payload) :
    (Web.parseDownlinkAudio (.ofNative q)).map (fun a => (a.gain, a.direction, a.frame)) =
      if q.header.packetType = .audio ∧
          announced (q.header.hasFlag .volumeAttenuated) (q.header.hasFlag .directional) ≤ q.payload.length then
        some (s.gain.elim 1.0 Web.decodeVolumeByte, s.direction.map (fun d => Web.decodeDirection d.1 d.2), s.frame)
      else none := by
  have hvolume : decide ((ofNative q).header.flags &&& volumeAttenuated ≠ 0) = _ :=
    browser_hasFlag q .volumeAttenuated
  have hdirectional : decide ((ofNative q).header.flags &&& directional ≠ 0) = _ := browser_hasFlag q .directional
  have htype : (ofNative q).header.packetType = Web.AurxPacketType.audio ↔ q.header.packetType = .audio := by
    change q.header.packetType.toU8.toUInt32 = _ ↔ _
    cases q.header.packetType <;> decide
  rw [← hvolume, ← hdirectional] at hs
  rw [parseDownlinkAudio_browser hs, hvolume, hdirectional]
  exact if_congr (and_congr_left' htype) rfl rfl

lemma parse_openedCopy :
    (Web.parseDownlinkAudio (.ofNative (openedCopy pl p volume direction keys))).map
        (fun a => (a.gain, a.direction, a.frame)) =
      if p.header.packetType = .audio ∧ stale p volume direction ≤ p.payload.length then
        some ((copyBytes p volume direction).gain.elim 1.0 Web.decodeVolumeByte,
          (copyBytes p volume direction).direction.map (fun d => Web.decodeDirection d.1 d.2),
          (copyBytes p volume direction).frame)
      else none := by
  have htype : (openedCopy pl p volume direction keys).header.packetType = p.header.packetType :=
    congrArg Prod.fst (AurixPacket.nonceFields_downlinkPartsWith p p.payload volume direction)
  rw [parse_ofNative _ (copyBytes_native pl p volume direction keys), htype,
    openedCopy_hasFlag pl p volume direction keys (by decide) (by decide),
    openedCopy_hasFlag pl p volume direction keys (by decide) (by decide)]
  exact if_congr (and_congr_right fun _ => announced_le_iff p volume direction) rfl rfl

end Copies

section CopyStrips

variable {p : AurixPacket} {volume : Float32} {direction : Option Direction}
  (hmaster : master.length = 32) (hv : p.header.version = protocolVersion)
  (hsize : headerSize + (metaSize volume direction + p.payload.length) +
    authTagSize ≤ maxPacketSize)

def copyWire (master : Bytes) (p : AurixPacket) (volume : Float32) (direction : Option Direction) : Bytes :=
  let copy := p.downlinkParts volume direction
  sealParts pl.suite copy.1 copy.2 (.derive pl.suite master)

include hv hsize

omit hsize in
lemma version_downlinkParts : (p.downlinkParts volume direction).1.version = protocolVersion :=
  (AurixPacket.downlinkPartsWith_version ..).trans hv

omit hv in
lemma size_downlinkParts :
    headerSize + (p.downlinkParts volume direction).2.length + authTagSize ≤
      maxPacketSize := by
  rwa [downlinkParts, downlinkPartsWith_body, length_meta]

lemma openNative_copyWire :
    openNative pl master (copyWire pl master p volume direction) =
      some (openedCopy pl p volume direction (.derive pl.suite master)) :=
  openNative_sealed pl (version_downlinkParts hv) (size_downlinkParts hsize)

lemma strips_native :
    Strips pl master (copyWire pl master p volume direction) (copyBytes p volume direction) .native :=
  ⟨_, openNative_copyWire pl hv hsize, takeDownlinkMeta_native (copyBytes_native pl p volume direction _)⟩

include hmaster

lemma strips_unity :
    Strips pl master (copyWire pl master p volume direction) (copyBytes p volume direction) .unity := by
  refine ⟨.ofNative (openedCopy pl p volume direction (.derive pl.suite master)), ?_,
    takeDownlinkMeta_unity (copyBytes_native pl p volume direction (.derive pl.suite master))⟩
  rw [openUnity_eq pl hmaster, openNative_copyWire pl hv hsize]
  rfl

lemma openBrowser_copyWire :
    openBrowser pl master (copyWire pl master p volume direction) =
      some (.ofNative (openedCopy pl p volume direction (.derive pl.suite master))) :=
  openBrowser_of_openNative pl hmaster (openNative_copyWire pl hv hsize)

lemma strips_browser_iff :
    Strips pl master (copyWire pl master p volume direction) (copyBytes p volume direction) .browser ↔
      p.header.packetType = .audio ∧ stale p volume direction ≤ p.payload.length := by
  have hbrowser := openBrowser_copyWire pl hmaster hv hsize
  have hparse := parse_openedCopy pl p volume direction (.derive pl.suite master)
  constructor
  · rintro ⟨q, hq, hstrips⟩
    obtain rfl := Option.some.inj (hbrowser.symm.trans hq)
    by_contra hcond
    rw [hparse, if_neg hcond] at hstrips
    cases hstrips
  · intro hcond
    exact ⟨_, hbrowser, hparse.trans (if_pos hcond)⟩

end CopyStrips

/-- What one implementation seals each opens to the same fields and payload. The browser refuses audio of
another type than `Audio`, and a copy whose flags announce bytes that it lacks. -/
theorem codecs_agree (pl : Unity.Platform) :
    (∀ data, (Unity.AurxPacket.tryDecode data).toOption =
      (decode pl.suite data).toOption.map Unity.AurxPacket.ofNative) ∧
    (∀ data p, decode pl.suite data = .ok p →
      Web.decodePacket data = some (ofNative p)) ∧
    ∀ master : Bytes, master.length = 32 →
      (∀ (header : PacketHeader) (payload : Bytes), header.version = protocolVersion →
        headerSize + payload.length + authTagSize ≤ maxPacketSize →
        ∀ sealer opener, ∃ data, sealWith pl master header payload sealer = some data ∧
          openWith pl master data opener =
            some (.ofNative ((header.setFlag .authenticated).clearFlag .encrypted), payload)) ∧
      ∀ (p : AurixPacket) (volume : Float32) (direction : Option Direction),
        p.header.version = protocolVersion →
        headerSize + (metaSize volume direction + p.payload.length) +
          authTagSize ≤ maxPacketSize →
        (p.header.hasFlag .volumeAttenuated = false → p.header.hasFlag .directional = false →
          copyBytes p volume direction =
            ⟨if attenuated volume then some (encodeVolumeByte volume) else none,
              direction.map encodeDirection, p.payload⟩) ∧
        ∀ sealer, ∃ data,
          sealWith pl master (p.downlinkParts volume direction).1 (p.downlinkParts volume direction).2 sealer =
            some data ∧
          Strips pl master data (copyBytes p volume direction) .native ∧
          Strips pl master data (copyBytes p volume direction) .unity ∧
          (Strips pl master data (copyBytes p volume direction) .browser ↔
            p.header.packetType = .audio ∧ stale p volume direction ≤ p.payload.length) := by
  refine ⟨Unity.AurxPacket.tryDecode_toOption pl, fun data p => Web.decodePacket_of_decode pl, ?_⟩
  intro master hmaster
  constructor
  · intro header payload hv hsize sealer opener
    exact ⟨_, sealWith_eq pl hmaster hv hsize sealer, openWith_sealed pl hmaster hv hsize opener⟩
  · intro p volume direction hv hsize
    exact ⟨copyBytes_of_fresh p volume direction, fun sealer => ⟨copyWire pl master p volume direction,
      sealWith_eq pl hmaster (version_downlinkParts hv) (size_downlinkParts hsize) sealer,
      strips_native pl hv hsize, strips_unity pl hmaster hv hsize, strips_browser_iff pl hmaster hv hsize⟩⟩

def sampleMaster : Bytes := List.replicate 32 7

theorem codecs_agree_sample :
    ∃ data, sealWith .masks sampleMaster sampleAudio.header [0xf8, 0xff] .browser = some data ∧
      openWith .masks sampleMaster data .unity =
        some (.ofNative ((sampleAudio.header.setFlag .authenticated).clearFlag .encrypted),
          [0xf8, 0xff]) :=
  ((codecs_agree .masks).2.2 sampleMaster rfl).1 sampleAudio.header [0xf8, 0xff] rfl (by decide)
    .browser .unity

def sampleFec : AurixPacket := .new (.new .audioFec 5 960 0x11223344) [0xf8, 0xff]

theorem fec_copy_refused_by_browser :
    ∃ data, sealWith .masks sampleMaster (sampleFec.downlinkParts 0.5 none).1
        (sampleFec.downlinkParts 0.5 none).2 .native = some data ∧
      Strips .masks sampleMaster data (copyBytes sampleFec 0.5 none) .native ∧
      Strips .masks sampleMaster data (copyBytes sampleFec 0.5 none) .unity ∧
      ∃ q, openBrowser .masks sampleMaster data = some q ∧ q.payload = (sampleFec.downlinkParts 0.5 none).2 ∧
        (Web.parseDownlinkAudio q).isNone = true := by
  have hv : sampleFec.header.version = protocolVersion := rfl
  have hsize : headerSize + (metaSize 0.5 none + sampleFec.payload.length) +
      authTagSize ≤ maxPacketSize := by
    have hmeta := AurixPacket.metaSize_le 0.5 none
    have hlen : sampleFec.payload.length = 2 := rfl
    simp only [headerSize, authTagSize, maxPacketSize]
    omega
  refine ⟨copyWire .masks sampleMaster sampleFec 0.5 none, rfl, strips_native .masks hv hsize,
    strips_unity .masks rfl hv hsize, _, openBrowser_copyWire .masks rfl hv hsize, rfl, ?_⟩
  have hparse := parse_openedCopy .masks sampleFec 0.5 none (.derive Unity.Platform.masks.suite sampleMaster)
  rw [Option.isNone_iff_eq_none]
  exact Option.map_eq_none_iff.mp hparse

end AurixVoice.Sdk
