import AurixVoice.Media.DownlinkCopies

/-! When a receiver hears exactly what the node computed for it, whatever flags the sender set. -/

namespace AurixVoice.Media

open Protocol
open AurixPacket (decode directionBytes gainByte new opened opened_hasFlag sealParts sealed wire_of_decodeBounded)
open Option (some)

def SameFlags (h h' : PacketHeader) : Prop :=
  ∀ f, f ≠ .energy → f ≠ .pcmu → f ≠ .pcma → f ≠ .authenticated → h'.hasFlag f = h.hasFlag f

structure Keeps (h h' : PacketHeader) : Prop where
  version : h'.version = h.version
  nonce : h'.nonceFields = h.nonceFields
  flags : SameFlags h h'

namespace Keeps

variable {h h' h'' : PacketHeader}

lemma refl (h : PacketHeader) : Keeps h h := ⟨rfl, rfl, fun _ _ _ _ _ => rfl⟩

lemma trans (h₁ : Keeps h h') (h₂ : Keeps h' h'') : Keeps h h'' where
  version := h₂.version.trans h₁.version
  nonce := h₂.nonce.trans h₁.nonce
  flags f he hu ha hs := (h₂.flags f he hu ha hs).trans (h₁.flags f he hu ha hs)

lemma setAudioCodec (h : PacketHeader) (codec : AudioCodec) : Keeps h (h.setAudioCodec codec) where
  version := h.version_setAudioCodec codec
  nonce := h.nonceFields_setAudioCodec codec
  flags _ _ hu ha _ := h.hasFlag_setAudioCodec codec hu ha

lemma takeAudioLevel (p : AurixPacket) : Keeps p.header p.takeAudioLevel.2.header where
  version := p.takeAudioLevel_version
  nonce := p.nonceFields_takeAudioLevel
  flags _ he _ _ _ := p.takeAudioLevel_hasFlag he

lemma withAudioLevel (p : AurixPacket) (level : UInt8) : Keeps p.header (p.withAudioLevel level).header where
  version := rfl
  nonce := rfl
  flags f he _ _ _ := by simp [AurixPacket.withAudioLevel, new, he.symm]

lemma encoded (suite : Suite) (p : AurixPacket) : Keeps p.header (p.encoded suite).header where
  version := rfl
  nonce := rfl
  flags f _ _ _ hs := by
    have hclear : (p.header.clearFlag .authenticated).hasFlag f = p.header.hasFlag f := by simp [hs.symm]
    exact hclear

variable {codecs : FrameCodecs}

lemma prepare {u : UplinkPolicy} {p p' : AurixPacket}
    (hp : codecs.prepare u p = some p') : Keeps p.header p'.header := by
  unfold FrameCodecs.prepare at hp
  split_ifs at hp
  · obtain rfl := some.inj hp
    exact .refl _
  · obtain ⟨opus, -, rfl⟩ := Option.map_eq_some_iff.mp hp
    exact .setAudioCodec p.header .opus
  · obtain rfl := some.inj hp
    cases codecs.denoise p.payload <;> exact .refl _
  · obtain rfl := some.inj hp
    exact .refl _

lemma packet (suite : Suite) (hop : Hop) (p : AurixPacket) : Keeps p.header (hop.packet suite p).header := by
  cases hop with
  | here => exact .refl _
  | relayed level =>
    have hlevel : Keeps p.header (level.elim p p.withAudioLevel).header := by
      cases level with
      | none => exact .refl _
      | some l => exact .withAudioLevel p l
    exact (hlevel.trans (.encoded suite _)).trans (.takeAudioLevel _)

end Keeps

lemma announced_of_sameFlags {h h' : PacketHeader} (hk : SameFlags h h') (mix : Mix Float32 Direction) :
    announced h' mix = announced h mix := by
  unfold announced
  rw [hk .e2ee (by decide) (by decide) (by decide) (by decide)]

lemma unforged_of_sameFlags {h h' : PacketHeader} (hk : SameFlags h h') (mix : Mix Float32 Direction)
    (frame : Bytes) : Unforged h' mix frame ↔ Unforged h mix frame := by
  have hmixed := hk .mixed (by decide) (by decide) (by decide) (by decide)
  have hvolume := hk .volumeAttenuated (by decide) (by decide) (by decide) (by decide)
  have hdirectional := hk .directional (by decide) (by decide) (by decide) (by decide)
  have he2ee := hk .e2ee (by decide) (by decide) (by decide) (by decide)
  constructor
  · rintro ⟨ha, hm, hu, hf⟩
    rw [announced_of_sameFlags hk] at ha hf
    rw [hvolume, hdirectional] at ha
    rw [hmixed] at hm
    rw [he2ee] at hu
    exact ⟨ha, hm, hu, hf⟩
  · rintro ⟨ha, hm, hu, hf⟩
    refine ⟨?_, hmixed.trans hm, fun h => hu (he2ee.symm.trans h), ?_⟩
    · rwa [announced_of_sameFlags hk, hvolume, hdirectional]
    · rwa [announced_of_sameFlags hk]

structure CopyParts (p : AurixPacket) (mix : Mix Float32 Direction) (frame : Bytes) (header : PacketHeader)
    (body : Bytes) : Prop where
  version : header.version = p.header.version
  nonce : header.nonceFields = p.header.nonceFields
  body_eq : body = (announced p.header mix).1.toList ++
    (directionBytes (announced p.header mix).2 ++ frame)
  volume : header.hasFlag .volumeAttenuated =
    (p.header.hasFlag .volumeAttenuated || (announced p.header mix).1.isSome)
  directional : header.hasFlag .directional =
    (p.header.hasFlag .directional || (announced p.header mix).2.isSome)
  mixed : header.hasFlag .mixed = p.header.hasFlag .mixed

lemma copyParts_downlinkPartsWith {p : AurixPacket} (hplain : p.header.hasFlag .e2ee = false)
    (frame : Bytes) (mix : Mix Float32 Direction) :
    CopyParts p mix frame (p.downlinkPartsWith frame mix.volume mix.direction).1
      (p.downlinkPartsWith frame mix.volume mix.direction).2 := by
  have hann : announced p.header mix = (gainByte mix.volume, mix.direction) := by
    unfold announced
    rw [hplain]
    rfl
  constructor
  · exact p.downlinkPartsWith_version frame mix.volume mix.direction
  · exact p.nonceFields_downlinkPartsWith frame mix.volume mix.direction
  · rw [p.downlinkPartsWith_body, AurixPacket.volumeBytes_eq, hann]
  · rw [p.downlinkPartsWith_flags, hann, AurixPacket.isSome_gainByte]
    simp
  · rw [p.downlinkPartsWith_flags, hann]
    simp
  · rw [p.downlinkPartsWith_flags]
    simp

lemma CopyParts.setAudioCodec {p : AurixPacket} {mix : Mix Float32 Direction} {frame body : Bytes}
    {header : PacketHeader} (h : CopyParts p mix frame header body) (codec : AudioCodec) :
    CopyParts p mix frame (header.setAudioCodec codec) body where
  version := (header.version_setAudioCodec codec).trans h.version
  nonce := (header.nonceFields_setAudioCodec codec).trans h.nonce
  body_eq := h.body_eq
  volume := (header.hasFlag_setAudioCodec codec (by decide) (by decide)).trans h.volume
  directional := (header.hasFlag_setAudioCodec codec (by decide) (by decide)).trans h.directional
  mixed := (header.hasFlag_setAudioCodec codec (by decide) (by decide)).trans h.mixed

lemma copyParts_sealed {p : AurixPacket} (hsealed : p.header.hasFlag .e2ee = true)
    (mix : Mix Float32 Direction) : CopyParts p mix p.payload p.header p.payload := by
  have hann : announced p.header mix = (none, none) := by
    unfold announced
    rw [hsealed]
    rfl
  constructor
  · rfl
  · rfl
  · rw [hann]
    rfl
  · rw [hann]
    simp
  · rw [hann]
    simp
  · rfl

variable {suite : Suite} {speaker : Option UserId} {r : CopyReceiver}

lemma copyFor_parts {p : AurixPacket} {mix : Mix Float32 Direction} {sent : Sent} {frame : Bytes}
    (hsent : copyFor suite codecs speaker p mix r = some sent) (hframe : frameFor codecs p r = some frame) :
    (r.transport = .webRtc ∧ ∃ media, sent = .rtp media ∧ media.volume = mix.volume ∧
        media.direction = mix.direction ∧ media.payload = frame) ∨
      (r.transport = .aurx ∧ ∃ header body, sent = .aurx (sealParts suite header body r.keys) ∧
        CopyParts p mix frame header body) := by
  unfold copyFor at hsent
  unfold frameFor at hframe
  dsimp only at hsent
  split at hsent
  · cases hsent
  cases htransport : r.transport with
  | webRtc =>
    simp only [htransport, reduceCtorEq, decide_false, Bool.and_false, Bool.false_and, Bool.false_eq_true,
      ↓reduceIte, some.injEq] at hsent hframe
    split at hsent
    · cases hsent
    · obtain rfl := some.inj hsent
      exact .inl ⟨rfl, _, rfl, rfl, rfl, hframe⟩
  | aurx =>
    right
    refine ⟨rfl, ?_⟩
    simp only [htransport, decide_true] at hsent hframe
    split at hsent
    · cases hsent
    cases he2ee : p.header.hasFlag .e2ee with
    | true =>
      simp only [he2ee, ↓reduceIte, Bool.not_true, Bool.false_and, Bool.false_eq_true, some.injEq] at hsent hframe
      exact ⟨p.header, p.payload, hsent.symm, hframe ▸ copyParts_sealed he2ee mix⟩
    | false =>
      simp only [he2ee, Bool.false_eq_true, ↓reduceIte, Bool.not_false, Bool.true_and] at hsent hframe
      cases hcodec : r.codec.isG711 with
      | true =>
        simp only [hcodec, ↓reduceIte] at hsent hframe
        rw [hframe, Option.map_some] at hsent
        exact ⟨_, _, (some.inj hsent).symm, (copyParts_downlinkPartsWith he2ee frame mix).setAudioCodec _⟩
      | false =>
        simp only [hcodec, Bool.false_eq_true, ↓reduceIte, some.injEq] at hsent hframe
        exact ⟨_, _, hsent.symm, hframe ▸ copyParts_downlinkPartsWith he2ee p.payload mix⟩

section
variable {p : AurixPacket} {mix : Mix Float32 Direction} {frame body : Bytes} {header : PacketHeader}
  (h : CopyParts p mix frame header body) (keys : MediaKeys)
include h

lemma CopyParts.announces (hframe : (opened suite header body keys).takeDownlinkMeta.2.payload = frame) :
    AurixPacket.Announces (p.header.hasFlag .volumeAttenuated) (p.header.hasFlag .directional)
      (announced p.header mix).1 (announced p.header mix).2 frame :=
  AurixPacket.announces_of_payload h.body_eq
    ((opened_hasFlag header body keys (by decide) (by decide)).trans h.volume)
    ((opened_hasFlag header body keys (by decide) (by decide)).trans h.directional) hframe

lemma CopyParts.found
    (hann : AurixPacket.Announces (p.header.hasFlag .volumeAttenuated) (p.header.hasFlag .directional)
      (announced p.header mix).1 (announced p.header mix).2 frame) :
    (opened suite header body keys).takeDownlinkMeta.1 =
        ((announced p.header mix).1.elim 1.0 decodeVolumeByte,
          (announced p.header mix).2.map fun d => decodeDirection (encodeDirection d)) ∧
      (opened suite header body keys).takeDownlinkMeta.2.payload = frame :=
  AurixPacket.takeDownlinkMeta_of_announces h.body_eq
    ((opened_hasFlag header body keys (by decide) (by decide)).trans h.volume)
    ((opened_hasFlag header body keys (by decide) (by decide)).trans h.directional) hann

end

def Fits (body : Bytes) : Prop := body.length ≤ maxPacketSize - headerSize - authTagSize

section
variable {t : MediaTransport} {header : PacketHeader} {body : Bytes}

lemma fits_of_process {audio : IncomingAudio}
    (h : (t.process suite (sealParts suite header body t.keys)).1 = some audio) : Fits body := by
  unfold MediaTransport.process at h
  split at h
  · cases h
  next packet hdecode =>
    obtain ⟨-, -, hsize⟩ := wire_of_decodeBounded hdecode
    rw [AurixPacket.length_sealParts] at hsize
    simp only [Fits, maxPacketSize, headerSize, authTagSize] at *
    omega

lemma process_of_fits (hversion : header.version = protocolVersion)
    (htype : header.packetType = .audio ∨ header.packetType = .audioFec)
    (hfresh : ((t.replay.window header.ssrc).checkAndUpdate header.sequence).1 = true) (hfits : Fits body) :
    ∃ audio, (t.process suite (sealParts suite header body t.keys)).1 = some audio ∧
      (audio.volume, audio.direction) = (opened suite header body t.keys).takeDownlinkMeta.1 ∧
      audio.payload = (opened suite header body t.keys).takeDownlinkMeta.2.payload ∧
      audio.mixed = header.hasFlag .mixed := by
  have hdecode : decode suite (sealParts suite header body t.keys) =
      .ok (sealed suite header body t.keys) := by
    apply AurixPacket.decodeBounded_sealParts hversion
    all_goals
      simp only [Fits, maxPacketSize, headerSize, authTagSize] at *
      omega
  have hopen : (sealed suite header body t.keys).openPacket suite t.keys =
      (true, opened suite header body t.keys) := AurixPacket.openPacket_sealed ..
  have hmixed : (opened suite header body t.keys).takeDownlinkMeta.2.header.hasFlag .mixed =
      header.hasFlag .mixed :=
    (AurixPacket.takeDownlinkMeta_hasFlag (by decide) (by decide)).trans
      (opened_hasFlag header body t.keys (by decide) (by decide))
  have hcheck : (t.replay.check (opened suite header body t.keys).header).1 = true := hfresh
  have htype' : (opened suite header body t.keys).header.packetType = .audio ∨
      (opened suite header body t.keys).header.packetType = .audioFec := htype
  unfold MediaTransport.process
  rw [hdecode]
  dsimp only
  rw [hopen]
  dsimp only
  rw [if_pos htype']
  split
  next replay hreplay =>
    rw [hreplay] at hcheck
    cases hcheck
  · exact ⟨_, rfl, rfl, rfl, hmixed⟩

end

lemma heardExactly_iff {p : AurixPacket} {mix : Mix Float32 Direction} {frame body : Bytes} {header : PacketHeader}
    {t : MediaTransport} (hparts : CopyParts p mix frame header body) (hversion : p.header.version = protocolVersion)
    (htype : p.header.packetType = .audio ∨ p.header.packetType = .audioFec)
    (hfresh : ((t.replay.window p.header.ssrc).checkAndUpdate p.header.sequence).1 = true) :
    HeardExactly suite t (p.header.hasFlag .e2ee) mix frame
        (.aurx (sealParts suite header body t.keys)) ↔
      Unforged p.header mix frame := by
  obtain ⟨htype', hssrc, hseq, -⟩ := PacketHeader.nonceFields_eq hparts.nonce
  have hprocess (hfits : Fits body) :
      ∃ audio, (t.process suite (sealParts suite header body t.keys)).1 = some audio ∧ _ :=
    process_of_fits (hparts.version.trans hversion) (htype' ▸ htype) (by rw [hssrc, hseq]; exact hfresh) hfits
  have hlength : body.length = (announced p.header mix).1.toList.length +
      (directionBytes (announced p.header mix).2).length + frame.length := by
    rw [hparts.body_eq, List.length_append, List.length_append, add_assoc]
  constructor
  · rintro ⟨audio, haudio, hgain, -, hframe, hmixed⟩
    have hfits := fits_of_process haudio
    obtain ⟨audio', haudio', hfound, hplain, hflag⟩ := hprocess hfits
    obtain rfl : audio' = audio := some.inj (haudio'.symm.trans haudio)
    have hann := hparts.announces t.keys (hplain.symm.trans hframe)
    obtain ⟨htaken, -⟩ := hparts.found t.keys hann
    refine ⟨hann, hparts.mixed.symm.trans (hflag.symm.trans hmixed), ?_, ?_⟩
    · intro he2ee
      have hone := congrArg Prod.fst (hfound.trans htaken)
      rw [announced, if_pos he2ee] at hone
      exact hgain.symm.trans hone
    · rwa [Fits, hlength] at hfits
  · rintro ⟨hann, hmixed, hunity, hfits⟩
    obtain ⟨audio, haudio, hfound, hplain, hflag⟩ := hprocess (by rwa [Fits, hlength])
    obtain ⟨htaken, hframe⟩ := hparts.found t.keys hann
    have hgain := congrArg Prod.fst (hfound.trans htaken)
    have hdirection := congrArg Prod.snd (hfound.trans htaken)
    refine ⟨audio, haudio, ?_, ?_, hplain.trans hframe, hflag.trans (hparts.mixed.trans hmixed)⟩
    · cases he2ee : p.header.hasFlag .e2ee with
      | true =>
        rw [announced, if_pos he2ee] at hgain
        exact hgain.trans (hunity he2ee).symm
      | false =>
        rw [announced, he2ee] at hgain
        exact hgain.trans (AurixPacket.encodedGain_eq mix.volume).symm
    · cases he2ee : p.header.hasFlag .e2ee with
      | true =>
        rw [announced, if_pos he2ee] at hdirection
        exact hdirection
      | false =>
        rw [announced, he2ee] at hdirection
        exact hdirection

lemma exists_frameFor {p : AurixPacket} {mix : Mix Float32 Direction} {sent : Sent}
    (hsent : copyFor suite codecs speaker p mix r = some sent) : ∃ frame, frameFor codecs p r = some frame := by
  unfold copyFor at hsent
  unfold frameFor
  split
  next hg711 =>
    simp only [Bool.and_eq_true, Bool.not_eq_true', decide_eq_true_eq] at hg711
    obtain ⟨⟨hplain, htransport⟩, hcodec⟩ := hg711
    simp only [hplain, htransport, hcodec, Bool.false_eq_true, ↓reduceIte] at hsent
    split_ifs at hsent
    obtain ⟨frame, hframe, -⟩ := Option.map_eq_some_iff.mp hsent
    exact ⟨frame, hframe⟩
  · exact ⟨_, rfl⟩

/-- Every copy of an uplink packet, on the sender's node or on a peer, is heard exactly when its
receiver is a browser or the sender's flags are unforged. -/
theorem copies_heard_exactly_iff {data : Bytes} {p q routed : AurixPacket} {keys : MediaKeys}
    (hdecode : decode suite data = .ok p) (hopen : p.openPacket suite keys = (true, q))
    (htype : q.header.packetType = .audio ∨ q.header.packetType = .audioFec) (number : UInt32)
    {codecs peer : FrameCodecs} {policy : UplinkPolicy}
    (hrouted : codecs.prepare policy (q.routed number) = some routed) (hop : Hop) {speaker : Option UserId}
    {mix : Mix Float32 Direction} {r : CopyReceiver} {sent : Sent}
    (hsent : copyFor suite peer speaker (hop.packet suite routed) mix r = some sent) {t : MediaTransport}
    (hkeys : t.keys = r.keys) (hfresh : ((t.replay.window q.header.ssrc).checkAndUpdate number).1 = true) :
    ∃ frame, frameFor peer (hop.packet suite routed) r = some frame ∧
      (HeardExactly suite t (q.header.hasFlag .e2ee) mix frame sent ↔
        r.transport = .webRtc ∨ Unforged q.header mix frame) := by
  obtain ⟨frame, hframe⟩ := exists_frameFor hsent
  refine ⟨frame, hframe, ?_⟩
  obtain ⟨hp, -, -⟩ := wire_of_decodeBounded hdecode
  obtain ⟨hq, -, -⟩ := AurixPacket.openPacket_wellFormed hp hopen
  have hkept : Keeps (q.routed number).header (hop.packet suite routed).header :=
    (Keeps.prepare hrouted).trans (.packet suite hop routed)
  have hlevel : Keeps q.header q.takeAudioLevel.2.header := .takeAudioLevel q
  have hflags : SameFlags q.header (hop.packet suite routed).header := by
    intro f he hu ha hs
    exact (hkept.flags f he hu ha hs).trans (hlevel.flags f he hu ha hs)
  have hversion : (hop.packet suite routed).header.version = protocolVersion :=
    hkept.version.trans (hlevel.version.trans hq.version)
  obtain ⟨htype₁, hssrc₁, hseq, -⟩ := PacketHeader.nonceFields_eq hkept.nonce
  obtain ⟨htype₂, hssrc₂, -, -⟩ := PacketHeader.nonceFields_eq hlevel.nonce
  have hfresh' : ((t.replay.window (hop.packet suite routed).header.ssrc).checkAndUpdate
      (hop.packet suite routed).header.sequence).1 = true := by
    rw [hssrc₁, hseq]
    exact hssrc₂.symm ▸ hfresh
  obtain ⟨htransport, media, rfl, hheard⟩ | ⟨htransport, header, body, rfl, hparts⟩ := copyFor_parts hsent hframe
  · exact iff_of_true hheard (.inl htransport)
  · have htype' : (hop.packet suite routed).header.packetType = .audio ∨
        (hop.packet suite routed).header.packetType = .audioFec := by
      rw [htype₁]
      exact htype₂.symm ▸ htype
    have hheard : HeardExactly suite t _ mix frame (.aurx (sealParts suite header body t.keys)) ↔ _ :=
      heardExactly_iff hparts hversion htype' hfresh'
    rw [hflags .e2ee (by decide) (by decide) (by decide) (by decide), hkeys] at hheard
    rw [hheard, unforged_of_sameFlags hflags, htransport]
    simp

namespace Sample

open AurixPacket

def noCodecs : FrameCodecs := ⟨fun _ => none, fun _ _ => none, fun _ _ => none⟩

def policy : UplinkPolicy := ⟨false, .opus, false⟩

def receiver : CopyReceiver := ⟨.aurx, true, true, false, .opus, .derive .masks [3]⟩

def transport : MediaTransport := ⟨.derive .masks [3], .empty⟩

def forgedAudio : AurixPacket :=
  { sampleAudio with header := (sampleAudio.header.setFlag .mixed).setFlag .directional }

def uplinked (p : AurixPacket) : AurixPacket := (opened .masks p.header p.payload sampleKeys).routed 0

lemma length_gainByte (volume : Float32) : (gainByte volume).toList.length ≤ 1 := by
  cases gainByte volume with
  | none => exact Nat.zero_le 1
  | some => exact le_rfl

def copyParts (p : AurixPacket) (mix : Mix Float32 Direction) : PacketHeader × Bytes :=
  (uplinked p).downlinkParts mix.volume mix.direction

def copyOf (p : AurixPacket) (mix : Mix Float32 Direction) : Bytes :=
  sealParts .masks (copyParts p mix).1 (copyParts p mix).2 receiver.keys

theorem copies_heard_exactly_plain :
    ∃ frame, frameFor noCodecs (uplinked sampleAudio) receiver = some frame ∧
      HeardExactly .masks transport false ⟨0.5, none⟩ frame (.aurx (copyOf sampleAudio ⟨0.5, none⟩)) := by
  have hdecode : decode .masks (sealParts .masks sampleAudio.header sampleAudio.payload sampleKeys) = .ok _ :=
    decodeBounded_sealParts rfl (by decide) (by decide)
  have hopen : (sealed .masks sampleAudio.header sampleAudio.payload sampleKeys).openPacket .masks sampleKeys = _ :=
    openPacket_sealed sampleAudio.header sampleAudio.payload sampleKeys
  have hrouted : noCodecs.prepare policy (uplinked sampleAudio) = some (uplinked sampleAudio) := rfl
  have hsent : copyFor .masks noCodecs none (Hop.here.packet .masks (uplinked sampleAudio)) ⟨0.5, none⟩ receiver =
      some (.aurx (copyOf sampleAudio ⟨0.5, none⟩)) := rfl
  have hkeys : transport.keys = receiver.keys := rfl
  obtain ⟨frame, hframe, hiff⟩ :=
    copies_heard_exactly_iff hdecode hopen (.inl rfl) 0 hrouted .here hsent hkeys (by decide)
  refine ⟨frame, hframe, hiff.mpr (.inr ?_)⟩
  obtain rfl : [0xf8, 0xff] = frame := some.inj hframe
  refine ⟨⟨?_, ?_⟩, rfl, ?_, ?_⟩
  · intro hflag
    cases hflag
  · intro hflag
    cases hflag
  · intro hflag
    cases hflag
  · have hgain := length_gainByte 0.5
    change (gainByte 0.5).toList.length + 0 + 2 ≤ 1354
    omega

theorem forged_flags_heard :
    decode .masks (forgedAudio.sealPacket .masks sampleKeys) =
        .ok (sealed .masks forgedAudio.header forgedAudio.payload sampleKeys) ∧
      (sealed .masks forgedAudio.header forgedAudio.payload sampleKeys).openPacket .masks sampleKeys =
        (true, opened .masks forgedAudio.header forgedAudio.payload sampleKeys) ∧
      noCodecs.prepare policy (uplinked forgedAudio) = some (uplinked forgedAudio) ∧
      copyFor .masks noCodecs none (uplinked forgedAudio) ⟨1.0, none⟩ receiver =
        some (.aurx (copyOf forgedAudio ⟨1.0, none⟩)) ∧
      (∃ audio, (transport.process .masks (copyOf forgedAudio ⟨1.0, none⟩)).1 = some audio ∧
        audio.mixed = true ∧ audio.payload ≠ forgedAudio.payload) ∧
      ¬ HeardExactly .masks transport false ⟨1.0, none⟩ forgedAudio.payload
        (.aurx (copyOf forgedAudio ⟨1.0, none⟩)) := by
  have hparts : CopyParts (uplinked forgedAudio) ⟨1.0, none⟩ forgedAudio.payload
      (copyParts forgedAudio ⟨1.0, none⟩).1 (copyParts forgedAudio ⟨1.0, none⟩).2 :=
    copyParts_downlinkPartsWith rfl (uplinked forgedAudio).payload ⟨1.0, none⟩
  have hfits : Fits (copyParts forgedAudio ⟨1.0, none⟩).2 := by
    have hgain := length_gainByte 1.0
    change (gainByte 1.0).toList.length + 2 ≤ 1354
    omega
  have hversion : (copyParts forgedAudio ⟨1.0, none⟩).1.version = protocolVersion := hparts.version
  obtain ⟨htype, hssrc, hseq, -⟩ := PacketHeader.nonceFields_eq hparts.nonce
  obtain ⟨audio, haudio, -, hplain, hmixed⟩ :
      ∃ audio, (transport.process .masks (copyOf forgedAudio ⟨1.0, none⟩)).1 = some audio ∧ _ :=
    process_of_fits hversion (.inl htype) (by decide) hfits
  have htaken : audio.mixed = true := hmixed.trans hparts.mixed
  refine ⟨decodeBounded_sealParts rfl (by decide) (by decide), openPacket_sealed _ _ _, rfl, rfl,
    ⟨audio, haudio, htaken, ?_⟩, ?_⟩
  · intro hframe
    have hann := hparts.announces transport.keys (hplain.symm.trans hframe)
    obtain hsome | hshort := hann.directional rfl
    · cases hsome
    · exact absurd hshort (by decide)
  · rintro ⟨audio', haudio', -, -, -, hmixed'⟩
    obtain rfl : audio' = audio := some.inj (haudio'.symm.trans haudio)
    rw [htaken] at hmixed'
    cases hmixed'

end Sample

end AurixVoice.Media
