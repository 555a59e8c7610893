import AurixVoice.Media.AudioSequence
import AurixVoice.Media.SyntheticStreams
import AurixVoice.Protocol.DownlinkMeta

/-! What is sealed as audio under the media key of a session; keys are named by the order they were drawn in. -/

namespace AurixVoice.Media

open Protocol

variable (suite : Suite)

structure Delivery where
  receiver : SessionId
  volume : Float32
  direction : Option Direction
  transcoded : Option (AudioCodec × Bytes)

def Delivery.parts (d : Delivery) (p : AurixPacket) : PacketHeader × Bytes :=
  if p.header.hasFlag .e2ee then (p.header, p.payload)
  else
    match d.transcoded with
    | some (codec, frame) =>
      let (header, body) := p.downlinkPartsWith frame d.volume d.direction
      (header.setAudioCodec codec, body)
    | none => p.downlinkPartsWith p.payload d.volume d.direction

structure FanOut where
  deliveries : List Delivery
  nodup : (deliveries.map Delivery.receiver).Nodup

def FanOut.copies (receivers : FanOut) (p : AurixPacket) : List (AurixPacket × Delivery) :=
  receivers.deliveries.map fun d => (p, d)

def keepLoudest (best : Dict SessionId (ChannelId × Delivery)) (heard : ChannelId × Delivery) :
    Dict SessionId (ChannelId × Delivery) :=
  match best.find heard.2.receiver with
  | some slot =>
    if slot.2.volume ≥ heard.2.volume then best else best.set heard.2.receiver heard
  | none => best.set heard.2.receiver heard

def loudest (heard : List (ChannelId × Delivery)) : List (ChannelId × Delivery) :=
  (heard.foldl keepLoudest .empty).entries.map Prod.snd

inductive Stream
  | uplink
  | forwarded (sender : ℕ)
  | voice (key : UInt32 × Option SessionId)
  | mix (channel : ChannelId)
  | relayed (origin : ℕ)
  deriving DecidableEq

structure SealedPacket where
  key : ℕ
  stream : Stream
  header : PacketHeader
  body : Bytes

structure Uplink where
  ssrc : UInt32
  start : UInt32
  sent : ℕ

def Uplink.next (u : Uplink) : UInt32 := u.start + UInt32.ofNat u.sent

structure KeyedSession where
  key : ℕ
  ssrc : UInt32

/-- A stream of another node, numbered there: a sender's audio or a participant's synthesized voice.
What it relays here is on its way until it is routed; the link drops replays. -/
structure Remote where
  forwarded : Forwarded
  inFlight : List UInt32

structure StreamNode where
  sessions : Dict SessionId KeyedSession
  clients : ℕ → Uplink
  senders : ℕ → Forwarded
  remotes : ℕ → Remote
  drawn : ℕ
  engine : TtsEngine
  voiced : UInt32 × Option SessionId → ℕ
  hub : MixHub
  mixed : SessionId × ChannelId → ℕ

inductive StreamEvent
  | create (id : SessionId) (ssrc audioSeq start : UInt32)
  | close (id : SessionId)
  | clientAudio (key : ℕ) (packet : AurixPacket)
  | clientOther (key : ℕ)
  | routeAudio (sender : SessionId) (packet : AurixPacket) (payload : Option Bytes) (receivers : FanOut)
  | routeWebrtc (sender : SessionId) (rtpSeq : Option UInt32) (rtpTime : UInt32) (payload : Bytes)
      (e2ee : Bool) (heard : List (ChannelId × Delivery))
  | relay (origin : ℕ) (frame : AudioFrame) (channels : ℕ)
  | routeRelayed (origin : ℕ) (packet : AurixPacket) (receivers : FanOut)
  | inject (channel : ChannelId) (source : TtsSource) (payload : Bytes) (receivers : FanOut)
      (toSelf : Option Delivery)
  | emitMix (receiver : SessionId) (channel : ChannelId) (codec : AudioCodec) (frame : Bytes)
      (volume : Float32)

namespace Forwarded

def number (s : Forwarded) : AudioFrame → UInt32
  | .server => s.numbering.nextSequence.1
  | .uplink uplinkSeq rtpTs => (s.numbering.nextAudioSequence uplinkSeq rtpTs).1

lemma given_step (s : Forwarded) (frame : AudioFrame) : (s.step frame).given = s.number frame :: s.given := by
  cases frame with
  | server => rfl
  | uplink =>
    simp only [step, number]
    split
    · split <;> rfl
    · rfl

lemma number_not_given {s : Forwarded} (h : s.Numbered) {frame : AudioFrame} (hslot : s.HasSlot frame) :
    s.number frame ∉ s.given := by
  have hnodup := (step_numbered s frame h hslot).nodup
  rw [given_step] at hnodup
  exact (List.nodup_cons.mp hnodup).1

end Forwarded

namespace Remote

/-- A browser's frame has one number and is relayed once for each of its channels. -/
def send (r : Remote) (frame : AudioFrame) (channels : ℕ) : Remote :=
  ⟨r.forwarded.step frame, List.replicate channels (r.forwarded.number frame) ++ r.inFlight⟩

def receive (r : Remote) (number : UInt32) : Remote := ⟨r.forwarded, r.inFlight.erase number⟩

end Remote

def webrtcFrame (rtpSeq : Option UInt32) (rtpTime : UInt32) : AudioFrame :=
  match rtpSeq with
  | some rtpSeq => .uplink rtpSeq rtpTime
  | none => .server

def MixHub.forgetSession (hub : MixHub) (id : SessionId) : MixHub :=
  ⟨.tabulate (hub.sequences.keys.filter fun k => k.1 ≠ id) hub.sequences.find⟩

namespace StreamNode

variable (n : StreamNode)

def init (starts : ℕ → UInt32) : StreamNode where
  sessions := .empty
  clients _ := ⟨0, 0, 0⟩
  senders _ := .init 0
  remotes origin := ⟨.init (starts origin), []⟩
  drawn := 0
  engine := ⟨.empty⟩
  voiced _ := 0
  hub := ⟨.empty⟩
  mixed _ := 0

def sendFrom (key : ℕ) : StreamNode :=
  let u := n.clients key
  { n with clients := Function.update n.clients key ⟨u.ssrc, u.start, u.sent + 1⟩ }

def numberFor (key : ℕ) (frame : AudioFrame) : StreamNode :=
  { n with senders := Function.update n.senders key ((n.senders key).step frame) }

def setRemote (origin : ℕ) (r : Remote) : StreamNode :=
  { n with remotes := Function.update n.remotes origin r }

def senderOf (id : SessionId) (packet : AurixPacket) : Option KeyedSession :=
  (n.sessions.find id).filter fun s => packet.header.ssrc == s.ssrc

def next : StreamEvent → StreamNode
  | .create id ssrc audioSeq start =>
    if (n.sessions.find id).isSome then n
    else { n with
      sessions := n.sessions.set id ⟨n.drawn, ssrc⟩
      clients := Function.update n.clients n.drawn ⟨ssrc, start, 0⟩
      senders := Function.update n.senders n.drawn (.init audioSeq)
      drawn := n.drawn + 1 }
  | .close id => { n with
      sessions := n.sessions.erase id
      hub := n.hub.forgetSession id
      mixed := fun k => if k.1 = id then 0 else n.mixed k }
  | .clientAudio key _ => n.sendFrom key
  | .clientOther key => n.sendFrom key
  | .routeAudio id packet _ _ =>
    match n.senderOf id packet with
    | none => n
    | some s => n.numberFor s.key (.uplink packet.header.sequence packet.header.timestamp)
  | .routeWebrtc id rtpSeq rtpTime _ _ _ =>
    match n.sessions.find id with
    | none => n
    | some s => n.numberFor s.key (webrtcFrame rtpSeq rtpTime)
  | .relay origin frame channels => n.setRemote origin ((n.remotes origin).send frame channels)
  | .routeRelayed origin packet _ =>
    n.setRemote origin ((n.remotes origin).receive packet.header.sequence)
  | .inject channel source payload _ _ =>
    let key := source.stream suite channel
    { n with
      engine := (n.engine.playFrame suite channel source payload).2
      voiced := Function.update n.voiced key (n.voiced key + 1) }
  | .emitMix id channel codec frame _ =>
    if (n.sessions.find id).isSome then { n with
      hub := (n.hub.emitTo suite id channel codec frame).2
      mixed := Function.update n.mixed (id, channel) (n.mixed (id, channel) + 1) }
    else n

def sealFor (stream : Stream) (p : AurixPacket) (d : Delivery) : Option SealedPacket :=
  (n.sessions.find d.receiver).map fun r => ⟨r.key, stream, (d.parts p).1, (d.parts p).2⟩

def deliver (stream : Stream) (copies : List (AurixPacket × Delivery)) : List SealedPacket :=
  copies.filterMap fun c => n.sealFor stream c.1 c.2

def routedAudio (s : KeyedSession) (packet : AurixPacket) (payload : Option Bytes) : AurixPacket :=
  let p := AurixPacket.routed packet
    ((n.senders s.key).number (.uplink packet.header.sequence packet.header.timestamp))
  match payload with
  | none => p
  | some payload => .new (p.header.setAudioCodec .opus) payload

def webrtcAudio (s : KeyedSession) (rtpSeq : Option UInt32) (rtpTime : UInt32)
    (payload : Bytes) (e2ee : Bool) (channel : ChannelId) : AurixPacket :=
  let p := AurixPacket.audio ((n.senders s.key).number (webrtcFrame rtpSeq rtpTime)) rtpTime s.ssrc
    (channelIdHash suite channel) payload
  if e2ee then { p with header := p.header.setFlag .e2ee } else p

def emitted : StreamEvent → List SealedPacket
  | .clientAudio key packet =>
    if key < n.drawn then
      [⟨key, .uplink, { packet.header with ssrc := (n.clients key).ssrc, sequence := (n.clients key).next },
        packet.payload⟩]
    else []
  | .routeAudio id packet payload receivers =>
    match n.senderOf id packet with
    | none => []
    | some s => n.deliver (.forwarded s.key) (receivers.copies (n.routedAudio s packet payload))
  | .routeWebrtc id rtpSeq rtpTime payload e2ee heard =>
    match n.sessions.find id with
    | none => []
    | some s => n.deliver (.forwarded s.key)
        ((loudest heard).map fun c => (n.webrtcAudio suite s rtpSeq rtpTime payload e2ee c.1, c.2))
  | .routeRelayed origin packet receivers =>
    if packet.header.sequence ∈ (n.remotes origin).inFlight then
      n.deliver (.relayed origin) (receivers.copies packet.takeAudioLevel.2)
    else []
  | .inject channel source payload receivers toSelf =>
    let p := (n.engine.playFrame suite channel source payload).1
    n.deliver (.voice (source.stream suite channel)) (receivers.copies p ++ toSelf.toList.map fun d => (p, d))
  | .emitMix id channel codec frame volume =>
    match n.sessions.find id with
    | none => []
    | some s =>
      let p := (n.hub.emitTo suite id channel codec frame).1
      let (header, body) := p.downlinkPartsWith p.payload volume none
      [⟨s.key, .mix channel, header, body⟩]
  | .create _ _ _ _ | .close _ | .clientOther _ | .relay _ _ _ => []

end StreamNode

end AurixVoice.Media
