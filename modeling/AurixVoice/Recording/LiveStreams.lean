import AurixVoice.Library.Dict
import AurixVoice.Types

/-!
Live audio streams of a node. A packet is checked under the registry's lock and fed to the mixers after it,
so it is in flight until then. Packets and samples keep the number of the step that delivered them.
-/

namespace AurixVoice.Recording

abbrev StreamId := Uuid
abbrev Bytes := List UInt8
abbrev Pcm := List ℤ

inductive RecordingConsent
  | pending
  | accepted
  | declined
  deriving DecidableEq

inductive StreamFormat
  | opus
  | pcmS16le
  deriving DecidableEq

def StreamFormat.codecByte : StreamFormat → UInt8
  | .opus => 1
  | .pcmS16le => 2

def flagGap : UInt8 := 1
def flagFirst : UInt8 := 2
def frameSamples : ℕ := 960
def continuitySamples : UInt32 := 12000
def mixQueueFrames : ℕ := 6
def mixPlcFrames : ℕ := 3
def mixHangoverTicks : ℕ := 25
def mixTalkerIdleTicks : ℕ := 1500

structure OpusDecoder (S : Type) where
  new : Option S
  decode : S → Bytes → Option (Pcm × S)
  conceal : S → Option (Pcm × S)

structure Chunk where
  pcm : Pcm
  sources : List ℕ

structure MixTalker (S : Type) where
  decoder : S
  sources : List ℕ
  queue : List Chunk
  fedTick : ℕ
  concealed : ℕ

structure Mixer (S : Type) where
  talkers : Dict UserId (MixTalker S)
  tick : ℕ
  rtpTimestamp : UInt32
  lastActiveTick : Option ℕ
  started : Bool
  gap : Bool
  overruns : ℕ

structure MixFrame where
  flags : UInt8
  rtpTimestamp : UInt32
  parts : List (UserId × Chunk)

def chunks (pcm : Pcm) : List Pcm :=
  (List.range ((pcm.length + frameSamples - 1) / frameSamples)).map fun i =>
    ((pcm.drop (i * frameSamples)).take frameSamples).rightpad frameSamples 0

namespace MixTalker

variable {S : Type}

def push (st : MixTalker S × ℕ) (pcm : Pcm) : MixTalker S × ℕ :=
  let full := decide (mixQueueFrames ≤ st.1.queue.length)
  let queue := if full then st.1.queue.tail else st.1.queue
  ({ st.1 with queue := queue ++ [⟨pcm, st.1.sources⟩] }, if full then st.2 + 1 else st.2)

def turn (opus : OpusDecoder S) (tick : ℕ) (t : MixTalker S) : Option Chunk × MixTalker S :=
  match t.queue with
  | chunk :: queue => (some chunk, { t with queue := queue })
  | [] =>
    if tick - t.fedTick ≤ mixPlcFrames ∧ t.concealed < mixPlcFrames then
      match opus.conceal t.decoder with
      | some (pcm, decoder) => (some ⟨pcm, t.sources⟩, { t with decoder := decoder, concealed := t.concealed + 1 })
      | none => (none, t)
    else (none, t)

end MixTalker

namespace Mixer

variable {S : Type} (opus : OpusDecoder S)

variable (m : Mixer S) (user : UserId)

def new (rtpTimestamp : UInt32) : Mixer S := ⟨.empty, 0, rtpTimestamp, none, false, false, 0⟩

def talkerOf : Option (MixTalker S) :=
  match m.talkers.find user with
  | some t => some t
  | none => opus.new.map fun decoder => ⟨decoder, [], [], m.tick, 0⟩

def feed (payload : Bytes) (delivered : ℕ) : Bool × Mixer S :=
  match m.talkerOf opus user with
  | none => (false, m)
  | some t =>
    match opus.decode t.decoder payload with
    | none => (false, { m with talkers := m.talkers.set user t })
    | some (pcm, decoder) =>
      let t := { t with decoder := decoder, sources := delivered :: t.sources, fedTick := m.tick, concealed := 0 }
      let (t, overruns) := (chunks pcm).foldl MixTalker.push (t, m.overruns)
      (true, { m with talkers := m.talkers.set user t, overruns := overruns })

def remove : Mixer S := { m with talkers := m.talkers.erase user }

def kept : Dict UserId (MixTalker S) :=
  m.talkers.filterValues fun t => decide (m.tick + 1 - t.fedTick ≤ mixTalkerIdleTicks)

def parts : List (UserId × Chunk) :=
  m.kept.entries.filterMap fun e => (e.2.turn opus (m.tick + 1)).1.map fun chunk => (e.1, chunk)

def advance : Mixer S :=
  { m with
    tick := m.tick + 1
    rtpTimestamp := m.rtpTimestamp + UInt32.ofNat frameSamples
    talkers := m.kept.mapValues fun t => (t.turn opus (m.tick + 1)).2
    lastActiveTick := if (m.parts opus).isEmpty then m.lastActiveTick else some (m.tick + 1) }

def isActive : Bool := m.lastActiveTick.any fun t => decide (m.tick - t ≤ mixHangoverTicks)

def tickFrame (encoded : Bool) : Option MixFrame × Mixer S :=
  let next := m.advance opus
  if !next.isActive then (none, { next with gap := next.started })
  else if !encoded then (none, next)
  else
    let flags := (if next.started then 0 else flagFirst) ||| (if next.gap then flagGap else 0)
    (some ⟨flags, m.rtpTimestamp, m.parts opus⟩, { next with started := true, gap := false })

end Mixer

structure Talker (S : Type) where
  ssrc : UInt32
  lastTs : Option UInt32
  decoder : Option S

inductive ParticipantEvent
  | audioStarted
  | consent
  | left
  deriving DecidableEq

structure AudioFrame where
  codec : UInt8
  flags : UInt8
  ssrc : UInt32
  rtpTimestamp : UInt32
  serverTimeMs : ℕ
  userId : UserId
  payload : Bytes

inductive Outgoing
  | participant (user : UserId) (ssrc : UInt32) (event : ParticipantEvent) (consent : Option RecordingConsent)
  | audio (frame : AudioFrame)
  | mix (frame : MixFrame)

structure Tap (S : Type) where
  appId : AppId
  format : StreamFormat
  users : Option (Finset UserId)
  consent : Dict UserId RecordingConsent
  talkers : Dict UserId (Talker S)
  mixer : Option (Mixer S)
  sent : List Outgoing

namespace Tap

variable {S : Type}

def wantsUser (tap : Tap S) (user : UserId) : Bool := tap.users.all fun users => decide (user ∈ users)

def enqueue (tap : Tap S) (msg : Outgoing) : Tap S := { tap with sent := tap.sent ++ [msg] }

def audioStarted (tap : Tap S) (first : Bool) (user : UserId) (ssrc : UInt32) : Tap S :=
  if first then tap.enqueue (.participant user ssrc .audioStarted none) else tap

def decideConsent (tap : Tap S) (user : UserId) (consent : RecordingConsent) : Tap S :=
  let tap := { tap with consent := tap.consent.set user consent }
  if consent = .declined then
    { tap with talkers := tap.talkers.erase user, mixer := tap.mixer.map (Mixer.remove · user) }
  else tap

def talkerFor (opus : OpusDecoder S) (tap : Tap S) (user : UserId) (ssrc : UInt32) : Option (Bool × Talker S) :=
  match tap.talkers.find user with
  | some t => some (false, if t.ssrc ≠ ssrc then { t with ssrc := ssrc, lastTs := none } else t)
  | none =>
    if tap.format = .opus ∨ tap.mixer.isSome then some (true, ⟨ssrc, none, none⟩)
    else opus.new.map fun decoder => (true, ⟨ssrc, none, some decoder⟩)

def isGap (last : Option UInt32) (rtpTimestamp : UInt32) : Bool :=
  last.any fun last =>
    let delta := rtpTimestamp - last
    continuitySamples < delta && delta < 0xFFFFFFFF - continuitySamples

end Tap

def leBytes (pcm : Pcm) : Bytes := pcm.flatMap fun x => [UInt8.ofInt x, UInt8.ofInt (x / 256)]

structure Job where
  stream : StreamId
  user : UserId
  payload : Bytes
  delivered : ℕ

structure Packet where
  user : UserId
  ssrc : UInt32
  rtpTimestamp : UInt32
  payload : Bytes
  serverTimeMs : ℕ

structure LiveStreams (S : Type) where
  requireConsent : Bool
  byId : Dict StreamId (Tap S)
  byChannel : Dict ChannelId (List StreamId)
  jobs : List Job
  now : ℕ

namespace LiveStreams

variable {S : Type} (opus : OpusDecoder S)

variable (s : LiveStreams S)

def defaultConsent : RecordingConsent := if s.requireConsent then .pending else .accepted

def putTap (id : StreamId) (tap : Tap S) : LiveStreams S := { s with byId := s.byId.set id tap }

def deliverTo (packet : Packet) (id : StreamId) (tap : Tap S) : LiveStreams S :=
  match tap.talkerFor opus packet.user packet.ssrc with
  | none => s.putTap id tap
  | some (first, talker) =>
    let tap := tap.audioStarted first packet.user packet.ssrc
    let flags := (if first then flagFirst else 0) |||
      (if Tap.isGap talker.lastTs packet.rtpTimestamp then flagGap else 0)
    let talker := { talker with lastTs := some packet.rtpTimestamp }
    let frame body := Outgoing.audio
      ⟨tap.format.codecByte, flags, packet.ssrc, packet.rtpTimestamp, packet.serverTimeMs, packet.user, body⟩
    if tap.mixer.isSome then
      { s.putTap id { tap with talkers := tap.talkers.set packet.user talker } with
        jobs := s.jobs ++ [⟨id, packet.user, packet.payload, s.now⟩] }
    else
      match talker.decoder with
      | none =>
        s.putTap id
          (({ tap with talkers := tap.talkers.set packet.user talker } : Tap S).enqueue (frame packet.payload))
      | some decoder =>
        match opus.decode decoder packet.payload with
        | none => s.putTap id { tap with talkers := tap.talkers.set packet.user talker }
        | some (pcm, decoder) =>
          let talker := { talker with decoder := some decoder }
          s.putTap id
            (({ tap with talkers := tap.talkers.set packet.user talker } : Tap S).enqueue (frame (leBytes pcm)))

def onAudioTap (packet : Packet) (s : LiveStreams S) (id : StreamId) : LiveStreams S :=
  match s.byId.find id with
  | none => s
  | some tap =>
    if !tap.wantsUser packet.user then s
    else
      let consent := (tap.consent.find packet.user).getD s.defaultConsent
      let tap := { tap with consent := tap.consent.set packet.user consent }
      if consent ≠ .accepted then s.putTap id tap else s.deliverTo opus packet id tap

/-- The part of `on_audio` under the registry's lock. -/
def onAudio (channel : ChannelId) (packet : Packet) : LiveStreams S :=
  if packet.payload = [] then s
  else ((s.byChannel.find channel).getD []).foldl (onAudioTap opus packet) s

def feedJob (n : ℕ) : LiveStreams S :=
  match s.jobs[n]? with
  | none => s
  | some job =>
    let s := { s with jobs := s.jobs.eraseIdx n }
    match s.byId.find job.stream with
    | none => s
    | some tap => s.putTap job.stream
        { tap with mixer := tap.mixer.map fun m => (m.feed opus job.user job.payload job.delivered).2 }

def setConsent (app : AppId) (id : StreamId) (user : UserId) (consent : RecordingConsent) :
    Except AurixError Bool × LiveStreams S :=
  match s.byId.find id with
  | none => (.ok false, s)
  | some tap =>
    if tap.appId ≠ app then (.ok false, s)
    else if !tap.wantsUser user then (.error (.authorizationDenied "This stream does not include you"), s)
    else
      let ssrc := ((tap.talkers.find user).map Talker.ssrc).getD 0
      (.ok true,
        s.putTap id ((tap.decideConsent user consent).enqueue (.participant user ssrc .consent (some consent))))

def leaveTap (user : UserId) (s : LiveStreams S) (id : StreamId) : LiveStreams S :=
  match s.byId.find id with
  | none => s
  | some tap =>
    let tap := { tap with mixer := tap.mixer.map (Mixer.remove · user) }
    match tap.talkers.find user with
    | none => s.putTap id tap
    | some t => s.putTap id
        (({ tap with talkers := tap.talkers.erase user } : Tap S).enqueue (.participant user t.ssrc .left none))

def onParticipantLeft (channel : ChannelId) (user : UserId) : LiveStreams S :=
  ((s.byChannel.find channel).getD []).foldl (leaveTap user) s

def mixTick (id : StreamId) (encoded : Bool) : Option MixFrame × LiveStreams S :=
  match s.byId.find id with
  | none => (none, s)
  | some tap =>
    match tap.mixer with
    | none => (none, s)
    | some mixer =>
      let ticked := mixer.tickFrame opus encoded
      let tap := { tap with mixer := some ticked.2 }
      (ticked.1, s.putTap id ((ticked.1.map fun frame => tap.enqueue (.mix frame)).getD tap))

end LiveStreams

inductive Event
  | consent (app : AppId) (id : StreamId) (user : UserId) (consent : RecordingConsent)
  | deliver (channel : ChannelId) (packet : Packet)
  | feed (n : ℕ)
  | tick (id : StreamId) (encoded : Bool)
  | left (channel : ChannelId) (user : UserId)

variable {S : Type}

def LiveStreams.handle (opus : OpusDecoder S) (s : LiveStreams S) : Event → LiveStreams S
  | .consent app id user consent => (s.setConsent app id user consent).2
  | .deliver channel packet => s.onAudio opus channel packet
  | .feed n => s.feedJob opus n
  | .tick id encoded => (s.mixTick opus id encoded).2
  | .left channel user => s.onParticipantLeft channel user

def step (opus : OpusDecoder S) (s : LiveStreams S) (e : Event) : LiveStreams S :=
  { s.handle opus e with now := s.now + 1 }

end AurixVoice.Recording
