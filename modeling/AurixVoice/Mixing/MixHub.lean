import AurixVoice.Media.LiveChannel

/-! The mixers of the server mix. What Opus decodes, and whether a mixer could be opened, is an input. -/

namespace AurixVoice.Mixing

open Media (Mix LiveChannel LiveSession Sessions)

variable {P D : Type}

structure Frame where
  speaker : Option UserId
  number : ℕ
  ssrc : UInt32
  payload : List UInt8

structure Sample where
  left : Int16
  right : Int16
  speaker : Option UserId
  frame : ℕ
  deriving DecidableEq

structure SenderState (D : Type) where
  queue : List Sample
  mix : Mix ℚ D
  lastSeen : ℕ

def frameSamples : ℕ := 960
def maxQueueSamples : ℕ := frameSamples * 10
def senderIdle : ℕ := 30 * 10 ^ 9

structure OpusMixer (D : Type) where
  senders : Dict UInt32 (SenderState D)

namespace OpusMixer

def enqueue (queue added : List Sample) : List Sample :=
  let queue := queue ++ added
  queue.drop (queue.length - maxQueueSamples)

def pushOpus (m : OpusMixer D) (frame : Frame) (mix : Mix ℚ D) (pcm : List (Int16 × Int16)) (now : ℕ) : OpusMixer D :=
  if frame.payload = [] then m
  else
    let waiting := ((m.senders.find frame.ssrc).map SenderState.queue).getD []
    let added := pcm.map fun s => ⟨s.1, s.2, frame.speaker, frame.number⟩
    ⟨m.senders.set frame.ssrc ⟨enqueue waiting added, mix, now⟩⟩

structure Part (D : Type) where
  mix : Mix ℚ D
  samples : List Sample

def retained (m : OpusMixer D) (now : ℕ) : Dict UInt32 (SenderState D) :=
  m.senders.filterValues fun s => decide (now - s.lastSeen < senderIdle)

def parts (senders : Dict UInt32 (SenderState D)) : Dict UInt32 (Part D) :=
  .tabulate senders.keys fun ssrc => (senders.find ssrc).bind fun s =>
    if s.queue = [] then none else some ⟨s.mix, s.queue.take frameSamples⟩

def mixFrame (m : OpusMixer D) (now : ℕ) : Dict UInt32 (Part D) × OpusMixer D :=
  let senders := m.retained now
  (parts senders, ⟨senders.mapValues fun s => { s with queue := s.queue.drop frameSamples }⟩)

end OpusMixer

inductive Slot
  | shared (channel : ChannelId)
  | privateTo (session : SessionId) (channel : ChannelId)
  deriving DecidableEq

def Slot.channel : Slot → ChannelId
  | shared channel | privateTo _ channel => channel

structure MixNode (D : Type) where
  mixer : OpusMixer D
  subscribers : Finset SessionId

structure MixHub (D : Type) where
  nodes : Dict Slot (MixNode D)
  assignments : Dict (SessionId × ChannelId) Slot

def maxMixers : ℕ := 8192

namespace MixHub

variable (h : MixHub D)

def node (opens : Slot → Bool) (h : MixHub D) (slot : Slot) : Option (MixHub D) :=
  if slot ∈ h.nodes.keys then some h
  else if maxMixers ≤ h.nodes.keys.card then none
  else if opens slot then some { h with nodes := h.nodes.set slot ⟨⟨.empty⟩, ∅⟩ }
  else none

def subscribe (slot : Slot) (session : SessionId) : MixHub D :=
  { h with nodes := h.nodes.modify slot fun n => { n with subscribers := insert session n.subscribers } }

def unsubscribe (slot : Slot) (session : SessionId) : MixHub D :=
  { h with nodes := h.nodes.modify slot fun n => { n with subscribers := n.subscribers.erase session } }

def assign (session : SessionId) (channel : ChannelId) (slot : Slot) : MixHub D :=
  let previous := h.assignments.find (session, channel)
  let h := { h with assignments := h.assignments.set (session, channel) slot }
  let h := match previous.filter fun p => decide (p ≠ slot) with
    | some previous => h.unsubscribe previous session
    | none => h
  h.subscribe slot session

structure Feed where
  frame : Frame
  now : ℕ
  opens : Slot → Bool
  decoded : Slot → List (Int16 × Int16)

def feed (f : Feed) (slot : Slot) (mix : Mix ℚ D) : MixHub D :=
  { h with nodes := h.nodes.modify slot fun n =>
      { n with mixer := n.mixer.pushOpus f.frame mix (f.decoded slot) f.now } }

def slotFor (c : LiveChannel P) (sessions : Sessions) (sharedOk : Bool) (r : SessionId × Mix ℚ D) : Slot :=
  let receiver := sessions r.1
  let own := Slot.privateTo r.1 c.channelId
  if sharedOk && c.supportsSharedMix && r.2.direction.isNone && !c.canTransmit receiver.userId &&
      receiver.prefs.isUniform && decide (h.assignments.find (r.1, c.channelId) ≠ some own)
  then .shared c.channelId else own

end MixHub

structure Pushing (D : Type) where
  hub : MixHub D
  sharedFed : Bool
  leftovers : List (SessionId × Mix ℚ D)
  fed : Slot → Option (Mix ℚ D)

namespace Pushing

def feed (st : Pushing D) (f : MixHub.Feed) (slot : Slot) (mix : Mix ℚ D) : Pushing D :=
  { st with hub := st.hub.feed f slot mix, fed := Function.update st.fed slot (some mix) }

/-- Uniform receivers of the shared mixer all hear the sender at unity, so it is fed once. -/
def serve (st : Pushing D) (f : MixHub.Feed) (slot : Slot) (mix : Mix ℚ D) : Pushing D :=
  match slot with
  | .shared _ => if st.sharedFed then st else { st.feed f slot ⟨1, none⟩ with sharedFed := true }
  | .privateTo .. => st.feed f slot mix

def turn (c : LiveChannel P) (sessions : Sessions) (sharedOk : Bool) (f : MixHub.Feed) (st : Pushing D)
    (r : SessionId × Mix ℚ D) : Pushing D :=
  match st.hub.node f.opens (st.hub.slotFor c sessions sharedOk r) with
  | none => { st with leftovers := st.leftovers ++ [r] }
  | some hub =>
    let slot := st.hub.slotFor c sessions sharedOk r
    { st with hub := hub.assign r.1 c.channelId slot }.serve f slot r.2

end Pushing

namespace MixHub

def push (h : MixHub D) (c : LiveChannel P) (sessions : Sessions) (sharedOk : Bool) (f : Feed)
    (receivers : List (SessionId × Mix ℚ D)) : Pushing D :=
  receivers.foldl (Pushing.turn c sessions sharedOk f) ⟨h, false, [], fun _ => none⟩

def isMixed (c : LiveChannel P) (sessions : Sessions) (r : SessionId × Mix ℚ D) : Bool :=
  (sessions r.1).transport = .aurx && (sessions r.1).active && c.wantsMix (sessions r.1)

def splitMixed (h : MixHub D) (c : LiveChannel P) (sessions : Sessions) (sharedOk e2ee : Bool) (f : Feed)
    (copies : List (SessionId × Mix ℚ D)) : List (SessionId × Mix ℚ D) × Pushing D :=
  if e2ee || !c.mayMix sessions then (copies, ⟨h, false, [], fun _ => none⟩)
  else
    let (mixed, streams) := copies.partition (isMixed c sessions)
    let pushed := h.push c sessions sharedOk f mixed
    (streams ++ pushed.leftovers, pushed)

structure Sealed (D : Type) where
  session : SessionId
  channel : ChannelId
  volume : ℚ
  parts : Dict UInt32 (OpusMixer.Part D)

def serves (sessions : Sessions) (channel : ChannelId) (session : SessionId) : Bool :=
  (sessions session).active && decide (channel ∈ (sessions session).channels)

def mixVolume (slot : Slot) (focusGain : ℚ) : ℚ :=
  match slot with
  | .shared _ => focusGain
  | .privateTo .. => 1

def tick (h : MixHub D) (sessions : Sessions) (focusGain : LiveSession → ChannelId → ℚ) (slot : Slot)
    (now : ℕ) : List (Sealed D) × MixHub D :=
  match h.nodes.find slot with
  | none => ([], h)
  | some n =>
    let (parts, mixer) := n.mixer.mixFrame now
    if parts.keys = ∅ then ([], { h with nodes := h.nodes.set slot { n with mixer := mixer } })
    else
      let present := n.subscribers.filter fun s => serves sessions slot.channel s = true
      let reached := (ascending present).filter fun s => (sessions s).bound
      (reached.map fun s =>
          ⟨s, slot.channel, mixVolume slot (focusGain (sessions s) slot.channel), parts⟩,
        { h with nodes := h.nodes.set slot ⟨mixer, present⟩ })

end MixHub

end AurixVoice.Mixing
