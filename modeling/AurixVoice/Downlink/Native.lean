import AurixVoice.Downlink.Packet
import AurixVoice.E2ee.History

/-! The receiving side of the native client; its channels and group may change in any way. -/

namespace AurixVoice.Downlink.Native

open E2ee

structure ChannelState where
  hash : UInt32
  e2ee : Bool
  participants : Dict UserId UInt32

structure Client where
  channels : Dict ChannelId ChannelState
  group : Group
  e2eePending : Dict UserId (List (ℕ × IncomingAudio))

def e2eePendingMaxAge : ℕ := 500

def e2eePendingMaxFrames : ℕ := 25

namespace Client

def new (group : Group) : Client := ⟨.empty, group, .empty⟩

def holders (c : Client) (ssrc : UInt32) : Finset UserId :=
  ssrcHolders (c.channels.entries.map fun channel => channel.2.participants) ssrc

def userForSsrc (c : Client) (coins : Coins) (ssrc : UInt32) : Option UserId :=
  (coins.users (c.holders (sourceSsrc ssrc))).head?

def channelEncrypted (c : Client) (hash : UInt32) : Bool :=
  c.channels.entries.any fun channel => channel.2.hash = hash && channel.2.e2ee

def parkE2eeFrame (c : Client) (now : ℕ) (user : UserId) (audio : IncomingAudio) : Client :=
  let queue := ((c.e2eePending.find user).getD []).dropWhile fun parked => e2eePendingMaxAge < now - parked.1
  let queue := if e2eePendingMaxFrames ≤ queue.length then queue.tail else queue
  { c with e2eePending := c.e2eePending.set user (queue ++ [(now, audio)]) }

variable (crypto : Crypto)

def deliverAudio (c : Client) (coins : Coins) (now : ℕ) (audio : IncomingAudio) (park : Bool) :
    Option WireFrame × Client :=
  if audio.e2ee then
    match c.userForSsrc coins audio.senderSsrc with
    | none => (none, c)
    | some user =>
      match c.group.decrypt crypto user audio.payload with
      | (.ok plain, g) => (some (audio.wireFrame (audio.mixed && audio.codec = .opus) plain), { c with group := g })
      | (.error _, g) =>
        if park && (SenderKey.peek audio.payload).any fun header => g.awaitingGeneration user header.1 then
          (none, ({ c with group := g } : Client).parkE2eeFrame now user audio)
        else (none, { c with group := g })
  else if c.channelEncrypted audio.channelHash then (none, c)
  else (some (audio.wireFrame (audio.mixed && audio.codec = .opus) audio.payload), c)

def deliver (c : Client) (coins : Coins) (now : ℕ) (audio : IncomingAudio) (park : Bool) :
    List (Playback Client) × Client :=
  let (frame, c') := c.deliverAudio crypto coins now audio park
  (frame.toList.map fun frame => ⟨c, audio.payload, frame.payload⟩, c')

def replay (coins : Coins) (now : ℕ) : List (ℕ × IncomingAudio) → Client → List
    (Playback Client) × Client
  | [], c => ([], c)
  | (at_, audio) :: rest, c =>
    if e2eePendingMaxAge < now - at_ then replay coins now rest c
    else
      let (played, c) := c.deliver crypto coins now audio false
      let (later, c) := replay coins now rest c
      (played ++ later, c)

def replayE2eePending (c : Client) (coins : Coins) (now : ℕ) (user : UserId) : List (Playback Client) × Client :=
  match c.e2eePending.find user with
  | none => ([], c)
  | some queue => replay crypto coins now queue { c with e2eePending := c.e2eePending.erase user }

end Client

inductive Event
  | channels (table : Dict ChannelId ChannelState)
  | group (op : GroupOp)
  | replayE2eePending (user : UserId)
  | forgetPending (users : List UserId)
  | audio (audio : IncomingAudio)

structure Input where
  now : ℕ
  coins : Coins
  event : Event

namespace Client

variable (crypto : Crypto)

variable (c : Client) (i : Input)

def handle : List (Playback Client) × Client :=
  match i.event with
  | .channels table => ([], { c with channels := table })
  | .group op => ([], { c with group := (c.group.apply crypto i.coins op).2 })
  | .replayE2eePending user => c.replayE2eePending crypto i.coins i.now user
  | .forgetPending users => ([], { c with e2eePending := users.foldl Dict.erase c.e2eePending })
  | .audio audio => c.deliver crypto i.coins i.now audio true

def step : Client := (c.handle crypto i).2

def playback : List (Playback Client) := (c.handle crypto i).1

def AllEncrypted : Prop := ∀ id channel, c.channels.find id = some channel → channel.e2ee = true

def Member (u : UserId) : Prop :=
  ∃ id channel ssrc, c.channels.find id = some channel ∧ channel.participants.find u = some ssrc

def Labelled : Prop :=
  ∀ audio, i.event = .audio audio → audio.e2ee = true ∨
    ∃ id channel, c.channels.find id = some channel ∧ channel.hash = audio.channelHash

end Client

end AurixVoice.Downlink.Native
