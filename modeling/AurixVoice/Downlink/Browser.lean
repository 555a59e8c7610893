import AurixVoice.Downlink.Packet
import AurixVoice.Web.MediaClient
import AurixVoice.Web.TaskHistory

/-! The receiving side of the browser client. A decryption is one step; the rosters may change in any way. -/

namespace AurixVoice.Downlink.Browser

open E2ee Web

structure Slot where
  id : ℕ
  userId : Option UserId
  stereo : Bool

structure Opening where
  slot : ℕ
  userId : UserId
  audio : IncomingAudio

structure WebTransportMedia where
  channels : Dict ChannelId (Dict UserId UInt32)
  userBySsrc : Dict UInt32 UserId
  slots : Dict UInt32 Slot
  made : ℕ
  decryptQueue : List Opening

def opusPacketIsStereo (packet : Bytes) : Bool := packet.head?.any fun toc => toc &&& 0x04 ≠ 0

namespace WebTransportMedia

variable (w : WebTransportMedia) (coins : Coins)

def new : WebTransportMedia := ⟨.empty, .empty, .empty, 0, []⟩

def holders (ssrc : UInt32) : Finset UserId :=
  ssrcHolders (w.channels.entries.map Prod.snd) ssrc

def userForSsrc (ssrc : UInt32) : Option UserId × WebTransportMedia :=
  match w.userBySsrc.find ssrc with
  | some user => (some user, w)
  | none =>
    match (coins.users (w.holders ssrc)).head? with
    | none => (none, w)
    | some user => (some user, { w with userBySsrc := w.userBySsrc.set ssrc user })

def slotFor (audio : IncomingAudio) : Slot × WebTransportMedia :=
  match w.slots.find audio.senderSsrc with
  | none =>
    let (userId, w) := w.userForSsrc coins audio.senderSsrc
    let slot : Slot := ⟨w.made, userId, audio.mixed⟩
    (slot, { w with slots := w.slots.set audio.senderSsrc slot, made := w.made + 1 })
  | some slot =>
    if slot.userId.isSome then (slot, w)
    else
      let (userId, w) := w.userForSsrc coins audio.senderSsrc
      let slot := { slot with userId := userId }
      (slot, { w with slots := w.slots.set audio.senderSsrc slot })

def onWebTransportAudio (audio : IncomingAudio) : Option WireFrame × WebTransportMedia :=
  let (slot, w) := w.slotFor coins audio
  if audio.e2ee then
    match slot.userId with
    | none => (none, w)
    | some userId => (none, { w with decryptQueue := w.decryptQueue ++ [⟨slot.id, userId, audio⟩] })
  else
    let stereo := slot.stereo || (audio.codec = .opus && (audio.mixed || opusPacketIsStereo audio.payload))
    (some (audio.wireFrame stereo audio.payload),
      { w with slots := w.slots.set audio.senderSsrc { slot with stereo := stereo } })

def opened (o : Opening) (plain : Bytes) : Option WireFrame × WebTransportMedia :=
  match w.slots.find o.audio.senderSsrc with
  | none => (none, w)
  | some slot =>
    if slot.id ≠ o.slot then (none, w)
    else
      let stereo := slot.stereo || (o.audio.codec = .opus && opusPacketIsStereo plain)
      (some (o.audio.wireFrame stereo plain),
        { w with slots := w.slots.set o.audio.senderSsrc { slot with stereo := stereo } })

def removeSlots (ssrcs : List UInt32) : WebTransportMedia :=
  { w with slots := ssrcs.foldl Dict.erase w.slots }

def webTransportRosterChanged : WebTransportMedia :=
  let known := w.slots.filterValues fun slot => slot.userId.isSome
  let lookup ssrc := (coins.users (w.holders ssrc)).head?
  { w with
    userBySsrc := .tabulate known.keys lookup
    slots := .tabulate w.slots.keys fun ssrc =>
      (w.slots.find ssrc).filter fun slot => slot.userId = none ∨ slot.userId = lookup ssrc }

def stopWebTransportMedia : WebTransportMedia :=
  { w with slots := .empty, userBySsrc := .empty }

end WebTransportMedia

structure Client where
  api : TransformApi
  media : WebTransportMedia
  tasks : TaskHistory
  worker : FrameCrypto
  handled : ℕ

/-- A handler of the control connection is a change of the rosters and an event of the group; `kick`
and a new session do not call `webTransportRosterChanged`. -/
inductive Event
  | group (e : GroupEvent)
  | rosters (channels : Dict ChannelId (Dict UserId UInt32))
  | rosterChanged (coins : Coins)
  | removeSlots (ssrcs : List UInt32)
  | stopMedia
  | mode (mode : E2eeMode)
  | layout (entries : List (String × Option UserId))
  | workerNext
  | audio (coins : Coins) (audio : IncomingAudio)
  | decryptNext
  | encoded (mid : Option String) (data : Bytes)

namespace Client

variable (c : Client)

def new (api : TransformApi) (identity : IdentityKey) (secret : Secret) : Client :=
  ⟨api, .new, .init identity secret, .new, 0⟩

def page : FrameCrypto := c.tasks.group.frames

def inbox : List WorkerMessage := c.tasks.group.posted.drop c.handled

def receiver : FrameCrypto :=
  match c.api with
  | .script => c.worker
  | .streams => c.page

def setPage (page : FrameCrypto) : Client :=
  { c with tasks := { c.tasks with group := { c.tasks.group with frames := page } } }

def setReceiver (f : FrameCrypto) : Client :=
  match c.api with
  | .script => { c with worker := f }
  | .streams => c.setPage f

def post (msg : WorkerMessage) : Client :=
  { c with tasks := { c.tasks with group := { c.tasks.group with posted := c.tasks.group.posted ++ [msg] } } }

variable (crypto : Crypto)

def workerNext (c : Client) : Client :=
  match c.inbox with
  | [] => c
  | msg :: _ => { c with worker := c.worker.onMessage crypto msg, handled := c.handled + 1 }

def onAudio (coins : Coins) (audio : IncomingAudio) : Option WireFrame × Client :=
  let (frame, media) := c.media.onWebTransportAudio coins audio
  (frame, { c with media := media })

def decryptNext (c : Client) : List (Playback Client) × Client :=
  match c.media.decryptQueue with
  | [] => ([], c)
  | o :: rest =>
    match c.page.decrypt crypto o.userId o.audio.payload with
    | (.error _, page) =>
      ([], { c.setPage page with media := { c.media with decryptQueue := rest } })
    | (.ok plain, page) =>
      let (frame, media) := ({ c.media with decryptQueue := rest } : WebTransportMedia).opened o plain
      (frame.toList.map fun frame => ⟨c, o.audio.payload, frame.payload⟩, { c.setPage page with media := media })

def encoded (c : Client) (mid : Option String) (data : Bytes) : Option Bytes × Client :=
  let (out, f) := c.receiver.transformReceive crypto mid data
  (out, c.setReceiver f)

def handle (c : Client) : Event → List (Playback Client) × Client
  | .group e => ([], { c with tasks := c.tasks.step crypto e })
  | .rosters channels => ([], { c with media := { c.media with channels := channels } })
  | .rosterChanged coins => ([], { c with media := c.media.webTransportRosterChanged coins })
  | .removeSlots ssrcs => ([], { c with media := c.media.removeSlots ssrcs })
  | .stopMedia => ([], { c with media := c.media.stopWebTransportMedia })
  | .mode mode => ([], (c.setPage { c.page with mode := mode }).post (.mode mode))
  | .layout entries => ([], (c.setPage (c.page.setLayout entries)).post (.layout entries))
  | .workerNext => ([], c.workerNext crypto)
  | .audio coins audio =>
    let (frame, c') := c.onAudio coins audio
    (frame.toList.map fun frame => ⟨c, audio.payload, frame.payload⟩, c')
  | .decryptNext => c.decryptNext crypto
  | .encoded mid data =>
    let (out, c') := c.encoded crypto mid data
    (out.toList.map fun played => ⟨c, data, played⟩, c')

def step (c : Client) (e : Event) : Client := (c.handle crypto e).2

def playback (c : Client) (e : Event) : List (Playback Client) := (c.handle crypto e).1

end Client

end AurixVoice.Downlink.Browser
