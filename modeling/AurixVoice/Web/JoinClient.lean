import AurixVoice.Web.MediaClient

/-! The joins of a browser client on the WebRTC path, as far as they decide how its frames leave. -/

namespace AurixVoice.Web

open E2ee

structure JoinClient where
  media : MediaClient
  pendingJoins : List ChannelId
  e2eeChannels : Finset ChannelId

inductive JoinEvent
  | joinChannel (c : ChannelId)
  | joinAck (c : ChannelId) (e2ee : Bool)
  | error (clientRef : Bool)
  | joinTimeout (c : ChannelId)
  | leaveChannel (c : ChannelId)
  | kick (c : ChannelId)
  | connectionLost
  | sessionEnded
  | rotate (secret : Secret)
  | derived
  | workerNext
  | frame (data : Bytes)

namespace JoinClient

variable (s : JoinClient) (c : ChannelId)

def init (api : Option TransformApi) (secret : Secret) : JoinClient where
  media := if api.isSome then MediaClient.new.ensureE2ee api secret else .new
  pendingJoins := []
  e2eeChannels := ∅

def targetMode : E2eeMode :=
  if s.e2eeChannels.Nonempty then .encrypt else if s.pendingJoins ≠ [] then .hold else .plain

def refreshE2eeMode : JoinClient :=
  if s.media.group.isNone then s else { s with media := s.media.setE2eeMode s.targetMode }

def joinChannel : JoinClient :=
  if c ∈ s.pendingJoins then s
  else ({ s with pendingJoins := s.pendingJoins ++ [c] } : JoinClient).refreshE2eeMode

def forgetJoin : JoinClient :=
  ({ s with pendingJoins := s.pendingJoins.erase c } : JoinClient).refreshE2eeMode

def e2eeChannelJoined : JoinClient :=
  ({ s with e2eeChannels := insert c s.e2eeChannels } : JoinClient).refreshE2eeMode

def e2eeChannelLeft : JoinClient :=
  if c ∈ s.e2eeChannels then ({ s with e2eeChannels := s.e2eeChannels.erase c } : JoinClient).refreshE2eeMode
  else s

def joinAck (e2ee : Bool) : JoinClient :=
  if e2ee && s.media.group.isNone then s.forgetJoin c
  else (if e2ee then s.e2eeChannelJoined c else s.e2eeChannelLeft c).forgetJoin c

/-- A failed join is reported without a `client_ref`, and so are other failed requests; the oldest
pending join is taken to be the one that failed. -/
def onError (clientRef : Bool) : JoinClient :=
  if clientRef then s
  else match s.pendingJoins with
    | [] => s
    | c :: _ => s.forgetJoin c

def connectionLost : JoinClient := { s with pendingJoins := [] }

def e2eeSessionEnded : JoinClient :=
  ({ s with e2eeChannels := ∅ } : JoinClient).refreshE2eeMode

variable (crypto : Crypto)

def step (s : JoinClient) : JoinEvent → JoinClient
  | .joinChannel c => s.joinChannel c
  | .joinAck c e2ee => s.joinAck c e2ee
  | .error clientRef => s.onError clientRef
  | .joinTimeout c => if c ∈ s.pendingJoins then s.forgetJoin c else s
  | .leaveChannel c => s.e2eeChannelLeft c
  | .kick c => s.e2eeChannelLeft c
  | .connectionLost => s.connectionLost
  | .sessionEnded => s.e2eeSessionEnded
  | .rotate secret => { s with media := s.media.rotate secret }
  | .derived => { s with media := s.media.derived }
  | .workerNext => { s with media := s.media.workerNext crypto }
  | .frame data => { s with media := (s.media.sendEncoded crypto data).2 }

end JoinClient

end AurixVoice.Web
