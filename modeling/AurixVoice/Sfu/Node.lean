import AurixVoice.Channel.Admission

/-! The registry of a media node. Sessions are told apart by their records; `joined` are the channels each lists. -/

namespace AurixVoice.Sfu

open Channel
open Media (ChannelType ChannelRole)

structure SfuOptions where
  maxParticipants : UInt32
  maxChannels : UInt32
  maxChannelsPerSession : UInt32
  maxPositionalChannelsPerSession : UInt32

structure SfuNode (V P : Type) where
  options : SfuOptions
  sessionsById : Dict SessionId MediaSession
  sessionsByUser : Dict UserId MediaSession
  joined : MediaSession → List ChannelId
  channels : Dict ChannelId (MediaChannel V P)
  channelsByHash : Dict UInt32 ChannelId
  pinnedChannels : Dict ChannelId ℕ
  activeParticipantCount : UInt32

structure ChannelLeft where
  rosterObservers : Option (List UserId)
  hidden : Bool
  admitted : List RoleChange

structure ChannelJoined where
  existing : List MediaSession
  admission : Admission

namespace SfuNode

variable {V P : Type}

def new (options : SfuOptions) : SfuNode V P where
  options
  sessionsById := .empty
  sessionsByUser := .empty
  joined _ := []
  channels := .empty
  channelsByHash := .empty
  pinnedChannels := .empty
  activeParticipantCount := 0

variable (hash : ChannelId → UInt32) (s : SfuNode V P) (env : Env)

def keepOrDrop (id : ChannelId) (channel : MediaChannel V P) : SfuNode V P :=
  if channel.participantCount = 0 ∧ (s.pinnedChannels.find id).isNone then
    { s with channels := s.channels.erase id, channelsByHash := s.channelsByHash.erase (hash id) }
  else { s with channels := s.channels.set id channel }

def removeFromChannel (id : ChannelId) (session : MediaSession) : ChannelLeft × SfuNode V P :=
  let s := { s with joined := Function.update s.joined session ((s.joined session).filter (· ≠ id)) }
  match s.channels.find id with
  | none => (⟨none, false, []⟩, s)
  | some channel =>
    let admitted := (channel.removeParticipant session.userId).2.admitWaiting env
    (⟨channel.observersOf session.userId, channel.isHiddenListener session.userId, admitted.1⟩,
      s.keepOrDrop hash id admitted.2)

def teardownSession (session : MediaSession) : SfuNode V P :=
  if s.sessionsById.find session.sessionId ≠ some session then s
  else
    let s := { s with sessionsById := s.sessionsById.erase session.sessionId }
    let s := (s.joined session).foldl (fun s id => (s.removeFromChannel hash env id session).2) s
    { s with activeParticipantCount := s.activeParticipantCount - 1 }

def evictUser (user : UserId) : SfuNode V P :=
  match s.sessionsByUser.find user with
  | some old => teardownSession hash { s with sessionsByUser := s.sessionsByUser.erase user } env old
  | none => s

def openSession (session : MediaSession) (keyError : Option AurixError) :
    Except AurixError MediaSession × SfuNode V P :=
  match reserveSlot s.activeParticipantCount s.options.maxParticipants with
  | none => (.error (.mediaNodeUnavailable "Node at capacity"), s)
  | some count =>
    match keyError with
    | some e => (.error e, { s with activeParticipantCount := count - 1 })
    | none => (.ok session,
      { s with
        sessionsById := s.sessionsById.set session.sessionId session
        sessionsByUser := s.sessionsByUser.set session.userId session
        joined := Function.update s.joined session []
        activeParticipantCount := count })

def createSessionWithSsrc (session : MediaSession) (keyError : Option AurixError) :
    Except AurixError MediaSession × SfuNode V P :=
  (s.evictUser hash env session.userId).openSession session keyError

def adoptSession (session : MediaSession) (keyError : Option AurixError) :
    Except AurixError MediaSession × SfuNode V P :=
  if (s.sessionsById.find session.sessionId).isSome then
    (.error (.validation "session already hosted on this node"), s)
  else s.createSessionWithSsrc hash env session keyError

def forgetUser (session : MediaSession) : SfuNode V P :=
  if (s.sessionsByUser.find session.userId).any fun other => other.sessionId = session.sessionId then
    { s with sessionsByUser := s.sessionsByUser.erase session.userId }
  else s

def destroySession (sid : SessionId) : Except AurixError Unit × SfuNode V P :=
  match s.sessionsById.find sid with
  | none => (.error (.sessionNotFound sid.hyphenated), s)
  | some session => (.ok (), (s.forgetUser session).teardownSession hash env session)

def expireFromChannel (session : MediaSession) (s : SfuNode V P) (id : ChannelId) : SfuNode V P :=
  match s.channels.find id with
  | none => s
  | some channel => s.keepOrDrop hash id (channel.removeParticipant session.userId).2

def expireSession (s : SfuNode V P) (sid : SessionId) : SfuNode V P :=
  match s.sessionsById.find sid with
  | none => s
  | some session =>
    let s := forgetUser { s with sessionsById := s.sessionsById.erase sid } session
    let s := (s.joined session).foldl (expireFromChannel hash session) s
    { s with activeParticipantCount := s.activeParticipantCount - 1 }

def checkSessionChannelLimits (session : MediaSession) (joining : ChannelType) : Option AurixError :=
  let joined := s.joined session
  let maxPositional := s.options.maxPositionalChannelsPerSession
  let positional := joined.filter fun id =>
    (s.channels.find id).any fun channel => channel.channelType = .positional
  if s.options.maxChannelsPerSession ≤ UInt32.ofNat joined.length then
    some (.channelLimitExceeded
      ("session may join at most " ++ toString s.options.maxChannelsPerSession ++ " channels"))
  else if joining = .positional ∧ maxPositional ≠ 0 ∧ maxPositional ≤ UInt32.ofNat positional.length then
    some (.channelLimitExceeded
      ("session may join at most " ++ toString maxPositional ++ " positional channel(s)"))
  else none

def checkChannelSlot (id : ChannelId) : Option AurixError :=
  if (s.channels.find id).isNone ∧ s.options.maxChannels ≤ UInt32.ofNat s.channels.keys.card then
    some (.mediaNodeUnavailable "Node channel capacity reached")
  else if (s.channelsByHash.find (hash id)).any fun existing => existing ≠ id then
    some (.internal "Channel id hash collision on this node")
  else none

def channelEntry (id : ChannelId) (app : AppId) (config : ChannelConfig V) : MediaChannel V P :=
  (s.channels.find id).getD (.new id app config)

def joinChannelWith (sid : SessionId) (id : ChannelId) (config : ChannelConfig V) (role : ChannelRole)
    (hints : JoinHints) : Except AurixError ChannelJoined × SfuNode V P :=
  match s.sessionsById.find sid with
  | none => (.error (.sessionNotFound sid.hyphenated), s)
  | some session =>
    match if id ∈ s.joined session then none else s.checkSessionChannelLimits session config.channelType with
    | some e => (.error e, s)
    | none =>
      match s.checkChannelSlot hash id with
      | some e => (.error e, s)
      | none =>
        let isNew := (s.channels.find id).isNone
        let channel := s.channelEntry id session.appId config
        if channel.appId ≠ session.appId then
          (.error (.authorizationDenied "Channel belongs to a different application"),
            { s with channels := s.channels.set id channel })
        else
          match channel.addParticipantWith env session role hints with
          | (.error e, channel) => (.error e, { s with channels := s.channels.set id channel })
          | (.ok admission, channel) =>
            (.ok ⟨(channel.participants.entries.filter fun e => e.1 ≠ session.userId).map Prod.snd, admission⟩,
              { s with
                channels := s.channels.set id channel
                joined := Function.update s.joined session
                  (if id ∈ s.joined session then s.joined session else s.joined session ++ [id])
                channelsByHash := if isNew then s.channelsByHash.set (hash id) id else s.channelsByHash })

def leaveChannel (sid : SessionId) (id : ChannelId) : Except AurixError ChannelLeft × SfuNode V P :=
  match s.sessionsById.find sid with
  | none => (.error (.sessionNotFound sid.hyphenated), s)
  | some session =>
    let left := s.removeFromChannel hash env id session
    (.ok left.1, left.2)

def kickUserFromChannel (user : UserId) (id : ChannelId) : Except AurixError Unit × SfuNode V P :=
  match s.sessionsByUser.find user with
  | none => (.error (.userNotFound user.hyphenated), s)
  | some session => (.ok (), (s.removeFromChannel hash env id session).2)

def pinChannel (id : ChannelId) (app : AppId) (config : ChannelConfig V) : Except AurixError Unit × SfuNode V P :=
  match s.checkChannelSlot hash id with
  | some e => (.error e, s)
  | none =>
    let isNew := (s.channels.find id).isNone
    let channel := s.channelEntry id app config
    if channel.appId ≠ app then
      (.error (.authorizationDenied "Channel belongs to a different application"),
        { s with channels := s.channels.set id channel })
    else
      (.ok (),
        { s with
          channels := s.channels.set id channel
          pinnedChannels := s.pinnedChannels.set id ((s.pinnedChannels.find id).getD 0 + 1)
          channelsByHash := if isNew then s.channelsByHash.set (hash id) id else s.channelsByHash })

def unpinChannel (id : ChannelId) : SfuNode V P :=
  match s.pinnedChannels.find id with
  | none => s
  | some count =>
    if count - 1 ≠ 0 then { s with pinnedChannels := s.pinnedChannels.set id (count - 1) }
    else
      let s := { s with pinnedChannels := s.pinnedChannels.erase id }
      match s.channels.find id with
      | none => s
      | some channel => s.keepOrDrop hash id channel

end SfuNode

end AurixVoice.Sfu
