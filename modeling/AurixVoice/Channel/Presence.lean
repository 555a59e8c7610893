import AurixVoice.Media.Routing

/-! A voice channel on one node: members, roles, poses and pairs in sight. Lengths `V` and poses `P` are abstract. -/

namespace AurixVoice.Channel

open Media (ChannelType ChannelRole)

structure Space (V P : Type) where
  distance : P → P → V
  le : V → V → Bool
  exitRadius : V → V

def Space.inSight {V P : Type} (sp : Space V P) (enter : V) (was : Bool) (distance : V) : Bool :=
  if was then sp.le distance (sp.exitRadius enter) else sp.le distance enter

inductive SpeakerAdmission
  | reject
  | wait
  | demote
  deriving DecidableEq

structure AudienceConfig where
  hideListeners : Bool
  maxSpeakers : UInt32
  speakerAdmission : SpeakerAdmission
  demoteIdleMs : UInt32
  deriving DecidableEq

def defaultDemoteIdleMs : UInt32 := 3000

instance : Inhabited AudienceConfig := ⟨⟨true, 0, .reject, defaultDemoteIdleMs⟩⟩

structure ChannelConfig (V : Type) where
  channelType : ChannelType
  maxParticipants : UInt32
  audience : Option AudienceConfig
  rosterRadius : Option V
  commandSpeakers : Option (Finset UserId)

structure MediaSession where
  sessionId : SessionId
  userId : UserId
  appId : AppId
  ssrc : UInt32
  deriving DecidableEq

structure RemoteParticipant where
  sessionId : SessionId
  displayName : String
  ssrc : UInt32
  role : ChannelRole
  isMuted : Bool
  isPriority : Bool
  captureUnavailable : Bool
  deriving DecidableEq

structure LocalRole where
  role : ChannelRole
  granted : ChannelRole
  slotSinceMs : ℤ
  waitingSince : Option ℕ
  speakAttemptMs : ℤ
  deriving DecidableEq

def LocalRole.wantsSlot (r : LocalRole) : Bool := r.waitingSince.isSome && r.granted.canSpeak

structure RosterChange where
  observer : UserId
  subject : UserId
  visible : Bool
  deriving DecidableEq

structure MediaChannel (V P : Type) where
  channelId : ChannelId
  appId : AppId
  channelType : ChannelType
  config : ChannelConfig V
  participants : Dict UserId MediaSession
  participantRoles : Dict UserId LocalRole
  priority : Finset UserId
  ssrcMap : Dict UInt32 UserId
  participantCount : UInt32
  localSpeakers : UInt32
  remote : Dict UserId RemoteParticipant
  positions : Dict UserId P
  visible : Finset (UserId × UserId)

def pair (a b : UserId) : UserId × UserId := if a ≤ b then (a, b) else (b, a)

namespace MediaChannel

variable {V P : Type}

def new (channelId : ChannelId) (appId : AppId) (config : ChannelConfig V) : MediaChannel V P where
  channelId
  appId
  channelType := config.channelType
  config
  participants := .empty
  participantRoles := .empty
  priority := ∅
  ssrcMap := .empty
  participantCount := 0
  localSpeakers := 0
  remote := .empty
  positions := .empty
  visible := ∅

variable (c : MediaChannel V P)

def updateConfig (config : ChannelConfig V) : MediaChannel V P :=
  { c with
    config := { config with channelType := c.channelType }
    visible := if c.config.rosterRadius.isSome && config.rosterRadius.isNone then ∅ else c.visible }

def getRole (user : UserId) : ChannelRole :=
  ((c.participantRoles.find user).map LocalRole.role).getD .listener

def memberRole (user : UserId) : Option ChannelRole :=
  match c.participantRoles.find user with
  | some r => some r.role
  | none => (c.remote.find user).map RemoteParticipant.role

def hidesListeners : Bool := c.config.audience.any AudienceConfig.hideListeners

def isHiddenListener (user : UserId) : Bool :=
  match c.memberRole user with
  | none => false
  | some role =>
    if role.canSpeak then false
    else c.hidesListeners &&
      !(c.channelType = .command && c.config.commandSpeakers.any fun s => user ∈ s)

def observersOf (user : UserId) : Option (List UserId) :=
  if c.config.rosterRadius.isNone then none
  else if c.isHiddenListener user then some []
  else some ((ascending c.participants.keys).filter fun other =>
    other ≠ user ∧ pair other user ∈ c.visible)

def forgetVisibility (user : UserId) : MediaChannel V P :=
  { c with visible := c.visible.filter fun p => p.1 ≠ user ∧ p.2 ≠ user }

def refreshPair (sp : Space V P) (enter : V) (user : UserId) (pose : P) (st : MediaChannel V P × List RosterChange)
    (other : UserId × P) : MediaChannel V P × List RosterChange :=
  let c := st.1
  let otherLocal := (c.participants.find other.1).isSome
  if other.1 = user then st
  else if !otherLocal && (c.remote.find other.1).isNone then st
  else
    let key := pair user other.1
    let distance := sp.distance pose other.2
    let was := decide (key ∈ c.visible)
    let now := sp.inSight enter was distance
    if now = was then st
    else
      let toOther := if otherLocal && !c.isHiddenListener user then [⟨other.1, user, now⟩] else []
      let toMover :=
        if (c.participants.find user).isSome && !c.isHiddenListener other.1 then [⟨user, other.1, now⟩]
        else []
      ({ c with visible := if now then insert key c.visible else c.visible.erase key },
        st.2 ++ toOther ++ toMover)

def refreshVisibility (sp : Space V P) (user : UserId) : MediaChannel V P × List RosterChange :=
  match c.config.rosterRadius with
  | none => (c, [])
  | some enter =>
    if (c.participants.find user).isNone && (c.remote.find user).isNone then (c, [])
    else
      match c.positions.find user with
      | none => (c, [])
      | some pose => c.positions.entries.foldl (refreshPair sp enter user pose) (c, [])

def updatePosition (sp : Space V P) (user : UserId) (pose : P) : MediaChannel V P × List RosterChange :=
  refreshVisibility { c with positions := c.positions.set user pose } sp user

def addRemote (sp : Space V P) (user : UserId) (participant : RemoteParticipant) :
    MediaChannel V P × List RosterChange :=
  if (c.participants.find user).isSome then (c, [])
  else
    let c := { c with remote := c.remote.set user participant }
    if (c.positions.find user).isSome then c.refreshVisibility sp user else (c, [])

def removeRemote (user : UserId) : Option (List UserId) × MediaChannel V P :=
  (c.observersOf user,
    forgetVisibility { c with
      remote := c.remote.erase user
      positions := c.positions.erase user } user)

def setRemoteRole (user : UserId) (role : ChannelRole) : Bool × MediaChannel V P :=
  match c.remote.find user with
  | none => (false, c)
  | some r => (true, { c with remote := c.remote.set user { r with role } })

def setPriority (user : UserId) (priority : Bool) : Bool × MediaChannel V P :=
  if (c.participants.find user).isSome then
    (true, { c with priority := if priority then insert user c.priority else c.priority.erase user })
  else
    match c.remote.find user with
    | none => (false, c)
    | some r => (true, { c with remote := c.remote.set user { r with isPriority := priority } })

end MediaChannel

end AurixVoice.Channel
