import AurixVoice.Channel.Presence

/-! Joining and leaving a channel, and the admission, queue and rotation of its speaker slots. -/

namespace AurixVoice.Channel

open Media (ChannelRole)

structure SessionActivity where
  lastAudioAtMs : ℤ
  audioLevel : UInt8
  audioLevelAtMs : ℤ

structure Env where
  nowMs : ℤ
  instant : ℕ
  activity : SessionId → SessionActivity

def audioLevelSilence : UInt8 := 127
def ambientLevelStaleMs : ℤ := 500
def speakAttemptFreshMs : ℤ := 1000

def Env.currentAudioLevel (env : Env) (session : SessionId) (staleMs : ℤ) : UInt8 :=
  let a := env.activity session
  if env.nowMs - a.audioLevelAtMs > staleMs then audioLevelSilence else a.audioLevel

structure JoinHints where
  priority : Bool
  remoteSpeakers : UInt32

structure RoleChange where
  userId : UserId
  sessionId : SessionId
  role : ChannelRole
  observers : Option (List UserId)
  deriving DecidableEq

structure Admission where
  role : ChannelRole
  waiting : Bool
  demoted : Option RoleChange
  deriving DecidableEq

def reserveSlot (count max : UInt32) : Option UInt32 := if max ≤ count then none else some (count + 1)

def demoteIdleFor (privileged : Bool) (audience : AudienceConfig) : ℤ :=
  if privileged then 0 else audience.demoteIdleMs.toNat

structure Idle where
  idle : ℤ
  level : UInt8
  user : UserId

def Idle.cmp (a b : Idle) : Ordering :=
  (compare a.idle b.idle).then ((compare a.level b.level).then (compare b.user a.user))

def maxBy {α : Type} (cmp : α → α → Ordering) : List α → Option α
  | [] => none
  | x :: xs => some (xs.foldl (fun best y => if cmp best y = .gt then best else y) x)

structure Waiting where
  ordinary : Bool
  since : ℕ
  user : UserId

def Waiting.cmp (a b : Waiting) : Ordering :=
  (compare a.ordinary b.ordinary).then ((compare a.since b.since).then (compare a.user b.user))

namespace MediaChannel

variable {V P : Type}

section
variable (c : MediaChannel V P)

variable (env : Env) (user : UserId)

def remoteSpeakersExcept : ℕ :=
  (c.remote.entries.filter fun e => e.1 ≠ user ∧ e.2.role.canSpeak).length

/-- The counts are added as numbers: a sum past 32 bits would need that many members. -/
def speakerCount : ℕ :=
  c.localSpeakers.toNat + (c.remote.entries.filter fun e => e.2.role.canSpeak).length

def idleCandidate (idleMs : ℤ) (e : UserId × LocalRole) : Option Idle :=
  if e.2.role = .speaker ∧ e.1 ∉ c.priority then
    (c.participants.find e.1).bind fun session =>
      let last := max (env.activity session.sessionId).lastAudioAtMs e.2.slotSinceMs
      let idle := env.nowMs - last
      if idleMs ≤ idle then
        some ⟨idle, env.currentAudioLevel session.sessionId ambientLevelStaleMs, e.1⟩
      else none
  else none

def idleSpeaker (idleMs : ℤ) : Option UserId :=
  (maxBy Idle.cmp (c.participantRoles.entries.filterMap (c.idleCandidate env idleMs))).map Idle.user

def demoteLocked : MediaChannel V P :=
  match c.participantRoles.find user with
  | none => c
  | some r =>
    { c with
      localSpeakers := if r.role.canSpeak then c.localSpeakers - 1 else c.localSpeakers
      participantRoles := c.participantRoles.set user
        { r with role := .listener, waitingSince := some env.instant, speakAttemptMs := 0 } }

def admitLocked : MediaChannel V P :=
  match c.participantRoles.find user with
  | none => c
  | some r =>
    { c with
      localSpeakers :=
        if !r.role.canSpeak && r.granted.canSpeak then c.localSpeakers + 1 else c.localSpeakers
      participantRoles := c.participantRoles.set user
        { r with role := r.granted, slotSinceMs := env.nowMs, waitingSince := none, speakAttemptMs := 0 } }

def waitingQueue (wantingOnly : Bool) : List UserId :=
  let waiting := c.participantRoles.entries.filter fun e =>
    e.2.wantsSlot ∧ (!wantingOnly ∨ env.nowMs - e.2.speakAttemptMs ≤ speakAttemptFreshMs)
  let queue : List Waiting := waiting.map fun e =>
    ⟨!(decide (e.1 ∈ c.priority) || e.2.granted.canModerate), e.2.waitingSince.getD env.instant, e.1⟩
  (queue.mergeSort fun a b => (Waiting.cmp a b).isLE).map Waiting.user

def roleChange (observers : Option (List UserId)) : Option RoleChange :=
  (c.participants.find user).map fun session => ⟨user, session.sessionId, c.getRole user, observers⟩

def demoteLockedAnnounced (victim : UserId) : Option RoleChange × MediaChannel V P :=
  let observers := c.observersOf victim
  let c := c.demoteLocked env victim
  (c.roleChange victim observers, c)

def admitLockedAnnounced : Option RoleChange × MediaChannel V P :=
  let c := c.admitLocked env user
  (c.roleChange user (c.observersOf user), c)

end

def admitLoop (env : Env) (maxSpeakers : UInt32) (c : MediaChannel V P) :
    List UserId → List RoleChange × MediaChannel V P
  | [] => ([], c)
  | user :: queue =>
    if 0 < maxSpeakers ∧ maxSpeakers.toNat ≤ c.speakerCount then ([], c)
    else
      let admitted := c.admitLockedAnnounced env user
      let rest := admitLoop env maxSpeakers admitted.2 queue
      (admitted.1.toList ++ rest.1, rest.2)

def admitWaiting (env : Env) (c : MediaChannel V P) : List RoleChange × MediaChannel V P :=
  c.admitLoop env ((c.config.audience.map AudienceConfig.maxSpeakers).getD 0) (c.waitingQueue env false)

def rotateLoop (env : Env) (audience : AudienceConfig) (c : MediaChannel V P) :
    List UserId → List RoleChange × MediaChannel V P
  | [] => ([], c)
  | waiting :: queue =>
    if c.speakerCount < audience.maxSpeakers.toNat then
      let admitted := c.admitLockedAnnounced env waiting
      let rest := rotateLoop env audience admitted.2 queue
      (admitted.1.toList ++ rest.1, rest.2)
    else
      let privileged := decide (waiting ∈ c.priority) ||
        (c.participantRoles.find waiting).any fun r => r.granted.canModerate
      match c.idleSpeaker env (demoteIdleFor privileged audience) with
      | none => ([], c)
      | some victim =>
        let demoted := c.demoteLockedAnnounced env victim
        let admitted := demoted.2.admitLockedAnnounced env waiting
        let rest := rotateLoop env audience admitted.2 queue
        (demoted.1.toList ++ admitted.1.toList ++ rest.1, rest.2)

def rotateIdleSpeakers (env : Env) (c : MediaChannel V P) : List RoleChange × MediaChannel V P :=
  match c.config.audience with
  | none => ([], c)
  | some audience =>
    if audience.speakerAdmission ≠ .demote ∨ audience.maxSpeakers = 0 then ([], c)
    else c.rotateLoop env audience (c.waitingQueue env true)

variable (c : MediaChannel V P)

def noteSpeakAttempt (env : Env) (user : UserId) : MediaChannel V P :=
  match c.participantRoles.find user with
  | none => c
  | some r =>
    if r.wantsSlot then
      { c with participantRoles := c.participantRoles.set user { r with speakAttemptMs := env.nowMs } }
    else c

def removeParticipant (user : UserId) : Option MediaSession × MediaChannel V P :=
  match c.participants.find user with
  | none => (none, c)
  | some session =>
    (some session, forgetVisibility { c with
      participants := c.participants.erase user
      ssrcMap := c.ssrcMap.erase session.ssrc
      priority := c.priority.erase user
      participantRoles := c.participantRoles.erase user
      localSpeakers :=
        if (c.participantRoles.find user).any fun r => r.role.canSpeak then c.localSpeakers - 1
        else c.localSpeakers
      positions := c.positions.erase user
      participantCount := c.participantCount - 1 } user)

def slotsHeld (user : UserId) (hints : JoinHints) : ℕ :=
  c.localSpeakers.toNat +
    if c.remote.keys = ∅ then hints.remoteSpeakers.toNat else c.remoteSpeakersExcept user

def takeSlot : MediaChannel V P := { c with localSpeakers := c.localSpeakers + 1 }

/-- The decision under the admission lock: `none` when the joiner is refused, else the role it enters
with and the speaker demoted for it. -/
def claimSpeakerSlot (env : Env) (audience : AudienceConfig) (user : UserId) (role : ChannelRole)
    (hints : JoinHints) : Option (LocalRole × Option RoleChange × MediaChannel V P) :=
  let granted : LocalRole :=
    { role, granted := role, slotSinceMs := env.nowMs, waitingSince := none, speakAttemptMs := 0 }
  let waits : LocalRole := { granted with role := .listener, waitingSince := some env.instant }
  if !role.canSpeak then some (granted, none, c)
  else if 0 < audience.maxSpeakers ∧ audience.maxSpeakers.toNat ≤ c.slotsHeld user hints then
    match audience.speakerAdmission with
    | .reject => none
    | .wait => some (waits, none, c)
    | .demote =>
      match c.idleSpeaker env (demoteIdleFor (hints.priority || role.canModerate) audience) with
      | none => some (waits, none, c)
      | some victim =>
        let demoted := c.demoteLockedAnnounced env victim
        some (granted, demoted.1, demoted.2.takeSlot)
  else some (granted, none, c.takeSlot)

def enter (session : MediaSession) (role : LocalRole) (priority : Bool) : MediaChannel V P :=
  { c with
    ssrcMap := c.ssrcMap.set session.ssrc session.userId
    participantRoles := c.participantRoles.set session.userId role
    priority := if priority then insert session.userId c.priority else c.priority.erase session.userId
    remote := c.remote.erase session.userId
    participants := c.participants.set session.userId session }

def channelFullMessage (max : UInt32) : String :=
  "Channel " ++ c.channelId.hyphenated ++ " full (" ++ toString max ++ "/" ++ toString max ++ ")"

def noSlotMessage (maxSpeakers : UInt32) : String :=
  "Channel " ++ c.channelId.hyphenated ++ " has no speaker slot left (" ++ toString maxSpeakers ++
    " speakers)"

def admitJoin (env : Env) (session : MediaSession) (role : ChannelRole) (hints : JoinHints) :
    Except AurixError Admission × MediaChannel V P :=
  let audience := c.config.audience.getD default
  match reserveSlot c.participantCount c.config.maxParticipants with
  | none => (.error (.channelFull (c.channelFullMessage c.config.maxParticipants)), c)
  | some count =>
    let c := { c with participantCount := count }
    match c.claimSpeakerSlot env audience session.userId role hints with
    | none =>
      (.error (.channelFull (c.noSlotMessage audience.maxSpeakers)),
        { c with participantCount := c.participantCount - 1 })
    | some (entered, demoted, c) =>
      (.ok { role := entered.role, waiting := entered.waitingSince.isSome, demoted },
        c.enter session entered hints.priority)

def addParticipantWith (env : Env) (session : MediaSession) (role : ChannelRole) (hints : JoinHints) :
    Except AurixError Admission × MediaChannel V P :=
  if session.appId ≠ c.appId then
    (.error (.authorizationDenied "Session belongs to a different application"), c)
  else if (c.participants.find session.userId).isSome then
    (c.removeParticipant session.userId).2.admitJoin env session role hints
  else c.admitJoin env session role hints

end MediaChannel

end AurixVoice.Channel
