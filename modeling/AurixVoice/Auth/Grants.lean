import AurixVoice.Auth.ActionTokens
import AurixVoice.Media.LiveChannel
import AurixVoice.Sfu.EveryChannel

/-! From the rights in a token to the frames of a channel: joins turn grants into roles, and nodes route by roles. -/

namespace AurixVoice.Auth.Grants

open Channel (Env JoinHints RoleChange RemoteParticipant ChannelConfig MediaSession MediaChannel Space)
open Media (ChannelRole ChannelType)
open Sfu (SfuNode SfuOptions)
open Channel.MediaChannel Function

structure ChannelPermission where
  channelId : ChannelId
  join : Bool
  speak : Bool
  receive : Bool
  moderate : Bool
  priority : Bool
  deriving DecidableEq

def ChannelPermission.Speaks (p : ChannelPermission) : Prop := p.speak = true ∨ p.moderate = true

instance (p : ChannelPermission) : Decidable p.Speaks := inferInstanceAs (Decidable (_ ∨ _))

def permissionFor (id : ChannelId) (permissions : List ChannelPermission) : Option ChannelPermission :=
  permissions.find? fun p => p.channelId = id

def checkPermission (right : ChannelPermission → Bool) (denied : String) (id : ChannelId)
    (permissions : List ChannelPermission) : Option AurixError :=
  match permissionFor id permissions with
  | none => some (.authorizationDenied ("No permission for channel " ++ id.hyphenated))
  | some p => if right p then none else some (.authorizationDenied denied)

def checkChannelJoin : ChannelId → List ChannelPermission → Option AurixError :=
  checkPermission ChannelPermission.join "Join permission denied for this channel"

def checkChannelSpeak : ChannelId → List ChannelPermission → Option AurixError :=
  checkPermission ChannelPermission.speak "Speak permission denied for this channel"

def checkChannelReceive : ChannelId → List ChannelPermission → Option AurixError :=
  checkPermission ChannelPermission.receive "Receive permission denied for this channel"

def roleFromPermissions (id : ChannelId) (permissions : List ChannelPermission) : ChannelRole :=
  match permissionFor id permissions with
  | none => .listener
  | some p => if p.moderate then .moderator else if p.speak then .speaker else .listener

def priorityFromPermissions (id : ChannelId) (permissions : List ChannelPermission) : Bool :=
  (permissionFor id permissions).any fun p => p.priority && p.speak

structure SessionToken where
  userId : UserId
  appId : AppId
  channels : List ChannelPermission

structure ValidatedActionToken where
  action : ActionKind
  userId : UserId
  appId : AppId
  channelId : Option ChannelId
  speak : Bool
  receive : Bool
  moderate : Bool
  priority : Bool

def ValidatedActionToken.channelPermission (v : ValidatedActionToken) : Option ChannelPermission :=
  if v.action ≠ .join then none
  else v.channelId.map fun id => ⟨id, true, v.speak, v.receive, v.moderate, v.priority⟩

inductive JoinToken
  | action (verified : Except AurixError ValidatedActionToken)
  | session

def JoinToken.consumed (answer : Option AurixError) : JoinToken → Option AurixError
  | .action _ => answer
  | .session => none

inductive Refusal
  | error (e : AurixError)
  | coded (code message : String)

def joinPermissions (required : Bool) (token : SessionToken) (id : ChannelId) :
    JoinToken → Except Refusal (List ChannelPermission)
  | .action (.error e) => .error (.error e)
  | .action (.ok v) =>
    if v.appId ≠ token.appId ∨ v.userId ≠ token.userId then
      .error (.coded "AUTH_DENIED" "Join token is for another user")
    else if v.channelId ≠ some id then
      .error (.coded "AUTH_DENIED" "Join token is for another channel")
    else .ok v.channelPermission.toList
  | .session =>
    if required then .error (.coded "ACTION_TOKEN_REQUIRED" "This server requires a 'join' action token")
    else .ok token.channels

/-- What the services a join asks have to say: the rate limit, the quota, the channel's configuration,
whether the session can open its frames, the one-time use of the token, and the speakers elsewhere. -/
structure JoinAnswers (V : Type) where
  limited : Bool
  quota : Option AurixError
  resolved : Except AurixError (ChannelConfig V)
  e2ee : Option AurixError
  consumed : Option AurixError
  remoteSpeakers : UInt32

def authorizeJoin {V : Type} (required : Bool) (token : SessionToken) (id : ChannelId) (join : JoinToken)
    (answers : JoinAnswers V) : Except Refusal (List ChannelPermission × ChannelConfig V) :=
  if answers.limited then .error (.coded "RATE_LIMIT_EXCEEDED" "Too many channel joins")
  else
    match joinPermissions required token id join with
    | .error refusal => .error refusal
    | .ok permissions =>
      match (checkChannelJoin id permissions).or answers.quota with
      | some e => .error (.error e)
      | none =>
        match answers.resolved with
        | .error e => .error (.error e)
        | .ok config =>
          match answers.e2ee.or (join.consumed answers.consumed) with
          | some e => .error (.error e)
          | none => .ok (permissions, config)

variable {permissions : List ChannelPermission}

lemma checkChannelJoin_eq_none {id : ChannelId} (h : checkChannelJoin id permissions = none) :
    ∃ p, permissionFor id permissions = some p ∧ p.channelId = id ∧ p.join = true := by
  unfold checkChannelJoin checkPermission at h
  split at h
  · cases h
  next p hp =>
    split_ifs at h with hjoin
    have hid := List.find?_some hp
    exact ⟨p, hp, of_decide_eq_true hid, hjoin⟩

variable {token : SessionToken} {join : JoinToken}

lemma authorizeJoin_ok {V : Type} {required : Bool} {id : ChannelId}
    {answers : JoinAnswers V} {config : ChannelConfig V}
    (h : authorizeJoin required token id join answers = .ok (permissions, config)) :
    joinPermissions required token id join = .ok permissions ∧
      ∃ p, permissionFor id permissions = some p ∧ p.channelId = id ∧ p.join = true := by
  unfold authorizeJoin at h
  split at h
  · cases h
  · split at h
    · cases h
    next granted hgranted =>
      split at h
      · cases h
      next hpassed =>
        split at h
        · cases h
        · split at h
          · cases h
          · obtain ⟨rfl, rfl⟩ := Prod.mk.inj (Except.ok.inj h)
            exact ⟨hgranted, checkChannelJoin_eq_none (Option.or_eq_none_iff.mp hpassed).1⟩

lemma canSpeak_roleFromPermissions {id : ChannelId} {p : ChannelPermission}
    (hp : permissionFor id permissions = some p) : (roleFromPermissions id permissions).canSpeak = true ↔ p.Speaks := by
  unfold roleFromPermissions
  rw [hp]
  dsimp only
  unfold ChannelPermission.Speaks
  cases p.moderate <;> cases p.speak <;> simp [ChannelRole.canSpeak]

section
variable {V P W D : Type}

structure Hearing (W : Type) where
  prefs : UserId → Media.ReceiverPrefs W
  positionalConfig : Option (Media.PositionalConfig W)
  whisperTarget : Option UserId
  gates : Media.FrameGates W

def routing (c : MediaChannel V P) (hearing : Hearing W) : Media.MediaChannel W P where
  channelId := c.channelId
  config := ⟨c.channelType, hearing.positionalConfig, c.config.commandSpeakers, hearing.whisperTarget⟩
  participants := c.participants.entries.map fun e => ⟨e.1, hearing.prefs e.1⟩
  nodup := by
    rw [List.map_map]
    exact c.participants.nodup_entries_keys
  roles := .tabulate c.participantRoles.keys fun user => (c.participantRoles.find user).map Channel.LocalRole.role
  positions := c.positions

def isCommandSpeaker (c : MediaChannel V P) (user : UserId) : Bool :=
  c.channelType = .command && c.config.commandSpeakers.any fun speakers => decide (user ∈ speakers)

def canTransmit (c : MediaChannel V P) (user : UserId) : Bool :=
  if (c.participants.find user).isNone then false
  else (c.getRole user).canSpeak || isCommandSpeaker c user

structure MirroredChannel where
  channelId : ChannelId
  role : ChannelRole
  priority : Bool

/-- What the membership of a user in a channel goes back to: the grant of a join, or an entry of a mirror
written while the node did not have the user in the channel. -/
inductive Basis
  | grant (p : ChannelPermission)
  | unknown
  deriving DecidableEq

structure Fleet (V P : Type) where
  nodes : MediaNodeId → SfuNode V P
  mirrors : SessionId → List (MirroredChannel × Basis)
  basis : MediaNodeId → ChannelId → UserId → Option Basis

inductive Upkeep (V P : Type)
  | admitWaiting (env : Env)
  | rotateIdleSpeakers (env : Env)
  | noteSpeakAttempt (env : Env) (user : UserId)
  | setPriority (user : UserId) (priority : Bool)
  | addRemote (user : UserId) (participant : RemoteParticipant)
  | removeRemote (user : UserId)
  | setRemoteRole (user : UserId) (role : ChannelRole)
  | updatePosition (user : UserId) (pose : P)
  | updateConfig (config : ChannelConfig V)

def Upkeep.apply (sp : Space V P) (c : MediaChannel V P) : Upkeep V P → MediaChannel V P
  | .admitWaiting env => (c.admitWaiting env).2
  | .rotateIdleSpeakers env => (c.rotateIdleSpeakers env).2
  | .noteSpeakAttempt env user => c.noteSpeakAttempt env user
  | .setPriority user priority => (c.setPriority user priority).2
  | .addRemote user participant => (c.addRemote sp user participant).1
  | .removeRemote user => (c.removeRemote user).2
  | .setRemoteRole user role => (c.setRemoteRole user role).2
  | .updatePosition user pose => (c.updatePosition sp user pose).1
  | .updateConfig config => c.updateConfig config

namespace Fleet

def new (options : SfuOptions) : Fleet V P where
  nodes _ := .new options
  mirrors _ := []
  basis _ _ _ := none

variable (hash : ChannelId → UInt32) (f : Fleet V P)

def setNode (node : MediaNodeId) (s : SfuNode V P) : Fleet V P :=
  { f with nodes := update f.nodes node s }

def setBasis (node : MediaNodeId) (id : ChannelId) (user : UserId) (b : Basis) : Fleet V P :=
  { f with basis := fun n i u => if n = node ∧ i = id ∧ u = user then some b else f.basis n i u }

def joinChannelWith (node : MediaNodeId) (env : Env) (sid : SessionId) (id : ChannelId)
    (config : ChannelConfig V) (role : ChannelRole) (hints : JoinHints) (b : Basis) : Fleet V P :=
  match (f.nodes node).sessionsById.find sid, (f.nodes node).joinChannelWith hash env sid id config role hints with
  | some session, (.ok _, s) => (f.setBasis node id session.userId b).setNode node s
  | _, (_, s) => f.setNode node s

def channelJoin (required : Bool) (node : MediaNodeId) (env : Env) (sid : SessionId) (id : ChannelId)
    (token : SessionToken) (join : JoinToken) (answers : JoinAnswers V) : Fleet V P :=
  match authorizeJoin required token id join answers with
  | .error _ => f
  | .ok (permissions, config) =>
    f.joinChannelWith hash node env sid id config (roleFromPermissions id permissions)
      ⟨priorityFromPermissions id permissions, answers.remoteSpeakers⟩
      (match permissionFor id permissions with
        | some p => .grant p
        | none => .unknown)

/-- An entry of `build_mirror`: the role is that of a local or remote member, and that of a speaker when
the node does not have the channel. -/
def mirrorEntry (node : MediaNodeId) (user : UserId) (id : ChannelId) : MirroredChannel × Basis :=
  match (f.nodes node).channels.find id with
  | none => (⟨id, .speaker, false⟩, .unknown)
  | some c =>
    (⟨id, (c.memberRole user).getD .listener,
      decide (user ∈ c.priority) || (c.remote.find user).any RemoteParticipant.isPriority⟩,
      if (c.participantRoles.find user).isSome then (f.basis node id user).getD .unknown else .unknown)

def mirrorSession (node : MediaNodeId) (sid : SessionId) (channels : List ChannelId) : Fleet V P :=
  match (f.nodes node).sessionsById.find sid with
  | none => f
  | some session =>
    { f with mirrors := update f.mirrors sid (channels.map (f.mirrorEntry node session.userId)) }

def restoreChannel (node : MediaNodeId) (env : Env) (sid : SessionId) (entry : ℕ) (config : ChannelConfig V)
    (remoteSpeakers : UInt32) : Fleet V P :=
  match (f.mirrors sid)[entry]? with
  | none => f
  | some (m, b) =>
    f.joinChannelWith hash node env sid m.channelId config m.role ⟨m.priority, remoteSpeakers⟩ b

end Fleet

inductive Event (V P : Type)
  | create (node : MediaNodeId) (env : Env) (session : MediaSession) (keyError : Option AurixError)
  | adopt (node : MediaNodeId) (env : Env) (session : MediaSession) (keyError : Option AurixError)
  | destroy (node : MediaNodeId) (env : Env) (sid : SessionId)
  | timeout (node : MediaNodeId) (stale : List SessionId)
  | channelJoin (node : MediaNodeId) (env : Env) (sid : SessionId) (id : ChannelId) (token : SessionToken)
      (join : JoinToken) (answers : JoinAnswers V)
  | leave (node : MediaNodeId) (env : Env) (sid : SessionId) (id : ChannelId)
  | kick (node : MediaNodeId) (env : Env) (user : UserId) (id : ChannelId)
  | pin (node : MediaNodeId) (id : ChannelId) (app : AppId) (config : ChannelConfig V)
  | unpin (node : MediaNodeId) (id : ChannelId)
  | upkeep (node : MediaNodeId) (id : ChannelId) (call : Upkeep V P)
  | mirror (node : MediaNodeId) (sid : SessionId) (channels : List ChannelId)
  | restore (node : MediaNodeId) (env : Env) (sid : SessionId) (entry : ℕ) (config : ChannelConfig V)
      (remoteSpeakers : UInt32)

def step (required : Bool) (hash : ChannelId → UInt32) (sp : Space V P) (f : Fleet V P) : Event V P → Fleet V P
  | .create node env session keyError =>
    f.setNode node ((f.nodes node).createSessionWithSsrc hash env session keyError).2
  | .adopt node env session keyError =>
    f.setNode node ((f.nodes node).adoptSession hash env session keyError).2
  | .destroy node env sid => f.setNode node ((f.nodes node).destroySession hash env sid).2
  | .timeout node stale => f.setNode node (stale.foldl (SfuNode.expireSession hash) (f.nodes node))
  | .channelJoin node env sid id token join answers => f.channelJoin hash required node env sid id token join answers
  | .leave node env sid id => f.setNode node ((f.nodes node).leaveChannel hash env sid id).2
  | .kick node env user id => f.setNode node ((f.nodes node).kickUserFromChannel hash env user id).2
  | .pin node id app config => f.setNode node ((f.nodes node).pinChannel hash id app config).2
  | .unpin node id => f.setNode node ((f.nodes node).unpinChannel hash id)
  | .upkeep node id call =>
    f.setNode node { f.nodes node with channels := (f.nodes node).channels.modify id (call.apply sp) }
  | .mirror node sid channels => f.mirrorSession node sid channels
  | .restore node env sid entry config remoteSpeakers =>
    f.restoreChannel hash node env sid entry config remoteSpeakers

namespace Fleet

variable (f : Fleet V P) (node : MediaNodeId) (id : ChannelId)

/-- The session whose frame is routed into the channel. `passes`: nothing else holds the frame up, such
as a mute, the transmission mode or the channel's encryption. -/
def routedSender (sid : SessionId) (passes : Bool) : Option MediaSession :=
  ((f.nodes node).sessionsById.find sid).filter fun session =>
    passes && ((f.nodes node).channels.find id).any fun c =>
      c.appId = session.appId && canTransmit c session.userId

end Fleet

inductive Frame
  | uplink (sid : SessionId) (passes : Bool)
  | relayed (sender : UserId)

def Fleet.hearers (f : Fleet V P) (ac : Media.Acoustics W P D) (hearing : Hearing W) (node : MediaNodeId)
    (id : ChannelId) (frame : Frame) : List UserId :=
  match (f.nodes node).channels.find id with
  | none => []
  | some c =>
    match frame with
    | .uplink sid passes =>
      match f.routedSender node id sid passes with
      | none => []
      | some session =>
        Media.MediaChannel.users ((routing c hearing).getReceiversForAudio ac hearing.gates session.userId)
    | .relayed sender =>
      Media.MediaChannel.users ((routing c hearing).getReceiversForRelayedAudio ac hearing.gates sender)

/-- The membership goes back to a join with a grant for this channel that, should the role speak, makes a
speaker. -/
def Backs (id : ChannelId) (b : Option Basis) (role : ChannelRole) : Prop :=
  ∃ b', b = some b' ∧ ∀ p, b' = .grant p →
    p.channelId = id ∧ p.join = true ∧ (role.canSpeak = true → p.Speaks)

lemma backs_unknown (id : ChannelId) (role : ChannelRole) : Backs id (some .unknown) role :=
  ⟨.unknown, rfl, fun _ h => by cases h⟩

variable {role : ChannelRole} {id : ChannelId}

lemma Backs.listener {b : Option Basis} (h : Backs id b role) : Backs id b .listener := by
  obtain ⟨b', rfl, hb⟩ := h
  refine ⟨b', rfl, fun p hp => ?_⟩
  obtain ⟨hid, hjoin, -⟩ := hb p hp
  exact ⟨hid, hjoin, fun h => by cases h⟩

lemma leaves_backed (p : ChannelId → UserId → ChannelRole → Prop) :
    Sfu.Leaves fun id (c : MediaChannel V P) => c.Backed (p id) where
  fresh id app config := backed_new id app config
  removed _ _ user h := h.removeParticipant user
  admitted _ _ env h := h.admitWaiting env

structure Enforced (f : Fleet V P) : Prop where
  roles : ∀ node, (f.nodes node).channels.All fun id c =>
    c.Backed fun user role => Backs id (f.basis node id user) role
  mirrors : ∀ sid, ∀ m ∈ f.mirrors sid, Backs m.1.channelId (some m.2) m.1.role

namespace Enforced

variable {f : Fleet V P} {hash : ChannelId → UInt32}

lemma new (options : SfuOptions) : Enforced (.new options : Fleet V P) where
  roles _ _ _ h := by cases h
  mirrors _ _ h := by cases h

variable {s : SfuNode V P} {user : UserId} {b : Basis} {c : MediaChannel V P} {sid : SessionId}
  {config : ChannelConfig V} {required : Bool}

lemma setNode (h : Enforced f) {node : MediaNodeId}
    (hs : s.channels.All fun id c => c.Backed fun user role => Backs id (f.basis node id user) role) :
    Enforced (f.setNode node s) where
  roles other := by
    change (update f.nodes node s other).channels.All _
    by_cases heq : other = node
    · subst heq
      rw [update_self]
      exact hs
    · rw [update_of_ne heq]
      exact h.roles other
  mirrors := h.mirrors

lemma backed_setBasis {node other : MediaNodeId} {id' : ChannelId} (hne : ¬(other = node ∧ id' = id))
    (h : c.Backed fun user role => Backs id' (f.basis other id' user) role) :
    c.Backed fun u role => Backs id' ((f.setBasis node id user b).basis other id' u) role where
  members := h.members
  roles u r hr := by
    obtain ⟨hrole, hbacks⟩ := h.roles u r hr
    refine ⟨hrole, ?_⟩
    change Backs id' (if other = node ∧ id' = id ∧ u = user then some b else f.basis other id' u) r.granted
    rw [if_neg fun heq => hne ⟨heq.1, heq.2.1⟩]
    exact hbacks

section

variable (h : Enforced f) (node : MediaNodeId)
include h

lemma setBasis {node : MediaNodeId} (hs : s.channels.All fun id' c => c.Backed fun u role =>
      Backs id' ((f.setBasis node id user b).basis node id' u) role) :
    Enforced ((f.setBasis node id user b).setNode node s) where
  roles other := by
    change (update f.nodes node s other).channels.All _
    by_cases heq : other = node
    · subst heq
      rw [update_self]
      exact hs
    · rw [update_of_ne heq]
      exact (h.roles other).mono fun id' c hc => backed_setBasis (fun hboth => heq hboth.1) hc
  mirrors := h.mirrors

variable {env : Env}

lemma joinChannelWith {node : MediaNodeId} {hints : JoinHints}
    (hb : Backs id (some b) role) : Enforced (f.joinChannelWith hash node env sid id config role hints b) := by
  unfold Fleet.joinChannelWith
  cases hsession : (f.nodes node).sessionsById.find sid with
  | none =>
    simp only [SfuNode.joinChannelWith, hsession]
    exact h.setNode (h.roles node)
  | some session =>
    have hjoined : Ends
        (fun s : SfuNode V P => s.channels.All fun id' c => c.Backed fun u role =>
          Backs id' ((f.setBasis node id session.userId b).basis node id' u) role)
        (fun s => s.channels.All fun id' c => c.Backed fun u role => Backs id' (f.basis node id' u) role)
        ((f.nodes node).joinChannelWith hash env sid id config role hints) := by
      apply (leaves_backed fun id' u role => Backs id' (f.basis node id' u) role).joinChannelWith (h.roles node)
      · intro other c hne hc
        exact backed_setBasis (fun hboth => hne hboth.2) hc
      · intro session' c hsession' hc
        obtain rfl := Option.some.inj (hsession.symm.trans hsession')
        apply hc.addParticipantWith
        · intro user r hne hbacks
          change Backs id (if node = node ∧ id = id ∧ user = session.userId then some b else _) r
          rw [if_neg fun heq => hne heq.2.2]
          exact hbacks
        · change Backs id (if node = node ∧ id = id ∧ session.userId = session.userId then some b else _) role
          rw [if_pos ⟨rfl, rfl, rfl⟩]
          exact hb
    revert hjoined
    cases (f.nodes node).joinChannelWith hash env sid id config role hints with
    | mk result =>
      cases result with
      | error => exact h.setNode
      | ok => exact h.setBasis

lemma channelJoin {node : MediaNodeId}
    {answers : JoinAnswers V} : Enforced (f.channelJoin hash required node env sid id token join answers) := by
  unfold Fleet.channelJoin
  cases hauth : authorizeJoin required token id join answers with
  | error => exact h
  | ok =>
    obtain ⟨-, p, hp, hid, hjoin⟩ := authorizeJoin_ok hauth
    apply h.joinChannelWith
    rw [hp]
    refine ⟨.grant p, rfl, fun q hq => ?_⟩
    cases hq
    exact ⟨hid, hjoin, (canSpeak_roleFromPermissions hp).mp⟩

lemma mirrorEntry (user : UserId) (id : ChannelId) :
    Backs (f.mirrorEntry node user id).1.channelId (some (f.mirrorEntry node user id).2)
      (f.mirrorEntry node user id).1.role := by
  unfold Fleet.mirrorEntry
  cases hc : (f.nodes node).channels.find id with
  | none => exact backs_unknown id _
  | some c =>
    dsimp only
    cases hr : c.participantRoles.find user with
    | none => exact backs_unknown id _
    | some r =>
      obtain ⟨hrole, hbacks⟩ := (h.roles node id c hc).roles user r hr
      have hmember : c.memberRole user = some r.role := by
        unfold memberRole
        rw [hr]
      rw [hmember]
      have heffective : Backs id (f.basis node id user) r.role := by
        rcases hrole with hrole | hrole
        · rw [hrole]
          exact hbacks
        · rw [hrole]
          exact hbacks.listener
      obtain ⟨b, hb, hrest⟩ := heffective
      exact ⟨b, by rw [hb]; rfl, hrest⟩

lemma mirrorSession (sid : SessionId) (channels : List ChannelId) : Enforced (f.mirrorSession node sid channels) := by
  unfold Fleet.mirrorSession
  split
  · exact h
  next session _ =>
    refine ⟨h.roles, fun other m hm => ?_⟩
    change m ∈ update f.mirrors sid _ other at hm
    by_cases heq : other = sid
    · subst heq
      rw [update_self] at hm
      obtain ⟨id, -, rfl⟩ := List.mem_map.mp hm
      exact h.mirrorEntry node session.userId id
    · rw [update_of_ne heq] at hm
      exact h.mirrors other m hm

lemma restoreChannel {node : MediaNodeId} {entry : ℕ} {remoteSpeakers : UInt32} :
    Enforced (f.restoreChannel hash node env sid entry config remoteSpeakers) := by
  unfold Fleet.restoreChannel
  split
  · exact h
  next m b hentry => exact h.joinChannelWith (h.mirrors sid _ (List.mem_of_getElem? hentry))

end

variable {sp : Space V P}

lemma upkeep {p : UserId → ChannelRole → Prop} (h : c.Backed p) (call : Upkeep V P) : (call.apply sp c).Backed p := by
  cases call with
  | admitWaiting env => exact h.admitWaiting env
  | rotateIdleSpeakers env => exact h.rotateIdleSpeakers env
  | noteSpeakAttempt env user => exact h.noteSpeakAttempt env user
  | setPriority user priority => exact h.of_sameLocals (sameLocals_setPriority c user priority)
  | addRemote user participant =>
    exact h.of_sameLocals (sameLocals_addRemote c sp user participant)
  | removeRemote => exact h.congr rfl rfl
  | setRemoteRole user role => exact h.of_sameLocals (sameLocals_setRemoteRole c user role)
  | updatePosition user pose => exact h.of_sameLocals (sameLocals_updatePosition c sp user pose)
  | updateConfig config => exact h.updateConfig config

lemma step (h : Enforced f) (e : Event V P) : Enforced (Grants.step required hash sp f e) := by
  have hleaves (node : MediaNodeId) :=
    leaves_backed (V := V) (P := P) fun id user role => Backs id (f.basis node id user) role
  cases e with
  | create node env session keyError =>
    exact h.setNode ((hleaves node).createSessionWithSsrc (h.roles node) session keyError)
  | adopt node env session keyError => exact h.setNode ((hleaves node).adoptSession (h.roles node) session keyError)
  | destroy node env sid => exact h.setNode ((hleaves node).destroySession (h.roles node) sid)
  | timeout node stale =>
    apply h.setNode
    exact Traces.foldl_invariant (fun s : SfuNode V P => s.channels.All _)
      (fun _ sid hs => (hleaves node).expireSession hs sid) stale (h.roles node)
  | channelJoin => exact h.channelJoin
  | leave node env sid id => exact h.setNode ((hleaves node).leaveChannel (h.roles node) sid id)
  | kick node env user id => exact h.setNode ((hleaves node).kickUserFromChannel (h.roles node) user id)
  | pin node id app config => exact h.setNode ((hleaves node).pinChannel (h.roles node) id app config)
  | unpin node id => exact h.setNode (Sfu.Leaves.unpinChannel (h.roles node) id)
  | upkeep node id call =>
    apply h.setNode
    intro other c hc
    rw [Dict.find_modify] at hc
    split at hc
    next heq =>
      obtain ⟨d, hd, rfl⟩ := Option.map_eq_some_iff.mp hc
      rw [heq]
      exact upkeep (h.roles node id d hd) call
    · exact h.roles node other c hc
  | mirror node sid channels => exact h.mirrorSession node sid channels
  | restore => exact h.restoreChannel

lemma run (required : Bool) (sp : Space V P) (options : SfuOptions) (events : List (Event V P)) :
    Enforced (events.foldl (Grants.step required hash sp) (.new options)) :=
  Traces.foldl_invariant Enforced (fun _ e hf => hf.step e) events (new options)

lemma backs_of_member (h : Enforced f) {node : MediaNodeId}
    (hc : (f.nodes node).channels.find id = some c) (huser : user ∈ c.participants.keys) :
    Backs id (f.basis node id user) (c.getRole user) := by
  obtain ⟨r, hr⟩ := Dict.mem_keys_iff.mp ((h.roles node id c hc).members huser)
  obtain ⟨hrole, hbacks⟩ := (h.roles node id c hc).roles user r hr
  unfold getRole
  rw [hr]
  change Backs id (f.basis node id user) r.role
  rcases hrole with hrole | hrole
  · rw [hrole]
    exact hbacks
  · rw [hrole]
    exact hbacks.listener

end Enforced

variable {c : MediaChannel V P} {user : UserId} {f : Fleet V P} {ac : Media.Acoustics W P D} {hearing : Hearing W}

lemma mem_participants_of_mem_users {receivers : List (Media.Participant W × Media.Mix W D)}
    (hsub : (receivers.map Prod.fst).Sublist (routing c hearing).participants)
    (h : user ∈ Media.MediaChannel.users receivers) : user ∈ c.participants.keys := by
  obtain ⟨r, hr, rfl⟩ := List.mem_map.mp h
  obtain ⟨⟨u, session⟩, hentry, heq⟩ := List.mem_map.mp (hsub.subset (List.mem_map_of_mem hr))
  rw [← heq]
  exact Dict.mem_keys_iff.mpr ⟨session, Dict.mem_entries.mp hentry⟩

lemma mem_participants_of_mem_hearers {node : MediaNodeId} {frame : Frame}
    (h : user ∈ f.hearers ac hearing node id frame) :
    ∃ c, (f.nodes node).channels.find id = some c ∧ user ∈ c.participants.keys := by
  unfold Fleet.hearers at h
  split at h
  · cases h
  next c hc =>
    refine ⟨c, hc, ?_⟩
    cases frame with
    | uplink =>
      dsimp only at h
      split at h
      · cases h
      · exact mem_participants_of_mem_users (Media.LiveChannel.prefs_sublist Media.LiveChannel.routed_sublist) h
    | relayed =>
      dsimp only at h
      unfold Media.MediaChannel.getReceiversForRelayedAudio at h
      split at h
      · exact mem_participants_of_mem_users (Media.LiveChannel.prefs_sublist Media.LiveChannel.positional_sublist) h
      · cases h
      all_goals
        exact mem_participants_of_mem_users (Media.LiveChannel.prefs_sublist Media.LiveChannel.allOthers_sublist) h

lemma mem_hearers_of_team {node : MediaNodeId} {sid : SessionId}
    {passes : Bool} {session member : MediaSession} (hc : (f.nodes node).channels.find id = some c)
    (hteam : c.channelType = .team) (hrouted : f.routedSender node id sid passes = some session)
    (hmember : c.participants.find user = some member) (hother : user ≠ session.userId)
    (htakes : (routing c hearing).Takes ac hearing.gates session.userId ⟨user, hearing.prefs user⟩) :
    user ∈ f.hearers ac hearing node id (.uplink sid passes) := by
  have hparticipant : ⟨user, hearing.prefs user⟩ ∈ (routing c hearing).participants :=
    List.mem_map.mpr ⟨(user, member), Dict.mem_entries.mpr hmember, rfl⟩
  have hreceivers : (routing c hearing).routedReceivers ac session.userId =
      (routing c hearing).allOthersFullVolume ac session.userId := by
    have htype : (routing c hearing).config.channelType = .team := hteam
    unfold Media.MediaChannel.routedReceivers
    rw [htype]
  simp only [Fleet.hearers, hc, hrouted]
  apply (Media.MediaChannel.mem_users_applyReceiverPrefs ac).mpr
  rw [hreceivers]
  exact ⟨(⟨user, hearing.prefs user⟩, .unity ac),
    (Media.MediaChannel.mem_allOthersFullVolume ac).mpr ⟨_, hparticipant, hother, rfl⟩, rfl, htakes⟩

lemma member_of_canTransmit (h : canTransmit c user = true) :
    user ∈ c.participants.keys ∧ ((c.getRole user).canSpeak = true ∨ isCommandSpeaker c user = true) := by
  unfold canTransmit at h
  split at h
  · cases h
  next hmember =>
    rw [Bool.or_eq_true] at h
    rw [Dict.mem_keys]
    exact ⟨Option.isSome_iff_ne_none.mpr fun hnone => hmember (hnone ▸ rfl), h⟩

end

namespace Sample

def options : SfuOptions := ⟨10, 10, 4, 1⟩

def team : ChannelConfig Unit where
  channelType := .team
  maxParticipants := 10
  audience := none
  rosterRadius := none
  commandSpeakers := none

def session (user : UserId) : MediaSession := { sessionId := user, userId := user, appId := 7, ssrc := 5 }

def granted (speak receive moderate : Bool) : ChannelPermission := ⟨10, true, speak, receive, moderate, false⟩

def env : Env := { nowMs := 1000, instant := 0, activity := fun _ => ⟨0, Channel.audioLevelSilence, 0⟩ }

def joins (user : UserId) (p : ChannelPermission) : Event Unit Unit :=
  .channelJoin 1 env user 10 ⟨user, 7, [p]⟩ .session ⟨false, none, .ok team, none, none, 0⟩

def events : List (Event Unit Unit) :=
  [.create 1 env (session 2) none, .create 1 env (session 3) none, joins 2 (granted false true true),
    joins 3 (granted true false false)]

def sp : Space Unit Unit := ⟨fun _ _ => (), fun _ _ => true, id⟩

def fleet : Fleet Unit Unit := events.foldl (step false (fun _ => 3) sp) (.new options)

def hearing : Hearing ℕ where
  prefs _ := ⟨∅, ∅, .empty, ∅, ∅, none, 1⟩
  positionalConfig := none
  whisperTarget := none
  gates := Media.SplitChannel.openGates

lemma routed_moderator : fleet.routedSender 1 10 2 true = some (session 2) := by decide +kernel

lemma hears_moderator : 3 ∈ fleet.hearers Media.SplitChannel.flat hearing 1 10 (.uplink 2 true) := by
  apply mem_hearers_of_team rfl rfl routed_moderator
  · rfl
  · decide
  · rfl

end Sample

end AurixVoice.Auth.Grants
