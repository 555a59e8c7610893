import AurixVoice.Library.Traces
import AurixVoice.Types

/-!
Server mutes on the nodes of a fleet. A mute is for a user in one channel, but it sets a flag of the media
session, on other nodes when they handle the notice; notices arrive in any order, if at all.
-/

namespace AurixVoice.Moderation

open Function

structure MediaSession where
  userId : UserId
  appId : AppId
  isActive : Bool
  isMuted : Bool
  isServerMuted : Bool
  channels : List ChannelId
  deriving DecidableEq

def MediaSession.isTransmittingAllowed (s : MediaSession) : Bool :=
  s.isActive && !s.isMuted && !s.isServerMuted

def MediaSession.new (user : UserId) (app : AppId) : MediaSession where
  userId := user
  appId := app
  isActive := true
  isMuted := false
  isServerMuted := false
  channels := []

structure Notice where
  node : MediaNodeId
  appId : AppId
  userId : UserId
  muted : Bool
  deriving DecidableEq

structure Fleet where
  nodes : List MediaNodeId
  sessions : MediaNodeId → SessionId → Option MediaSession
  notices : List Notice
  decided : AppId → UserId → ChannelId → Option Bool

namespace Fleet

variable (f : Fleet)

variable (node : MediaNodeId) (sid : SessionId)

def setSessions (g : SessionId → Option MediaSession → Option MediaSession) : Fleet :=
  { f with sessions := update f.sessions node fun sid => g sid (f.sessions node sid) }

def modifySession (g : MediaSession → MediaSession) : Fleet :=
  f.setSessions node fun other s => if other = sid then s.map g else s

def applyServerMute (app : AppId) (user : UserId) (muted : Bool) : Fleet :=
  f.setSessions node fun _ s => s.map fun s =>
    if s.userId = user ∧ s.appId = app then { s with isServerMuted := muted } else s

/-- `persisted`: the membership rows could be updated; otherwise the call fails before it mutes. -/
def setServerMute (app : AppId) (id : ChannelId) (user : UserId) (muted persisted : Bool) : Fleet :=
  if persisted then
    let f := f.applyServerMute node app user muted
    { f with
      notices := f.notices ++ f.nodes.map fun n => ⟨n, app, user, muted⟩
      decided := update f.decided app
        (update (f.decided app) user (update (f.decided app user) id (some muted))) }
  else f

def handleNotice (n : Notice) : Fleet :=
  if n ∈ f.notices then
    { f.applyServerMute n.node n.appId n.userId n.muted with notices := f.notices.erase n }
  else f

def insertSession (session : MediaSession) : Fleet :=
  if node ∈ f.nodes then
    f.setSessions node fun other s =>
      if other = sid then some session else s.filter fun s => s.userId ≠ session.userId
  else f

def createSession (user : UserId) (app : AppId) : Fleet :=
  f.insertSession node sid (.new user app)

/-- `adopt_mirrored_session` restores the participant's own mute from the mirror. -/
def adoptSession (user : UserId) (app : AppId) (muted : Bool) : Fleet :=
  if (f.sessions node sid).isSome then f
  else f.insertSession node sid { MediaSession.new user app with isMuted := muted }

def destroySession : Fleet :=
  f.setSessions node fun other s => if other = sid then none else s

end Fleet

inductive Source
  | live
  | injected
  deriving DecidableEq

def MediaSession.maySend (s : MediaSession) : Source → Bool
  | .live => s.isTransmittingAllowed
  | .injected => s.isActive && !s.isServerMuted

variable {s : MediaSession}

lemma MediaSession.isServerMuted_of_maySend {source : Source}
    (h : s.maySend source = true) : s.isServerMuted = false := by
  cases source with
  | live =>
    simp only [maySend, isTransmittingAllowed, Bool.and_eq_true, Bool.not_eq_true'] at h
    exact h.2
  | injected =>
    simp only [maySend, Bool.and_eq_true, Bool.not_eq_true'] at h
    exact h.2

inductive Event
  | setServerMute (node : MediaNodeId) (app : AppId) (id : ChannelId) (user : UserId) (muted persisted : Bool)
  | notice (n : Notice)
  | lost (n : Notice)
  | openSession (node : MediaNodeId) (sid : SessionId) (user : UserId) (app : AppId)
  | takeOver (node : MediaNodeId) (sid : SessionId) (user : UserId) (app : AppId) (muted : Bool)
  /-- A resume on the node keeps the media session as it is. -/
  | resume (node : MediaNodeId) (sid : SessionId)
  | close (node : MediaNodeId) (sid : SessionId)
  | selfMute (node : MediaNodeId) (sid : SessionId) (muted : Bool)
  | join (node : MediaNodeId) (sid : SessionId) (id : ChannelId)
  | leave (node : MediaNodeId) (sid : SessionId) (id : ChannelId)
  /-- `canTransmit`: whether the channel lets the user transmit. -/
  | audio (node : MediaNodeId) (sid : SessionId) (id : ChannelId) (source : Source) (canTransmit : Bool)

def step (f : Fleet) : Event → Fleet
  | .setServerMute node app id user muted persisted => f.setServerMute node app id user muted persisted
  | .notice n => f.handleNotice n
  | .lost n => { f with notices := f.notices.erase n }
  | .openSession node sid user app => f.createSession node sid user app
  | .takeOver node sid user app muted => f.adoptSession node sid user app muted
  | .resume _ _ => f
  | .close node sid => f.destroySession node sid
  | .selfMute node sid muted => f.modifySession node sid fun s => { s with isMuted := muted }
  | .join node sid id => f.modifySession node sid fun s => { s with channels := id :: s.channels }
  | .leave node sid id => f.modifySession node sid fun s => { s with channels := s.channels.filter (· ≠ id) }
  | .audio .. => f

def routed (f : Fleet) : Event → Option (MediaSession × ChannelId)
  | .audio node sid id source canTransmit =>
    (f.sessions node sid).bind fun s =>
      if s.maySend source ∧ id ∈ s.channels ∧ canTransmit then some (s, id) else none
  | _ => none

def Upheld (f : Fleet) (e : Event) : Prop :=
  ∀ r ∈ routed f e, f.decided r.1.appId r.1.userId r.2 ≠ some true

/-- A mute of the user stands in some channel of the application. -/
def Fleet.Muted (f : Fleet) (app : AppId) (user : UserId) : Prop :=
  ∃ id, f.decided app user id = some true

/-- No session of a muted user is opened or taken over, and no user is unmuted in one channel while a
mute stands in another. Notices of unmutes are handled before their user is muted again, those of mutes
before the node routes audio of their user, and none of a mute that stands is lost. -/
def Settled (f : Fleet) : Event → Prop
  | .setServerMute _ app id user muted _ =>
      if muted then ∀ n ∈ f.notices, n.appId = app → n.userId = user → n.muted = true
      else ∀ other ≠ id, f.decided app user other ≠ some true
  | .lost n => n ∈ f.notices → n.muted = true → ¬f.Muted n.appId n.userId
  | .openSession _ _ user app => ¬f.Muted app user
  | .takeOver _ _ user app _ => ¬f.Muted app user
  | .audio node sid _ _ _ => ∀ s ∈ f.sessions node sid, ⟨node, s.appId, s.userId, true⟩ ∉ f.notices
  | _ => True

namespace Fleet

structure Holds (f : Fleet) : Prop where
  hosted : ∀ node sid s, f.sessions node sid = some s → node ∈ f.nodes
  flagged : ∀ node sid s, f.sessions node sid = some s → f.Muted s.appId s.userId →
    s.isServerMuted = true ∨ ⟨node, s.appId, s.userId, true⟩ ∈ f.notices
  muting : ∀ n ∈ f.notices, f.Muted n.appId n.userId → n.muted = true

variable {f : Fleet}

lemma sessions_setSessions (f : Fleet) (node node' : MediaNodeId)
    (g : SessionId → Option MediaSession → Option MediaSession) (sid : SessionId) :
    (f.setSessions node g).sessions node' sid =
      if node' = node then g sid (f.sessions node sid) else f.sessions node' sid := by
  unfold setSessions
  by_cases h : node' = node
  · subst h
    simp
  · simp [h]

lemma Holds.of_sessions {g : Fleet} (h : f.Holds) (hnodes : g.nodes = f.nodes)
    (hnotices : g.notices = f.notices) (hdecided : g.decided = f.decided)
    (hsessions : ∀ node sid s, g.sessions node sid = some s →
      (∃ s', f.sessions node sid = some s' ∧ s.userId = s'.userId ∧ s.appId = s'.appId ∧
        s.isServerMuted = s'.isServerMuted) ∨ node ∈ f.nodes ∧ ¬f.Muted s.appId s.userId) : g.Holds := by
  have hmuted : ∀ app user, g.Muted app user ↔ f.Muted app user := by
    intro app user
    unfold Muted
    rw [hdecided]
  refine ⟨fun node sid s hs => ?_, fun node sid s hs hm => ?_, fun n hn hm => ?_⟩
  · rw [hnodes]
    rcases hsessions node sid s hs with ⟨s', hs', _⟩ | ⟨hnode, _⟩
    · exact h.hosted node sid s' hs'
    · exact hnode
  · rw [hmuted] at hm
    rcases hsessions node sid s hs with ⟨s', hs', huser, happ, hflag⟩ | ⟨_, hfree⟩
    · rw [hnotices, hflag, happ, huser]
      rw [happ, huser] at hm
      exact h.flagged node sid s' hs' hm
    · exact absurd hm hfree
  · rw [hnotices] at hn
    rw [hmuted] at hm
    exact h.muting n hn hm

section

variable (h : f.Holds) (node : MediaNodeId) (sid : SessionId)
include h

lemma holds_modifySession (g : MediaSession → MediaSession)
    (hg : ∀ s, (g s).userId = s.userId ∧ (g s).appId = s.appId ∧ (g s).isServerMuted = s.isServerMuted) :
    (f.modifySession node sid g).Holds := by
  refine h.of_sessions rfl rfl rfl fun node' sid' s hs => .inl ?_
  rw [modifySession, sessions_setSessions] at hs
  split at hs
  · next hnode =>
    subst hnode
    split at hs
    · obtain ⟨s', hs', rfl⟩ := Option.map_eq_some_iff.mp hs
      exact ⟨s', hs', hg s'⟩
    · exact ⟨s, hs, rfl, rfl, rfl⟩
  · exact ⟨s, hs, rfl, rfl, rfl⟩

lemma holds_destroySession : (f.destroySession node sid).Holds := by
  refine h.of_sessions rfl rfl rfl fun node' sid' s hs => .inl ?_
  rw [destroySession, sessions_setSessions] at hs
  split at hs
  · next hnode =>
    subst hnode
    split at hs
    · cases hs
    · exact ⟨s, hs, rfl, rfl, rfl⟩
  · exact ⟨s, hs, rfl, rfl, rfl⟩

lemma holds_insertSession (session : MediaSession) (hfree : ¬f.Muted session.appId session.userId) :
    (f.insertSession node sid session).Holds := by
  unfold insertSession
  split
  · next hnode =>
    refine h.of_sessions rfl rfl rfl fun node' sid' s hs => ?_
    rw [sessions_setSessions] at hs
    split at hs
    · next heq =>
      subst heq
      split at hs
      · cases hs
        exact .inr ⟨hnode, hfree⟩
      · obtain ⟨hs, _⟩ := Option.filter_eq_some_iff.mp hs
        exact .inl ⟨s, hs, rfl, rfl, rfl⟩
    · exact .inl ⟨s, hs, rfl, rfl, rfl⟩
  · exact h

end

variable {user : UserId} {muted : Bool} {node : MediaNodeId} {app : AppId}

lemma session_of_applyServerMute {node' : MediaNodeId}
    {sid : SessionId} (hs : (f.applyServerMute node app user muted).sessions node' sid = some s) :
    ∃ s', f.sessions node' sid = some s' ∧ s.userId = s'.userId ∧ s.appId = s'.appId ∧
      s.isServerMuted =
        if node' = node ∧ s'.userId = user ∧ s'.appId = app then muted else s'.isServerMuted := by
  rw [applyServerMute, sessions_setSessions] at hs
  split at hs
  · next hnode =>
    subst hnode
    obtain ⟨s', hs', rfl⟩ := Option.map_eq_some_iff.mp hs
    refine ⟨s', hs', ?_⟩
    by_cases hmatch : s'.userId = user ∧ s'.appId = app
    · simp [hmatch]
    · simp [hmatch]
  · next hnode => exact ⟨s, hs, rfl, rfl, by simp [hnode]⟩

lemma holds_handleNotice (h : f.Holds) (n : Notice) : (f.handleNotice n).Holds := by
  unfold handleNotice
  split
  · next hn =>
    refine ⟨fun node sid s hs => ?_, fun node sid s hs hm => ?_, fun m hm hmuted => ?_⟩
    · obtain ⟨s', hs', _⟩ := session_of_applyServerMute hs
      exact h.hosted node sid s' hs'
    · obtain ⟨s', hs', huser, happ, hflag⟩ := session_of_applyServerMute hs
      rw [happ, huser] at hm ⊢
      by_cases hmatch : node = n.node ∧ s'.userId = n.userId ∧ s'.appId = n.appId
      · -- the notice that is handled flags the session
        left
        rw [hflag, if_pos hmatch]
        exact h.muting n hn (hmatch.2.2 ▸ hmatch.2.1 ▸ hm)
      · rw [hflag, if_neg hmatch]
        rcases h.flagged node sid s' hs' hm with hf | hf
        · exact .inl hf
        · refine .inr ((List.mem_erase_of_ne ?_).mpr hf)
          rintro rfl
          exact hmatch ⟨rfl, rfl, rfl⟩
    · exact h.muting m (List.mem_of_mem_erase hm) hmuted
  · exact h

lemma holds_lost (h : f.Holds) {n : Notice} (hn : n ∈ f.notices → n.muted = true → ¬f.Muted n.appId n.userId) :
    Holds { f with notices := f.notices.erase n } where
  hosted := h.hosted
  flagged node sid s hs hm := by
    rcases h.flagged node sid s hs hm with hf | hf
    · exact .inl hf
    · refine .inr ((List.mem_erase_of_ne ?_).mpr hf)
      rintro rfl
      exact hn hf rfl hm
  muting m hm := h.muting m (List.mem_of_mem_erase hm)

variable {id : ChannelId}

lemma muted_setServerMute {app' : AppId} {user' : UserId}
    (hm : (f.setServerMute node app id user muted true).Muted app' user') :
    (app' = app ∧ user' = user ∧ (muted = true ∨ ∃ other ≠ id, f.decided app user other = some true)) ∨
      ¬(app' = app ∧ user' = user) ∧ f.Muted app' user' := by
  obtain ⟨other, hother⟩ := hm
  simp only [setServerMute, if_true] at hother
  by_cases happ : app' = app
  · subst happ
    rw [update_self] at hother
    by_cases huser : user' = user
    · subst huser
      rw [update_self] at hother
      refine .inl ⟨rfl, rfl, ?_⟩
      by_cases hid : other = id
      · subst hid
        rw [update_self] at hother
        exact .inl (Option.some.inj hother)
      · rw [update_of_ne hid] at hother
        exact .inr ⟨other, hid, hother⟩
    · rw [update_of_ne huser] at hother
      exact .inr ⟨fun h => huser h.2, other, hother⟩
  · rw [update_of_ne happ] at hother
    exact .inr ⟨fun h => happ h.1, other, hother⟩

lemma holds_setServerMute {persisted : Bool} (h : f.Holds)
    (hsettled : if muted then ∀ n ∈ f.notices, n.appId = app → n.userId = user → n.muted = true
      else ∀ other ≠ id, f.decided app user other ≠ some true) :
    (f.setServerMute node app id user muted persisted).Holds := by
  cases persisted with
  | false => exact h
  | true =>
    -- a mute that stands for the user afterwards was taken now or is of another channel
    have hmuting : ∀ app' user', (f.setServerMute node app id user muted true).Muted app' user' →
        (app' = app ∧ user' = user ∧ muted = true) ∨ ¬(app' = app ∧ user' = user) ∧ f.Muted app' user' := by
      intro app' user' hm
      rcases muted_setServerMute hm with ⟨happ, huser, hmuted⟩ | hother
      · refine .inl ⟨happ, huser, ?_⟩
        rcases hmuted with hmuted | ⟨other, hne, hmuted⟩
        · exact hmuted
        · by_contra hfalse
          rw [if_neg hfalse] at hsettled
          exact hsettled other hne hmuted
      · exact .inr hother
    refine ⟨fun node' sid s hs => ?_, fun node' sid s hs hm => ?_, fun n hn hm => ?_⟩
    · obtain ⟨s', hs', _⟩ := session_of_applyServerMute hs
      exact h.hosted node' sid s' hs'
    · obtain ⟨s', hs', huser, happ, hflag⟩ := session_of_applyServerMute hs
      rcases hmuting _ _ hm with ⟨ha, hu, hmuted⟩ | ⟨hne, hbefore⟩
      · refine .inr (List.mem_append_right _ (List.mem_map.mpr ⟨node', h.hosted node' sid s' hs', ?_⟩))
        rw [ha, hu, hmuted]
      · have hkept : ¬(node' = node ∧ s'.userId = user ∧ s'.appId = app) :=
          fun hmatch => hne ⟨happ.trans hmatch.2.2, huser.trans hmatch.2.1⟩
        rw [happ, huser] at hbefore ⊢
        rw [hflag, if_neg hkept]
        exact (h.flagged node' sid s' hs' hbefore).imp_right (List.mem_append_left _)
    · rcases List.mem_append.mp hn with hn | hn
      · rcases hmuting _ _ hm with ⟨ha, hu, hmuted⟩ | ⟨_, hbefore⟩
        · rw [if_pos hmuted] at hsettled
          exact hsettled n hn ha hu
        · exact h.muting n hn hbefore
      · obtain ⟨node', _, rfl⟩ := List.mem_map.mp hn
        rcases hmuting _ _ hm with ⟨_, _, hmuted⟩ | ⟨hne, _⟩
        · exact hmuted
        · exact absurd ⟨rfl, rfl⟩ hne

end Fleet

lemma holds_step {f : Fleet} {e : Event} (h : f.Holds) (hs : Settled f e) : (step f e).Holds := by
  cases e with
  | setServerMute => exact Fleet.holds_setServerMute h hs
  | notice n => exact Fleet.holds_handleNotice h n
  | lost => exact Fleet.holds_lost h hs
  | openSession node sid => exact Fleet.holds_insertSession h node sid _ hs
  | takeOver node sid =>
    simp only [step, Fleet.adoptSession]
    split
    · exact h
    · exact Fleet.holds_insertSession h node sid _ hs
  | resume | audio => exact h
  | close node sid => exact Fleet.holds_destroySession h node sid
  | selfMute node sid | join node sid | leave node sid =>
    exact Fleet.holds_modifySession h node sid _ fun _ => ⟨rfl, rfl, rfl⟩

lemma upheld_of_holds {f : Fleet} {e : Event} (h : f.Holds) (hs : Settled f e) : Upheld f e := by
  intro r hr hmuted
  cases e with
  | audio node sid id =>
    obtain ⟨s, hsession, hr⟩ := Option.bind_eq_some_iff.mp (Option.mem_def.mp hr)
    split at hr
    · next hsend =>
      cases hr
      rcases h.flagged node sid s hsession ⟨id, hmuted⟩ with hflag | hnotice
      · rw [MediaSession.isServerMuted_of_maySend hsend.1] at hflag
        cases hflag
      · exact hs s hsession hnotice
    · cases hr
  | _ => cases hr

def initial (nodes : List MediaNodeId) : Fleet where
  nodes := nodes
  sessions _ _ := none
  notices := []
  decided _ _ _ := none

lemma holds_initial (nodes : List MediaNodeId) : (initial nodes).Holds where
  hosted _ _ _ h := nomatch h
  flagged _ _ _ h := nomatch h
  muting _ h := nomatch h

theorem server_mutes_hold (nodes : List MediaNodeId) (events : List Event)
    (hsettled : Traces.Meets step Settled (initial nodes) events) : Traces.Meets step Upheld (initial nodes) events :=
  Traces.meets_of_invariant Fleet.Holds (fun _ _ => holds_step) (fun _ _ => upheld_of_holds) hsettled
    (holds_initial nodes)

namespace Sample

def muted : List Event :=
  [.openSession 1 7 5 3, .join 1 7 10, .setServerMute 2 3 10 5 true true, .notice ⟨1, 3, 5, true⟩,
    .notice ⟨2, 3, 5, true⟩]

theorem server_mutes_hold_resumed :
    Traces.Meets step Upheld (initial [1, 2])
      (muted ++ ([.resume 1 7, .audio 1 7 10 .live true, .setServerMute 1 3 10 5 false true,
        .audio 1 7 10 .live true] : List Event)) := by
  apply server_mutes_hold
  refine ⟨?_, trivial, ?_, trivial, trivial, trivial, ?_, ?_, ?_, trivial⟩
  · rintro ⟨_, h⟩
    cases h
  · intro n hn
    cases hn
  · intro s _ hn
    cases hn
  · intro other hne h
    change update _ _ _ other = _ at h
    rw [update_of_ne hne] at h
    cases h
  · intro s hs
    cases hs
    decide

theorem mutes_lifted :
    ¬Traces.Meets step Upheld (initial [1, 2])
        (muted ++ ([.close 1 7, .openSession 1 8 5 3, .join 1 8 10, .audio 1 8 10 .live true] : List Event)) ∧
      ¬Traces.Meets step Upheld (initial [1, 2])
        (muted ++ ([.join 1 7 11, .setServerMute 1 3 11 5 false true, .audio 1 7 10 .live true] :
          List Event)) := by
  constructor
  · rintro ⟨_, _, _, _, _, _, _, _, h, _⟩
    exact h _ rfl rfl
  · rintro ⟨_, _, _, _, _, _, _, h, _⟩
    exact h _ rfl rfl

end Sample

end AurixVoice.Moderation
