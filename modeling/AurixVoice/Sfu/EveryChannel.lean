import AurixVoice.Channel.MemberRoles
import AurixVoice.Sfu.Node

namespace AurixVoice.Sfu

open Channel
open Media (ChannelRole)

variable {V P : Type}

structure Leaves (Q : ChannelId → MediaChannel V P → Prop) : Prop where
  fresh : ∀ id app config, Q id (.new id app config)
  removed : ∀ id c user, Q id c → Q id (c.removeParticipant user).2
  admitted : ∀ id c env, Q id c → Q id (c.admitWaiting env).2

namespace Leaves

variable {Q : ChannelId → MediaChannel V P → Prop} {hash : ChannelId → UInt32} {s : SfuNode V P}
  {env : Env}

lemma keepOrDrop {c : MediaChannel V P} {id : ChannelId} (h : s.channels.All Q) (hc : Q id c) :
    (s.keepOrDrop hash id c).channels.All Q := by
  unfold SfuNode.keepOrDrop
  split
  · exact h.erase id
  · exact h.set hc

lemma removeFromChannel (hQ : Leaves Q) (h : s.channels.All Q) (id : ChannelId) (session : MediaSession) :
    (s.removeFromChannel hash env id session).2.channels.All Q := by
  unfold SfuNode.removeFromChannel
  dsimp only
  split
  · exact h
  next c hc =>
    apply keepOrDrop
    · exact h
    · exact hQ.admitted id _ env (hQ.removed id c _ (h id c hc))

lemma teardownSession (hQ : Leaves Q) (h : s.channels.All Q) (session : MediaSession) :
    (s.teardownSession hash env session).channels.All Q := by
  unfold SfuNode.teardownSession
  split
  · exact h
  · exact Traces.foldl_invariant (fun s : SfuNode V P => s.channels.All Q)
      (fun s id hs => hQ.removeFromChannel hs id session) _ h

lemma openSession (h : s.channels.All Q) (session : MediaSession) (keyError : Option AurixError) :
    (s.openSession session keyError).2.channels.All Q := by
  unfold SfuNode.openSession
  split
  · exact h
  · split <;> exact h

section

variable (hQ : Leaves Q) (h : s.channels.All Q) (session : MediaSession) (keyError : Option AurixError)
include hQ h

lemma createSessionWithSsrc : (s.createSessionWithSsrc hash env session keyError).2.channels.All Q := by
  apply openSession
  unfold SfuNode.evictUser
  split
  · apply hQ.teardownSession
    exact h
  · exact h

lemma adoptSession : (s.adoptSession hash env session keyError).2.channels.All Q := by
  unfold SfuNode.adoptSession
  split
  · exact h
  · exact hQ.createSessionWithSsrc h session keyError

end

lemma channels_forgetUser (s : SfuNode V P) (session : MediaSession) :
    (s.forgetUser session).channels = s.channels := by
  unfold SfuNode.forgetUser
  split <;> rfl

section

variable (hQ : Leaves Q) (h : s.channels.All Q) (sid : SessionId) (id : ChannelId) (app : AppId)
  (config : ChannelConfig V)
include hQ h

lemma destroySession : (s.destroySession hash env sid).2.channels.All Q := by
  unfold SfuNode.destroySession
  split
  · exact h
  · apply hQ.teardownSession
    rw [channels_forgetUser]
    exact h

lemma expireFromChannel (session : MediaSession) (id : ChannelId) :
    (s.expireFromChannel hash session id).channels.All Q := by
  unfold SfuNode.expireFromChannel
  split
  · exact h
  next c hc => exact keepOrDrop h (hQ.removed id c _ (h id c hc))

lemma expireSession : (s.expireSession hash sid).channels.All Q := by
  unfold SfuNode.expireSession
  split
  · exact h
  next session _ =>
    apply Traces.foldl_invariant (fun s : SfuNode V P => s.channels.All Q)
      (fun s id hs => hQ.expireFromChannel hs session id)
    rw [channels_forgetUser]
    exact h

lemma leaveChannel : (s.leaveChannel hash env sid id).2.channels.All Q := by
  unfold SfuNode.leaveChannel
  split
  · exact h
  · exact hQ.removeFromChannel h id _

lemma kickUserFromChannel (user : UserId) (id : ChannelId) :
    (s.kickUserFromChannel hash env user id).2.channels.All Q := by
  unfold SfuNode.kickUserFromChannel
  split
  · exact h
  · exact hQ.removeFromChannel h id _

lemma channelEntry : Q id (s.channelEntry id app config) := by
  unfold SfuNode.channelEntry
  cases hc : s.channels.find id with
  | none => exact hQ.fresh id app config
  | some c => exact h id c hc

lemma pinChannel : (s.pinChannel hash id app config).2.channels.All Q := by
  have hentry := hQ.channelEntry h id app config
  unfold SfuNode.pinChannel
  split
  · exact h
  · dsimp only
    split <;> exact h.set hentry

end

lemma unpinChannel (h : s.channels.All Q) (id : ChannelId) : (s.unpinChannel hash id).channels.All Q := by
  unfold SfuNode.unpinChannel
  split
  · exact h
  · split
    · exact h
    · dsimp only
      split
      · exact h
      next c hc => exact keepOrDrop h (h id c hc)

lemma joinChannelWith (hQ : Leaves Q) (h : s.channels.All Q) {sid : SessionId} {id : ChannelId}
    {config : ChannelConfig V} {role : ChannelRole} {hints : JoinHints}
    {Q' : ChannelId → MediaChannel V P → Prop} (hothers : ∀ other c, other ≠ id → Q other c → Q' other c)
    (hjoin : ∀ session c, s.sessionsById.find sid = some session → Q id c →
      Ends (Q' id) (Q id) (c.addParticipantWith env session role hints)) :
    Ends (fun s' => s'.channels.All Q') (fun s' => s'.channels.All Q)
      (s.joinChannelWith hash env sid id config role hints) := by
  unfold SfuNode.joinChannelWith
  cases hsession : s.sessionsById.find sid with
  | none => exact h
  | some session =>
    dsimp only
    cases hlimit : (if id ∈ s.joined session then none
        else s.checkSessionChannelLimits session config.channelType) with
    | some => exact h
    | none =>
      cases hslot : s.checkChannelSlot hash id with
      | some => exact h
      | none =>
        have hentry := hQ.channelEntry h id session.appId config
        by_cases happ : (s.channelEntry id session.appId config).appId ≠ session.appId
        · rw [if_pos happ]
          exact h.set hentry
        · rw [if_neg happ]
          have hadded := hjoin session _ hsession hentry
          revert hadded
          cases hadd : (s.channelEntry id session.appId config).addParticipantWith env session role hints with
          | mk result =>
            cases result with
            | error => exact fun hc => h.set hc
            | ok =>
              intro hc other d hd
              rcases Dict.of_find_set hd with ⟨rfl, rfl⟩ | ⟨hne, hd⟩
              · exact hc
              · exact hothers other d hne (h other d hd)

end Leaves

end AurixVoice.Sfu
