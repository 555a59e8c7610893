import AurixVoice.Channel.SpeakerSlots

namespace AurixVoice.Channel.MediaChannel

open Media (ChannelRole)

variable {V P : Type} {c : MediaChannel V P}

lemma admitJoin_error {env : Env} {session : MediaSession} {role : ChannelRole} {hints : JoinHints} {error : AurixError}
    (h : (c.admitJoin env session role hints).1 = .error error) : (c.admitJoin env session role hints).2 = c := by
  obtain ⟨e, heq⟩ | ⟨count, entered, demoted, c', -, -, heq⟩ := c.admitJoin_cases env session role hints
  · rw [heq]
  · rw [heq] at h
    cases h

/-- A refused join leaves members, roles and waiting entries, counters and pairs in sight as they were
just when the user was not a member, or the session belongs to another application. -/
theorem refused_join_unchanged_iff (c : MediaChannel V P) (env : Env) (session : MediaSession) (role : ChannelRole)
    (hints : JoinHints) (error : AurixError) (h : (c.addParticipantWith env session role hints).1 = .error error) :
    let c' := (c.addParticipantWith env session role hints).2
    (c'.participants = c.participants ∧ c'.participantRoles = c.participantRoles ∧
        c'.participantCount = c.participantCount ∧ c'.localSpeakers = c.localSpeakers ∧
        c'.visible = c.visible) ↔
      c.participants.find session.userId = none ∨ session.appId ≠ c.appId := by
  intro c'
  constructor
  · rintro ⟨hparticipants, -⟩
    by_contra hmember
    obtain ⟨hmember, happ⟩ := not_or.mp hmember
    have hjoin := c.addParticipantWith_eq (not_not.mp happ) env role hints
    rw [hjoin] at h
    have hremoved : c' = (c.removeParticipant session.userId).2 := (congrArg Prod.snd hjoin).trans (admitJoin_error h)
    rw [← hparticipants, hremoved, find_removeParticipant] at hmember
    exact hmember rfl
  · intro hcase
    have hsame : c' = c := by
      by_cases happ : session.appId = c.appId
      · have hjoin := c.addParticipantWith_eq happ env role hints
        rw [removeParticipant, hcase.resolve_right (not_not.mpr happ)] at hjoin
        rw [hjoin] at h
        exact (congrArg Prod.snd hjoin).trans (admitJoin_error h)
      · simp [c', addParticipantWith, happ]
    rw [hsame]
    exact ⟨rfl, rfl, rfl, rfl, rfl⟩

/-! A channel with one speaker slot, which user 1 holds while user 2 listens. -/

def quietEnv : Env := { nowMs := 1000, instant := 0, activity := fun _ => ⟨0, audioLevelSilence, 0⟩ }

def noHints : JoinHints := { priority := false, remoteSpeakers := 0 }

def sessionOf (user : UserId) : MediaSession := { sessionId := user, userId := user, appId := 7, ssrc := 5 }

def oneSlot : ChannelConfig Unit where
  channelType := .team
  maxParticipants := 10
  audience := some { hideListeners := false, maxSpeakers := 1, speakerAdmission := .reject, demoteIdleMs := 0 }
  rosterRadius := none
  commandSpeakers := none

def oneSpeaker : MediaChannel Unit Unit :=
  [Event.join quietEnv (sessionOf 1) .speaker noHints, .join quietEnv (sessionOf 2) .listener noHints].foldl
    (step ⟨fun _ _ => (), fun _ _ => true, id⟩) (new 9 7 oneSlot)

theorem refused_join_of_stranger :
    (∃ error, (oneSpeaker.addParticipantWith quietEnv (sessionOf 3) .speaker noHints).1 = .error error) ∧
      (oneSpeaker.addParticipantWith quietEnv (sessionOf 3) .speaker noHints).2.participants =
        oneSpeaker.participants :=
  ⟨⟨_, rfl⟩, ((refused_join_unchanged_iff oneSpeaker quietEnv (sessionOf 3) .speaker noHints _ rfl).mpr
    (.inl rfl)).1⟩

theorem refused_rejoin_removes_member :
    (∃ error, (oneSpeaker.addParticipantWith quietEnv (sessionOf 2) .speaker noHints).1 = .error error) ∧
      oneSpeaker.participants.find 2 = some (sessionOf 2) ∧ oneSpeaker.participantCount = 2 ∧
      (oneSpeaker.addParticipantWith quietEnv (sessionOf 2) .speaker noHints).2.participants.find 2 = none ∧
      (oneSpeaker.addParticipantWith quietEnv (sessionOf 2) .speaker noHints).2.participantCount = 1 :=
  ⟨⟨_, rfl⟩, by decide +kernel, by decide +kernel, by decide +kernel, by decide +kernel⟩

end AurixVoice.Channel.MediaChannel
