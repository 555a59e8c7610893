import AurixVoice.Channel.SpeakerSlots

namespace AurixVoice

def Ends {ε α σ : Type} (ok failed : σ → Prop) : Except ε α × σ → Prop
  | (.ok _, s) => ok s
  | (.error _, s) => failed s

namespace Channel

open Media (ChannelRole)

namespace MediaChannel

variable {V P : Type} {c c' : MediaChannel V P} {env : Env}

section
variable {Q : MediaChannel V P → Prop}

lemma admitLoop_keeps (hseat : ∀ c user, Q c → Q (c.admitLocked env user)) {max : UInt32}
    (queue : List UserId) (h : Q c) : Q (c.admitLoop env max queue).2 := by
  induction queue generalizing c with
  | nil => exact h
  | cons user queue ih =>
    unfold admitLoop
    split
    · exact h
    · exact ih (hseat c user h)

variable {audience : AudienceConfig}

lemma rotateLoop_keeps (hseat : ∀ c user, Q c → Q (c.admitLocked env user))
    (hdemote : ∀ c user, Q c → Q (c.demoteLocked env user)) (queue : List UserId) (h : Q c) :
    Q (c.rotateLoop env audience queue).2 := by
  induction queue generalizing c with
  | nil => exact h
  | cons waiting queue ih =>
    unfold rotateLoop
    split
    · exact ih (hseat c waiting h)
    · dsimp only
      split
      · exact h
      next victim _ => exact ih (hseat _ waiting (hdemote c victim h))

end

structure Backed (p : UserId → ChannelRole → Prop) (c : MediaChannel V P) : Prop where
  members : c.participants.keys ⊆ c.participantRoles.keys
  roles : c.participantRoles.All fun user r => (r.role = r.granted ∨ r.role = .listener) ∧ p user r.granted

variable {p : UserId → ChannelRole → Prop}

lemma backed_new (id : ChannelId) (app : AppId) (config : ChannelConfig V) :
    Backed p (new id app config : MediaChannel V P) where
  members := refl _
  roles _ _ h := by cases h

variable (h : Backed p c)
include h

lemma Backed.congr (hparticipants : c'.participants = c.participants)
    (hroles : c'.participantRoles = c.participantRoles) : Backed p c' where
  members := by
    rw [hparticipants, hroles]
    exact h.members
  roles := by
    rw [hroles]
    exact h.roles

lemma Backed.of_sameLocals (hsame : SameLocals c c') : Backed p c' :=
  h.congr hsame.participants hsame.participantRoles

lemma Backed.setRole {user : UserId} {r r' : LocalRole} {speakers : UInt32}
    (hr : c.participantRoles.find user = some r) (hgranted : r'.granted = r.granted)
    (hrole : r'.role = r'.granted ∨ r'.role = .listener) :
    Backed p { c with localSpeakers := speakers, participantRoles := c.participantRoles.set user r' } where
  members := by
    rw [keys_set_of_find hr]
    exact h.members
  roles := by
    apply h.roles.set
    rw [hgranted] at hrole ⊢
    exact ⟨hrole, (h.roles user r hr).2⟩

lemma Backed.demoteLocked (user : UserId) : Backed p (c.demoteLocked env user) := by
  unfold MediaChannel.demoteLocked
  cases hr : c.participantRoles.find user with
  | none => exact h
  | some =>
    apply h.setRole hr
    · rfl
    · exact .inr rfl

lemma Backed.admitLocked (user : UserId) : Backed p (c.admitLocked env user) := by
  unfold MediaChannel.admitLocked
  cases hr : c.participantRoles.find user with
  | none => exact h
  | some =>
    apply h.setRole hr
    · rfl
    · exact .inl rfl

lemma Backed.admitWaiting (env : Env) : Backed p (c.admitWaiting env).2 :=
  admitLoop_keeps (fun _ user hc => hc.admitLocked user) _ h

lemma Backed.rotateIdleSpeakers (env : Env) : Backed p (c.rotateIdleSpeakers env).2 := by
  unfold MediaChannel.rotateIdleSpeakers
  split
  · exact h
  · split
    · exact h
    · exact rotateLoop_keeps (fun _ user hc => hc.admitLocked user) (fun _ user hc => hc.demoteLocked user) _ h

lemma Backed.noteSpeakAttempt (env : Env) (user : UserId) : Backed p (c.noteSpeakAttempt env user) := by
  unfold MediaChannel.noteSpeakAttempt
  cases hr : c.participantRoles.find user with
  | none => exact h
  | some r =>
    dsimp only
    split
    · apply h.setRole hr
      · rfl
      · exact (h.roles user r hr).1
    · exact h

lemma Backed.removeParticipant (user : UserId) : Backed p (c.removeParticipant user).2 := by
  unfold MediaChannel.removeParticipant
  split
  · exact h
  · constructor
    · exact Finset.erase_subset_erase user h.members
    · exact h.roles.erase user

variable {hints : JoinHints}

lemma Backed.claimSpeakerSlot {user : UserId} {entered : LocalRole} {demoted : Option RoleChange}
    (hclaim : c.claimSpeakerSlot env audience user role hints = some (entered, demoted, c')) :
    Backed p c' ∧ entered.granted = role ∧ (entered.role = entered.granted ∨ entered.role = .listener) := by
  obtain ⟨rfl, ⟨rfl, -, heffective⟩ | ⟨hrole, -, ⟨rfl, -⟩ | ⟨_, victim, -, rfl⟩⟩⟩ := claimSpeakerSlot_cases hclaim
  · exact ⟨h, rfl, heffective⟩
  · exact ⟨h.congr rfl rfl, rfl, .inl hrole⟩
  · exact ⟨(h.demoteLocked victim).congr rfl rfl, rfl, .inl hrole⟩

variable {session : MediaSession}

lemma Backed.admitJoin
    (hothers : ∀ user r, user ≠ session.userId → p user r → p' user r) (hown : p' session.userId role) :
    Ends (Backed p') (Backed p) (c.admitJoin env session role hints) := by
  obtain ⟨e, heq⟩ | ⟨count, entered, demoted, c', -, hclaim, heq⟩ := c.admitJoin_cases env session role hints
  · rwa [heq]
  · have hcounted : Backed p { c with participantCount := count } := h.congr rfl rfl
    obtain ⟨hc', hgranted, hrole⟩ := hcounted.claimSpeakerSlot hclaim
    rw [heq]
    constructor
    · exact Finset.insert_subset_insert _ hc'.members
    · intro user r hr
      change (c'.participantRoles.set session.userId entered).find user = some r at hr
      rcases Dict.of_find_set hr with ⟨heq, rfl⟩ | ⟨hne, hr⟩
      · rw [heq, hgranted] at *
        exact ⟨hrole, hown⟩
      · obtain ⟨heffective, hp⟩ := hc'.roles user r hr
        exact ⟨heffective, hothers user _ hne hp⟩

lemma Backed.addParticipantWith
    (hothers : ∀ user r, user ≠ session.userId → p user r → p' user r) (hown : p' session.userId role) :
    Ends (Backed p') (Backed p) (c.addParticipantWith env session role hints) := by
  by_cases happ : session.appId = c.appId
  · rw [addParticipantWith_eq happ]
    exact (h.removeParticipant session.userId).admitJoin hothers hown
  · rwa [MediaChannel.addParticipantWith, if_pos happ]

lemma Backed.updateConfig (config : ChannelConfig V) : Backed p (c.updateConfig config) :=
  h.congr rfl rfl

end MediaChannel

end Channel

end AurixVoice
