import AurixVoice.Media.FrameGates

/-! A channel on one node with the sessions of its members, which the channels share. -/

namespace AurixVoice.Media

open MediaChannel List

inductive Transport
  | aurx
  | webRtc
  deriving DecidableEq

inductive DownlinkMode
  | streams
  | mixed
  deriving DecidableEq

deriving instance DecidableEq for Mix

structure LiveSession where
  userId : UserId
  prefs : ReceiverPrefs ℚ
  transport : Transport
  downlinkMode : DownlinkMode
  active : Bool
  bound : Bool
  e2eeCapable : Bool
  channels : List ChannelId
  ambient : Dict ChannelId Voices
  streamCap : Dict ChannelId Voices
  audioLevel : UInt8
  isSpeaking : Bool

structure AudienceConfig where
  mixForListeners : Bool
  maxStreams : UInt8

structure RemoteMember where
  role : ChannelRole
  isPriority : Bool

structure LiveChannel (P : Type) where
  channelId : ChannelId
  config : ChannelConfig ℚ
  ambient : Option AmbientConfig
  audience : Option AudienceConfig
  ducking : Option DuckingConfig
  e2ee : Bool
  participants : Dict UserId SessionId
  participantRoles : Dict UserId ChannelRole
  remote : Dict UserId RemoteMember
  priority : Finset UserId
  envelope : DuckEnvelope
  positions : Dict UserId P

abbrev Sessions := SessionId → LiveSession

inductive Origin
  | uplink
  | relayed (level : Option UInt8)

def audioLevelSilence : UInt8 := 127

def ReceiverPrefs.isUniform (prefs : ReceiverPrefs ℚ) : Bool :=
  decide (prefs.mutedEverywhere = ∅ ∧ prefs.mutedIn = ∅ ∧ prefs.gain.keys = ∅ ∧ prefs.blocked = ∅ ∧
    prefs.blockedBy = ∅)

def exactly {P D : Type} (distance : P → P → ℚ) (bearing : P → P → D) : Acoustics ℚ P D where
  zero := 0
  one := 1
  sub := (· - ·)
  mul := (· * ·)
  div := (· / ·)
  le a b := decide (a ≤ b)
  lt a b := decide (a < b)
  inaudible := 1 / 1000
  distance := distance
  bearing := bearing

namespace LiveChannel

variable {P D : Type} (c : LiveChannel P) (sessions : Sessions)

variable (user : UserId) (decodeAudioLevel : UInt8 → ℚ)

def getRole : ChannelRole := (c.participantRoles.find user).getD .listener

def memberRole : Option ChannelRole :=
  match c.participantRoles.find user with
  | some role => some role
  | none => (c.remote.find user).map RemoteMember.role

def roleOf : ChannelRole := (c.memberRole user).getD .listener

def canTransmit : Bool :=
  if user ∉ c.participants.keys then false
  else (c.getRole user).canSpeak ||
    (c.config.channelType = .command && c.config.commandSpeakers.any fun s => decide (user ∈ s))

def mixesForListeners : Bool := c.audience.any AudienceConfig.mixForListeners

def wantsMix (receiver : LiveSession) : Bool :=
  receiver.downlinkMode = .mixed || (c.mixesForListeners && !(c.roleOf receiver.userId).canSpeak)

def supportsSharedMix : Bool :=
  decide (c.config.channelType = .team ∨ c.config.channelType = .command) && c.ambient.isNone

def mayMix : Bool :=
  c.mixesForListeners || c.participants.entries.any fun e => (sessions e.2).downlinkMode = .mixed

def streamCap : Option AmbientConfig :=
  c.audience.bind fun a => if 0 < a.maxStreams then some ⟨a.maxStreams, 0⟩ else none

def hasPriorityFlag : Bool :=
  decide (user ∈ c.priority) || (c.remote.find user).any RemoteMember.isPriority

def isPriority : Bool :=
  match c.ducking with
  | none => false
  | some cfg =>
    c.hasPriorityFlag user || (cfg.moderators && (c.memberRole user).any ChannelRole.canModerate)

def duckingGain (sender : UserId) (audible : Bool) (now : ℕ) : ℚ × DuckEnvelope :=
  match c.ducking with
  | none => (1, c.envelope)
  | some cfg =>
    if c.isPriority sender then (1, if audible then c.envelope.trigger now cfg else c.envelope)
    else c.envelope.gainAt now cfg

def sessionOf : Option LiveSession := (c.participants.find user).map sessions

def routing : MediaChannel ℚ P where
  channelId := c.channelId
  config := c.config
  participants := c.participants.entries.map fun e => ⟨e.1, (sessions e.2).prefs⟩
  nodup := by
    rw [map_map]
    exact c.participants.nodup_entries_keys
  roles := c.participantRoles
  positions := c.positions

def reportedLevel : Origin → Option UInt8
  | .uplink => none
  | .relayed level => level

def frameLevel (origin : Origin) (sender : UserId) : ℚ :=
  if c.ambient.isNone && c.streamCap.isNone && c.ducking.isNone then 1
  else
    let level := (reportedLevel origin).or ((c.sessionOf sessions sender).map LiveSession.audioLevel)
    ((level.filter (· < audioLevelSilence)).map decodeAudioLevel).getD 1

def frameAudible (origin : Origin) (sender : UserId) : Bool :=
  match reportedLevel origin with
  | some level => level < audioLevelSilence
  | none => (c.sessionOf sessions sender).all LiveSession.isSpeaking

def gateOf (cfg : Option AmbientConfig) (tables : LiveSession → Dict ChannelId Voices) (sender : UserId)
    (now : ℕ) (receiver : UserId) : Option (ℚ → ℚ) :=
  cfg.bind fun cfg => (c.sessionOf sessions receiver).map fun s volume =>
    (Voices.gate (((tables s).find c.channelId).getD .empty) sender volume cfg now).1

def frameGates (origin : Origin) (sender : UserId) (now : ℕ) : FrameGates ℚ where
  duck := (c.duckingGain sender (c.frameAudible sessions origin sender) now).1
  level := c.frameLevel sessions decodeAudioLevel origin sender
  ambient := c.gateOf sessions c.ambient LiveSession.ambient sender now
  cap := c.gateOf sessions c.streamCap LiveSession.streamCap sender now

def receivers (ac : Acoustics ℚ P D) (gates : FrameGates ℚ) (origin : Origin) (sender : UserId) :
    List (Participant ℚ × Mix ℚ D) :=
  match origin with
  | .uplink => (c.routing sessions).getReceiversForAudio ac gates sender
  | .relayed _ => (c.routing sessions).getReceiversForRelayedAudio ac gates sender

def copies (ac : Acoustics ℚ P D) (gates : FrameGates ℚ) (origin : Origin) (sender : UserId) :
    List (SessionId × Mix ℚ D) :=
  (c.receivers sessions ac gates origin sender).filterMap fun r =>
    (c.participants.find r.1.userId).map fun session => (session, r.2)

def Hosts : Prop := ∀ user session, c.participants.find user = some session → (sessions session).userId = user

lemma map_filterMap_sublist {α β γ : Type} {f : α → Option β} {g : β → γ} {h : α → γ}
    (hf : ∀ x y, f x = some y → g y = h x) (xs : List α) : ((xs.filterMap f).map g).Sublist (xs.map h) := by
  induction xs with
  | nil => exact .slnil
  | cons x xs ih =>
    cases hx : f x with
    | none =>
      rw [filterMap_cons_none hx]
      exact ih.cons _
    | some y =>
      rw [filterMap_cons_some hx, map_cons, map_cons, hf x y hx]
      exact ih.cons_cons _

section
variable {V : Type} {ac : Acoustics V P D} {m : MediaChannel V P} {sender : UserId}

lemma allOthers_sublist : ((m.allOthersFullVolume ac sender).map Prod.fst).Sublist m.participants := by
  rw [allOthersFullVolume, map_map]
  exact (map_id _).symm ▸ filter_sublist

lemma positional_sublist : ((m.positionalReceivers ac sender).map Prod.fst).Sublist m.participants := by
  unfold positionalReceivers
  split
  · exact nil_sublist _
  · split
    · exact allOthers_sublist
    · nth_rewrite 2 [← map_id m.participants]
      apply map_filterMap_sublist
      intro p r hr
      split at hr
      · cases hr
      · split at hr
        · cases hr
        · dsimp only at hr
          split_ifs at hr <;> obtain rfl := Option.some.inj hr <;> rfl

lemma found_sublist (user : UserId) :
    ((((m.participant user).map fun p => (p, Mix.unity (D := D) ac)).toList).map Prod.fst).Sublist
      m.participants := by
  cases hfind : m.participant user with
  | none => exact nil_sublist _
  | some => exact singleton_sublist.mpr (participant_eq_some.mp hfind).1

lemma routed_sublist : ((m.routedReceivers ac sender).map Prod.fst).Sublist m.participants := by
  unfold routedReceivers
  split
  · split
    · exact allOthers_sublist
    · exact nil_sublist _
  · split
    · split
      · exact found_sublist _
      · exact nil_sublist _
    · rw [map_take]
      exact (take_sublist _ _).trans allOthers_sublist
  · exact positional_sublist
  · exact found_sublist _
  · exact allOthers_sublist

lemma prefs_sublist {gates : FrameGates V} {rs : List (Participant V × Mix V D)}
    (h : (rs.map Prod.fst).Sublist m.participants) :
    ((m.applyReceiverPrefs ac gates sender rs).map Prod.fst).Sublist m.participants :=
  (map_filterMap_sublist (fun _ _ hr => heardAs_fst ac hr) rs).trans h

end

variable {c sessions} {ac : Acoustics ℚ P D} {gates : FrameGates ℚ} {origin : Origin} {sender : UserId}

lemma receivers_sublist :
    ((c.receivers sessions ac gates origin sender).map Prod.fst).Sublist (c.routing sessions).participants := by
  cases origin with
  | uplink => exact prefs_sublist routed_sublist
  | relayed =>
    rw [receivers, getReceiversForRelayedAudio]
    split
    · exact prefs_sublist positional_sublist
    · exact nil_sublist _
    all_goals exact prefs_sublist allOthers_sublist

lemma nodup_copies (h : c.Hosts sessions) : ((c.copies sessions ac gates origin sender).map Prod.fst).Nodup := by
  apply Nodup.of_map fun session => (sessions session).userId
  rw [map_map]
  have hcopies : ((c.copies sessions ac gates origin sender).map
      ((fun session => (sessions session).userId) ∘ Prod.fst)).Sublist
      ((c.receivers sessions ac gates origin sender).map fun r => r.1.userId) := by
    apply map_filterMap_sublist
    intro r copy hcopy
    obtain ⟨session, hsession, rfl⟩ := Option.map_eq_some_iff.mp hcopy
    exact h _ _ hsession
  have hreceivers : ((c.receivers sessions ac gates origin sender).map fun r => r.1.userId).Sublist
      ((c.routing sessions).participants.map Participant.userId) := by
    have hsub : (((c.receivers sessions ac gates origin sender).map Prod.fst).map Participant.userId).Sublist
        ((c.routing sessions).participants.map Participant.userId) := receivers_sublist.map _
    rw [map_map] at hsub
    exact hsub
  exact (c.routing sessions).nodup.sublist (hcopies.trans hreceivers)

lemma mem_copies {session : SessionId} {mix : Mix ℚ D} :
    (session, mix) ∈ c.copies sessions ac gates origin sender ↔
      ∃ r ∈ c.receivers sessions ac gates origin sender,
        c.participants.find r.1.userId = some session ∧ r.2 = mix := by
  simp only [copies, mem_filterMap, Option.map_eq_some_iff, Prod.mk.injEq]
  constructor
  · rintro ⟨r, hr, s, hs, rfl, hmix⟩
    exact ⟨r, hr, hs, hmix⟩
  · rintro ⟨r, hr, hs, hmix⟩
    exact ⟨r, hr, session, hs, rfl, hmix⟩

lemma gainFor_of_mem_prefs {V : Type} {ac : Acoustics V P D} {m : MediaChannel V P} {gates : FrameGates V}
    {rs : List (Participant V × Mix V D)} {r : Participant V × Mix V D}
    (h : r ∈ m.applyReceiverPrefs ac gates sender rs) : r.1.prefs.gainFor ac sender m.channelId ≠ none := by
  obtain ⟨q, -, hq⟩ := mem_filterMap.mp h
  rw [heardAs_fst ac hq]
  intro hnone
  rw [heardAs, receivedVolume, hnone] at hq
  cases hq

lemma gainFor_of_mem_receivers {r : Participant ℚ × Mix ℚ D}
    (h : r ∈ c.receivers sessions ac gates origin sender) : r.1.prefs.gainFor ac sender c.channelId ≠ none := by
  cases origin with
  | uplink => exact gainFor_of_mem_prefs h
  | relayed =>
    rw [receivers, getReceiversForRelayedAudio] at h
    split at h
    · exact gainFor_of_mem_prefs h
    · cases h
    all_goals exact gainFor_of_mem_prefs h

lemma member_of_mem_copies {copy : SessionId × Mix ℚ D} (h : copy ∈ c.copies sessions ac gates origin sender) :
    ∃ user, c.participants.find user = some copy.1 ∧
      (sessions copy.1).prefs.gainFor ac sender c.channelId ≠ none := by
  obtain ⟨r, hr, hfind, -⟩ := mem_copies.mp h
  have hparticipant : r.1 ∈ (c.routing sessions).participants :=
    receivers_sublist.subset (mem_map_of_mem hr)
  obtain ⟨⟨user, s⟩, hentry, hp⟩ := mem_map.mp hparticipant
  rw [Dict.mem_entries] at hentry
  have hgain := gainFor_of_mem_receivers hr
  rw [← hp] at hfind hgain
  obtain rfl := Option.some.inj (hentry.symm.trans hfind)
  exact ⟨user, hentry, hgain⟩

end LiveChannel

end AurixVoice.Media
