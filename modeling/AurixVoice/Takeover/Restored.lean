import AurixVoice.Channel.RefusedJoin
import AurixVoice.Sfu.Node

/-! What a takeover restores from the mirror: the channels with roles and priorities, then the transmission mode. -/

namespace AurixVoice.Takeover

open Media (ChannelRole)

inductive TransmissionMode
  | none
  | single (channelId : ChannelId)
  | all
  deriving DecidableEq

def TransmissionMode.allows : TransmissionMode → ChannelId → Bool
  | .none, _ => false
  | .single channelId, channel => channelId = channel
  | .all, _ => true

structure Uplink where
  channels : List ChannelId
  transmission : TransmissionMode

namespace Uplink

def new : Uplink := ⟨[], .all⟩

variable (s : Uplink)

def joinChannel (channelId : ChannelId) : Uplink :=
  if channelId ∈ s.channels then s else { s with channels := s.channels ++ [channelId] }

def setTransmission : TransmissionMode → Except AurixError Unit × Uplink
  | .single channelId =>
    if channelId ∈ s.channels then (.ok (), { s with transmission := .single channelId })
    else (.error (.channelNotFound "transmission target is not a joined channel"), s)
  | mode => (.ok (), { s with transmission := mode })

def transmitsTo (channelId : ChannelId) : Bool := s.transmission.allows channelId

def TransmitsInto (channelId : ChannelId) : Prop := channelId ∈ s.channels ∧ s.transmitsTo channelId = true

def adopted (restores : ChannelId → Bool) : Uplink :=
  let restored := s.channels.foldl (fun s' channelId => if restores channelId then s'.joinChannel channelId else s') new
  (restored.setTransmission s.transmission).2

variable {s}

lemma mem_joinChannel {channelId other : ChannelId} :
    other ∈ (s.joinChannel channelId).channels ↔ other ∈ s.channels ∨ other = channelId := by
  unfold joinChannel
  split
  next hmem =>
    constructor
    · exact .inl
    · rintro (hother | rfl)
      · exact hother
      · exact hmem
  · simp

lemma transmission_joinChannel (channelId : ChannelId) : (s.joinChannel channelId).transmission = s.transmission := by
  unfold joinChannel
  split <;> rfl

lemma restored_spec (restores : ChannelId → Bool) (channels : List ChannelId) (s : Uplink) :
    (channels.foldl (fun s' channelId => if restores channelId then s'.joinChannel channelId else s') s).transmission =
        s.transmission ∧
      ∀ other, other ∈ (channels.foldl (fun s' channelId =>
          if restores channelId then s'.joinChannel channelId else s') s).channels ↔
        other ∈ s.channels ∨ (other ∈ channels ∧ restores other = true) := by
  induction channels generalizing s with
  | nil => simp
  | cons channelId channels ih =>
    obtain ⟨hmode, hmem⟩ := ih (if restores channelId then s.joinChannel channelId else s)
    refine ⟨hmode.trans ?_, fun other => (hmem other).trans ?_⟩
    · split
      · exact transmission_joinChannel channelId
      · rfl
    · by_cases hrestores : restores channelId = true
      · rw [if_pos hrestores, mem_joinChannel, List.mem_cons]
        constructor
        · rintro ((hother | rfl) | ⟨hother, hyes⟩)
          · exact .inl hother
          · exact .inr ⟨.inl rfl, hrestores⟩
          · exact .inr ⟨.inr hother, hyes⟩
        · rintro (hother | ⟨rfl | hother, hyes⟩)
          · exact .inl (.inl hother)
          · exact .inl (.inr rfl)
          · exact .inr ⟨hother, hyes⟩
      · rw [if_neg hrestores, List.mem_cons]
        constructor
        · rintro (hother | ⟨hother, hyes⟩)
          · exact .inl hother
          · exact .inr ⟨.inr hother, hyes⟩
        · rintro (hother | ⟨rfl | hother, hyes⟩)
          · exact .inl hother
          · exact absurd hyes hrestores
          · exact .inr ⟨hother, hyes⟩

theorem takeover_keeps_transmission_iff (s : Uplink) (restores : ChannelId → Bool) :
    (∀ channelId, (s.adopted restores).TransmitsInto channelId → s.TransmitsInto channelId) ↔
      ∀ channelId, s.transmission = .single channelId →
        (channelId ∈ s.channels ∧ restores channelId = true) ∨ ∀ other ∈ s.channels, restores other = false := by
  obtain ⟨hmode, hmem⟩ := restored_spec restores s.channels new
  unfold adopted
  generalize hrestored : s.channels.foldl
    (fun s' channelId => if restores channelId then s'.joinChannel channelId else s') new = restored at hmode hmem ⊢
  have hmem : ∀ other, other ∈ restored.channels ↔ other ∈ s.channels ∧ restores other = true := by
    intro other
    rw [hmem other]
    simp [new]
  cases htransmission : s.transmission with
  | none =>
    refine iff_of_true ?_ fun _ h => by cases h
    rintro channelId ⟨-, htransmits⟩
    cases htransmits
  | all =>
    refine iff_of_true ?_ fun _ h => by cases h
    rintro channelId ⟨hchannel, -⟩
    refine ⟨((hmem channelId).mp hchannel).1, ?_⟩
    rw [transmitsTo, htransmission]
    rfl
  | single target =>
    have hbefore : ∀ channelId, s.TransmitsInto channelId ↔ channelId ∈ s.channels ∧ target = channelId := by
      intro channelId
      rw [TransmitsInto, transmitsTo, htransmission]
      simp [TransmissionMode.allows]
    by_cases htarget : target ∈ restored.channels
    · have hafter : (restored.setTransmission (.single target)).2 =
          { restored with transmission := .single target } := by
        rw [setTransmission, if_pos htarget]
      rw [hafter]
      refine iff_of_true ?_ ?_
      · rintro channelId ⟨hchannel, htransmits⟩
        refine (hbefore channelId).mpr ⟨((hmem channelId).mp hchannel).1, ?_⟩
        simpa [transmitsTo, TransmissionMode.allows] using htransmits
      · intro channelId heq
        obtain rfl := TransmissionMode.single.inj heq
        exact .inl ((hmem target).mp htarget)
    · have hafter : (restored.setTransmission (.single target)).2 = restored := by
        rw [setTransmission, if_neg htarget]
      -- the mode is refused, and the session keeps the one it was made with
      have hall : ∀ channelId, restored.TransmitsInto channelId ↔ channelId ∈ restored.channels := by
        intro channelId
        rw [TransmitsInto, transmitsTo, hmode]
        simp [new, TransmissionMode.allows]
      rw [hafter]
      constructor
      · intro hkept channelId heq
        right
        intro other hother
        cases hrestores : restores other with
        | false => rfl
        | true =>
          have hjoined := (hmem other).mpr ⟨hother, hrestores⟩
          obtain ⟨-, rfl⟩ := (hbefore other).mp (hkept other ((hall other).mpr hjoined))
          exact absurd hjoined htarget
      · intro hcond channelId htransmits
        have hjoined := (hmem channelId).mp ((hall channelId).mp htransmits)
        obtain hrestored | hnone := hcond target rfl
        · exact absurd ((hmem target).mpr hrestored) htarget
        · rw [hnone channelId hjoined.1] at hjoined
          cases hjoined.2

theorem widened_transmission : ¬ (⟨[1, 2], .single 1⟩ : Uplink).TransmitsInto 2 ∧
    ((⟨[1, 2], .single 1⟩ : Uplink).adopted fun channelId => channelId ≠ 1).TransmitsInto 2 := by
  unfold TransmitsInto
  decide +kernel

end Uplink

end AurixVoice.Takeover

namespace AurixVoice

namespace Channel.MediaChannel

open Media (ChannelRole)

variable {V P : Type} (c : MediaChannel V P)

def roleOf (user : UserId) : ChannelRole := (c.memberRole user).getD .listener

def grantedRole (user : UserId) : Option ChannelRole := (c.participantRoles.find user).map LocalRole.granted

def hasPriorityFlag (user : UserId) : Bool :=
  decide (user ∈ c.priority) || (c.remote.find user).any RemoteParticipant.isPriority

variable {c} {role : ChannelRole} {hints : JoinHints} {env : Env}

lemma grants_enter (session : MediaSession) (role : LocalRole) (priority : Bool) :
    (c.enter session role priority).grantedRole session.userId = some role.granted ∧
      (c.enter session role priority).hasPriorityFlag session.userId = priority := by
  constructor
  · simp [grantedRole, enter]
  · cases priority <;> simp [hasPriorityFlag, enter]

variable {session : MediaSession}

lemma grants_addParticipantWith {a : Admission} (h : (c.addParticipantWith env session role hints).1 = .ok a) :
    (c.addParticipantWith env session role hints).2.grantedRole session.userId = some role ∧
      (c.addParticipantWith env session role hints).2.hasPriorityFlag session.userId = hints.priority := by
  by_cases happ : session.appId = c.appId
  · rw [addParticipantWith_eq happ] at h ⊢
    obtain ⟨e, heq⟩ | ⟨count, entered, demoted, c', -, hclaim, heq⟩ :=
      (c.removeParticipant session.userId).2.admitJoin_cases env session role hints
    · rw [heq] at h
      cases h
    · rw [heq, ← (claimSpeakerSlot_cases hclaim).1]
      exact grants_enter session entered hints.priority
  · rw [addParticipantWith, if_pos happ] at h
    cases h

end Channel.MediaChannel

namespace Sfu.SfuNode

open Channel
open Media (ChannelRole)

variable {V P : Type} {hash : ChannelId → UInt32} {s : SfuNode V P}

lemma channel_of_joinChannelWith {sid : SessionId} {id : ChannelId} {config : ChannelConfig V} {joined : ChannelJoined}
    (hsession : s.sessionsById.find sid = some session)
    (h : (s.joinChannelWith hash env sid id config role hints).1 = .ok joined) :
    ∃ (c : MediaChannel V P) (a : Admission), (c.addParticipantWith env session role hints).1 = .ok a ∧
      (s.joinChannelWith hash env sid id config role hints).2.channels.find id =
        some (c.addParticipantWith env session role hints).2 := by
  unfold joinChannelWith at h ⊢
  rw [hsession] at h ⊢
  dsimp only at h ⊢
  split at h
  · cases h
  · split at h
    · cases h
    · split at h
      · cases h
      next happ =>
        split at h
        · cases h
        next admission channel hadd =>
          refine ⟨s.channelEntry id session.appId config, admission, congrArg Prod.fst hadd, ?_⟩
          rw [if_neg happ, hadd]
          simp

end Sfu.SfuNode

namespace Takeover

open Channel Sfu
open Media (ChannelRole)

variable {V P : Type}

structure MirroredChannel where
  channelId : ChannelId
  role : ChannelRole
  priority : Bool

def mirrorChannel (channelId : ChannelId) (channel : Option (MediaChannel V P)) (user : UserId) : MirroredChannel where
  channelId
  role := (channel.map fun c => c.roleOf user).getD .speaker
  priority := channel.any fun c => c.hasPriorityFlag user

def restoreChannel (hash : ChannelId → UInt32) (s : SfuNode V P) (env : Env) (sid : SessionId)
    (config : ChannelConfig V) (mirrored : MirroredChannel) (remoteSpeakers : UInt32) :
    Except AurixError ChannelJoined × SfuNode V P :=
  s.joinChannelWith hash env sid mirrored.channelId config mirrored.role ⟨mirrored.priority, remoteSpeakers⟩

/-- A restored channel has the member's grant exactly when the member was in the role that it grants; the
mirror has the effective role, which for a member without a slot is the listener's. -/
theorem takeover_keeps_grant_iff (hash : ChannelId → UInt32) (c : MediaChannel V P) (s : SfuNode V P) (env : Env)
    (session : MediaSession) (r : LocalRole) (config : ChannelConfig V) (remoteSpeakers : UInt32)
    (joined : ChannelJoined) (hmember : c.participantRoles.find session.userId = some r)
    (hsession : s.sessionsById.find session.sessionId = some session)
    (hrestored : (restoreChannel hash s env session.sessionId config
      (mirrorChannel c.channelId (some c) session.userId) remoteSpeakers).1 = .ok joined) :
    (∃ c', (restoreChannel hash s env session.sessionId config
        (mirrorChannel c.channelId (some c) session.userId) remoteSpeakers).2.channels.find c.channelId = some c' ∧
      c'.grantedRole session.userId = c.grantedRole session.userId ∧
      c'.hasPriorityFlag session.userId = c.hasPriorityFlag session.userId) ↔ r.role = r.granted := by
  obtain ⟨c₀, a, hok, hfind⟩ := SfuNode.channel_of_joinChannelWith hsession hrestored
  obtain ⟨hgranted, hpriority⟩ := MediaChannel.grants_addParticipantWith hok
  have hrole : c.roleOf session.userId = r.role := by
    rw [MediaChannel.roleOf, MediaChannel.memberRole, hmember]
    rfl
  have hgrant : c.grantedRole session.userId = some r.granted := by
    rw [MediaChannel.grantedRole, hmember]
    rfl
  have hmirrored : (mirrorChannel c.channelId (some c) session.userId).role = r.role := hrole
  constructor
  · rintro ⟨c', hc', hsame, -⟩
    obtain rfl := Option.some.inj (hc'.symm.trans hfind)
    rw [hgranted, hgrant, hmirrored] at hsame
    exact Option.some.inj hsame
  · intro heq
    refine ⟨_, hfind, ?_, hpriority⟩
    rw [hgranted, hgrant, hmirrored, heq]

namespace Sample

def speaker : MediaSession := MediaChannel.sessionOf 2

def adopter : SfuNode Unit Unit :=
  (SfuNode.createSessionWithSsrc (fun _ => 3) (.new ⟨10, 10, 4, 1⟩) MediaChannel.quietEnv speaker none).2

def queueing : ChannelConfig Unit :=
  { MediaChannel.oneSlot with
    audience := some { hideListeners := false, maxSpeakers := 1, speakerAdmission := .wait, demoteIdleMs := 0 } }

def hosting (first second : UserId) : MediaChannel Unit Unit :=
  ((MediaChannel.new 9 7 queueing).addParticipantWith MediaChannel.quietEnv (MediaChannel.sessionOf first) .speaker
    MediaChannel.noHints).2.addParticipantWith MediaChannel.quietEnv (MediaChannel.sessionOf second) .speaker
    MediaChannel.noHints |>.2

def restored (c : MediaChannel Unit Unit) : Except AurixError ChannelJoined × SfuNode Unit Unit :=
  restoreChannel (fun _ => 3) adopter MediaChannel.quietEnv 2 queueing (mirrorChannel 9 (some c) 2) 0

theorem takeover_keeps_grant_slot : ∃ c', (restored (hosting 2 1)).2.channels.find 9 = some c' ∧
    c'.grantedRole 2 = (hosting 2 1).grantedRole 2 ∧ c'.hasPriorityFlag 2 = (hosting 2 1).hasPriorityFlag 2 :=
  (takeover_keeps_grant_iff (fun _ => 3) (hosting 2 1) adopter MediaChannel.quietEnv speaker
    ⟨.speaker, .speaker, 1000, none, 0⟩ queueing 0 _ (by decide +kernel) (by decide +kernel) rfl).mpr rfl

theorem waiting_speaker_loses_grant : (hosting 1 2).grantedRole 2 = some .speaker ∧
    (hosting 1 2).roleOf 2 = .listener ∧
      ((restored (hosting 1 2)).2.channels.find 9).map (fun c' => c'.grantedRole 2) = some (some .listener) := by
  decide +kernel

end Sample

end Takeover

end AurixVoice
