import AurixVoice.Library.Dict
import AurixVoice.Types

/-! Who hears a frame of a channel. `V` are gains with the operations used on `f32`, `P` poses, `D` directions. -/

namespace AurixVoice.Media

open List

inductive ChannelType
  | positional
  | team
  | command
  | whisper
  | echo
  deriving DecidableEq

inductive ChannelRole
  | listener
  | speaker
  | moderator
  | administrator
  deriving DecidableEq

def ChannelRole.canSpeak : ChannelRole → Bool
  | listener => false
  | speaker | moderator | administrator => true

def ChannelRole.canModerate : ChannelRole → Bool
  | listener | speaker => false
  | moderator | administrator => true

inductive RolloffCurve
  | linear
  | logarithmic
  | customSpline
  deriving DecidableEq

variable {V P D : Type}

structure Mix (V D : Type) where
  volume : V
  direction : Option D

structure Acoustics (V P D : Type) where
  zero : V
  one : V
  sub : V → V → V
  mul : V → V → V
  div : V → V → V
  le : V → V → Bool
  lt : V → V → Bool
  inaudible : V
  distance : P → P → V
  bearing : P → P → D

structure PositionalConfig (V : Type) where
  nearDistance : V
  farDistance : V
  rolloff : RolloffCurve
  maxRadius : V
  directional : Bool

structure ReceiverPrefs (V : Type) where
  mutedEverywhere : Finset UserId
  mutedIn : Finset (ChannelId × UserId)
  gain : Dict UserId V
  blocked : Finset UserId
  blockedBy : Finset UserId
  focus : Option ChannelId
  unfocusedGain : V

structure Participant (V : Type) where
  userId : UserId
  prefs : ReceiverPrefs V

structure ChannelConfig (V : Type) where
  channelType : ChannelType
  positionalConfig : Option (PositionalConfig V)
  commandSpeakers : Option (Finset UserId)
  whisperTarget : Option UserId

structure MediaChannel (V P : Type) where
  channelId : ChannelId
  config : ChannelConfig V
  participants : List (Participant V)
  nodup : (participants.map Participant.userId).Nodup
  roles : Dict UserId ChannelRole
  positions : Dict UserId P

structure FrameGates (V : Type) where
  duck : V
  level : V
  ambient : UserId → Option (V → V)
  cap : UserId → Option (V → V)

variable (ac : Acoustics V P D)

def Mix.unity : Mix V D := ⟨ac.one, none⟩

def ReceiverPrefs.focusGain (prefs : ReceiverPrefs V) (channel : ChannelId) : V :=
  match prefs.focus with
  | some focused => if focused ≠ channel then prefs.unfocusedGain else ac.one
  | none => ac.one

def ReceiverPrefs.gainFor (prefs : ReceiverPrefs V) (sender : UserId) (channel : ChannelId) : Option V :=
  if sender ∈ prefs.blocked ∨ sender ∈ prefs.blockedBy ∨ sender ∈ prefs.mutedEverywhere ∨
      (channel, sender) ∈ prefs.mutedIn then none
  else some (ac.mul ((prefs.gain.find sender).getD ac.one) (prefs.focusGain ac channel))

def clampUnit (v : V) : V := if ac.lt v ac.zero then ac.zero else if ac.lt ac.one v then ac.one else v

def audible (v : V) : Bool := ac.lt ac.inaudible v

def PositionalConfig.volume (cfg : PositionalConfig V) (distance : V) : V :=
  if ac.le distance cfg.nearDistance then ac.one
  else if ac.le cfg.farDistance distance then ac.zero
  else
    let t := ac.div (ac.sub distance cfg.nearDistance) (ac.sub cfg.farDistance cfg.nearDistance)
    match cfg.rolloff with
    | .linear => ac.sub ac.one t
    | .logarithmic => clampUnit ac (ac.div cfg.nearDistance distance)
    | .customSpline =>
      let t := clampUnit ac t
      ac.sub ac.one (ac.mul (ac.mul t t) t)

namespace MediaChannel

variable (c : MediaChannel V P)

def getRole (user : UserId) : ChannelRole := (c.roles.find user).getD .listener

def participant (user : UserId) : Option (Participant V) :=
  c.participants.find? fun p => p.userId = user

def allOthersFullVolume (exclude : UserId) : List (Participant V × Mix V D) :=
  (c.participants.filter fun p => p.userId ≠ exclude).map fun p => (p, .unity ac)

def positionalReceivers (sender : UserId) : List (Participant V × Mix V D) :=
  match c.positions.find sender with
  | none => []
  | some senderPos =>
    match c.config.positionalConfig with
    | none => c.allOthersFullVolume ac sender
    | some cfg =>
      c.participants.filterMap fun p =>
        if p.userId = sender then none
        else
          match c.positions.find p.userId with
          | none => none
          | some listener =>
            let distance := ac.distance senderPos listener
            if ac.lt cfg.maxRadius distance then none
            else
              let volume := cfg.volume ac distance
              if ac.le volume ac.inaudible then none
              else some (p, ⟨volume, if cfg.directional then some (ac.bearing listener senderPos) else none⟩)

def routedReceivers (sender : UserId) : List (Participant V × Mix V D) :=
  match c.config.channelType with
  | .command =>
    if (c.getRole sender).canSpeak || (c.config.commandSpeakers.map fun s => decide (sender ∈ s)).getD false
    then c.allOthersFullVolume ac sender
    else []
  | .whisper =>
    match c.config.whisperTarget with
    | some target =>
      if target ≠ sender then ((c.participant target).map fun p => (p, .unity ac)).toList else []
    | none => (c.allOthersFullVolume ac sender).take 1
  | .positional => c.positionalReceivers ac sender
  | .echo => ((c.participant sender).map fun p => (p, .unity ac)).toList
  | .team => c.allOthersFullVolume ac sender

def receivedVolume (gates : FrameGates V) (sender : UserId) (p : Participant V) (mix : Mix V D) : Option V :=
  match p.prefs.gainFor ac sender c.channelId with
  | none => none
  | some gain =>
    let v := ac.mul (ac.mul mix.volume gain) gates.duck
    let v := match gates.ambient p.userId with
      | some gate => if audible ac v then ac.mul v (gate (ac.mul v gates.level)) else v
      | none => v
    let capped := match gates.cap p.userId with
      | some gate => audible ac v && ac.le (gate (ac.mul v gates.level)) ac.zero
      | none => false
    if capped then none else if audible ac v then some v else none

def heardAs (gates : FrameGates V) (sender : UserId) (r : Participant V × Mix V D) : Option (Participant V × Mix V D) :=
  (c.receivedVolume ac gates sender r.1 r.2).map fun v => (r.1, { r.2 with volume := v })

def applyReceiverPrefs (gates : FrameGates V) (sender : UserId)
    (receivers : List (Participant V × Mix V D)) : List (Participant V × Mix V D) :=
  receivers.filterMap (c.heardAs ac gates sender)

def getReceiversForAudio (gates : FrameGates V) (sender : UserId) : List (Participant V × Mix V D) :=
  c.applyReceiverPrefs ac gates sender (c.routedReceivers ac sender)

def getReceiversForRelayedAudio (gates : FrameGates V) (sender : UserId) : List (Participant V × Mix V D) :=
  match c.config.channelType with
  | .positional => c.applyReceiverPrefs ac gates sender (c.positionalReceivers ac sender)
  | .echo => []
  | .team | .command | .whisper => c.applyReceiverPrefs ac gates sender (c.allOthersFullVolume ac sender)

def relaysToPeers : Bool := c.config.channelType ≠ .echo

variable {c} {gates : FrameGates V} {sender user : UserId} {r : Participant V × Mix V D}

lemma heardAs_fst {q : Participant V × Mix V D} (h : c.heardAs ac gates sender r = some q) : q.1 = r.1 := by
  obtain ⟨v, -, rfl⟩ := Option.map_eq_some_iff.mp h
  rfl

/-- The receiver's preferences and gates let a frame through that routing sends it at full volume. -/
def Takes (c : MediaChannel V P) (gates : FrameGates V) (sender : UserId) (p : Participant V) : Prop :=
  (c.heardAs ac gates sender (p, .unity ac)).isSome = true

instance (c : MediaChannel V P) (gates : FrameGates V) (sender : UserId) (p : Participant V) :
    Decidable (c.Takes ac gates sender p) :=
  inferInstanceAs (Decidable (_ = true))

def users (receivers : List (Participant V × Mix V D)) : List UserId := receivers.map fun r => r.1.userId

lemma mem_users_applyReceiverPrefs {receivers : List (Participant V × Mix V D)} :
    user ∈ users (c.applyReceiverPrefs ac gates sender receivers) ↔
      ∃ r ∈ receivers, r.1.userId = user ∧ (c.heardAs ac gates sender r).isSome = true := by
  simp only [users, applyReceiverPrefs, mem_map, mem_filterMap]
  constructor
  · rintro ⟨q, ⟨r, hr, hq⟩, rfl⟩
    exact ⟨r, hr, by rw [heardAs_fst ac hq], by rw [hq]; rfl⟩
  · rintro ⟨r, hr, rfl, hsome⟩
    obtain ⟨q, hq⟩ := Option.isSome_iff_exists.mp hsome
    exact ⟨q, ⟨r, hr, hq⟩, by rw [heardAs_fst ac hq]⟩

variable {p : Participant V}

lemma participant_eq_some : c.participant user = some p ↔ p ∈ c.participants ∧ p.userId = user := by
  constructor
  · intro h
    exact ⟨mem_of_find?_eq_some h, by simpa using find?_some h⟩
  · rintro ⟨hp, rfl⟩
    cases hfind : c.participant p.userId with
    | none => exact absurd (decide_eq_true rfl) (find?_eq_none.mp hfind p hp)
    | some q =>
      have hq : q.userId = p.userId := by simpa using find?_some hfind
      rw [inj_on_of_nodup_map c.nodup (mem_of_find?_eq_some hfind) hp hq]

lemma mem_allOthersFullVolume {exclude : UserId} :
    r ∈ c.allOthersFullVolume ac exclude ↔
      ∃ p ∈ c.participants, p.userId ≠ exclude ∧ (p, .unity ac) = r := by
  simp [allOthersFullVolume, and_assoc]

lemma mem_whispered {target : UserId} (htype : c.config.channelType = .whisper)
    (htarget : c.config.whisperTarget = some target) :
    user ∈ users (c.getReceiversForAudio ac gates sender) ↔
      user = target ∧ target ≠ sender ∧
        ∃ p ∈ c.participants, p.userId = user ∧ c.Takes ac gates sender p := by
  rw [getReceiversForAudio, mem_users_applyReceiverPrefs, routedReceivers, htype, htarget]
  by_cases hself : target = sender
  · simp [hself]
  · simp only [ne_eq, hself, not_false_eq_true, if_true, Option.mem_toList, Option.map_eq_some_iff,
      participant_eq_some, true_and]
    constructor
    · rintro ⟨r, ⟨p, ⟨hp, hid⟩, rfl⟩, rfl, htakes⟩
      exact ⟨hid, p, hp, rfl, htakes⟩
    · rintro ⟨rfl, p, hp, hid, htakes⟩
      exact ⟨(p, .unity ac), ⟨p, ⟨hp, hid⟩, rfl⟩, hid, htakes⟩

lemma mem_allOthers_heard :
    user ∈ users (c.applyReceiverPrefs ac gates sender (c.allOthersFullVolume ac sender)) ↔
      user ≠ sender ∧ ∃ p ∈ c.participants, p.userId = user ∧ c.Takes ac gates sender p := by
  rw [mem_users_applyReceiverPrefs]
  constructor
  · rintro ⟨r, hr, rfl, htakes⟩
    obtain ⟨p, hp, hne, rfl⟩ := (mem_allOthersFullVolume ac).mp hr
    exact ⟨hne, p, hp, rfl, htakes⟩
  · rintro ⟨hne, p, hp, rfl, htakes⟩
    exact ⟨(p, .unity ac), (mem_allOthersFullVolume ac).mpr ⟨p, hp, hne, rfl⟩, rfl, htakes⟩

lemma mem_relayedWhisper (htype : c.config.channelType = .whisper) :
    user ∈ users (c.getReceiversForRelayedAudio ac gates sender) ↔
      user ≠ sender ∧ ∃ p ∈ c.participants, p.userId = user ∧ c.Takes ac gates sender p := by
  rw [getReceiversForRelayedAudio, htype]
  exact mem_allOthers_heard ac

end MediaChannel

structure SplitChannel (V P : Type) where
  whole : MediaChannel V P
  host : UserId → ℕ

namespace SplitChannel

open MediaChannel (users)

def node (s : SplitChannel V P) (n : ℕ) : MediaChannel V P :=
  { s.whole with
    participants := s.whole.participants.filter fun p => s.host p.userId = n
    nodup := s.whole.nodup.sublist (filter_sublist.map _) }

def Hears (s : SplitChannel V P) (gates : FrameGates V) (sender user : UserId) : Prop :=
  if s.host user = s.host sender then
    user ∈ users ((s.node (s.host user)).getReceiversForAudio ac gates sender)
  else
    (s.node (s.host sender)).relaysToPeers = true ∧
      user ∈ users ((s.node (s.host user)).getReceiversForRelayedAudio ac gates sender)

instance (s : SplitChannel V P) (gates : FrameGates V) (sender user : UserId) :
    Decidable (s.Hears ac gates sender user) := by
  unfold Hears
  infer_instance

lemma mem_node {s : SplitChannel V P} {n : ℕ} :
    p ∈ (s.node n).participants ↔ p ∈ s.whole.participants ∧ s.host p.userId = n := by
  simp [node]

lemma exists_node {s : SplitChannel V P} {user : UserId} {takes : Participant V → Prop} :
    (∃ p ∈ (s.node (s.host user)).participants, p.userId = user ∧ takes p) ↔
      ∃ p ∈ s.whole.participants, p.userId = user ∧ takes p := by
  constructor
  · rintro ⟨p, hp, hid, htakes⟩
    exact ⟨p, (mem_node.mp hp).1, hid, htakes⟩
  · rintro ⟨p, hp, rfl, htakes⟩
    exact ⟨p, mem_node.mpr ⟨hp, rfl⟩, rfl, htakes⟩

variable {s : SplitChannel V P} {gates : FrameGates V} {sender target user : UserId}

lemma hears_of_same_node (htype : s.whole.config.channelType = .whisper)
    (htarget : s.whole.config.whisperTarget = some target) (hhost : s.host user = s.host sender) :
    s.Hears ac gates sender user ↔ user ∈ users (s.whole.getReceiversForAudio ac gates sender) := by
  rw [Hears, if_pos hhost, MediaChannel.mem_whispered ac (c := s.node _) htype htarget,
    MediaChannel.mem_whispered ac htype htarget]
  exact and_congr_right fun _ => and_congr_right fun _ => exists_node

lemma hears_of_other_node (htype : s.whole.config.channelType = .whisper) (hhost : s.host user ≠ s.host sender) :
    s.Hears ac gates sender user ↔
      ∃ p ∈ s.whole.participants, p.userId = user ∧ s.whole.Takes ac gates sender p := by
  have hrelays : (s.node (s.host sender)).relaysToPeers = true := by
    simp [MediaChannel.relaysToPeers, node, htype]
  have hne : user ≠ sender := by
    rintro rfl
    exact hhost rfl
  rw [Hears, if_neg hhost, MediaChannel.mem_relayedWhisper ac (c := s.node _) htype]
  simp only [hrelays, true_and, ne_eq, hne, not_false_eq_true]
  exact exists_node

/-- Both ways to say that the split makes no difference hold exactly when everybody on another node
who is not the target would refuse the frame. -/
theorem whisper_reaches_target_only_iff (s : SplitChannel V P) (gates : FrameGates V) (sender target : UserId)
    (htype : s.whole.config.channelType = .whisper) (htarget : s.whole.config.whisperTarget = some target) :
    ((∀ user, s.Hears ac gates sender user ↔ user ∈ users (s.whole.getReceiversForAudio ac gates sender)) ∧
      ∀ user, s.Hears ac gates sender user → user = target) ↔
    ∀ p ∈ s.whole.participants, s.host p.userId ≠ s.host sender → p.userId ≠ target →
      ¬ s.whole.Takes ac gates sender p := by
  constructor
  · rintro ⟨-, honly⟩ p hp hhost hne htakes
    exact hne (honly p.userId ((hears_of_other_node ac htype hhost).mpr ⟨p, hp, rfl, htakes⟩))
  · intro hrefuse
    have hsame : ∀ user, s.Hears ac gates sender user ↔
        user ∈ users (s.whole.getReceiversForAudio ac gates sender) := by
      intro user
      by_cases hhost : s.host user = s.host sender
      · exact hears_of_same_node ac htype htarget hhost
      · rw [hears_of_other_node ac htype hhost, MediaChannel.mem_whispered ac htype htarget]
        constructor
        · rintro ⟨p, hp, rfl, htakes⟩
          have hid : p.userId = target := by
            by_contra hne
            exact hrefuse p hp hhost hne htakes
          refine ⟨hid, ?_, p, hp, rfl, htakes⟩
          rintro rfl
          exact hhost (congrArg s.host hid)
        · rintro ⟨-, -, hp⟩
          exact hp
    refine ⟨hsame, ?_⟩
    intro user hhears
    exact ((MediaChannel.mem_whispered ac htype htarget).mp ((hsame user).mp hhears)).1

def flat : Acoustics ℕ Unit Unit where
  zero := 0
  one := 1
  sub := Nat.sub
  mul := Nat.mul
  div := Nat.div
  le a b := decide (a ≤ b)
  lt a b := decide (a < b)
  inaudible := 0
  distance _ _ := 0
  bearing _ _ := ()

def openGates : FrameGates ℕ := ⟨1, 1, fun _ => none, fun _ => none⟩

def member (user : UserId) (muted : Finset UserId) : Participant ℕ :=
  ⟨user, ⟨muted, ∅, .empty, ∅, ∅, none, 1⟩⟩

def whispering (muted : Finset UserId) : SplitChannel ℕ Unit where
  whole :=
    { channelId := 7
      config := ⟨.whisper, none, none, some 2⟩
      participants := [member 1 ∅, member 2 ∅, member 3 muted]
      nodup := (by decide : ([1, 2, 3] : List UserId).Nodup)
      roles := .empty
      positions := .empty }
  host user := if user = 1 then 0 else 1

theorem whisper_reaches_target_only_iff_sample :
    (whispering {1}).whole.config.whisperTarget = some 2 ∧
      ∀ user, (whispering {1}).Hears flat openGates 1 user → user = 2 := by
  refine ⟨rfl, ?_⟩
  refine ((whisper_reaches_target_only_iff flat (whispering {1}) openGates 1 2 rfl rfl).mpr ?_).2
  intro p hp
  simp only [whispering, mem_cons, not_mem_nil, or_false] at hp
  rcases hp with rfl | rfl | rfl
  · exact fun hhost => absurd rfl hhost
  · exact fun _ hne => absurd rfl hne
  · exact fun _ _ => by decide

theorem whisper_overheard :
    (whispering ∅).Hears flat openGates 1 3 ∧
      3 ∉ users ((whispering ∅).whole.getReceiversForAudio flat openGates 1) := by
  decide

end SplitChannel

end AurixVoice.Media
