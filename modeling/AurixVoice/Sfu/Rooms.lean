import AurixVoice.Channel.RefusedJoin
import AurixVoice.Sfu.Node

/-!
The channels of a node against any table `live` of sessions and lists `joined`, so that a node that is taking
a session down is described as well.
-/

namespace AurixVoice

open Dict Function
open Option (some)

namespace Channel.MediaChannel

variable {V P : Type} {c : MediaChannel V P}

lemma participants_removeParticipant (c : MediaChannel V P) (user : UserId) :
    (c.removeParticipant user).2.participants = c.participants.erase user := by
  unfold removeParticipant
  cases hsession : c.participants.find user with
  | some => rfl
  | none =>
    apply ext
    intro other
    by_cases hother : other = user
    · rw [hother, find_erase, if_pos rfl]
      exact hsession
    · rw [find_erase, if_neg hother]

variable {config : ChannelConfig V}

lemma participants_admitWaiting (h : Sound config c) (env : Env) :
    (c.admitWaiting env).2.participants = c.participants :=
  (h.toSlotted.admitLoop env (c.waitingQueue env false)).2.participants

lemma participantCount_eq_zero (h : Sound config c) : c.participantCount = 0 ↔ ¬ c.participants.keys.Nonempty := by
  rw [Finset.not_nonempty_iff_eq_empty, ← Finset.card_eq_zero, ← h.counted]
  exact UInt32.toNat_inj.symm

end Channel.MediaChannel

namespace Sfu

open Channel
open Media (ChannelRole)

variable {V P : Type}

structure Rooms (hash : ChannelId → UInt32) (s : SfuNode V P) (live : SessionId → Option MediaSession)
    (joined : MediaSession → List ChannelId) : Prop where
  keyed : ∀ sid session, live sid = some session → session.sessionId = sid
  alone : ∀ sid sid' session session', live sid = some session → live sid' = some session' →
    session.userId = session'.userId → session = session'
  hashed : ∀ id c, s.channels.find id = some c → s.channelsByHash.find (hash id) = some id
  sound : ∀ id c, s.channels.find id = some c → ∃ config, c.Sound config
  listed : ∀ sid session, live sid = some session → ∀ id, id ∈ joined session ↔
    ∃ c, s.channels.find id = some c ∧ c.participants.find session.userId = some session
  present : ∀ id c user session, s.channels.find id = some c → c.participants.find user = some session →
    session.userId = user ∧ live session.sessionId = some session
  occupied : ∀ id c, s.channels.find id = some c →
    c.participants.keys.Nonempty ∨ (s.pinnedChannels.find id).isSome
  pinned : ∀ id, (s.pinnedChannels.find id).isSome → (s.channels.find id).isSome

namespace Rooms

variable {hash : ChannelId → UInt32} {s : SfuNode V P} {live : SessionId → Option MediaSession}
  {joined : MediaSession → List ChannelId} {s' : SfuNode V P} {c c' : MediaChannel V P}
  {joined' : MediaSession → List ChannelId} {live' : SessionId → Option MediaSession}

section

variable (h : Rooms hash s live joined)
include h

lemma congr (hchannels : s'.channels = s.channels) (hhashes : s'.channelsByHash = s.channelsByHash)
    (hpinned : ∀ id, (s'.pinnedChannels.find id).isSome = (s.pinnedChannels.find id).isSome) :
    Rooms hash s' live joined where
  keyed := h.keyed
  alone := h.alone
  hashed := by
    rw [hchannels, hhashes]
    exact h.hashed
  sound := by
    rw [hchannels]
    exact h.sound
  listed := by
    rw [hchannels]
    exact h.listed
  present := by
    rw [hchannels]
    exact h.present
  occupied := by
    intro id c
    rw [hchannels, hpinned]
    exact h.occupied id c
  pinned := by
    intro id
    rw [hchannels, hpinned]
    exact h.pinned id

lemma eq_of_hash {id id' : ChannelId} (hc : s.channels.find id = some c) (hc' : s.channels.find id' = some c')
    (heq : hash id = hash id') : id = id' := by
  have hid := h.hashed id c hc
  rw [heq, h.hashed id' c' hc'] at hid
  exact (some.inj hid).symm

end

structure Registers (hash : ChannelId → UInt32) (s s' : SfuNode V P) (id : ChannelId) (c : MediaChannel V P) :
    Prop where
  channels : s'.channels = s.channels.set id c
  hashes : s'.channelsByHash =
    if (s.channels.find id).isNone then s.channelsByHash.set (hash id) id else s.channelsByHash
  free : ∀ existing, s.channelsByHash.find (hash id) = some existing → existing = id

lemma Registers.hashed {id : ChannelId} (hr : Registers hash s s' id c) (h : Rooms hash s live joined) (id' : ChannelId)
    (d : MediaChannel V P) (hd : s'.channels.find id' = some d) : s'.channelsByHash.find (hash id') = some id' := by
  rw [hr.channels, find_set] at hd
  rw [hr.hashes]
  split
  · rw [find_set]
    by_cases hne : id' = id
    · rw [hne, if_pos rfl]
    · rw [if_neg hne] at hd
      have hdiff : hash id' ≠ hash id := by
        intro heq
        apply hne
        apply hr.free
        rw [← heq]
        exact h.hashed id' d hd
      rw [if_neg hdiff]
      exact h.hashed id' d hd
  next hold =>
    by_cases hne : id' = id
    · rw [hne]
      cases hd' : s.channels.find id with
      | none => exact absurd (hd' ▸ rfl) hold
      | some d' => exact h.hashed id d' hd'
    · rw [if_neg hne] at hd
      exact h.hashed id' d hd

/-- The lists of the live sessions change for one channel only, to what its new state `c` says. -/
structure Seated (live : SessionId → Option MediaSession) (joined joined' : MediaSession → List ChannelId)
    (id : ChannelId) (c : MediaChannel V P) : Prop where
  sound : ∃ config, c.Sound config
  others : ∀ sid session, live sid = some session →
    ∀ id', id' ≠ id → (id' ∈ joined' session ↔ id' ∈ joined session)
  listed : ∀ sid session, live sid = some session →
    (id ∈ joined' session ↔ c.participants.find session.userId = some session)
  present : ∀ user session, c.participants.find user = some session →
    session.userId = user ∧ live session.sessionId = some session

lemma register {id : ChannelId} (h : Rooms hash s live joined) (hr : Registers hash s s' id c)
    (hseated : Seated live joined joined' id c)
    (hoccupied : c.participants.keys.Nonempty ∨ (s'.pinnedChannels.find id).isSome)
    (hpins : ∀ id', id' ≠ id → s'.pinnedChannels.find id' = s.pinnedChannels.find id') :
    Rooms hash s' live joined' where
  keyed := h.keyed
  alone := h.alone
  hashed := hr.hashed h
  sound := by
    rw [hr.channels]
    intro id' d hd
    rcases of_find_set hd with ⟨-, rfl⟩ | ⟨-, hd⟩
    · exact hseated.sound
    · exact h.sound id' d hd
  listed := by
    intro sid session hsession id'
    rw [hr.channels]
    simp only [find_set]
    split
    next heq =>
      rw [heq, hseated.listed sid session hsession]
      simp
    next hne =>
      rw [hseated.others sid session hsession id' hne]
      exact h.listed sid session hsession id'
  present := by
    rw [hr.channels]
    intro id' d user session hd
    rcases of_find_set hd with ⟨-, rfl⟩ | ⟨-, hd⟩
    · exact hseated.present user session
    · exact h.present id' d user session hd
  occupied := by
    rw [hr.channels]
    intro id' d hd
    rcases of_find_set hd with ⟨rfl, rfl⟩ | ⟨hne, hd⟩
    · exact hoccupied
    · rw [hpins id' hne]
      exact h.occupied id' d hd
  pinned := by
    rw [hr.channels]
    intro id' hpin
    rw [find_set]
    split
    · rfl
    next hne =>
      rw [hpins id' hne] at hpin
      exact h.pinned id' hpin

lemma keepOrDrop (h : Rooms hash s live joined) (s' : SfuNode V P) (hchannels : s'.channels = s.channels)
    (hhashes : s'.channelsByHash = s.channelsByHash) {id : ChannelId}
    (hpins : ∀ id', id' ≠ id → s'.pinnedChannels.find id' = s.pinnedChannels.find id')
    (hc : s.channels.find id = some c) (hseated : Seated live joined joined' id c') :
    Rooms hash (s'.keepOrDrop hash id c') live joined' := by
  have hzero := MediaChannel.participantCount_eq_zero hseated.sound.choose_spec
  unfold SfuNode.keepOrDrop
  rw [hchannels, hhashes]
  split
  next hdrop =>
    have hempty : ∀ user, c'.participants.find user = none := by
      intro user
      rw [← Option.not_isSome_iff_eq_none, ← mem_keys]
      exact fun hmem => hzero.mp hdrop.1 ⟨user, hmem⟩
    constructor
    · exact h.keyed
    · exact h.alone
    · intro id' d hd
      obtain ⟨hne, hd⟩ := of_find_erase hd
      simp only [find_erase]
      rw [if_neg fun heq => hne (h.eq_of_hash hd hc heq)]
      exact h.hashed id' d hd
    · exact fun id' d hd => h.sound id' d (of_find_erase hd).2
    · intro sid session hsession id'
      simp only [find_erase]
      split
      next heq =>
        rw [heq, hseated.listed sid session hsession, hempty]
        simp
      next hne =>
        rw [hseated.others sid session hsession id' hne]
        exact h.listed sid session hsession id'
    · exact fun id' d user session hd => h.present id' d user session (of_find_erase hd).2
    · intro id' d hd
      obtain ⟨hne, hd⟩ := of_find_erase hd
      rw [hpins id' hne]
      exact h.occupied id' d hd
    · intro id' hpin
      simp only [find_erase]
      split
      next heq =>
        rw [heq] at hpin
        rw [Option.isNone_iff_eq_none.mp hdrop.2] at hpin
        cases hpin
      next hne =>
        rw [hpins id' hne] at hpin
        exact h.pinned id' hpin
  next hkeep =>
    refine h.register ⟨rfl, ?_, ?_⟩ hseated ?_ hpins
    · rw [hc]
      rfl
    · intro existing hexisting
      rw [h.hashed id c hc] at hexisting
      exact (some.inj hexisting).symm
    · by_contra hneither
      obtain ⟨hnobody, hunpinned⟩ := not_or.mp hneither
      exact hkeep ⟨hzero.mpr hnobody, Option.not_isSome_iff_eq_none.mp hunpinned ▸ rfl⟩

def without (joined : MediaSession → List ChannelId) (session : MediaSession) (left : List ChannelId) :
    MediaSession → List ChannelId :=
  update joined session ((joined session).filter (· ∉ left))

section

variable (joined : MediaSession → List ChannelId) (session : MediaSession)

lemma without_nil : without joined session [] = joined := by
  unfold without
  simp

lemma without_without (id : ChannelId) (left : List ChannelId) :
    without (without joined session [id]) session left = without joined session (id :: left) := by
  unfold without
  rw [update_idem, update_self, List.filter_filter]
  congr 1
  apply List.filter_congr
  simp [Bool.and_comm]

end

variable {session : MediaSession}

lemma mem_without {other : MediaSession} {left : List ChannelId} {id : ChannelId} :
    id ∈ without joined session left other ↔ id ∈ joined other ∧ (other = session → id ∉ left) := by
  unfold without
  by_cases hother : other = session
  · subst hother
    simp
  · simp [hother]

section

variable (h : Rooms hash s live joined)
include h

lemma leave (s' : SfuNode V P) (hchannels : s'.channels = s.channels) (hhashes : s'.channelsByHash = s.channelsByHash)
    (hpinned : s'.pinnedChannels = s.pinnedChannels) {id : ChannelId}
    (hlive : live session.sessionId = some session) (hc : s.channels.find id = some c)
    (hsound : ∃ config, c'.Sound config) (hc' : c'.participants = c.participants.erase session.userId) :
    Rooms hash (s'.keepOrDrop hash id c') live (without joined session [id]) := by
  refine h.keepOrDrop s' hchannels hhashes (fun _ _ => by rw [hpinned]) hc ⟨hsound, ?_, ?_, ?_⟩
  · intro sid other hother id' hne
    rw [mem_without, List.mem_singleton]
    exact ⟨And.left, fun hmem => ⟨hmem, fun _ => hne⟩⟩
  · intro sid other hother
    rw [mem_without, h.listed sid other hother, hc', find_erase]
    split
    next huser =>
      have hsame := h.alone _ _ _ _ hother hlive huser
      simp [hsame]
    next huser =>
      have hne : other ≠ session := fun heq => huser (heq ▸ rfl)
      constructor
      · rintro ⟨⟨d, hd, hfound⟩, -⟩
        obtain rfl := some.inj (hd.symm.trans hc)
        exact hfound
      · exact fun hfound => ⟨⟨c, hc, hfound⟩, fun heq => absurd heq hne⟩
  · intro user other hfound
    rw [hc', find_erase] at hfound
    split at hfound
    · cases hfound
    · exact h.present id c user other hc hfound

lemma leave_unhosted {id : ChannelId} (hc : s.channels.find id = none) :
    Rooms hash s live (without joined session [id]) where
  keyed := h.keyed
  alone := h.alone
  hashed := h.hashed
  sound := h.sound
  present := h.present
  occupied := h.occupied
  pinned := h.pinned
  listed := by
    intro sid other hother id'
    rw [mem_without, h.listed sid other hother id', List.mem_singleton]
    constructor
    · exact And.left
    · rintro ⟨d, hd, hfound⟩
      refine ⟨⟨d, hd, hfound⟩, fun _ heq => ?_⟩
      rw [heq, hc] at hd
      cases hd

lemma forget (hlive : live session.sessionId = some session) (hnone : joined session = [])
    (hlive' : ∀ sid, live' sid = if sid = session.sessionId then none else live sid)
    (hjoined : ∀ other, other ≠ session → joined' other = joined other) : Rooms hash s live' joined' := by
  have hstays : ∀ sid other, live' sid = some other → live sid = some other ∧ other ≠ session := by
    intro sid other hother
    rw [hlive'] at hother
    split at hother
    · cases hother
    next hne => exact ⟨hother, fun heq => hne (heq ▸ h.keyed sid other hother).symm⟩
  constructor
  · exact fun sid other hother => h.keyed sid other (hstays sid other hother).1
  · intro sid sid' other other' hother hother'
    exact h.alone _ _ _ _ (hstays sid other hother).1 (hstays sid' other' hother').1
  · exact h.hashed
  · exact h.sound
  · intro sid other hother id
    obtain ⟨hbefore, hne⟩ := hstays sid other hother
    rw [hjoined other hne]
    exact h.listed sid other hbefore id
  · intro id c user other hc hfound
    obtain ⟨huser, hother⟩ := h.present id c user other hc hfound
    refine ⟨huser, ?_⟩
    rw [hlive']
    split
    next heq =>
      rw [heq, hlive] at hother
      obtain rfl := some.inj hother
      have hmem := (h.listed _ _ hlive id).mpr ⟨c, hc, huser ▸ hfound⟩
      rw [hnone] at hmem
      cases hmem
    · exact hother
  · exact h.occupied
  · exact h.pinned

lemma add (hfresh : live session.sessionId = none)
    (huser : ∀ sid other, live sid = some other → other.userId ≠ session.userId)
    (hlive' : ∀ sid, live' sid = if sid = session.sessionId then some session else live sid) :
    Rooms hash s live' (update joined session []) := by
  have hcases : ∀ sid other, live' sid = some other →
      (sid = session.sessionId ∧ other = session) ∨ (live sid = some other ∧ other ≠ session) := by
    intro sid other hother
    rw [hlive'] at hother
    split at hother
    next heq => exact .inl ⟨heq, (some.inj hother).symm⟩
    · exact .inr ⟨hother, fun heq => huser sid other hother (heq ▸ rfl)⟩
  constructor
  · intro sid other hother
    obtain ⟨rfl, rfl⟩ | ⟨hbefore, -⟩ := hcases sid other hother
    · rfl
    · exact h.keyed sid other hbefore
  · intro sid sid' other other' hother hother' heq
    obtain ⟨rfl, rfl⟩ | ⟨hbefore, -⟩ := hcases sid other hother
    · obtain ⟨-, rfl⟩ | ⟨hbefore', -⟩ := hcases sid' other' hother'
      · rfl
      · exact absurd heq.symm (huser sid' other' hbefore')
    · obtain ⟨-, rfl⟩ | ⟨hbefore', -⟩ := hcases sid' other' hother'
      · exact absurd heq (huser sid other hbefore)
      · exact h.alone _ _ _ _ hbefore hbefore' heq
  · exact h.hashed
  · exact h.sound
  · intro sid other hother id
    obtain ⟨rfl, rfl⟩ | ⟨hbefore, hne⟩ := hcases sid other hother
    · rw [update_self]
      refine iff_of_false List.not_mem_nil ?_
      rintro ⟨c, hc, hfound⟩
      obtain ⟨-, hother⟩ := h.present id c _ _ hc hfound
      rw [hfresh] at hother
      cases hother
    · rw [update_of_ne hne]
      exact h.listed sid other hbefore id
  · intro id c user other hc hfound
    obtain ⟨heq, hother⟩ := h.present id c user other hc hfound
    refine ⟨heq, ?_⟩
    rw [hlive', if_neg]
    · exact hother
    · intro hsame
      rw [hsame, hfresh] at hother
      cases hother
  · exact h.occupied
  · exact h.pinned

end

end Rooms

end Sfu

end AurixVoice
