import AurixVoice.Downlink.Packet
import AurixVoice.E2ee.SharedChannels
import AurixVoice.E2ee.Speaks

/-! The receiving side of the Unity client, whose group is the native one; its tables may change in any way. -/

namespace AurixVoice.Downlink.Unity

open E2ee

structure Tables where
  joinedChannels : Finset ChannelId
  bySsrc : Dict UInt32 UserId
  policies : Dict ChannelId Bool

structure Client where
  tables : Tables
  group : Group

def Client.new (group : Group) : Client := ⟨⟨∅, .empty, .empty⟩, group⟩

namespace Tables

def findBySsrc (t : Tables) (ssrc : UInt32) : Option UserId :=
  match t.bySsrc.find ssrc with
  | some user => some user
  | none => if ssrc &&& synthSsrcFlag ≠ 0 then t.bySsrc.find (sourceSsrc ssrc) else none

variable (channelHash : ChannelId → UInt32)

def isHashEncrypted (t : Tables) (hash : UInt32) : Bool :=
  t.policies.entries.any fun policy => policy.2 && channelHash policy.1 = hash

end Tables

inductive Event
  | tables (tables : Tables)
  | group (coins : Coins) (op : GroupOp)
  | audio (audio : IncomingAudio)

namespace Client

variable (channelHash : ChannelId → UInt32) (crypto : Crypto)

def dequeueAudio (c : Client) (audio : IncomingAudio) : Option IncomingAudio × Client :=
  if audio.e2ee then
    if audio.mixed then (none, c)
    else match c.tables.findBySsrc audio.senderSsrc with
      | none => (none, c)
      | some sender =>
        match c.group.decrypt crypto sender audio.payload with
        | (.ok plain, g) => (some { audio with payload := plain }, { c with group := g })
        | (.error _, g) => (none, { c with group := g })
  else if c.tables.isHashEncrypted channelHash audio.channelHash then (none, c)
  else (some audio, c)

def step (c : Client) : Event → Client
  | .tables tables => { c with tables := tables }
  | .group coins op => { c with group := (c.group.apply crypto coins op).2 }
  | .audio audio => (c.dequeueAudio channelHash crypto audio).2

def playback (c : Client) : Event → List (Playback Client)
  | .audio audio =>
    (c.dequeueAudio channelHash crypto audio).1.toList.map fun frame => ⟨c, audio.payload, frame.payload⟩
  | _ => []

def AllEncrypted (c : Client) : Prop := ∀ id ∈ c.tables.joinedChannels, c.tables.policies.find id = some true

def Member (c : Client) (u : UserId) : Prop :=
  ∃ peer, c.group.peers.find u = some peer ∧ ∃ id ∈ peer.channels, id ∈ c.group.channels

def Labelled (c : Client) : Event → Prop
  | .audio audio => audio.e2ee = true ∨ ∃ id, c.tables.policies.find id = some true ∧ channelHash id = audio.channelHash
  | _ => True

def Heard (p : Playback Client) : Prop :=
  p.client.AllEncrypted → ∃ u, p.client.Member u ∧ p.client.group.Speaks crypto u p.received p.played

variable {c : Client}

lemma speaks_member (h : c.group.Shared) {u : UserId} {frame plain : Bytes}
    (hspeaks : c.group.Speaks crypto u frame plain) : c.Member u := by
  obtain ⟨-, peer, hpeer, -⟩ := hspeaks
  obtain ⟨⟨id, hid⟩, hsub⟩ := h u peer hpeer
  exact ⟨peer, hpeer, id, hid, hsub hid⟩

lemma isHashEncrypted_iff {t : Tables} {hash : UInt32} :
    t.isHashEncrypted channelHash hash = true ↔ ∃ id, t.policies.find id = some true ∧ channelHash id = hash := by
  simp only [Tables.isHashEncrypted, List.any_eq_true, Bool.and_eq_true, decide_eq_true_eq]
  constructor
  · rintro ⟨⟨id, e2ee⟩, hmem, rfl, hhash⟩
    exact ⟨id, Dict.mem_entries.mp hmem, hhash⟩
  · rintro ⟨id, hfind, hhash⟩
    exact ⟨(id, true), Dict.mem_entries.mpr hfind, rfl, hhash⟩

lemma step_shared (h : c.group.Shared) (e : Event) : (c.step channelHash crypto e).group.Shared := by
  cases e with
  | tables => exact h
  | group coins op => exact (Group.sharedIn_lasting crypto).apply h coins op
  | audio audio =>
    simp only [step, dequeueAudio]
    split
    · split
      · exact h
      · split
        · exact h
        next sender _ =>
          have hdecrypt := (Group.sharedIn_lasting crypto).decrypt h sender audio.payload
          split
          next heq => rwa [heq] at hdecrypt
          next heq => rwa [heq] at hdecrypt
    · split <;> exact h

lemma dequeueAudio_sealed (h : c.group.Shared) {audio : IncomingAudio} (haudio : audio.e2ee = true) :
    ∀ p ∈ c.playback channelHash crypto (.audio audio), Heard crypto p := by
  intro p hp hall
  simp only [playback, dequeueAudio, haudio, ↓reduceIte] at hp
  split at hp
  · cases hp
  · split at hp
    · cases hp
    · split at hp
      next plain g hdecrypt =>
        obtain rfl := List.mem_singleton.mp hp
        have hspeaks := Group.decrypt_eq_ok hdecrypt
        exact ⟨_, speaks_member crypto h hspeaks, hspeaks⟩
      · cases hp

lemma playback_plain {audio : IncomingAudio} (haudio : audio.e2ee = false) :
    c.playback channelHash crypto (.audio audio) =
      if c.tables.isHashEncrypted channelHash audio.channelHash then [] else [⟨c, audio.payload, audio.payload⟩] := by
  simp only [playback, dequeueAudio, haudio, Bool.false_eq_true, ↓reduceIte]
  split <;> rfl

lemma playback_heard_iff (h : c.group.Shared) (e : Event) :
    (∀ p ∈ c.playback channelHash crypto e, Heard crypto p) ↔ (c.AllEncrypted → c.Labelled channelHash e) := by
  cases e with
  | tables | group => exact iff_of_true nofun fun _ => trivial
  | audio audio =>
    cases haudio : audio.e2ee with
    | true => exact iff_of_true (dequeueAudio_sealed channelHash crypto h haudio) fun _ => .inl haudio
    | false =>
      rw [playback_plain channelHash crypto haudio, Labelled, ← isHashEncrypted_iff]
      cases c.tables.isHashEncrypted channelHash audio.channelHash with
      | true => exact iff_of_true nofun fun _ => .inr rfl
      | false =>
        simp only [Bool.false_eq_true, ↓reduceIte, List.forall_mem_singleton, haudio, or_false]
        refine imp_congr_right fun _ => iff_of_false ?_ id
        rintro ⟨u, -, hspeaks⟩
        exact hspeaks.ne rfl

end Client

end AurixVoice.Downlink.Unity
