import AurixVoice.Downlink.Native
import AurixVoice.E2ee.Speaks

namespace AurixVoice.Downlink.Native.Client

open E2ee List

variable (crypto : Crypto)

def Heard (p : Playback Client) : Prop :=
  p.client.AllEncrypted → ∃ u, p.client.Member u ∧ p.client.group.Speaks crypto u p.received p.played

def ParksSealed (c : Client) : Prop := c.e2eePending.All fun _ queue => ∀ parked ∈ queue, parked.2.e2ee = true

lemma new_parksSealed (g : Group) : (new g).ParksSealed := nofun

variable {c : Client} {ssrc : UInt32}

lemma mem_holders {u : UserId} (h : u ∈ c.holders ssrc) : c.Member u := by
  obtain ⟨roster, hroster, hu⟩ := mem_ssrcHolders h
  obtain ⟨⟨id, channel⟩, hchannel, rfl⟩ := mem_map.mp hroster
  exact ⟨id, channel, ssrc, Dict.mem_entries.mp hchannel, hu⟩

lemma userForSsrc_member {coins : Coins} {u : UserId} (h : c.userForSsrc coins ssrc = some u) : c.Member u := by
  apply mem_holders
  exact (coins.mem_users _ _).mp (mem_of_head? h)

lemma channelEncrypted_iff {hash : UInt32} :
    c.channelEncrypted hash = true ↔
      ∃ id channel, c.channels.find id = some channel ∧ channel.hash = hash ∧ channel.e2ee = true := by
  simp only [channelEncrypted, any_eq_true, Bool.and_eq_true, decide_eq_true_eq]
  constructor
  · rintro ⟨⟨id, channel⟩, hmem, hchannel⟩
    exact ⟨id, channel, Dict.mem_entries.mp hmem, hchannel⟩
  · rintro ⟨id, channel, hfind, hchannel⟩
    exact ⟨(id, channel), Dict.mem_entries.mpr hfind, hchannel⟩

variable {audio : IncomingAudio}

lemma deliver_sealed (h : audio.e2ee = true) (coins : Coins) (now : ℕ) (park : Bool) :
    ∀ p ∈ (c.deliver crypto coins now audio park).1, Heard crypto p := by
  intro p hp hall
  simp only [deliver, deliverAudio, h, ↓reduceIte] at hp
  split at hp
  · cases hp
  next user huser =>
    split at hp
    next plain g hdecrypt =>
      obtain rfl := mem_singleton.mp hp
      exact ⟨user, userForSsrc_member huser, Group.decrypt_eq_ok hdecrypt⟩
    · split at hp <;> cases hp

lemma deliver_plain (h : audio.e2ee = false) (coins : Coins) (now : ℕ) (park : Bool) :
    (c.deliver crypto coins now audio park).1 =
      if c.channelEncrypted audio.channelHash then [] else [⟨c, audio.payload, audio.payload⟩] := by
  simp only [deliver, deliverAudio, h, Bool.false_eq_true, ↓reduceIte]
  split <;> rfl

lemma park_parksSealed (h : c.ParksSealed) (now : ℕ) (user : UserId)
    (haudio : audio.e2ee = true) : (c.parkE2eeFrame now user audio).ParksSealed := by
  have hold : ∀ parked ∈ (c.e2eePending.find user).getD [], parked.2.e2ee = true := by
    cases hfind : c.e2eePending.find user with
    | none => nofun
    | some queue => exact h user queue hfind
  apply Dict.All.set h
  intro parked hparked
  rcases mem_append.mp hparked with hparked | hparked
  · apply hold
    split at hparked
    · exact dropWhile_subset _ (mem_of_mem_tail hparked)
    · exact dropWhile_subset _ hparked
  · rw [mem_singleton.mp hparked]
    exact haudio

lemma deliver_parksSealed (h : c.ParksSealed) (coins : Coins) (now : ℕ) (audio : IncomingAudio) (park : Bool) :
    (c.deliver crypto coins now audio park).2.ParksSealed := by
  simp only [deliver, deliverAudio]
  split
  next haudio =>
    split
    · exact h
    · split
      · exact h
      · split
        · exact park_parksSealed (by exact h) now _ haudio
        · exact h
  · split <;> exact h

lemma replay_heard (coins : Coins) (now : ℕ) {queue : List (ℕ × IncomingAudio)}
    (hqueue : ∀ parked ∈ queue, parked.2.e2ee = true) (h : c.ParksSealed) :
    (∀ p ∈ (replay crypto coins now queue c).1, Heard crypto p) ∧
      (replay crypto coins now queue c).2.ParksSealed := by
  induction queue generalizing c with
  | nil => exact ⟨nofun, h⟩
  | cons parked rest ih =>
    obtain ⟨hparked, hrest⟩ := forall_mem_cons.mp hqueue
    simp only [replay]
    split
    · exact ih hrest h
    · obtain ⟨hlater, hsealed⟩ := ih hrest (deliver_parksSealed crypto h coins now parked.2 false)
      refine ⟨?_, hsealed⟩
      intro p hp
      rcases mem_append.mp hp with hp | hp
      · exact deliver_sealed crypto hparked coins now false p hp
      · exact hlater p hp

variable (h : c.ParksSealed) (i : Input)
include h

lemma replayE2eePending_heard (coins : Coins) (now : ℕ) (user : UserId) :
    (∀ p ∈ (c.replayE2eePending crypto coins now user).1, Heard crypto p) ∧
      (c.replayE2eePending crypto coins now user).2.ParksSealed := by
  unfold replayE2eePending
  split
  · exact ⟨nofun, h⟩
  next queue hqueue => exact replay_heard crypto coins now (h user queue hqueue) (Dict.All.erase h user)

lemma step_parksSealed : (c.step crypto i).ParksSealed := by
  unfold step handle
  split
  · exact h
  · exact h
  · exact (replayE2eePending_heard crypto h i.coins i.now _).2
  · exact Dict.All.foldl_erase h _
  · exact deliver_parksSealed crypto h i.coins i.now _ true

lemma playback_heard_iff : (∀ p ∈ c.playback crypto i, Heard crypto p) ↔ (c.AllEncrypted → c.Labelled i) := by
  obtain ⟨now, coins, event⟩ := i
  cases event with
  | replayE2eePending user =>
    exact iff_of_true (replayE2eePending_heard crypto h coins now user).1 fun _ => nofun
  | audio audio =>
    simp only [playback, handle]
    cases haudio : audio.e2ee with
    | true =>
      refine iff_of_true (deliver_sealed crypto haudio coins now true) ?_
      rintro - _ ⟨⟩
      exact .inl haudio
    | false =>
      rw [deliver_plain crypto haudio]
      cases henc : c.channelEncrypted audio.channelHash with
      | true =>
        refine iff_of_true nofun ?_
        rintro - _ ⟨⟩
        obtain ⟨id, channel, hfind, hhash, -⟩ := channelEncrypted_iff.mp henc
        exact .inr ⟨id, channel, hfind, hhash⟩
      | false =>
        simp only [Bool.false_eq_true, ↓reduceIte, forall_mem_singleton]
        refine imp_congr_right fun hall => iff_of_false ?_ ?_
        · rintro ⟨u, -, hspeaks⟩
          exact hspeaks.ne rfl
        · intro hlabelled
          rcases hlabelled audio rfl with hsealed | ⟨id, channel, hfind, hhash⟩
          · simp [haudio] at hsealed
          · rw [channelEncrypted_iff.mpr ⟨id, channel, hfind, hhash, hall id channel hfind⟩] at henc
            cases henc
  | _ => exact iff_of_true nofun fun _ => nofun

end AurixVoice.Downlink.Native.Client
