import AurixVoice.Downlink.BrowserHeard
import AurixVoice.Downlink.NativeHeard
import AurixVoice.Downlink.Unity

namespace AurixVoice.Downlink

open E2ee Traces Web Browser.Client Unity.Client

section

variable (crypto : Crypto) (channelHash : ChannelId → UInt32)

theorem only_members_heard (api : TransformApi) (identity : IdentityKey) (secret : Secret) :
    (∀ inputs, let c := Native.Client.new (.new crypto identity secret)
      (∀ p ∈ outputs (Native.Client.step crypto) (Native.Client.playback crypto) c inputs,
        Native.Client.Heard crypto p) ↔
      Meets (Native.Client.step crypto) (fun c i => c.AllEncrypted → c.Labelled i) c inputs) ∧
    (∀ events, let c := new (.new crypto identity secret)
      (∀ p ∈ outputs (step channelHash crypto) (playback channelHash crypto) c events,
        Unity.Client.Heard crypto p) ↔
      Meets (step channelHash crypto) (fun c e => c.AllEncrypted → c.Labelled channelHash e) c events) ∧
    (∀ events, let c := new api identity secret
      Meets (step crypto) (Browser.Client.Orderly crypto) c events →
      ((∀ p ∈ outputs (step crypto) (playback crypto) c events,
        Browser.Client.Heard crypto p) ↔
      Meets (step crypto) (fun c e => c.AllEncrypted → c.Labelled e) c events)) := by
  refine ⟨?_, ?_, ?_⟩
  · intro inputs c
    rw [forall_outputs_iff]
    refine meets_iff Native.Client.ParksSealed ?_ ?_ (meets_of_forall (fun _ _ => trivial) _ _)
      (Native.Client.new_parksSealed _)
    · intro c i hc _
      exact Native.Client.step_parksSealed crypto hc i
    · intro c i hc _
      exact Native.Client.playback_heard_iff crypto hc i
  · intro events c
    rw [forall_outputs_iff]
    refine meets_iff (fun c => c.group.Shared) ?_ ?_ (meets_of_forall (fun _ _ => trivial) _ _)
      (Group.new_shared crypto identity secret)
    · intro c e hc _
      exact step_shared channelHash crypto hc e
    · intro c e hc _
      exact playback_heard_iff channelHash crypto hc e
  · intro events c horderly
    rw [forall_outputs_iff]
    refine meets_iff Tracked ?_ ?_ horderly (new_tracked api identity secret)
    · intro c e hc he
      exact step_tracked hc he
    · intro c e hc he
      exact playback_heard_iff hc he

end

def sampleListener : IdentityKey := .fromBytes .masks (Vector.replicate 32 255)

def sampleSpeaker : IdentityKey := .fromBytes .masks (Vector.replicate 32 1)

def sampleSecret : Secret := Vector.replicate 32 5

def sampleCoins : Coins := .sorted (Vector.replicate 32 9)

def sampleWrapped : Bytes :=
  (sampleSpeaker.wrap .masks (Vector.replicate 12 0) sampleListener.publicKey 0 sampleSecret).toOption.getD []

def sampleFrame : Bytes := (SenderKey.derive .masks 0 sampleSecret).sealFrame .masks 0 [1, 2, 3]

def sampleChannels : Dict ChannelId Native.ChannelState := Dict.empty.set 7 ⟨70, true, Dict.empty.set 2 20⟩

def sampleInputs : List Native.Input :=
  [⟨0, sampleCoins, .group (.joined 7)⟩, ⟨0, sampleCoins, .channels sampleChannels⟩,
    ⟨1, sampleCoins, .group (.senderKey 7 2 sampleSpeaker.publicKey 0 sampleWrapped)⟩,
    ⟨2, sampleCoins, .audio ⟨20, 0, 70, .opus, false, true, sampleFrame⟩⟩]

def samplePackets : List (Playback Native.Client) :=
  outputs (Native.Client.step .masks) (Native.Client.playback .masks)
    (.new (.new .masks sampleListener sampleSecret)) sampleInputs

def sampleEvents : List Browser.Event :=
  [.group (.joined 7), .group (.receive 7 2 (.senderKey sampleSpeaker.publicKey.toList 0 sampleWrapped)),
    .group (.start sampleCoins), .group (.resume sampleCoins), .group (.resume sampleCoins),
    .group (.resume sampleCoins), .group (.resume sampleCoins), .group (.resume sampleCoins),
    .mode .encrypt, .layout [("0", some 2)], .encoded (some "0") sampleFrame]

def sampleFrames : List (Playback Browser.Client) :=
  outputs (step .masks) (playback .masks)
    (.new .streams sampleListener sampleSecret) sampleEvents

def runsCurrent (h : TaskHistory) : Bool :=
  match h.running with
  | some (.inbound m pc) =>
    decide (h.departed m.user m.channel < m.receivedAt) &&
      match pc with
      | .setPeerKey .. | .peerKeySet .. => decide (m.user ∈ h.group.peers.keys)
      | _ => true
  | _ => true

lemma orderly_resume {c : Browser.Client} (h : runsCurrent c.tasks = true) (coins : Coins) :
    c.Orderly .masks (.group (.resume coins)) := by
  refine ⟨?_, ?_⟩
  · rintro m ⟨pc, hpc, -⟩
    simp only [runsCurrent, hpc, Bool.and_eq_true, decide_eq_true_eq] at h
    exact h.1
  · intro m pc hpc hstores
    simp only [runsCurrent, hpc, Bool.and_eq_true, decide_eq_true_eq] at h
    cases pc with
    | setPeerKey => exact of_decide_eq_true h.2
    | peerKeySet => exact of_decide_eq_true h.2
    | _ => cases hstores

theorem only_members_heard_sample :
    (samplePackets.map Playback.played = [[1, 2, 3]] ∧ ∀ p ∈ samplePackets, Native.Client.Heard .masks p) ∧
      sampleFrames.map Playback.played = [[1, 2, 3]] ∧ ∀ p ∈ sampleFrames, Browser.Client.Heard .masks p := by
  obtain ⟨hnative, -, hbrowser⟩ := only_members_heard .masks (fun _ => 70) .streams sampleListener sampleSecret
  refine ⟨⟨by decide +kernel, ?_⟩, by decide +kernel, ?_⟩
  · refine (hnative sampleInputs).mpr ⟨fun _ => nofun, fun _ => nofun, fun _ => nofun, ?_, trivial⟩
    rintro - _ ⟨⟩
    exact .inl rfl
  · have horderly : Meets (step .masks) (Orderly .masks)
        (.new .streams sampleListener sampleSecret) sampleEvents := by
      refine ⟨⟨fun _ => False.elim, trivial⟩, ⟨fun _ => False.elim, trivial⟩, ⟨?_, trivial⟩,
        orderly_resume ?_ _, orderly_resume ?_ _, orderly_resume ?_ _, orderly_resume ?_ _, orderly_resume ?_ _,
        trivial, trivial, nofun, trivial⟩
      · rintro m ⟨-, ⟨queue, hqueue⟩, -, bytes, pk, hbody, -⟩
        cases hqueue
        cases hbody
      all_goals decide +kernel
    refine (hbrowser sampleEvents horderly).mpr ?_
    exact ⟨fun _ => trivial, fun _ => trivial, fun _ => trivial, fun _ => trivial, fun _ => trivial, fun _ => trivial,
      fun _ => trivial, fun _ => trivial, fun _ => trivial, fun _ => trivial, fun _ => rfl, trivial⟩

def strayPacket : IncomingAudio := ⟨20, 0, 71, .opus, false, false, [1, 2, 3]⟩

def strayTables : Unity.Tables := ⟨{7}, .empty, Dict.empty.set 7 true⟩

/-- The client is in one channel, which is encrypted, and the node sends it plaintext: on the AURX paths
in a packet without the flag, on WebRTC in a frame that overtakes the worker's mode. -/
theorem stray_plaintext_played :
    (¬ ∀ p ∈ outputs (Native.Client.step .masks) (Native.Client.playback .masks)
        (.new (.new .masks sampleListener sampleSecret))
        [⟨0, sampleCoins, .channels sampleChannels⟩, ⟨0, sampleCoins, .audio strayPacket⟩],
      Native.Client.Heard .masks p) ∧
    (¬ ∀ p ∈ outputs (step (fun _ => 70) .masks) (playback (fun _ => 70) .masks)
        (.new (.new .masks sampleListener sampleSecret)) [.tables strayTables, .audio strayPacket],
      Unity.Client.Heard .masks p) ∧
    (¬ ∀ p ∈ outputs (step .masks) (playback .masks)
        (.new .script sampleListener sampleSecret)
        [.group (.joined 7), .rosters (Dict.empty.set 7 .empty), .audio sampleCoins strayPacket],
      Browser.Client.Heard .masks p) ∧
    ¬ ∀ p ∈ outputs (step .masks) (playback .masks)
        (.new .script sampleListener sampleSecret)
        [.group (.joined 7), .rosters (Dict.empty.set 7 .empty), .mode .encrypt, .encoded (some "0") [1, 2, 3]],
      Browser.Client.Heard .masks p := by
  simp only [forall_outputs_iff]
  refine ⟨?_, ?_, ?_, ?_⟩
  · rintro ⟨-, hheard, -⟩
    have hfind : ∀ id channel, sampleChannels.find id = some channel → channel = ⟨70, true, Dict.empty.set 2 20⟩ := by
      intro id channel h
      simp only [sampleChannels, Dict.find_set, Dict.find_empty] at h
      split at h
      · exact (Option.some.inj h).symm
      · cases h
    have hparks := Native.Client.step_parksSealed .masks
      (Native.Client.new_parksSealed (.new .masks sampleListener sampleSecret))
      ⟨0, sampleCoins, .channels sampleChannels⟩
    have hlabelled := (Native.Client.playback_heard_iff .masks hparks _).mp hheard
      fun id channel h => by rw [hfind id channel h]
    obtain hsealed | ⟨id, channel, h, hhash⟩ := hlabelled strayPacket rfl
    · cases hsealed
    · rw [hfind id channel h] at hhash
      cases hhash
  · rintro ⟨-, hheard, -⟩
    have hshared : (Group.new .masks sampleListener sampleSecret).Shared := Group.new_shared _ _ _
    obtain hsealed | ⟨id, -, hhash⟩ := (playback_heard_iff _ .masks hshared _).mp hheard fun id hid => by
      rw [Finset.mem_singleton.mp hid]
      rfl
    · cases hsealed
    · cases hhash
  · rintro ⟨-, -, hheard, -⟩
    have hall : (Dict.empty.set 7 Dict.empty : Dict ChannelId (Dict UserId UInt32)).keys ⊆ {7} := by decide
    cases (audio_heard_iff sampleCoins strayPacket).mp hheard hall
  · rintro ⟨-, -, -, hheard, -⟩
    have hall : (Dict.empty.set 7 Dict.empty : Dict ChannelId (Dict UserId UInt32)).keys ⊆ {7} := by decide
    obtain ⟨u, -, hspeaks | hspeaks⟩ := hheard _ List.mem_cons_self hall
    · exact hspeaks.ne rfl
    · exact hspeaks.ne rfl

end AurixVoice.Downlink
