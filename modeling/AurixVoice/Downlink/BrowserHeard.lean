import AurixVoice.Downlink.Browser
import AurixVoice.E2ee.Speaks
import AurixVoice.Web.KeyHolders
import AurixVoice.Web.TaskSteps

namespace AurixVoice.Downlink.Browser

open E2ee Web List

variable (crypto : Crypto)

def Speaks (f : FrameCrypto) (u : UserId) (frame plain : Bytes) : Prop :=
  (f.decrypt crypto u frame).1 = .ok plain ∧ ∃ keys, f.peers.find u = some keys ∧ keys.Seals crypto frame plain

namespace Client

def AllEncrypted (c : Client) : Prop := c.media.channels.keys ⊆ c.tasks.group.channelSet

def Member (c : Client) (u : UserId) : Prop :=
  ∃ peer, c.tasks.group.peers.find u = some peer ∧ ∃ id ∈ peer.channels, id ∈ c.tasks.group.channelSet

def Heard (p : Playback Client) : Prop :=
  p.client.AllEncrypted → ∃ u, p.client.Member u ∧
    (Speaks crypto p.client.page u p.received p.played ∨ Speaks crypto p.client.receiver u p.received p.played)

def Labelled (c : Client) : Event → Prop
  | .audio _ audio => audio.e2ee = true
  | .encoded _ _ => c.receiver.mode = .encrypt
  | _ => True

/-- The group's tasks enter a sender, and store a key, only while the sender has not departed; and no
`forgetPeer` is still on its way to a worker that opens a frame. -/
def Orderly (c : Client) : Event → Prop
  | .group e => c.tasks.Timely crypto e ∧ c.tasks.StoresKnown e
  | .encoded _ _ => c.api = .script → ∀ u, WorkerMessage.forgetPeer u ∉ c.inbox
  | _ => True

end Client

variable {crypto} {f : FrameCrypto} {u : UserId}

lemma decrypt_eq_ok {f' : FrameCrypto} {frame plain : Bytes}
    (h : f.decrypt crypto u frame = (.ok plain, f')) : Speaks crypto f u frame plain := by
  refine ⟨congrArg Prod.fst h, ?_⟩
  unfold FrameCrypto.decrypt at h
  split at h
  · cases congrArg Prod.fst h
  next keys hkeys => exact ⟨keys, hkeys, PeerKeys.seals_of_openFrame (congrArg Prod.fst h)⟩

lemma Speaks.ne {frame plain : Bytes} (h : Speaks crypto f u frame plain) : frame ≠ plain := by
  obtain ⟨-, keys, -, hseals⟩ := h
  exact hseals.ne

lemma Speaks.mem {frame plain : Bytes} (h : Speaks crypto f u frame plain) : u ∈ f.peers.keys := by
  obtain ⟨-, keys, hkeys, -⟩ := h
  exact Dict.mem_keys_iff.mpr ⟨keys, hkeys⟩

namespace Client

structure Tracked (c : Client) : Prop where
  sound : c.tasks.Sound
  page : c.page.peers.keys ⊆ c.tasks.group.peers.keys
  handled : c.handled ≤ c.tasks.group.posted.length
  worker : holdersAfter c.inbox c.worker.peers.keys ⊆ c.tasks.group.peers.keys

variable {c : Client}

lemma new_tracked (api : TransformApi) (identity : IdentityKey) (secret : Secret) :
    (new api identity secret).Tracked where
  sound := TaskHistory.init_sound identity secret
  page := subset_rfl
  handled := Nat.zero_le _
  worker := subset_rfl

lemma Tracked.member (h : c.Tracked) (hu : u ∈ c.tasks.group.peers.keys) : c.Member u := by
  obtain ⟨peer, hpeer⟩ := Dict.mem_keys_iff.mp hu
  obtain ⟨⟨id, hid⟩, hall⟩ := h.sound.members u peer hpeer
  exact ⟨peer, hpeer, id, hid, (hall id hid).1⟩

lemma sound_of_group {h : TaskHistory} (hh : h.Sound) {g : E2eeGroup} (hpeers : g.peers = h.group.peers)
    (hchannels : g.channelSet = h.group.channelSet) : ({ h with group := g } : TaskHistory).Sound where
  departed_lt := hh.departed_lt
  received_lt := hh.received_lt
  queued := hh.queued
  running m pc hm := by
    simp only [hchannels]
    exact hh.running m pc hm
  processed := hh.processed
  members := by
    simp only [hpeers, hchannels]
    exact hh.members
  given := hh.given

section

variable (h : c.Tracked)
include h

lemma Tracked.setPage (hf : f.peers.keys = c.page.peers.keys) : (c.setPage f).Tracked where
  sound := sound_of_group h.sound rfl rfl
  page := by
    change f.peers.keys ⊆ _
    rw [hf]
    exact h.page
  handled := h.handled
  worker := h.worker

lemma Tracked.setWorker (hf : f.peers.keys = c.worker.peers.keys) : ({ c with worker := f } : Client).Tracked where
  sound := h.sound
  page := h.page
  handled := h.handled
  worker := by
    rw [hf]
    exact h.worker

lemma Tracked.setMedia (media : WebTransportMedia) : ({ c with media := media } : Client).Tracked :=
  ⟨h.sound, h.page, h.handled, h.worker⟩

lemma Tracked.post {msg : WorkerMessage} (hmsg : ∀ held, holdersAfter [msg] held = held) : (c.post msg).Tracked where
  sound := sound_of_group h.sound rfl rfl
  page := h.page
  handled := by
    simp only [Client.post, length_append]
    exact Nat.le_add_right_of_le h.handled
  worker := by
    simp only [inbox, Client.post, drop_append_of_le_length h.handled, holdersAfter_append, hmsg]
    exact h.worker

lemma workerNext_tracked : (c.workerNext crypto).Tracked := by
  unfold workerNext
  split
  · exact h
  next msg rest hinbox =>
    have hlt : c.handled < c.tasks.group.posted.length := by
      by_contra hge
      rw [inbox, drop_eq_nil_of_le (not_lt.mp hge)] at hinbox
      cases hinbox
    have hrest : c.tasks.group.posted.drop (c.handled + 1) = rest := by
      rw [← tail_drop]
      exact congrArg tail hinbox
    refine ⟨h.sound, h.page, hlt, ?_⟩
    have hworker := h.worker
    rw [hinbox, ← singleton_append, holdersAfter_append, ← onMessage_holders crypto] at hworker
    simp only [inbox, hrest]
    exact hworker

lemma group_tracked {e : GroupEvent} (htimely : c.tasks.Timely crypto e) (hstores : c.tasks.StoresKnown e) :
    ({ c with tasks := c.tasks.step crypto e } : Client).Tracked := by
  have htracks := TaskHistory.step_tracks crypto hstores
  obtain ⟨msgs, hposted, hheld⟩ := htracks.worker
  refine ⟨TaskHistory.step_sound crypto h.sound htimely, htracks.page h.page, ?_, ?_⟩
  · simp only [hposted, length_append]
    exact Nat.le_add_right_of_le h.handled
  · simp only [inbox, hposted, drop_append_of_le_length h.handled, holdersAfter_append]
    exact hheld _ h.worker

lemma decryptNext_tracked : (c.decryptNext crypto).2.Tracked := by
  unfold decryptNext
  split
  · exact h
  next o rest _ =>
    have hkeys := FrameCrypto.decrypt_holders crypto c.page o.userId o.audio.payload
    split
    next heq =>
      rw [heq] at hkeys
      exact (h.setPage hkeys).setMedia _
    next heq =>
      rw [heq] at hkeys
      exact (h.setPage hkeys).setMedia _

end

variable (crypto) in
lemma transformReceive_holders (f : FrameCrypto) (mid : Option String) (data : Bytes) :
    (f.transformReceive crypto mid data).2.peers.keys = f.peers.keys := by
  unfold FrameCrypto.transformReceive
  split
  · rfl
  · split
    · rfl
    · exact FrameCrypto.decrypt_holders crypto f _ data

section

variable (h : c.Tracked)
include h

lemma encoded_tracked (mid : Option String) (data : Bytes) : (c.encoded crypto mid data).2.Tracked := by
  have hkeys := transformReceive_holders crypto c.receiver mid data
  simp only [encoded, setReceiver]
  simp only [receiver] at hkeys ⊢
  split
  next hapi =>
    rw [hapi] at hkeys
    exact h.setWorker hkeys
  next hapi =>
    rw [hapi] at hkeys
    exact h.setPage hkeys

lemma step_tracked {e : Event} (he : c.Orderly crypto e) : (c.step crypto e).Tracked := by
  cases e with
  | group => exact group_tracked h he.1 he.2
  | rosters | rosterChanged | removeSlots | stopMedia | audio => exact h.setMedia _
  | mode mode =>
    have hpage : (c.setPage { c.page with mode := mode }).Tracked := h.setPage rfl
    exact Tracked.post hpage fun held => (rfl : holdersAfter [.mode mode] held = held)
  | layout entries =>
    have hpage : (c.setPage (c.page.setLayout entries)).Tracked := h.setPage rfl
    exact Tracked.post hpage fun held => (rfl : holdersAfter [.layout entries] held = held)
  | workerNext => exact workerNext_tracked h
  | decryptNext => exact decryptNext_tracked h
  | encoded mid data => exact encoded_tracked h mid data

lemma decryptNext_heard : ∀ p ∈ c.playback crypto .decryptNext, Heard crypto p := by
  intro p hp _
  simp only [playback, handle, decryptNext] at hp
  split at hp
  · cases hp
  · split at hp
    · cases hp
    next plain page heq =>
      have hspeaks := decrypt_eq_ok heq
      simp only [WebTransportMedia.opened] at hp
      split at hp
      · cases hp
      · split at hp
        · cases hp
        · obtain rfl := mem_singleton.mp hp
          exact ⟨_, h.member (h.page hspeaks.mem), .inl hspeaks⟩

lemma receiver_holders (hinbox : c.api = .script → ∀ u, WorkerMessage.forgetPeer u ∉ c.inbox) :
    c.receiver.peers.keys ⊆ c.tasks.group.peers.keys := by
  unfold receiver
  split
  next hapi => exact (subset_holdersAfter (hinbox hapi) _).trans h.worker
  · exact h.page

lemma encoded_heard_iff {mid : Option String} {data : Bytes} (he : c.Orderly crypto (.encoded mid data)) :
    (∀ p ∈ c.playback crypto (.encoded mid data), Heard crypto p) ↔
      (c.AllEncrypted → c.receiver.mode = .encrypt) := by
  simp only [playback, handle, encoded, FrameCrypto.transformReceive]
  by_cases hmode : c.receiver.mode = .encrypt
  · refine iff_of_true ?_ fun _ => hmode
    rw [if_neg (not_not.mpr hmode)]
    intro p hp _
    split at hp
    · cases hp
    next u _ =>
      cases hdecrypt : c.receiver.decrypt crypto u data with
      | mk result =>
        rw [hdecrypt] at hp
        cases result with
        | error => cases hp
        | ok =>
          obtain rfl := mem_singleton.mp hp
          have hspeaks := decrypt_eq_ok hdecrypt
          exact ⟨u, h.member (receiver_holders h he hspeaks.mem), .inr hspeaks⟩
  · rw [if_pos hmode]
    simp only [Option.toList_some, map_cons, map_nil, forall_mem_singleton]
    refine imp_congr_right fun _ => iff_of_false ?_ hmode
    rintro ⟨u, -, hspeaks | hspeaks⟩
    · exact hspeaks.ne rfl
    · exact hspeaks.ne rfl

end

lemma audio_heard_iff (coins : Coins) (audio : IncomingAudio) :
    (∀ p ∈ c.playback crypto (.audio coins audio), Heard crypto p) ↔ (c.AllEncrypted → audio.e2ee = true) := by
  simp only [playback, handle, onAudio, WebTransportMedia.onWebTransportAudio]
  cases haudio : audio.e2ee with
  | true =>
    refine iff_of_true ?_ fun _ => rfl
    intro p hp
    simp only [↓reduceIte] at hp
    split at hp <;> cases hp
  | false =>
    simp only [Bool.false_eq_true, ↓reduceIte, Option.toList_some, map_cons, map_nil, forall_mem_singleton]
    refine imp_congr_right fun _ => iff_of_false ?_ id
    rintro ⟨u, -, hspeaks | hspeaks⟩
    · exact hspeaks.ne rfl
    · exact hspeaks.ne rfl

lemma playback_heard_iff {e : Event} (h : c.Tracked) (he : c.Orderly crypto e) :
    (∀ p ∈ c.playback crypto e, Heard crypto p) ↔ (c.AllEncrypted → c.Labelled e) := by
  cases e with
  | audio coins audio => exact audio_heard_iff coins audio
  | decryptNext => exact iff_of_true (decryptNext_heard h) fun _ => trivial
  | encoded => exact encoded_heard_iff h he
  | _ => exact iff_of_true (fun _ hp => absurd hp not_mem_nil) fun _ => trivial

end Client

end AurixVoice.Downlink.Browser
