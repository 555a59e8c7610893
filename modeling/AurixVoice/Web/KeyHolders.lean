import AurixVoice.Web.Members
import AurixVoice.Web.TaskHistory

namespace AurixVoice.Web

open E2ee Finset

def holdersAfter : List WorkerMessage → Finset UserId → Finset UserId
  | [], held => held
  | .peerKey u _ _ :: msgs, held => holdersAfter msgs (insert u held)
  | .forgetPeer u :: msgs, held => holdersAfter msgs (held.erase u)
  | _ :: msgs, held => holdersAfter msgs held

lemma holdersAfter_append (msgs msgs' : List WorkerMessage) (held : Finset UserId) :
    holdersAfter (msgs ++ msgs') held = holdersAfter msgs' (holdersAfter msgs held) := by
  induction msgs generalizing held with
  | nil => rfl
  | cons msg msgs ih => cases msg <;> exact ih _

lemma subset_holdersAfter {msgs : List WorkerMessage} (h : ∀ u, WorkerMessage.forgetPeer u ∉ msgs)
    (held : Finset UserId) : held ⊆ holdersAfter msgs held := by
  induction msgs generalizing held with
  | nil => exact subset_rfl
  | cons msg msgs ih =>
    have hrest : ∀ u, WorkerMessage.forgetPeer u ∉ msgs := fun u hu => h u (List.mem_cons_of_mem _ hu)
    cases msg with
    | peerKey u => exact (subset_insert u held).trans (ih hrest _)
    | forgetPeer u => exact absurd List.mem_cons_self (h u)
    | mode | ownKey | layout => exact ih hrest held

lemma onMessage_holders (crypto : Crypto) (f : FrameCrypto) (msg : WorkerMessage) :
    (f.onMessage crypto msg).peers.keys = holdersAfter [msg] f.peers.keys := by
  cases msg <;> rfl

lemma FrameCrypto.decrypt_holders (crypto : Crypto) (f : FrameCrypto) (u : UserId) (frame : Bytes) :
    (f.decrypt crypto u frame).2.peers.keys = f.peers.keys := by
  unfold decrypt
  split
  · rfl
  next keys hkeys => exact insert_eq_self.mpr (Dict.mem_keys_iff.mpr ⟨keys, hkeys⟩)

namespace E2eeGroup

structure Tracks (g g' : E2eeGroup) : Prop where
  page : g.frames.peers.keys ⊆ g.peers.keys → g'.frames.peers.keys ⊆ g'.peers.keys
  worker : ∃ msgs, g'.posted = g.posted ++ msgs ∧ ∀ held ⊆ g.peers.keys, holdersAfter msgs held ⊆ g'.peers.keys

variable {g g' g'' : E2eeGroup}

lemma Tracks.grow (hpeers : g.peers.keys ⊆ g'.peers.keys) (hframes : g'.frames.peers = g.frames.peers)
    (hposted : g'.posted = g.posted) : Tracks g g' where
  page h := by rw [hframes]; exact h.trans hpeers
  worker := ⟨[], by rw [hposted, List.append_nil], fun _ h => h.trans hpeers⟩

lemma Tracks.refl (g : E2eeGroup) : Tracks g g := .grow subset_rfl rfl rfl

lemma Tracks.trans (h : Tracks g g') (h' : Tracks g' g'') : Tracks g g'' where
  page hg := h'.page (h.page hg)
  worker := by
    obtain ⟨msgs, hposted, hheld⟩ := h.worker
    obtain ⟨msgs', hposted', hheld'⟩ := h'.worker
    refine ⟨msgs ++ msgs', by rw [hposted', hposted, List.append_assoc], ?_⟩
    intro held hh
    rw [holdersAfter_append]
    exact hheld' _ (hheld held hh)

lemma keys_subset_set {V : Type} (d : Dict UserId V) (u : UserId) (v : V) : d.keys ⊆ (d.set u v).keys :=
  subset_insert u d.keys

lemma forgetKeys_tracks {u : UserId} (hpeers : g.peers.keys.erase u ⊆ g'.peers.keys)
    (hframes : g'.frames = g.frames) (hposted : g'.posted = g.posted) : Tracks g (g'.forgetKeys u) where
  page h := by
    simp only [forgetKeys, FrameCrypto.forgetPeer, hframes, Dict.keys_erase]
    exact (erase_subset_erase u h).trans hpeers
  worker := by
    refine ⟨[.forgetPeer u], by simp only [forgetKeys, hposted], ?_⟩
    intro held hh
    exact (erase_subset_erase u hh).trans hpeers

section

variable (g : E2eeGroup) (c : ChannelId) (coins : Coins) (us : List UserId) (u : UserId)

lemma dropPeer_tracks : Tracks g (g.dropPeer u).2 :=
  forgetKeys_tracks subset_rfl rfl rfl

lemma peerLeft_tracks : Tracks g (g.peerLeft c u).2 := by
  unfold peerLeft
  split
  · exact .refl g
  next peer _ =>
    have hset : Tracks g { g with peers := g.peers.set u { peer with channels := peer.channels.erase c } } :=
      .grow (keys_subset_set _ _ _) rfl rfl
    split
    · exact hset
    · exact hset.trans (dropPeer_tracks _ u)

lemma allLeft_tracks (g : E2eeGroup) : Tracks g (allLeft c us g).2 := by
  induction us generalizing g with
  | nil => exact .refl g
  | cons u us ih => exact (peerLeft_tracks g c u).trans (ih _)

lemma dropAll_tracks (g : E2eeGroup) : Tracks g (dropAll us g).2 := by
  induction us generalizing g with
  | nil => exact .refl g
  | cons u us ih => exact (dropPeer_tracks g u).trans (ih _)

lemma joined_tracks : Tracks g (g.joined c).2 := by
  unfold joined
  split
  · exact .refl g
  · exact .grow subset_rfl rfl rfl

lemma rejoined_tracks (c : ChannelId) (members : Finset UserId) : Tracks g (g.rejoined coins c members).2 := by
  unfold rejoined
  split
  · exact joined_tracks g c
  · exact allLeft_tracks c _ g

lemma left_tracks (c : ChannelId) : Tracks g (g.left coins c).2 := by
  unfold left
  split
  · exact .refl g
  · have herase : Tracks g { g with channelSet := g.channelSet.erase c } := .grow subset_rfl rfl rfl
    exact herase.trans (allLeft_tracks c _ _)

lemma reset_tracks : Tracks g (g.reset coins).2 :=
  (dropAll_tracks _ g).trans (.grow subset_rfl rfl rfl)

end

variable (crypto : Crypto) (coins : Coins) (m : Inbound)

lemma learnOrAwait_tracks (g : E2eeGroup) (pk : PublicKey) (key : Option (UInt8 × Secret)) :
    Tracks g (g.learnOrAwait m pk key).1 := by
  unfold learnOrAwait
  split
  · exact .refl g
  · split
    · exact .grow (keys_subset_set _ _ _) rfl rfl
    · exact .refl g

lemma learnPeer_tracks (g : E2eeGroup) (c : ChannelId) (u : UserId) (pk : PublicKey) (previous : Option String) :
    Tracks g (g.learnPeer crypto c u pk previous).2 := by
  unfold learnPeer
  split
  · exact .grow (keys_subset_set _ _ _) rfl rfl
  · refine forgetKeys_tracks ((erase_subset _ _).trans ?_) rfl rfl
    split
    · exact subset_rfl
    · exact keys_subset_set _ _ _

lemma wrapped_tracks {w : Wrapping} {msg : Outgoing} (h : g.wrapped crypto coins w = .ok (msg, g')) :
    Tracks g g' := by
  unfold wrapped at h
  split at h
  · cases h
  · obtain ⟨-, rfl⟩ := h
    refine .grow ?_ rfl rfl
    split
    · exact subset_rfl
    · exact keys_subset_set _ _ _

lemma startInbound_tracks (g : E2eeGroup) : Tracks g (g.startInbound m).1 := by
  unfold startInbound
  split
  · exact .refl g
  · split
    · split
      · exact .refl g
      · exact learnOrAwait_tracks m g _ none
    · exact .refl g

def Stores : InboundAwait → Prop
  | .setPeerKey .. | .peerKeySet .. => True
  | _ => False

section

variable (hm : m.user ∈ g.peers.keys) (generation : UInt8) (secret : Secret)
include hm

lemma setPeerKey_tracks : Tracks g { g with frames := g.frames.setPeerKey crypto m.user generation secret } where
  page h := insert_subset hm h
  worker := ⟨[], by simp, fun _ h => h⟩

lemma postPeerKey_tracks : Tracks g { g with posted := g.posted ++ [.peerKey m.user generation secret] } where
  page h := h
  worker := ⟨_, rfl, fun _ h => insert_subset hm h⟩

end

lemma resumeInbound_tracks {pc : InboundAwait} (hm : Stores pc → m.user ∈ g.peers.keys) :
    Tracks g (g.resumeInbound m crypto coins pc).1 := by
  cases pc with
  | unwrap =>
    simp only [resumeInbound]
    split
    · exact .refl g
    · split
      · exact .refl g
      · exact learnOrAwait_tracks m g _ _
  | fingerprint pk previous => exact learnPeer_tracks crypto g m.channel m.user pk previous
  | learned change key =>
    cases key with
    | none =>
      simp only [resumeInbound]
      split
      · exact .refl g
      · rw [answer_fst]
        exact .refl g
    | some =>
      simp only [resumeInbound]
      split <;> exact .refl g
  | setPeerKey change generation secret => exact setPeerKey_tracks crypto m (hm trivial) generation secret
  | peerKeySet change generation secret =>
    have hpost := postPeerKey_tracks m (hm trivial) generation secret
    simp only [resumeInbound]
    split
    · rw [answer_fst]
      exact hpost
    · exact hpost
  | wrap =>
    simp only [resumeInbound]
    split
    · exact .refl g
    next hw => exact wrapped_tracks crypto coins hw
  | answered => exact .refl g

lemma startRotate_tracks (g : E2eeGroup) (force : Bool) : Tracks g (g.startRotate coins force).1 := by
  unfold startRotate
  split
  · exact .grow subset_rfl rfl rfl
  · exact .refl g

lemma resumeRotate_tracks (g : E2eeGroup) (pc : RotateAwait) : Tracks g (g.resumeRotate crypto coins pc).1 := by
  cases pc with
  | setOwnKey => exact .grow subset_rfl rfl rfl
  | ownKeySet => exact ⟨id, _, rfl, fun _ h => h⟩
  | installed | wrapped => exact .refl g
  | wrap =>
    simp only [resumeRotate]
    split
    · exact .refl g
    next hw => exact wrapped_tracks crypto coins hw

end E2eeGroup

namespace TaskHistory

open E2eeGroup

variable (crypto : Crypto)

def StoresKnown (h : TaskHistory) : GroupEvent → Prop
  | .resume _ => ∀ m pc, h.running = some (.inbound m pc) → Stores pc → m.user ∈ h.group.peers.keys
  | _ => True

lemma advanceInbound_group (h : TaskHistory) (m : Inbound) (p : Progress InboundAwait) :
    (h.advanceInbound m p).group = p.1 := by
  obtain ⟨g, next⟩ := p
  cases next <;> rfl

lemma advanceRotate_group (h : TaskHistory) (p : Progress RotateAwait) : (h.advanceRotate p).group = p.1 := by
  obtain ⟨g, next⟩ := p
  cases next <;> rfl

lemma step_tracks {h : TaskHistory} {e : GroupEvent} (hstores : h.StoresKnown e) :
    Tracks h.group (h.step crypto e).group := by
  cases e with
  | receive =>
    simp only [step, act]
    split <;> exact .refl _
  | requestRotate => exact .refl _
  | start coins =>
    simp only [step, act]
    split
    · rw [advanceInbound_group]
      exact startInbound_tracks _ h.group
    · rw [advanceRotate_group]
      exact startRotate_tracks coins h.group _
    · exact .refl _
  | resume coins =>
    simp only [step, act]
    split
    · exact .refl _
    next m pc hrunning =>
      rw [advanceInbound_group]
      exact resumeInbound_tracks crypto coins m (hstores m pc hrunning)
    · rw [advanceRotate_group]
      exact resumeRotate_tracks crypto coins h.group _
  | joined c => exact joined_tracks h.group c
  | rejoined coins c members => exact rejoined_tracks h.group coins c members
  | left coins c => exact left_tracks h.group coins c
  | peerLeft c u =>
    simp only [step, act]
    split
    · exact .refl _
    · exact peerLeft_tracks h.group c u
  | reset coins => exact reset_tracks h.group coins

end TaskHistory

end AurixVoice.Web
