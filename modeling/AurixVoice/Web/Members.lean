import AurixVoice.Web.GroupTasks

namespace AurixVoice.Web

open E2ee

def Members (P : UserId → ChannelId → Prop) (peers : Dict UserId PeerEntry) : Prop :=
  ∀ u peer, peers.find u = some peer → peer.channels.Nonempty ∧ ∀ c ∈ peer.channels, P u c

namespace Members

variable {P : UserId → ChannelId → Prop} {peers : Dict UserId PeerEntry}

lemma mono {Q : UserId → ChannelId → Prop} (hPQ : ∀ u c, P u c → Q u c) (h : Members P peers) : Members Q peers :=
  Dict.All.mono h fun u _ hpeer => ⟨hpeer.1, fun c hc => hPQ u c (hpeer.2 c hc)⟩

variable {peer : PeerEntry} {u : UserId}

lemma set (h : Members P peers) (hne : peer.channels.Nonempty) (hall : ∀ c ∈ peer.channels, P u c) :
    Members P (peers.set u peer) :=
  Dict.All.set h ⟨hne, hall⟩

lemma insert (h : Members P peers) {c : ChannelId} (hP : P u c) {peer' : PeerEntry}
    (hu : peers.find u = some peer) (hchannels : peer'.channels = Insert.insert c peer.channels) :
    Members P (peers.set u peer') := by
  apply h.set
  · rw [hchannels]
    exact Finset.insert_nonempty _ _
  · intro d hd
    rw [hchannels] at hd
    rcases Finset.mem_insert.mp hd with rfl | hd
    · exact hP
    · exact (h u peer hu).2 d hd

lemma known (h : Members P peers) :
    Members (fun u c => P u c ∧ ∃ peer, peers.find u = some peer ∧ c ∈ peer.channels) peers := by
  intro u peer hu
  obtain ⟨hne, hall⟩ := h u peer hu
  exact ⟨hne, fun c hc => ⟨hall c hc, peer, hu, hc⟩⟩

end Members

namespace E2eeGroup

variable {P : UserId → ChannelId → Prop} {g : E2eeGroup}

@[simp] lemma channelSet_peerLeft (g : E2eeGroup) (c : ChannelId) (u : UserId) :
    (g.peerLeft c u).2.channelSet = g.channelSet := by
  unfold peerLeft
  split
  · rfl
  · split <;> rfl

lemma members_peerLeft (h : Members P g.peers) (c : ChannelId) (u : UserId) :
    Members (fun v d => P v d ∧ ¬ (d = c ∧ v = u)) (g.peerLeft c u).2.peers := by
  have hother : ∀ v peer, v ≠ u → g.peers.find v = some peer →
      peer.channels.Nonempty ∧ ∀ d ∈ peer.channels, P v d ∧ ¬ (d = c ∧ v = u) := by
    intro v peer hne hv
    obtain ⟨hnonempty, hall⟩ := h v peer hv
    exact ⟨hnonempty, fun d hd => ⟨hall d hd, fun heq => hne heq.2⟩⟩
  intro v entry hv
  unfold peerLeft at hv
  split at hv
  next hnone =>
    apply hother v entry _ hv
    rintro rfl
    rw [hnone] at hv
    cases hv
  next peer hu =>
    split at hv
    next hnonempty =>
      simp only [Dict.find_set] at hv
      split at hv
      next heq =>
        obtain rfl := Option.some.inj hv
        refine ⟨hnonempty, ?_⟩
        intro d hd
        obtain ⟨hne, hd⟩ := Finset.mem_erase.mp hd
        exact ⟨heq ▸ (h u peer hu).2 d hd, fun heq => hne heq.1⟩
      next hne => exact hother v entry hne hv
    · simp only [dropPeer, forgetKeys, Dict.find_erase, Dict.find_set] at hv
      split at hv
      · cases hv
      next hne => exact hother v entry hne hv

variable {m : Inbound} {pk : PublicKey} (crypto : Crypto) (c : ChannelId) (coins : Coins) (us : List UserId)

lemma channelSet_allLeft (g : E2eeGroup) : (allLeft c us g).2.channelSet = g.channelSet := by
  induction us generalizing g with
  | nil => rfl
  | cons u us ih => exact (ih _).trans (channelSet_peerLeft g c u)

lemma members_allLeft (h : Members P g.peers) :
    Members (fun v d => P v d ∧ ¬ (d = c ∧ v ∈ us)) (allLeft c us g).2.peers := by
  induction us generalizing g P with
  | nil => exact h.mono fun v d hP => ⟨hP, fun hmem => List.not_mem_nil hmem.2⟩
  | cons u us ih =>
    refine (ih (members_peerLeft h c u)).mono ?_
    rintro v d ⟨⟨hP, hu⟩, hus⟩
    refine ⟨hP, ?_⟩
    rintro ⟨hd, hmem⟩
    rcases List.mem_cons.mp hmem with hv | hv
    · exact hu ⟨hd, hv⟩
    · exact hus ⟨hd, hv⟩

section

variable (c : ChannelId) (members : Finset UserId)

lemma members_left (hc : c ∈ g.channelSet) (h : Members P g.peers) :
    Members (fun v d => P v d ∧ d ≠ c) (g.left coins c).2.peers := by
  rw [left, if_neg (not_not.mpr hc)]
  have hall := members_allLeft c (coins.users g.peers.keys) (g := { g with channelSet := g.channelSet.erase c })
    h.known
  refine hall.mono ?_
  rintro v d ⟨⟨hP, peer, hv, -⟩, hus⟩
  refine ⟨hP, ?_⟩
  rintro rfl
  exact hus ⟨rfl, (coins.mem_users _ _).mpr (Dict.mem_keys_iff.mpr ⟨peer, hv⟩)⟩

lemma channelSet_left : (g.left coins c).2.channelSet = g.channelSet.erase c := by
  unfold left
  split
  next hc => exact (Finset.erase_eq_of_notMem hc).symm
  · rw [channelSet_allLeft]

lemma members_rejoined (h : Members P g.peers) :
    Members (fun v d => P v d ∧ ¬ (d = c ∧ c ∈ g.channelSet ∧ v ∉ members)) (g.rejoined coins c members).2.peers := by
  unfold rejoined
  split
  next hc =>
    have hjoined : (g.joined c).2.peers = g.peers := by
      unfold joined
      split <;> rfl
    rw [hjoined]
    exact h.mono fun v d hP => ⟨hP, fun hd => hc hd.2.1⟩
  · refine (members_allLeft c (g.absent coins c members) h.known).mono ?_
    rintro v d ⟨⟨hP, peer, hv, hd⟩, hus⟩
    refine ⟨hP, ?_⟩
    rintro ⟨rfl, -, hmem⟩
    apply hus
    refine ⟨rfl, List.mem_filter.mpr ⟨(coins.mem_users _ _).mpr (Dict.mem_keys_iff.mpr ⟨peer, hv⟩), ?_⟩⟩
    simp [hv, hd, hmem]

lemma channelSet_rejoined : g.channelSet ⊆ (g.rejoined coins c members).2.channelSet := by
  unfold rejoined
  split
  · unfold joined
    split
    · exact refl _
    · exact Finset.subset_insert _ _
  · rw [channelSet_allLeft]

end

lemma find_dropAll (g : E2eeGroup) (v : UserId) :
    (dropAll us g).2.peers.find v = if v ∈ us then none else g.peers.find v := by
  induction us generalizing g with
  | nil => simp [dropAll]
  | cons u us ih =>
    simp only [dropAll, ih, dropPeer, forgetKeys, Dict.find_erase, List.mem_cons]
    by_cases hu : v = u <;> by_cases hus : v ∈ us <;> simp [hu, hus]

lemma members_reset : Members P (g.reset coins).2.peers := by
  intro v peer hv
  have hnone : (g.reset coins).2.peers.find v = none := by
    simp only [reset, find_dropAll, coins.mem_users, Dict.mem_keys]
    cases g.peers.find v <;> simp
  rw [hnone] at hv
  cases hv

variable {key : Option (UInt8 × Secret)}

lemma members_learnOrAwait (h : Members P g.peers)
    (hP : g.KnownAs m.user pk → P m.user m.channel) : Members P (g.learnOrAwait m pk key).1.peers := by
  unfold learnOrAwait
  split
  · exact h
  next peer hu =>
    split
    next hpk => exact h.insert (hP ⟨peer, hu, hpk⟩) hu rfl
    · exact h

lemma members_learnPeer (h : Members P g.peers) {c : ChannelId} {previous : Option String}
    (hP : previous = none ∨ (g.peers.find u).isSome → P u c) :
    Members P (g.learnPeer crypto c u pk previous).2.peers := by
  unfold learnPeer
  split
  · apply h.set (Finset.singleton_nonempty c)
    intro d hd
    rw [Finset.mem_singleton.mp hd]
    exact hP (.inl rfl)
  · split
    · exact h
    next peer hu => exact h.insert (hP (.inr (by rw [hu]; rfl))) hu rfl

lemma members_wrapped (h : Members P g.peers) {w : Wrapping} {msg : Outgoing} {g' : E2eeGroup}
    (hw : g.wrapped crypto coins w = .ok (msg, g')) : Members P g'.peers ∧ g'.channelSet = g.channelSet := by
  unfold wrapped at hw
  split at hw
  · cases hw
  · obtain ⟨-, rfl⟩ := Prod.mk.inj (Except.ok.inj hw)
    refine ⟨?_, rfl⟩
    split
    · exact h
    next peer hu => exact h.set (h _ peer hu).1 (h _ peer hu).2

lemma channelSet_learnOrAwait : (g.learnOrAwait m pk key).1.channelSet = g.channelSet := by
  unfold learnOrAwait
  split
  · rfl
  · split <;> rfl

lemma channelSet_learnPeer (u : UserId) (pk : PublicKey) (previous : Option String) :
    (g.learnPeer crypto c u pk previous).2.channelSet = g.channelSet := by
  cases previous <;> rfl

lemma answer_fst (m : Inbound) : (g.answer m coins).1 = g := by
  unfold answer
  split <;> rfl

lemma members_startInbound (h : Members P g.peers) (hP : g.EntersAtStart m → P m.user m.channel) :
    Members P (g.startInbound m).1.peers ∧ (g.startInbound m).1.channelSet = g.channelSet := by
  unfold startInbound
  split
  · exact ⟨h, rfl⟩
  next hchannel =>
    split
    next bytes hbody =>
      split
      · exact ⟨h, rfl⟩
      next pk hpk =>
        refine ⟨members_learnOrAwait h fun hknown => ?_, channelSet_learnOrAwait⟩
        exact hP ⟨not_not.mp hchannel, bytes, pk, hbody, hpk, hknown⟩
    · exact ⟨h, rfl⟩

lemma members_resumeInbound (h : Members P g.peers) {pc : InboundAwait}
    (hP : g.EntersAt m crypto pc → P m.user m.channel) :
    Members P (g.resumeInbound m crypto coins pc).1.peers ∧
      (g.resumeInbound m crypto coins pc).1.channelSet = g.channelSet := by
  cases pc with
  | unwrap =>
    simp only [resumeInbound]
    split
    · exact ⟨h, rfl⟩
    next pk hpk =>
      split
      · exact ⟨h, rfl⟩
      next secret hsecret =>
        refine ⟨members_learnOrAwait h fun hknown => ?_, channelSet_learnOrAwait⟩
        exact hP ⟨pk, secret, hpk, hsecret, hknown⟩
  | fingerprint pk previous =>
    exact ⟨members_learnPeer crypto h hP, channelSet_learnPeer crypto m.channel m.user pk previous⟩
  | learned change key =>
    cases key with
    | none =>
      simp only [resumeInbound]
      split
      · exact ⟨h, rfl⟩
      · rw [answer_fst]
        exact ⟨h, rfl⟩
    | some =>
      simp only [resumeInbound]
      split <;> exact ⟨h, rfl⟩
  | setPeerKey | answered => exact ⟨h, rfl⟩
  | peerKeySet =>
    simp only [resumeInbound]
    split
    · rw [answer_fst]
      exact ⟨h, rfl⟩
    · exact ⟨h, rfl⟩
  | wrap =>
    simp only [resumeInbound]
    split
    · exact ⟨h, rfl⟩
    next hw => exact members_wrapped crypto coins h hw

lemma members_resumeRotate (h : Members P g.peers) (pc : RotateAwait) :
    Members P (g.resumeRotate crypto coins pc).1.peers ∧
      (g.resumeRotate crypto coins pc).1.channelSet = g.channelSet := by
  cases pc with
  | wrap =>
    simp only [resumeRotate]
    split
    · exact ⟨h, rfl⟩
    next hw => exact members_wrapped crypto coins h hw
  | _ => exact ⟨h, rfl⟩

lemma members_startRotate (force : Bool) (h : Members P g.peers) :
    Members P (g.startRotate coins force).1.peers ∧ (g.startRotate coins force).1.channelSet = g.channelSet := by
  unfold startRotate
  split <;> exact ⟨h, rfl⟩

end E2eeGroup

end AurixVoice.Web
