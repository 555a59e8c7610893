import AurixVoice.E2ee.Network

namespace AurixVoice.E2ee

/-- What X25519 gives identities made by `fromBytes`: both ends agree on a secret, which is not zero. -/
structure Agreeing (crypto : Crypto) (ids : UserId → IdentityKey) : Prop where
  symmetric : ∀ u v, crypto.diffieHellman (ids v).secret (ids u).publicKey =
    crypto.diffieHellman (ids u).secret (ids v).publicKey
  contributory : ∀ u v, (ids u).wrappable crypto (ids v).publicKey = true

variable (crypto : Crypto) (ids : UserId → IdentityKey)

structure Group.Sound (u : UserId) (g : Group) : Prop where
  identity : g.identity = ids u
  derived : g.key = .derive crypto g.key.generation g.secret
  early : g.rotationPending = false → g.counter < rotateAtCounter
  shared : g.Shared
  known : ∀ v pk, g.known v = some pk → pk = (ids v).publicKey

structure Half (u v : UserId) (gu gv : Group) (quv qvu : List Wire) : Prop where
  opens : ∀ c generation wrapped, Wire.senderKey c generation wrapped ∈ quv →
    ∃ secret, (ids v).unwrap crypto (ids u).publicKey generation wrapped = .ok secret
  present : recorded (gu.record v) qvu ⊆ gv.channels
  keyed : Lasts gu.channels (gu.record v) qvu → gu.rotationPending = false →
    Keyed gv.channels (Carries crypto (ids v) (ids u).publicKey gu.key) (gv.record u)
      (gv.Holds u gu.key gu.counter) quv ∨
    ∃ c ∈ gu.channels, Wire.hello c ∈ qvu

structure Linked (u v : UserId) (gu gv : Group) (quv qvu : List Wire) : Prop where
  there : Half crypto ids u v gu gv quv qvu
  back : Half crypto ids v u gv gu qvu quv
  seen : ∀ c ∈ gu.channels, c ∈ gv.channels →
    c ∈ recorded (gu.record v) qvu ∨ c ∈ recorded (gv.record u) quv

variable {crypto ids} {u v : UserId} {g g' gu gv : Group} {quv qvu : List Wire} {c : ChannelId}

lemma Linked.symm (h : Linked crypto ids u v gu gv quv qvu) : Linked crypto ids v u gv gu qvu quv :=
  ⟨h.back, h.there, fun c hv hu => (h.seen c hu hv).symm⟩

namespace Group

lemma Sound.publicKey_eq (h : g.Sound crypto ids u) {peer : Peer} (hfind : g.peers.find v = some peer) :
    peer.publicKey = (ids v).publicKey :=
  h.known v _ (by simp [Group.known, hfind])

lemma Sound.allWrappable (hids : Agreeing crypto ids) (h : g.Sound crypto ids u) : g.AllWrappable crypto := by
  intro v peer hfind
  rw [h.identity, h.publicKey_eq hfind]
  exact hids.contributory u v

lemma Sound.keyFor (hids : Agreeing crypto ids) (h : g.Sound crypto ids u) {peer : Peer}
    (hfind : g.peers.find v = some peer) (coins : Coins) :
    ∃ c wrapped, g.keyFor crypto coins v = [.senderKey c g.key.generation wrapped] ∧
      coins.channel (g.record v) = some c ∧
      Carries crypto (ids v) (ids u).publicKey g.key g.key.generation wrapped := by
  have hpk := h.publicKey_eq hfind
  obtain ⟨c, hc⟩ : ∃ c, coins.channel peer.channels = some c := by
    refine Option.ne_none_iff_exists'.mp fun hnone => ?_
    exact (h.shared v peer hfind).1.ne_empty ((coins.channel_eq_none _).mp hnone)
  obtain ⟨wrapped, hw⟩ := IdentityKey.wrap_eq_ok (coins.nonce v) g.key.generation g.secret (hids.contributory u v)
  refine ⟨c, wrapped, ?_, by rw [record_of_find hfind, hc], g.secret, ?_, h.derived.symm⟩
  · simp [Group.keyFor, hfind, hc, hpk, h.identity, hw]
  · exact IdentityKey.unwrap_wrap (hids.symmetric u v) hw

variable {coins : Coins} {peer : Peer}

lemma Sound.of_same (h : g.Sound crypto ids u) (hsame : g.SameRecords g') : g'.Sound crypto ids u where
  identity := hsame.identity.trans h.identity
  derived := by
    rw [hsame.key, hsame.secret]
    exact h.derived
  early hp := by
    rw [hsame.counter]
    exact h.early (hsame.pending.symm.trans hp)
  shared w peer hfind := by
    obtain ⟨sent, hs⟩ := hsame.peer w
    rw [hs, Option.map_eq_some_iff] at hfind
    obtain ⟨peer', hfind', rfl⟩ := hfind
    rw [hsame.channels]
    exact h.shared w peer' hfind'
  known w pk hk := h.known w pk (by rwa [hsame.known] at hk)

lemma Sound.of_keepsKey (h : g.Sound crypto ids u) (hkey : KeepsKey g g') (hid : g'.identity = g.identity)
    (hcounter : g'.counter = g.counter) (hshared : g'.Shared)
    (hknown : ∀ v pk, g'.known v = some pk → pk = (ids v).publicKey) : g'.Sound crypto ids u where
  identity := hid.trans h.identity
  derived := by
    rw [hkey.key, hkey.secret]
    exact h.derived
  early hp := by
    rw [hcounter]
    exact h.early (hkey.settled hp)
  shared := hshared
  known := hknown

lemma Sound.new (secret : Secret) : (Group.new crypto (ids u) secret).Sound crypto ids u where
  identity := rfl
  derived := rfl
  early _ := by
    simp only [Group.new]
    decide
  shared := new_shared crypto _ _
  known _ _ hk := by simp [Group.known, Group.new] at hk

variable (h : g.Sound crypto ids u) (coins : Coins)
include h

lemma Sound.joined (c : ChannelId) : (g.joined c).2.Sound crypto ids u := by
  refine h.of_keepsKey (joined_keepsKey g c) ?_ ?_ ((sharedIn_lasting crypto).joined h.shared c) ?_
  all_goals
    unfold Group.joined
    split
  · rfl
  · rfl
  · rfl
  · rfl
  · exact h.known
  · exact h.known

lemma Sound.left (c : ChannelId) : (g.left coins c).Sound crypto ids u := by
  refine h.of_keepsKey (left_keepsKey g coins c) (identity_left coins) (counter_left coins)
    ((sharedIn_lasting crypto).left h.shared coins c) fun w pk hk => ?_
  by_cases hc : c ∈ g.channels
  · refine h.known w pk ?_
    rw [Group.known, find_left coins hc] at hk
    split_ifs at hk
    · cases hk
    · rwa [Option.map_map] at hk
  · rw [Group.left, if_pos hc] at hk
    exact h.known w pk hk

lemma Sound.peerLeft (c : ChannelId) (v : UserId) : (g.peerLeft c v).Sound crypto ids u := by
  refine h.of_keepsKey (peerLeft_keepsKey g c v) identity_peerLeft counter_peerLeft
    ((sharedIn_lasting crypto).peerLeft h.shared c v) fun w pk hk => ?_
  by_cases hw : w = v
  · subst hw
    refine h.known w pk ?_
    cases hfind : g.peers.find w with
    | none => simp [Group.known, Group.peerLeft, hfind] at hk
    | some peer =>
      by_cases hempty : peer.channels.erase c = ∅
      · simp [Group.known, Group.peerLeft, hfind, hempty] at hk
      · simpa [Group.known, Group.peerLeft, hfind, hempty] using hk
  · rw [Group.known, find_peerLeft_of_ne hw] at hk
    exact h.known w pk hk

lemma Sound.noted (hc : c ∈ g.channels) (hfind : g.peers.find v = some peer) :
    (g.noted c v peer).Sound crypto ids u := by
  have hknown : ∀ w, (g.noted c v peer).known w = g.known w := known_set hfind rfl
  refine h.of_keepsKey (keepsKey_of_known rfl rfl id hknown) rfl rfl ?_ fun w pk hk => ?_
  · exact Dict.All.set h.shared ⟨Finset.insert_nonempty _ _, Finset.insert_subset hc (h.shared v peer hfind).2⟩
  · exact h.known w pk (by rwa [hknown] at hk)

lemma Sound.met (hc : c ∈ g.channels) (v : UserId) : (g.met c v (ids v).publicKey).Sound crypto ids u := by
  refine h.of_keepsKey ⟨rfl, rfl, fun _ => rfl, fun _ _ => rfl⟩ rfl rfl ?_ fun w pk hk => ?_
  · exact Dict.All.set h.shared ⟨Finset.singleton_nonempty c, Finset.singleton_subset_iff.mpr hc⟩
  · by_cases hw : w = v
    · subst hw
      simpa [Group.known, Group.met, eq_comm] using hk
    · exact h.known w pk (by simpa [Group.known, Group.met, hw] using hk)

lemma Sound.addKey (v : UserId) (key : SenderKey) : (g.addKey v key).Sound crypto ids u := by
  refine h.of_keepsKey (addKey_keepsKey g v key) (addKey_identity g v key) ?_
    ((sharedIn_lasting crypto).addKey h.shared v key) fun w pk hk => h.known w pk (by rwa [addKey_known] at hk)
  unfold Group.addKey
  split <;> rfl

lemma Sound.fresh : (g.fresh crypto coins).Sound crypto ids u where
  identity := h.identity
  derived := rfl
  early _ := by
    simp only [Group.fresh]
    decide
  shared := h.shared
  known := h.known

lemma Sound.encrypt (plain : Bytes) : (g.encrypt crypto plain).2.Sound crypto ids u where
  identity := h.identity
  derived := h.derived
  early hp := by
    simp only [Group.encrypt, Bool.or_eq_false_iff, decide_eq_false_iff_not, UInt32.not_le] at hp
    exact hp.2
  shared := h.shared
  known := h.known

lemma Sound.decrypt (v : UserId) (frame : Bytes) : (g.decrypt crypto v frame).2.Sound crypto ids u := by
  refine h.of_keepsKey (decrypt_keepsKey crypto g v frame) (by rw [decrypt_rest]) (by rw [decrypt_rest])
    ((sharedIn_lasting crypto).decrypt h.shared v frame) fun w pk hk => h.known w pk ?_
  rw [Group.known, find_decrypt] at hk
  split_ifs at hk with hw
  · rw [Option.map_map] at hk
    rw [hw]
    exact hk
  · exact hk

end Group

lemma Half.of_sent {generation : UInt8} {wrapped : Bytes}
    (hopens : ∀ c generation wrapped, Wire.senderKey c generation wrapped ∈ quv →
      ∃ secret, (ids v).unwrap crypto (ids u).publicKey generation wrapped = .ok secret)
    (hpresent : recorded (gu.record v) qvu ⊆ gv.channels)
    (hcarries : Carries crypto (ids v) (ids u).publicKey gu.key generation wrapped)
    (hrouted : (∃ d, d ∈ gu.channels ∧ d ∈ gv.channels) → c ∈ gv.channels) :
    Half crypto ids u v gu gv (quv ++ [.senderKey c generation wrapped]) qvu where
  opens d g w hm := by
    rcases List.mem_append.mp hm with hm | hm
    · exact hopens d g w hm
    · obtain ⟨rfl, rfl, rfl⟩ : d = c ∧ g = generation ∧ w = wrapped := by simpa using hm
      obtain ⟨secret, hsecret, -⟩ := hcarries
      exact ⟨secret, hsecret⟩
  present := hpresent
  keyed hlasts _ := by
    left
    obtain ⟨d, hd⟩ := hlasts.finally
    obtain ⟨hrec, hu⟩ := Finset.mem_inter.mp hd
    rw [keyed_concat, Wire.keeps, if_pos (hrouted ⟨d, hu, hpresent hrec⟩)]
    exact hcarries

lemma Half.of_more {m : Wire} (h : Half crypto ids u v gu gv quv qvu)
    (hpresent : recorded (gu.record v) (qvu ++ [m]) ⊆ gv.channels) :
    Half crypto ids u v gu gv quv (qvu ++ [m]) where
  opens := h.opens
  present := hpresent
  keyed hlasts hp := by
    rcases h.keyed hlasts.of_append hp with hkeyed | ⟨c, hc, hhello⟩
    · exact .inl hkeyed
    · exact .inr ⟨c, hc, List.mem_append_left _ hhello⟩

structure Group.SameFor (v : UserId) (g g' : Group) : Prop where
  channels : g'.channels = g.channels
  key : g'.key = g.key
  counter : g'.counter = g.counter
  pending : g'.rotationPending = false → g.rotationPending = false
  record : g'.record v = g.record v
  holds : ∀ key counter, g.Holds v key counter → g'.Holds v key counter

lemma Group.SameRecords.sameFor (h : g.SameRecords g') : g.SameFor v g' :=
  ⟨h.channels, h.key, h.counter, fun hp => h.pending.symm.trans hp, h.record v, fun _ _ => h.holds⟩

lemma Linked.of_same (h : Linked crypto ids u v gu gv quv qvu) (hsame : gu.SameFor v g') :
    Linked crypto ids u v g' gv quv qvu where
  there :=
    { opens := h.there.opens
      present := by
        rw [hsame.record]
        exact h.there.present
      keyed := by
        intro hlasts hp
        rw [hsame.channels, hsame.record] at hlasts
        rw [hsame.key, hsame.counter, hsame.channels]
        exact h.there.keyed hlasts (hsame.pending hp) }
  back :=
    { opens := h.back.opens
      present := by
        rw [hsame.channels]
        exact h.back.present
      keyed := by
        intro hlasts hp
        rw [hsame.channels, hsame.record]
        exact (h.back.keyed hlasts hp).imp_left (Keyed.imp_held (hsame.holds _ _)) }
  seen := by
    rw [hsame.channels, hsame.record]
    exact h.seen

end AurixVoice.E2ee
