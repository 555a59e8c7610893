import AurixVoice.E2ee.Group

namespace AurixVoice.E2ee.Group

variable (crypto : Crypto)

def known (g : Group) (u : UserId) : Option PublicKey :=
    (g.peers.find u).map fun peer => peer.publicKey

structure KeepsKey (g g' : Group) : Prop where
  secret : g'.secret = g.secret
  key : g'.key = g.key
  pending : g.rotationPending = true → g'.rotationPending = true
  changed : ∀ u, g'.known u ≠ g.known u → g'.rotationPending = true

variable {m : Outgoing} (g : Group) (c : ChannelId) (u : UserId) (pk : PublicKey)

lemma KeepsKey.refl : KeepsKey g g :=
  ⟨rfl, rfl, id, fun _ hn => absurd rfl hn⟩

lemma KeepsKey.settled {g g' : Group} (h : KeepsKey g g') (hp : g'.rotationPending = false) :
    g.rotationPending = false := by
  rw [← Bool.not_eq_true] at hp ⊢
  exact mt h.pending hp

lemma KeepsKey.trans {g₁ g₂ g₃ : Group} (h : KeepsKey g₁ g₂) (h' : KeepsKey g₂ g₃) : KeepsKey g₁ g₃ where
  secret := h'.secret.trans h.secret
  key := h'.key.trans h.key
  pending hp := h'.pending (h.pending hp)
  changed u hn := by
    by_cases hm : g₂.known u = g₁.known u
    · exact h'.changed u (hm ▸ hn)
    · exact h'.pending (h.changed u hm)

lemma keepsKey_of_known {g g' : Group} (hs : g'.secret = g.secret) (hk : g'.key = g.key)
    (hp : g.rotationPending = true → g'.rotationPending = true)
    (hknown : ∀ u, g'.known u = g.known u) : KeepsKey g g' :=
  ⟨hs, hk, hp, fun u hn => absurd (hknown u) hn⟩

lemma known_set {g : Group} {u : UserId} {peer peer' : Peer} (h : g.peers.find u = some peer)
    (hpk : peer'.publicKey = peer.publicKey) (v : UserId) :
    ({ g with peers := g.peers.set u peer' } : Group).known v = g.known v := by
  by_cases hv : v = u
  · subst hv; simp [known, h, hpk]
  · simp [known, hv]

lemma joined_keepsKey : KeepsKey g (g.joined c).2 := by
  unfold joined
  split
  · exact .refl g
  · exact keepsKey_of_known rfl rfl id fun _ => rfl

lemma peerLeft_keepsKey : KeepsKey g (g.peerLeft c u) := by
  unfold peerLeft
  split
  · exact .refl g
  next peer hfind =>
    split
    · exact ⟨rfl, rfl, fun _ => rfl, fun _ _ => rfl⟩
    · exact keepsKey_of_known rfl rfl id (known_set hfind rfl)

lemma dropAbsent_keepsKey (us : List UserId) (g : Group) : KeepsKey g (dropAbsent c us g).2 := by
  induction us generalizing g with
  | nil => exact .refl g
  | cons u us ih => exact (peerLeft_keepsKey g c u).trans (ih _)

variable (coins : Coins) (us : List UserId)

lemma rejoined_keepsKey (c : ChannelId) (members : Finset UserId) : KeepsKey g (g.rejoined coins c members).2 := by
  unfold rejoined
  split
  · exact joined_keepsKey g c
  · exact dropAbsent_keepsKey c _ g

lemma left_keepsKey (c : ChannelId) : KeepsKey g (g.left coins c) := by
  unfold left
  split
  · exact .refl g
  · refine ⟨rfl, rfl, fun h => by simp [h], fun u hn => ?_⟩
    -- an identity is only lost with a peer that is in `gone`
    simp only [Bool.or_eq_true, Bool.not_eq_true', List.isEmpty_eq_false_iff]
    refine .inr (List.ne_nil_of_mem (a := u) ?_)
    by_contra hgone
    apply hn
    simp only [known, Dict.find_foldl_erase, hgone, ↓reduceIte, withoutChannel, Dict.find_mapValues, Option.map_map]
    rfl

lemma reset_keepsKey : KeepsKey g g.reset :=
  ⟨rfl, rfl, fun _ => rfl, fun _ _ => rfl⟩

lemma learnPeer_keepsKey : KeepsKey g (g.learnPeer crypto c u pk).2 := by
  unfold learnPeer
  split
  next peer hfind =>
    split
    · exact keepsKey_of_known rfl rfl id (known_set hfind rfl)
    · exact ⟨rfl, rfl, fun _ => rfl, fun _ _ => rfl⟩
  · exact ⟨rfl, rfl, fun _ => rfl, fun _ _ => rfl⟩

lemma learnPeer_change :
    ((g.learnPeer crypto c u pk).1 = none ↔ g.known u = some pk) ∧
      (g.learnPeer crypto c u pk).2.known u = some pk ∧
      ∀ v, v ≠ u → (g.learnPeer crypto c u pk).2.known v = g.known v := by
  unfold learnPeer
  split
  next peer hfind =>
    split
    next hpk => exact ⟨by simp [known, hfind, hpk], by simp [known, hpk], fun v hv => by simp [known, hv]⟩
    next hpk => exact ⟨by simp [known, hfind, hpk], by simp [known], fun v hv => by simp [known, hv]⟩
  next hfind => exact ⟨by simp [known, hfind], by simp [known], fun v hv => by simp [known, hv]⟩

lemma addKey_known (key : SenderKey) (v : UserId) : (g.addKey u key).known v = g.known v := by
  unfold addKey
  split
  · rfl
  next peer hfind => exact known_set hfind (by rfl) v

lemma addKey_keepsKey (key : SenderKey) : KeepsKey g (g.addKey u key) := by
  have hknown := addKey_known g u key
  unfold addKey at hknown ⊢
  split
  · exact .refl g
  next peer hfind => exact keepsKey_of_known rfl rfl id (known_set hfind rfl)

lemma wrapFor_cases (u : UserId) :
    (g.wrapFor crypto coins u = (.ok none, g) ∧
      ∀ peer, g.peers.find u = some peer → peer.channels = ∅) ∨
    (∃ peer, g.peers.find u = some peer ∧ peer.channels ≠ ∅ ∧
      g.identity.wrappable crypto peer.publicKey = false ∧
      g.wrapFor crypto coins u = (.error (.encryption "low-order X25519 public key"), g)) ∨
    ∃ peer c wrapped, g.peers.find u = some peer ∧ c ∈ peer.channels ∧
      g.identity.wrappable crypto peer.publicKey = true ∧
      g.identity.wrap crypto (coins.nonce u) peer.publicKey g.key.generation g.secret = .ok wrapped ∧
      g.wrapFor crypto coins u = (.ok (some (.senderKey c u g.key.generation wrapped)),
        { g with peers := g.peers.set u { peer with sentGeneration := some g.key.generation } }) := by
  unfold wrapFor
  cases hfind : g.peers.find u with
  | none => exact .inl ⟨rfl, fun peer hp => by cases hp⟩
  | some peer =>
    dsimp only
    cases hchan : coins.channel peer.channels with
    | none =>
      refine .inl ⟨rfl, fun peer' hp => ?_⟩
      obtain rfl : peer = peer' := Option.some.inj hp
      exact (coins.channel_eq_none _).mp hchan
    | some c =>
      have hc := coins.mem_of_channel _ _ hchan
      cases hw : g.identity.wrappable crypto peer.publicKey with
      | false =>
        refine .inr (.inl ⟨peer, rfl, Finset.ne_empty_of_mem hc, hw, ?_⟩)
        rw [IdentityKey.wrap_eq_error hw]
      | true =>
        obtain ⟨wrapped, hok⟩ :=
          IdentityKey.wrap_eq_ok (coins.nonce u) g.key.generation g.secret hw
        refine .inr (.inr ⟨peer, c, wrapped, rfl, hc, hw, hok, ?_⟩)
        rw [hok]

lemma wrapFor_known (u v : UserId) : (g.wrapFor crypto coins u).2.known v = g.known v := by
  obtain ⟨h, _⟩ | ⟨_, _, _, _, h⟩ | ⟨peer, _, _, hfind, _, _, _, h⟩ :=
    wrapFor_cases crypto g coins u
  · rw [h]
  · rw [h]
  · rw [h]
    exact known_set hfind (by rfl) v

lemma wrapFor_keepsKey (u : UserId) : KeepsKey g (g.wrapFor crypto coins u).2 := by
  obtain ⟨h, _⟩ | ⟨_, _, _, _, h⟩ | ⟨peer, _, _, hfind, _, _, _, h⟩ := wrapFor_cases crypto g coins u
  · rw [h]; exact .refl g
  · rw [h]; exact .refl g
  · rw [h]; exact keepsKey_of_known rfl rfl id (known_set hfind (by rfl))

lemma wrapFor_out {g : Group} {coins : Coins} {u : UserId} (h : (g.wrapFor crypto coins u).1 = .ok (some m)) :
    ∃ c wrapped pk, m = .senderKey c u g.key.generation wrapped ∧ g.known u = some pk ∧
      g.identity.wrappable crypto pk = true := by
  obtain ⟨hw, _⟩ | ⟨_, _, _, _, hw⟩ | ⟨peer, c, wrapped, hfind, _, hpk, _, hw⟩ :=
    wrapFor_cases crypto g coins u
  · rw [hw] at h; cases h
  · rw [hw] at h; cases h
  · rw [hw] at h
    cases h
    exact ⟨c, wrapped, peer.publicKey, rfl, by simp [known, hfind], hpk⟩

lemma wrapAll_invariant {P : Group → Prop} {coins : Coins} (hwrap : ∀ g u, P g → P (g.wrapFor crypto coins u).2)
    (us : List UserId) {g : Group} (h : P g) : P (wrapAll crypto coins us g).2 := by
  induction us generalizing g with
  | nil => exact h
  | cons u us ih =>
    have hnext := hwrap g u h
    unfold wrapAll
    cases hw : g.wrapFor crypto coins u with
    | mk result =>
      rw [hw] at hnext
      cases result with
      | error => exact hnext
      | ok => exact ih hnext

lemma wrapAll_keepsKey (g : Group) :
    KeepsKey g (wrapAll crypto coins us g).2 ∧
      ∀ v, (wrapAll crypto coins us g).2.known v = g.known v := by
  refine wrapAll_invariant crypto (P := fun g' => KeepsKey g g' ∧ ∀ v, g'.known v = g.known v) ?_ us
    ⟨.refl g, fun _ => rfl⟩
  rintro g' u ⟨hkeep, hknown⟩
  exact ⟨hkeep.trans (wrapFor_keepsKey crypto g' coins u),
    fun v => (wrapFor_known crypto g' coins u v).trans (hknown v)⟩

lemma wrapAll_pending (g : Group) : (wrapAll crypto coins us g).2.rotationPending = g.rotationPending := by
  apply wrapAll_invariant crypto (P := fun g' => g'.rotationPending = g.rotationPending) _ us rfl
  intro g' u h
  obtain ⟨hw, _⟩ | ⟨_, _, _, _, hw⟩ | ⟨_, _, _, _, _, _, _, hw⟩ := wrapFor_cases crypto g' coins u <;>
    rw [hw] <;> exact h

lemma wrapAll_out {coins : Coins} {us : List UserId} {g : Group} (h : m ∈ (wrapAll crypto coins us g).1.1) :
    ∃ c u wrapped pk, m = .senderKey c u g.key.generation wrapped ∧ g.known u = some pk := by
  induction us generalizing g with
  | nil => cases h
  | cons u us ih =>
    have hkeep := wrapFor_keepsKey crypto g coins u
    have hknown := wrapFor_known crypto g coins u
    unfold wrapAll at h
    cases hw : g.wrapFor crypto coins u with
    | mk result =>
      rw [hw] at h hkeep hknown
      cases result with
      | error => cases h
      | ok out =>
        rcases List.mem_append.mp h with h | h
        · obtain rfl : out = some m := by simpa using h
          obtain ⟨c, wrapped, pk, hm, hk, _⟩ := wrapFor_out crypto (congrArg Prod.fst hw)
          exact ⟨c, u, wrapped, pk, hm, hk⟩
        · obtain ⟨c, v, wrapped, pk, hm, hk⟩ := ih h
          exact ⟨c, v, wrapped, pk, by rw [hm, hkeep.key], by rw [← hknown, hk]⟩

section

variable (c : ChannelId) (u : UserId) (change : Option PeerChange) (pk : PublicKey)

lemma answer_cases :
    (g.answer crypto coins u change).2 = (g.wrapFor crypto coins u).2 ∧
      ((∃ e, (g.answer crypto coins u change).1 = .error e) ∨
        ∃ out, (g.wrapFor crypto coins u).1 = .ok out ∧
          (g.answer crypto coins u change).1 = .ok (out.toList, change)) := by
  unfold answer
  cases g.wrapFor crypto coins u with
  | mk result =>
    cases result with
    | error e => exact ⟨rfl, .inl ⟨e, rfl⟩⟩
    | ok out => exact ⟨rfl, .inr ⟨out, rfl, rfl⟩⟩

lemma answer_keepsKey : KeepsKey g (g.answer crypto coins u change).2 := by
  rw [(answer_cases crypto g coins u change).1]
  exact wrapFor_keepsKey crypto g coins u

lemma onHello_keepsKey : KeepsKey g (g.onHello crypto coins c u pk).2 := by
  have hlearn := learnPeer_keepsKey crypto g c u pk
  unfold onHello
  split
  · exact .refl g
  · dsimp only
    split
    · exact hlearn
    · exact hlearn.trans (answer_keepsKey crypto _ coins u none)

lemma onSenderKey_keepsKey (generation : UInt8) (wrapped : Bytes) :
    KeepsKey g (g.onSenderKey crypto coins c u pk generation wrapped).2 := by
  have hlearn := learnPeer_keepsKey crypto g c u pk
  unfold onSenderKey
  split
  · exact .refl g
  · cases g.identity.unwrap crypto pk generation wrapped with
    | error => exact .refl g
    | ok secret =>
      have hadd := hlearn.trans (addKey_keepsKey (g.learnPeer crypto c u pk).2 u (.derive crypto generation secret))
      dsimp only
      split
      · exact hadd.trans (answer_keepsKey crypto _ coins u _)
      · exact hadd

end

lemma encrypt_keepsKey (plain : Bytes) : KeepsKey g (g.encrypt crypto plain).2 :=
  keepsKey_of_known rfl rfl (fun h => by simp [encrypt, h]) fun _ => rfl

lemma decrypt_keepsKey (frame : Bytes) : KeepsKey g (g.decrypt crypto u frame).2 := by
  unfold decrypt
  split
  · exact .refl g
  next peer hfind => exact keepsKey_of_known rfl rfl id (known_set hfind (by rfl))

lemma rotate_cases (force : Bool) :
    ((force || g.rotationPending) = false ∧ g.rotate crypto coins force = (.ok [], g)) ∨
    ((force || g.rotationPending) = true ∧
      (g.rotate crypto coins force).2 =
        (wrapAll crypto coins (coins.users g.peers.keys) (g.fresh crypto coins)).2) := by
  unfold rotate
  cases hd : (force || g.rotationPending) with
  | false => exact .inl ⟨rfl, by simp⟩
  | true =>
    refine .inr ⟨rfl, ?_⟩
    cases hw : wrapAll crypto coins (coins.users g.peers.keys) (g.fresh crypto coins) with
    | mk result =>
      obtain ⟨out, e⟩ := result
      cases e <;> rfl

end AurixVoice.E2ee.Group
