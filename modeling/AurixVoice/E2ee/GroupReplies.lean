import AurixVoice.E2ee.GroupSteps

namespace AurixVoice.E2ee.Group

variable (crypto : Crypto) {g : Group} {u : UserId} {pk : PublicKey} {c : ChannelId} {change : Option PeerChange}
  {out : List Outgoing} {m : Outgoing}

lemma learnPeer_of_known (c : ChannelId) (h : g.known u = some pk) :
    ∃ peer, g.peers.find u = some peer ∧ peer.publicKey = pk ∧ g.learnPeer crypto c u pk =
      (none, { g with peers := g.peers.set u { peer with channels := insert c peer.channels } }) := by
  obtain ⟨peer, hfind, hpk⟩ := Option.map_eq_some_iff.mp h
  exact ⟨peer, hfind, hpk, by simp only [learnPeer, hfind, hpk, ↓reduceIte]⟩

lemma learnPeer_identity (g : Group) (c : ChannelId) (u : UserId) (pk : PublicKey) :
    (g.learnPeer crypto c u pk).2.identity = g.identity := by
  unfold learnPeer
  split
  · split <;> rfl
  · rfl

lemma answer_out {coins : Coins} {change' : Option PeerChange} (hk : g.known u = some pk)
    (h : (g.answer crypto coins u change).1 = .ok (out, change')) (hm : m ∈ out) :
    (∃ c wrapped, m = .senderKey c u g.key.generation wrapped) ∧
      g.identity.wrappable crypto pk = true ∧ (g.answer crypto coins u change).2.known u = some pk := by
  obtain ⟨hg, ⟨e, herr⟩ | ⟨reply, hreply, hok⟩⟩ := answer_cases crypto g coins u change
  · rw [herr] at h; cases h
  · obtain ⟨rfl, -⟩ : reply.toList = out ∧ change = change' := by simpa using hok.symm.trans h
    obtain rfl : reply = some m := by simpa using hm
    obtain ⟨c, wrapped, pk', rfl, hpk', hwrap⟩ := wrapFor_out crypto hreply
    obtain rfl : pk = pk' := Option.some.inj (hk.symm.trans hpk')
    exact ⟨⟨c, wrapped, rfl⟩, hwrap, by rw [hg, wrapFor_known, hk]⟩

lemma onHello_out {coins : Coins} (h : (g.onHello crypto coins c u pk).1 = .ok (out, change)) (hm : m ∈ out) :
    (∃ c' wrapped, m = .senderKey c' u g.key.generation wrapped) ∧ c ∈ g.channels ∧
      g.known u = some pk ∧ g.identity.wrappable crypto pk = true ∧
      (g.onHello crypto coins c u pk).2.known u = some pk := by
  obtain ⟨hchange, hlearned, -⟩ := learnPeer_change crypto g c u pk
  have hkey := (learnPeer_keepsKey crypto g c u pk).key
  have hid := learnPeer_identity crypto g c u pk
  unfold onHello at h ⊢
  by_cases hc : c ∈ g.channels
  · cases hl : g.learnPeer crypto c u pk with
    | mk learned =>
      rw [hl] at hchange hlearned hkey hid
      simp only [hl, hc, not_true_eq_false, ↓reduceIte] at h ⊢
      cases learned with
      | some =>
        obtain ⟨rfl, -⟩ : [] = out ∧ _ = change := by simpa using h
        cases hm
      | none =>
        obtain ⟨hsent, hwrap, hstay⟩ := answer_out crypto hlearned h hm
        exact ⟨hkey ▸ hsent, trivial, hchange.mp rfl, hid ▸ hwrap, hstay⟩
  · obtain ⟨rfl, -⟩ : [] = out ∧ none = change := by simpa [hc] using h
    cases hm

lemma onHello_of_known (coins : Coins) (hc : c ∈ g.channels) (hk : g.known u = some pk)
    (hw : g.identity.wrappable crypto pk = true) :
    ∃ c' wrapped, (g.onHello crypto coins c u pk).1 =
      .ok ([.senderKey c' u g.key.generation wrapped], none) := by
  obtain ⟨peer, hfind, rfl, hl⟩ := learnPeer_of_known crypto c hk
  simp only [onHello, hc, not_true_eq_false, ↓reduceIte, hl, Option.isSome_none, Bool.false_eq_true, answer]
  obtain ⟨-, hempty⟩ | ⟨peer', hfind', -, hlow, -⟩ | ⟨peer', c', wrapped, -, -, -, -, hwrap⟩ :=
    wrapFor_cases crypto
      { g with peers := g.peers.set u { peer with channels := insert c peer.channels } } coins u
  · have hnone := hempty { peer with channels := insert c peer.channels } (by simp)
    exact absurd hnone (Finset.insert_ne_empty c peer.channels)
  · obtain rfl : _ = peer' := by simpa using hfind'
    exact absurd (hw.symm.trans hlow) (by decide)
  · rw [hwrap]
    exact ⟨c', wrapped, rfl⟩

lemma needsOurKey_addKey {key : SenderKey} : (g.addKey u key).needsOurKey u = g.needsOurKey u := by
  unfold addKey
  split
  · rfl
  next peer hfind => simp [needsOurKey, hfind]

lemma needsOurKey_learnPeer (h : g.known u = some pk) :
    (g.learnPeer crypto c u pk).2.needsOurKey u = g.needsOurKey u := by
  obtain ⟨peer, hfind, -, hl⟩ := learnPeer_of_known crypto c h
  simp [hl, needsOurKey, hfind]

lemma addKey_identity (g : Group) (u : UserId) (key : SenderKey) : (g.addKey u key).identity = g.identity := by
  unfold addKey
  split <;> rfl

lemma onSenderKey_out {coins : Coins} {generation : UInt8} {wrapped : Bytes}
    (h : (g.onSenderKey crypto coins c u pk generation wrapped).1 = .ok (out, change)) (hm : m ∈ out) :
    (∃ c' wrapped', m = .senderKey c' u g.key.generation wrapped') ∧ c ∈ g.channels ∧
      g.known u = some pk ∧ g.identity.wrappable crypto pk = true ∧ g.needsOurKey u = true ∧
      (g.identity.unwrap crypto pk generation wrapped).isOk = true ∧
      (g.onSenderKey crypto coins c u pk generation wrapped).2.known u = some pk := by
  obtain ⟨hchange, hlearned, -⟩ := learnPeer_change crypto g c u pk
  have hkey := (learnPeer_keepsKey crypto g c u pk).key
  have hid := learnPeer_identity crypto g c u pk
  unfold onSenderKey at h ⊢
  by_cases hc : c ∈ g.channels
  · cases hunwrap : g.identity.unwrap crypto pk generation wrapped with
    | error => simp [hc, hunwrap] at h
    | ok =>
      have hneeds : g.known u = some pk → (g.learnPeer crypto c u pk).2.needsOurKey u = g.needsOurKey u :=
        needsOurKey_learnPeer crypto
      cases hl : g.learnPeer crypto c u pk with
      | mk learned g' =>
        rw [hl] at hchange hlearned hkey hid hneeds
        simp only [hl, hunwrap, hc, not_true_eq_false, ↓reduceIte] at h ⊢
        split at h
        next hreply =>
          obtain ⟨rfl, hsend⟩ : learned = none ∧ _ = true := by simpa using hreply
          have hk := hchange.mp rfl
          simp only [hreply, ↓reduceIte]
          obtain ⟨hsent, hwrap, hstay⟩ :=
            answer_out crypto ((addKey_known g' u _ u).trans hlearned) h hm
          rw [needsOurKey_addKey, hneeds hk] at hsend
          rw [(addKey_keepsKey g' u _).key, hkey] at hsent
          rw [addKey_identity, hid] at hwrap
          exact ⟨hsent, trivial, hk, hwrap, hsend, rfl, hstay⟩
        · obtain ⟨rfl, -⟩ : [] = out ∧ learned = change := by simpa using h
          cases hm
  · obtain ⟨rfl, -⟩ : [] = out ∧ none = change := by simpa [hc] using h
    cases hm

end AurixVoice.E2ee.Group
