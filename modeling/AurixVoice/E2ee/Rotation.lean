import AurixVoice.E2ee.GroupSteps

/-! When a rotation succeeds. The key is replaced before it is wrapped, whether or not that succeeds. -/

namespace AurixVoice.E2ee.Group

variable (crypto : Crypto)

def address (g : Group) (u : UserId) : Option (PublicKey × Finset ChannelId) :=
  (g.peers.find u).map fun peer => (peer.publicKey, peer.channels)

structure SameAddresses (g g' : Group) : Prop where
  identity : g'.identity = g.identity
  secret : g'.secret = g.secret
  key : g'.key = g.key
  address : ∀ u, g'.address u = g.address u

lemma wrapFor_sameAddresses (g : Group) (coins : Coins) (u : UserId) :
    SameAddresses g (g.wrapFor crypto coins u).2 := by
  obtain ⟨h, _⟩ | ⟨_, _, _, _, h⟩ | ⟨peer, _, _, hfind, _, _, _, h⟩ := wrapFor_cases crypto g coins u
  · rw [h]
    exact ⟨rfl, rfl, rfl, fun _ => rfl⟩
  · rw [h]
    exact ⟨rfl, rfl, rfl, fun _ => rfl⟩
  · rw [h]
    refine ⟨rfl, rfl, rfl, fun v => ?_⟩
    by_cases hv : v = u
    · subst hv
      simp [address, hfind]
    · simp [address, hv]

lemma wrapAll_sameAddresses (coins : Coins) (us : List UserId) (g : Group) :
    SameAddresses g (wrapAll crypto coins us g).2 := by
  apply wrapAll_invariant crypto (P := SameAddresses g) _ us ⟨rfl, rfl, rfl, fun _ => rfl⟩
  intro g' u h
  have hsame := wrapFor_sameAddresses crypto g' coins u
  exact ⟨hsame.identity.trans h.identity, hsame.secret.trans h.secret, hsame.key.trans h.key,
    fun v => (hsame.address v).trans (h.address v)⟩

def Reachable (g : Group) (u : UserId) : Prop :=
  ∀ pk channels, g.address u = some (pk, channels) → channels ≠ ∅ →
    g.identity.wrappable crypto pk = true

variable {g : Group}

lemma SameAddresses.reachable_iff {g' : Group} (h : SameAddresses g g') (u : UserId) :
    g'.Reachable crypto u ↔ g.Reachable crypto u := by
  simp [Reachable, h.address, h.identity]

lemma wrapFor_isOk_iff (g : Group) (coins : Coins) (u : UserId) :
    (∃ out, (g.wrapFor crypto coins u).1 = .ok out) ↔ g.Reachable crypto u := by
  obtain ⟨h, hempty⟩ | ⟨peer, hfind, hne, hlow, h⟩ | ⟨peer, c, wrapped, hfind, -, hw, -, h⟩ :=
    wrapFor_cases crypto g coins u
  · rw [h]
    refine ⟨fun _ pk channels ha hne => ?_, fun _ => ⟨none, rfl⟩⟩
    obtain ⟨peer, hfind, hpeer⟩ := Option.map_eq_some_iff.mp ha
    cases hpeer
    exact absurd (hempty peer hfind) hne
  · rw [h]
    refine ⟨fun ⟨_, hok⟩ => (by cases hok), fun hr => ?_⟩
    have hw := hr peer.publicKey peer.channels (by simp [address, hfind]) hne
    exact absurd (hw.symm.trans hlow) (by decide)
  · rw [h]
    refine ⟨fun _ pk channels ha _ => ?_, fun _ => ⟨_, rfl⟩⟩
    obtain ⟨rfl, -⟩ : peer.publicKey = pk ∧ _ := by simpa [address, hfind] using ha
    exact hw

variable {coins : Coins} {channels : Finset ChannelId}

lemma wrapFor_gives {u : UserId} {out : Option Outgoing} {pk : PublicKey} (h : (g.wrapFor crypto coins u).1 = .ok out)
    (ha : g.address u = some (pk, channels)) (hne : channels ≠ ∅) :
    ∃ c ∈ channels, ∃ wrapped, out = some (.senderKey c u g.key.generation wrapped) ∧
      g.identity.wrap crypto (coins.nonce u) pk g.key.generation g.secret = .ok wrapped := by
  obtain ⟨peer, hfind, hpeer⟩ := Option.map_eq_some_iff.mp ha
  cases hpeer
  obtain ⟨-, hempty⟩ | ⟨peer', -, -, -, hw⟩ | ⟨peer', c, wrapped, hfind', hc, -, hwrap, hw⟩ :=
    wrapFor_cases crypto g coins u
  · exact absurd (hempty peer hfind) hne
  · rw [hw] at h
    cases h
  · obtain rfl : peer = peer' := Option.some.inj (hfind.symm.trans hfind')
    rw [hw] at h
    exact ⟨c, hc, wrapped, (Except.ok.inj h).symm, hwrap⟩

lemma wrapAll_cons (coins : Coins) (u : UserId) (us : List UserId) (g : Group) :
    ((∃ e, (g.wrapFor crypto coins u).1 = .error e) ∧ (wrapAll crypto coins (u :: us) g).1.2 ≠ none) ∨
    ∃ out, (g.wrapFor crypto coins u).1 = .ok out ∧
      (wrapAll crypto coins (u :: us) g).1.1 =
        out.toList ++ (wrapAll crypto coins us (g.wrapFor crypto coins u).2).1.1 ∧
      (wrapAll crypto coins (u :: us) g).1.2 = (wrapAll crypto coins us (g.wrapFor crypto coins u).2).1.2 := by
  simp only [wrapAll]
  cases g.wrapFor crypto coins u with
  | mk result =>
    cases result with
    | error e => exact .inl ⟨⟨e, rfl⟩, by simp⟩
    | ok out => exact .inr ⟨out, rfl, rfl, rfl⟩

lemma wrapAll_eq_none_iff (coins : Coins) (us : List UserId) (g : Group) :
    (wrapAll crypto coins us g).1.2 = none ↔ ∀ u ∈ us, g.Reachable crypto u := by
  induction us generalizing g with
  | nil => simp [wrapAll]
  | cons u us ih =>
    have hsame := wrapFor_sameAddresses crypto g coins u
    have hu := wrapFor_isOk_iff crypto g coins u
    rw [List.forall_mem_cons, ← hu]
    obtain ⟨⟨e, he⟩, hsome⟩ | ⟨out, hok, -, hrest⟩ := wrapAll_cons crypto coins u us g
    · simp [hsome, he]
    · rw [hrest, ih]
      simp [hok, hsame.reachable_iff crypto]

lemma wrapAll_gives {us : List UserId} {u : UserId} {pk : PublicKey}
    (h : (wrapAll crypto coins us g).1.2 = none) (hu : u ∈ us)
    (ha : g.address u = some (pk, channels)) (hne : channels ≠ ∅) : ∃ c ∈ channels, ∃ wrapped,
      .senderKey c u g.key.generation wrapped ∈ (wrapAll crypto coins us g).1.1 ∧
      g.identity.wrap crypto (coins.nonce u) pk g.key.generation g.secret = .ok wrapped := by
  induction us generalizing g with
  | nil => cases hu
  | cons v us ih =>
    have hsame := wrapFor_sameAddresses crypto g coins v
    obtain ⟨-, hsome⟩ | ⟨out, hok, hout, hrest⟩ := wrapAll_cons crypto coins v us g
    · exact absurd h hsome
    · rw [hout]
      rcases List.mem_cons.mp hu with rfl | hu
      · obtain ⟨c, hc, wrapped, rfl, hwrap⟩ := wrapFor_gives crypto hok ha hne
        exact ⟨c, hc, wrapped, List.mem_append_left _ (by simp), hwrap⟩
      · obtain ⟨c, hc, wrapped, hm, hwrap⟩ := ih (hrest ▸ h) hu (hsame.address u ▸ ha)
        rw [hsame.key, hsame.identity, hsame.secret] at hwrap
        rw [hsame.key] at hm
        exact ⟨c, hc, wrapped, List.mem_append_right _ hm, hwrap⟩

variable {force : Bool}

lemma rotate_of_due (coins : Coins) (h : (force || g.rotationPending) = true) :
    let r := wrapAll crypto coins (coins.users g.peers.keys) (g.fresh crypto coins)
    SameAddresses (g.fresh crypto coins) (g.rotate crypto coins force).2 ∧
      (g.rotate crypto coins force).1 = match r.1.2 with
        | some e => .error e
        | none => .ok r.1.1 := by
  intro r
  obtain ⟨hnot, -⟩ | ⟨-, hg⟩ := rotate_cases crypto g coins force
  · exact absurd (h.symm.trans hnot) (by decide)
  · refine ⟨?_, ?_⟩
    · rw [hg]
      exact wrapAll_sameAddresses crypto coins _ _
    · simp only [rotate, h, r]
      generalize wrapAll crypto coins (coins.users g.peers.keys) (g.fresh crypto coins) = outcome
      obtain ⟨⟨out, e⟩, g'⟩ := outcome
      cases e <;> rfl

lemma fresh_reachable_iff (g : Group) (coins : Coins) :
    (∀ u ∈ coins.users g.peers.keys, (g.fresh crypto coins).Reachable crypto u) ↔
      ∀ u peer, g.peers.find u = some peer → peer.channels ≠ ∅ →
        g.identity.wrappable crypto peer.publicKey = true := by
  constructor
  · intro h u peer hfind hne
    have hu : u ∈ coins.users g.peers.keys := by
      rw [coins.mem_users, Dict.mem_keys_iff]
      exact ⟨peer, hfind⟩
    exact h u hu peer.publicKey peer.channels (by simp [address, fresh, hfind]) hne
  · intro h u _ pk channels ha hne
    obtain ⟨peer, hfind, hpeer⟩ := Option.map_eq_some_iff.mp ha
    cases hpeer
    exact h u peer hfind hne

/-- Rotation as all or nothing: an error leaves the key material alone, and every peer that shares
a channel and can be wrapped for is sent the key `encrypt` uses next. -/
def AllOrNothing (g : Group) (coins : Coins) (force : Bool) : Prop :=
  let r := g.rotate crypto coins force
  (∀ e, r.1 = .error e → r.2.generation = g.generation ∧ r.2.secret = g.secret ∧
    r.2.counter = g.counter ∧ r.2.rotationPending = g.rotationPending) ∧
  ∀ u peer, g.peers.find u = some peer → peer.channels ≠ ∅ →
    g.identity.wrappable crypto peer.publicKey = true →
    r.2.key = g.key ∨ ∃ out c wrapped, r.1 = .ok out ∧
      .senderKey c u r.2.generation wrapped ∈ out ∧ c ∈ peer.channels ∧
      r.2.identity.wrap crypto (coins.nonce u) peer.publicKey r.2.generation r.2.secret = .ok wrapped

lemma not_allOrNothing_of_error {e : AurixError}
    (hdue : (force || g.rotationPending) = true) (he : (g.rotate crypto coins force).1 = .error e) :
    ¬ g.AllOrNothing crypto coins force := by
  rintro ⟨herr, -⟩
  have hkey := (rotate_of_due crypto coins hdue).1.key
  have hgen : (g.rotate crypto coins force).2.key.generation = g.key.generation := (herr e he).1
  rw [hkey] at hgen
  change g.key.generation + 1 = g.key.generation at hgen
  simp at hgen

lemma allOrNothing_of_reachable (hdue : (force || g.rotationPending) = true)
    (hnone : (wrapAll crypto coins (coins.users g.peers.keys) (g.fresh crypto coins)).1.2 = none) :
    g.AllOrNothing crypto coins force := by
  obtain ⟨hsame, hresult⟩ := rotate_of_due crypto coins hdue
  simp only [hnone] at hresult
  refine ⟨fun e he => (by rw [hresult] at he; cases he), ?_⟩
  intro u peer hfind hne _
  have hu : u ∈ coins.users g.peers.keys := by
    rw [coins.mem_users, Dict.mem_keys_iff]
    exact ⟨peer, hfind⟩
  have ha : (g.fresh crypto coins).address u = some (peer.publicKey, peer.channels) := by
    simp [address, fresh, hfind]
  obtain ⟨c, hc, wrapped, hm, hwrap⟩ := wrapAll_gives crypto hnone hu ha hne
  refine .inr ⟨_, c, wrapped, hresult, ?_, hc, ?_⟩
  · rw [generation, hsame.key]
    exact hm
  · rw [generation, hsame.key, hsame.identity, hsame.secret]
    exact hwrap

theorem rotate_allOrNothing_iff (g : Group) (coins : Coins) (force : Bool) :
    g.AllOrNothing crypto coins force ↔
      ((force || g.rotationPending) = false ∨
        ∀ u peer, g.peers.find u = some peer → peer.channels ≠ ∅ →
          g.identity.wrappable crypto peer.publicKey = true) := by
  cases hdue : (force || g.rotationPending) with
  | false =>
    obtain ⟨-, hr⟩ | ⟨hd, -⟩ := rotate_cases crypto g coins force
    · simp [AllOrNothing, hr]
    · exact absurd (hdue.symm.trans hd) (by decide)
  | true =>
    rw [← fresh_reachable_iff crypto g coins, ← wrapAll_eq_none_iff]
    constructor
    · intro h
      right
      by_contra hsome
      obtain ⟨e, he⟩ := Option.ne_none_iff_exists'.mp hsome
      have hresult := (rotate_of_due crypto coins hdue).2
      rw [he] at hresult
      exact not_allOrNothing_of_error crypto hdue hresult h
    · rintro (hfalse | hnone)
      · cases hfalse
      · exact allOrNothing_of_reachable crypto hdue hnone

def lowOrderGroup : Group :=
  let coins := Coins.sorted (Vector.replicate 32 0)
  let g := (joined (.new .masks (.fromBytes .masks (Vector.replicate 32 255)) (Vector.replicate 32 5)) 7).2
  let g := (g.onHello .masks coins 7 2 (Vector.replicate 32 0)).2
  (g.onHello .masks coins 7 3 (Vector.replicate 32 1)).2

theorem lowOrderGroup_not_allOrNothing :
    ¬ lowOrderGroup.AllOrNothing .masks (.sorted (Vector.replicate 32 9)) false := by
  have hdue : (false || lowOrderGroup.rotationPending) = true := rfl
  have hlow : lowOrderGroup.identity.wrappable .masks (Vector.replicate 32 0) = false := by
    decide +kernel
  have hsome : (wrapAll .masks (.sorted (Vector.replicate 32 9)) ((Coins.sorted (Vector.replicate 32 9)).users
      lowOrderGroup.peers.keys) (lowOrderGroup.fresh .masks (.sorted (Vector.replicate 32 9)))).1.2 ≠ none := by
    rw [ne_eq, wrapAll_eq_none_iff, fresh_reachable_iff]
    intro h
    have hw := h 2 ⟨Vector.replicate 32 0, {7}, .empty, none⟩ rfl (by decide)
    exact absurd (hw.symm.trans hlow) (by decide)
  obtain ⟨e, he⟩ := Option.ne_none_iff_exists'.mp hsome
  have hresult := (rotate_of_due .masks (.sorted (Vector.replicate 32 9)) hdue).2
  rw [he] at hresult
  exact not_allOrNothing_of_error .masks hdue hresult

end AurixVoice.E2ee.Group
