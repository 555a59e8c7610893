import AurixVoice.E2ee.InFlight
import AurixVoice.E2ee.SharedChannels

namespace AurixVoice.E2ee

open List

variable (crypto : Crypto)

def Carries (receiver : IdentityKey) (sender : PublicKey) (key : SenderKey) (generation : UInt8)
    (wrapped : Bytes) : Prop :=
  ∃ secret, receiver.unwrap crypto sender generation wrapped = .ok secret ∧
    SenderKey.derive crypto generation secret = key

def Outgoing.wires (reaches : ChannelId → Bool) (v : UserId) : Outgoing → List Wire
  | .hello c => if reaches c then [.hello c] else []
  | .senderKey c u generation wrapped => if u = v then [.senderKey c generation wrapped] else []

namespace PeerKeys

lemma find_insert (p : PeerKeys) (key : SenderKey) :
    (p.insert key).generations.find? (fun e => e.1.generation = key.generation) = some (key, .new) := by
  have hold : ∀ n, (((p.generations.filter fun e => e.1.generation ≠ key.generation).drop n).find?
      fun e => e.1.generation = key.generation) = none := by
    intro n
    refine find?_eq_none.mpr fun e he => ?_
    simpa using (mem_filter.mp (mem_of_mem_drop he)).2
  simp only [insert]
  rw [drop_append_of_le_length, find?_append, hold]
  · simp
  · simp only [length_append, length_singleton, keptGenerations]
    omega

lemma find_setReplay_of_ne {generation other : UInt8} (hne : generation ≠ other) (next : ReplayState)
    (es : List (SenderKey × ReplayState)) :
    (setReplay other next es).find? (fun e => e.1.generation = generation) =
      es.find? fun e => e.1.generation = generation := by
  induction es with
  | nil => rfl
  | cons e es ih =>
    by_cases he : e.1.generation = other
    · simp [setReplay, he, hne.symm]
    · simp [setReplay, he, find?_cons, ih]

lemma find_openFrame {p : PeerKeys} {key : SenderKey} {replay : ReplayState} (frame : Bytes)
    (h : p.generations.find? (fun e => e.1.generation = key.generation) = some (key, replay)) :
    ∃ next, (p.openFrame crypto frame).2.generations.find? (fun e => e.1.generation = key.generation) =
        some (key, next) ∧
      (next = replay ∨ ∃ counter, SenderKey.peek frame = some (key.generation, counter) ∧
        next = (replay.accept counter).2) := by
  unfold openFrame
  cases hpeek : SenderKey.peek frame with
  | none => exact ⟨replay, h, .inl rfl⟩
  | some claimed =>
    obtain ⟨generation, counter⟩ := claimed
    dsimp only
    by_cases hgen : generation = key.generation
    · subst hgen
      rw [h]
      dsimp only
      cases key.openFrame crypto frame with
      | error => exact ⟨replay, h, .inl rfl⟩
      | ok =>
        refine ⟨(replay.accept counter).2, ?_, .inr ⟨counter, rfl, rfl⟩⟩
        split_ifs <;> exact (setReplay_of_find h _).2
    · cases p.generations.find? fun e => e.1.generation = generation with
      | none => exact ⟨replay, h, .inl rfl⟩
      | some entry =>
        dsimp only
        cases entry.1.openFrame crypto frame with
        | error => exact ⟨replay, h, .inl rfl⟩
        | ok =>
          refine ⟨replay, ?_, .inl rfl⟩
          split_ifs <;> exact (find_setReplay_of_ne (symm hgen) _ _).trans h

end PeerKeys

namespace ReplayState

lemma highest_accept_lt {r : ReplayState} {n counter : UInt32} (hn : n < counter)
    (h : ∀ k, r.highest = some k → k < counter) (k : UInt32) (hk : (r.accept n).2.highest = some k) : k < counter := by
  unfold accept at hk
  split at hk
  · obtain rfl : n = k := by simpa using hk
    exact hn
  · split at hk
    · obtain rfl : n = k := by simpa using hk
      exact hn
    · dsimp only at hk
      split_ifs at hk <;> exact h k hk

end ReplayState

namespace Group

def record (g : Group) (u : UserId) : Finset ChannelId :=
  match g.peers.find u with
  | none => ∅
  | some peer => peer.channels

def Holds (g : Group) (u : UserId) (key : SenderKey) (counter : UInt32) : Prop :=
  ∃ peer replay, g.peers.find u = some peer ∧
    peer.keys.generations.find? (fun e => e.1.generation = key.generation) = some (key, replay) ∧
    ∀ n, replay.highest = some n → n < counter

variable {g g' : Group} {u v : UserId} {c : ChannelId} {key : SenderKey} {counter : UInt32} {peer : Peer}

lemma record_of_find (h : g.peers.find u = some peer) : g.record u = peer.channels := by
  simp [record, h]

lemma record_of_none (h : g.peers.find u = none) : g.record u = ∅ := by
  simp [record, h]

lemma Shared.record_subset (h : g.Shared) (u : UserId) : g.record u ⊆ g.channels := by
  cases hfind : g.peers.find u with
  | none => simp [record_of_none hfind]
  | some peer => exact (record_of_find hfind).subset.trans (h u peer hfind).2

lemma Holds.record_nonempty (hs : g.Shared) (h : g.Holds u key counter) : (g.record u).Nonempty := by
  obtain ⟨peer, _, hfind, -⟩ := h
  rw [record_of_find hfind]
  exact (hs u peer hfind).1

lemma find_of_record_nonempty (h : (g.record u).Nonempty) : ∃ peer, g.peers.find u = some peer := by
  cases hfind : g.peers.find u with
  | none => simp [record_of_none hfind] at h
  | some peer => exact ⟨peer, rfl⟩

lemma Holds.of_keys {peer' : Peer} (h : g.Holds u key counter) (hfind : g.peers.find u = some peer)
    (hfind' : g'.peers.find u = some peer') (hkeys : peer'.keys = peer.keys) : g'.Holds u key counter := by
  obtain ⟨p, replay, hp, hkey, hnew⟩ := h
  obtain rfl : p = peer := Option.some.inj (hp.symm.trans hfind)
  exact ⟨peer', replay, hfind', hkeys ▸ hkey, hnew⟩

lemma Holds.of_find (h : g.Holds u key counter) (hfind : g'.peers.find u = g.peers.find u) :
    g'.Holds u key counter := by
  obtain ⟨peer, replay, hp, hkey⟩ := h
  exact ⟨peer, replay, hfind.trans hp, hkey⟩

lemma holds_of_insert {keys : PeerKeys} (hfind : g.peers.find u = some peer)
    (hkeys : peer.keys = keys.insert key) : g.Holds u key counter :=
  ⟨peer, .new, hfind, hkeys ▸ PeerKeys.find_insert keys key, by simp [ReplayState.new]⟩

lemma decrypt_of_holds {sender : Group} (h : g.Holds u sender.key sender.counter) (plain : Bytes) :
    (g.decrypt crypto u (sender.encrypt crypto plain).1).1 = .ok plain := by
  obtain ⟨peer, replay, hfind, hkey, hnew⟩ := h
  have hfresh : ¬ replay.Seen sender.counter := by
    rintro ⟨k, hk, hle, -⟩
    obtain ⟨n, hn, rfl⟩ := Option.map_eq_some_iff.mp hk
    exact not_lt.mpr hle (UInt32.lt_iff_toNat_lt.mp (hnew n hn))
  simp [decrypt, hfind, encrypt, PeerKeys.openFrame, SenderKey.peek_sealFrame, hkey, SenderKey.openFrame_sealFrame,
    (ReplayState.accept_iff _ _).mpr hfresh]

lemma find_decrypt (frame : Bytes) (v : UserId) :
    (g.decrypt crypto u frame).2.peers.find v =
      if v = u then (g.peers.find u).map fun peer => { peer with keys := (peer.keys.openFrame crypto frame).2 }
      else g.peers.find v := by
  unfold decrypt
  cases hfind : g.peers.find u with
  | none =>
    split_ifs with hv
    · rw [hv, hfind]
      rfl
    · rfl
  | some => simp

lemma decrypt_rest (frame : Bytes) :
    (g.decrypt crypto u frame).2 = { g with peers := (g.decrypt crypto u frame).2.peers } := by
  unfold decrypt
  cases g.peers.find u <;> rfl

section left
variable (coins : Coins)

lemma find_left (hc : c ∈ g.channels) (v : UserId) :
    (g.left coins c).peers.find v = if v ∈ g.gone coins c then none
      else (g.peers.find v).map fun peer => { peer with channels := peer.channels.erase c } := by
  simp [left, hc, Dict.find_foldl_erase, withoutChannel]

lemma mem_gone : v ∈ g.gone coins c ↔ ∃ peer, g.peers.find v = some peer ∧ peer.channels.erase c = ∅ := by
  simp only [gone, mem_filter, coins.mem_users, Dict.mem_keys_iff, withoutChannel, Dict.find_mapValues]
  cases g.peers.find v <;> simp

lemma record_left (hc : c ∈ g.channels) (v : UserId) : (g.left coins c).record v = (g.record v).erase c := by
  have hfind := find_left coins hc v
  cases hv : g.peers.find v with
  | none =>
    rw [record_of_none hv, record_of_none (by simpa [hv] using hfind)]
    rfl
  | some peer =>
    rw [record_of_find hv]
    by_cases hgone : v ∈ g.gone coins c
    · rw [if_pos hgone] at hfind
      obtain ⟨peer', hv', hempty⟩ := (mem_gone coins).mp hgone
      obtain rfl : peer' = peer := Option.some.inj (hv'.symm.trans hv)
      rw [record_of_none hfind, hempty]
    · rw [if_neg hgone, hv] at hfind
      exact record_of_find hfind

lemma Holds.left (h : g.Holds v key counter) (hc : c ∈ g.channels) (hne : ((g.record v).erase c).Nonempty) :
    (g.left coins c).Holds v key counter := by
  obtain ⟨peer, -, hfind, -⟩ := id h
  rw [record_of_find hfind] at hne
  have hstays : v ∉ g.gone coins c := by
    intro hgone
    obtain ⟨peer', hfind', hempty⟩ := (mem_gone coins).mp hgone
    obtain rfl : peer' = peer := Option.some.inj (hfind'.symm.trans hfind)
    exact hne.ne_empty hempty
  refine h.of_keys hfind (?_ : _ = some { peer with channels := peer.channels.erase c }) rfl
  rw [find_left coins hc, if_neg hstays, hfind]
  rfl

lemma channels_left (hc : c ∈ g.channels) : (g.left coins c).channels = g.channels.erase c := by
  simp [left, hc]

lemma counter_left : (g.left coins c).counter = g.counter := by
  unfold left
  split <;> rfl

lemma identity_left : (g.left coins c).identity = g.identity := by
  unfold left
  split <;> rfl

end left

section peerLeft

lemma find_peerLeft_of_ne (hv : v ≠ u) : (g.peerLeft c u).peers.find v = g.peers.find v := by
  unfold peerLeft
  split
  · rfl
  · split <;> simp [hv]

lemma record_peerLeft : (g.peerLeft c u).record u = (g.record u).erase c := by
  cases hfind : g.peers.find u with
  | none => simp [peerLeft, record, hfind]
  | some peer =>
    by_cases hempty : peer.channels.erase c = ∅ <;> simp [peerLeft, record, hfind, hempty]

lemma Holds.peerLeft (h : g.Holds u key counter) (hne : ((g.record u).erase c).Nonempty) :
    (g.peerLeft c u).Holds u key counter := by
  obtain ⟨peer, -, hfind, -⟩ := id h
  rw [record_of_find hfind] at hne
  refine h.of_keys hfind (?_ : _ = some { peer with channels := peer.channels.erase c }) rfl
  simp [Group.peerLeft, hfind, hne.ne_empty]

lemma channels_peerLeft : (g.peerLeft c u).channels = g.channels := by
  unfold peerLeft
  split
  · rfl
  · split <;> rfl

lemma counter_peerLeft : (g.peerLeft c u).counter = g.counter := by
  unfold peerLeft
  split
  · rfl
  · split <;> rfl

lemma identity_peerLeft : (g.peerLeft c u).identity = g.identity := by
  unfold peerLeft
  split
  · rfl
  · split <;> rfl

end peerLeft

def keyFor (g : Group) (coins : Coins) (v : UserId) : List Wire :=
  match g.peers.find v with
  | none => []
  | some peer =>
    match coins.channel peer.channels with
    | none => []
    | some c =>
      match g.identity.wrap crypto (coins.nonce v) peer.publicKey g.key.generation g.secret with
      | .error _ => []
      | .ok wrapped => [.senderKey c g.key.generation wrapped]

def AllWrappable (g : Group) : Prop := g.peers.All fun _ peer => g.identity.wrappable crypto peer.publicKey = true

variable {crypto} {coins : Coins}

lemma wrapFor_allWrappable (hr : g.AllWrappable crypto) (coins : Coins) (reaches : ChannelId → Bool) (u v : UserId) :
    ∃ out, (g.wrapFor crypto coins u).1 = .ok out ∧
      out.toList.flatMap (Outgoing.wires reaches v) = (if v = u then g.keyFor crypto coins v else []) := by
  unfold wrapFor
  cases hfind : g.peers.find u with
  | none =>
    refine ⟨none, rfl, ?_⟩
    split_ifs with hv
    · simp [keyFor, hv, hfind]
    · rfl
  | some peer =>
    dsimp only
    cases hchan : coins.channel peer.channels with
    | none =>
      refine ⟨none, rfl, ?_⟩
      split_ifs with hv
      · simp [keyFor, hv, hfind, hchan]
      · rfl
    | some c =>
      obtain ⟨wrapped, hw⟩ := IdentityKey.wrap_eq_ok (coins.nonce u) g.key.generation g.secret (hr u peer hfind)
      refine ⟨some (.senderKey c u g.key.generation wrapped), by simp [hw], ?_⟩
      split_ifs with hv
      · simp [keyFor, hv, hfind, hchan, hw, Outgoing.wires]
      · simp [Outgoing.wires, Ne.symm hv]

structure SameRecords (g g' : Group) : Prop where
  identity : g'.identity = g.identity
  secret : g'.secret = g.secret
  key : g'.key = g.key
  counter : g'.counter = g.counter
  channels : g'.channels = g.channels
  pending : g'.rotationPending = g.rotationPending
  peer : ∀ v, ∃ sent : Peer → Option UInt8,
    g'.peers.find v = (g.peers.find v).map fun peer => { peer with sentGeneration := sent peer }

lemma SameRecords.refl (g : Group) : SameRecords g g :=
  ⟨rfl, rfl, rfl, rfl, rfl, rfl, fun v => ⟨Peer.sentGeneration, by cases g.peers.find v <;> rfl⟩⟩

lemma SameRecords.trans {g₁ g₂ g₃ : Group} (h : SameRecords g₁ g₂) (h' : SameRecords g₂ g₃) : SameRecords g₁ g₃ where
  identity := h'.identity.trans h.identity
  secret := h'.secret.trans h.secret
  key := h'.key.trans h.key
  counter := h'.counter.trans h.counter
  channels := h'.channels.trans h.channels
  pending := h'.pending.trans h.pending
  peer v := by
    obtain ⟨sent, hs⟩ := h.peer v
    obtain ⟨sent', hs'⟩ := h'.peer v
    refine ⟨fun peer => sent' { peer with sentGeneration := sent peer }, ?_⟩
    rw [hs', hs, Option.map_map]
    rfl

section

variable (h : SameRecords g g')
include h

lemma SameRecords.record (v : UserId) : g'.record v = g.record v := by
  obtain ⟨sent, hs⟩ := h.peer v
  cases hfind : g.peers.find v with
  | none => rw [record_of_none hfind, record_of_none (by rw [hs, hfind]; rfl)]
  | some =>
    rw [hfind] at hs
    rw [record_of_find hfind, record_of_find hs]

lemma SameRecords.holds (hh : g.Holds v key counter) : g'.Holds v key counter := by
  obtain ⟨sent, hs⟩ := h.peer v
  obtain ⟨peer, -, hfind, -⟩ := id hh
  rw [hfind] at hs
  exact hh.of_keys hfind hs rfl

lemma SameRecords.keyFor (v : UserId) : g'.keyFor crypto coins v = g.keyFor crypto coins v := by
  obtain ⟨sent, hs⟩ := h.peer v
  simp only [Group.keyFor, h.identity, h.secret, h.key]
  cases hfind : g.peers.find v with
  | none | some => simp [hs, hfind]

lemma SameRecords.known (v : UserId) : g'.known v = g.known v := by
  obtain ⟨sent, hs⟩ := h.peer v
  rw [Group.known, Group.known, hs, Option.map_map]
  rfl

lemma SameRecords.allWrappable (hr : g.AllWrappable crypto) : g'.AllWrappable crypto := by
  intro v peer hfind
  obtain ⟨sent, hs⟩ := h.peer v
  rw [hs, Option.map_eq_some_iff] at hfind
  obtain ⟨peer', hfind', rfl⟩ := hfind
  rw [h.identity]
  exact hr v peer' hfind'

end

lemma wrapFor_sameRecords (crypto : Crypto) (coins : Coins) (g : Group) (u : UserId) :
    SameRecords g (g.wrapFor crypto coins u).2 := by
  obtain ⟨h, -⟩ | ⟨_, -, -, -, h⟩ | ⟨peer, _, _, hfind, -, -, -, h⟩ := wrapFor_cases crypto g coins u
  · rw [h]
    exact .refl g
  · rw [h]
    exact .refl g
  · rw [h]
    refine ⟨rfl, rfl, rfl, rfl, rfl, rfl, fun v => ?_⟩
    by_cases hv : v = u
    · subst hv
      exact ⟨fun _ => some g.key.generation, by simp [hfind]⟩
    · exact ⟨Peer.sentGeneration, by cases hv' : g.peers.find v <;> simp [hv, hv']⟩

section

variable (hr : g.AllWrappable crypto) (coins : Coins) (reaches : ChannelId → Bool)
include hr

lemma wrapAll_allWrappable {us : List UserId} (hus : us.Nodup) (v : UserId) :
    (wrapAll crypto coins us g).1.2 = none ∧ SameRecords g (wrapAll crypto coins us g).2 ∧
      (wrapAll crypto coins us g).1.1.flatMap (Outgoing.wires reaches v) =
        if v ∈ us then g.keyFor crypto coins v else [] := by
  induction us generalizing g with
  | nil => exact ⟨rfl, .refl g, rfl⟩
  | cons u us ih =>
    have hsame := wrapFor_sameRecords crypto coins g u
    obtain ⟨out, hout, hwires⟩ := wrapFor_allWrappable hr coins reaches u v
    cases hw : g.wrapFor crypto coins u with
    | mk =>
      simp only [hw] at hsame hout
      subst hout
      obtain ⟨hnone, hrest, hkeys⟩ := ih (hsame.allWrappable hr) (nodup_cons.mp hus).2
      simp only [wrapAll, hw]
      refine ⟨hnone, hsame.trans hrest, ?_⟩
      rw [flatMap_append, hwires, hkeys, hsame.keyFor]
      by_cases hv : v = u
      · subst hv
        simp [(nodup_cons.mp hus).1]
      · simp [hv]

lemma rotate_allWrappable (force : Bool) (v : UserId) (hturn : (force || g.rotationPending) = true) :
    ∃ out, (g.rotate crypto coins force).1 = .ok out ∧
      SameRecords (g.fresh crypto coins) (g.rotate crypto coins force).2 ∧
      out.flatMap (Outgoing.wires reaches v) = (g.fresh crypto coins).keyFor crypto coins v := by
  have hfresh : (g.fresh crypto coins).AllWrappable crypto := hr
  obtain ⟨hnone, hsame, hkeys⟩ := wrapAll_allWrappable hfresh coins reaches (coins.users_nodup g.peers.keys) v
  simp only [rotate, hturn]
  cases hw : wrapAll crypto coins (coins.users g.peers.keys) (g.fresh crypto coins) with
  | mk result =>
    obtain ⟨out, e⟩ := result
    simp only [hw] at hnone hsame hkeys
    subst hnone
    refine ⟨out, rfl, hsame, hkeys.trans ?_⟩
    split_ifs with hv
    · rfl
    · have hunknown : (g.fresh crypto coins).peers.find v = none := by
        rw [coins.mem_users, Dict.mem_keys_iff] at hv
        exact Option.eq_none_iff_forall_ne_some.mpr fun peer hp => hv ⟨peer, hp⟩
      simp [keyFor, hunknown]

lemma answer_allWrappable (change : Option PeerChange) (u v : UserId) :
    ∃ out, (g.answer crypto coins u change).1 = .ok (out, change) ∧
      SameRecords g (g.answer crypto coins u change).2 ∧
      out.flatMap (Outgoing.wires reaches v) = if v = u then g.keyFor crypto coins v else [] := by
  have hsame := wrapFor_sameRecords crypto coins g u
  obtain ⟨out, hout, hwires⟩ := wrapFor_allWrappable hr coins reaches u v
  unfold answer
  cases hw : g.wrapFor crypto coins u with
  | mk =>
    simp only [hw] at hsame hout
    subst hout
    exact ⟨out.toList, rfl, hsame, hwires⟩

end

def noted (g : Group) (c : ChannelId) (u : UserId) (peer : Peer) : Group :=
  { g with peers := g.peers.set u { peer with channels := insert c peer.channels } }

def met (g : Group) (c : ChannelId) (u : UserId) (publicKey : PublicKey) : Group :=
  { g with
    peers := g.peers.set u { publicKey := publicKey, channels := {c}, keys := .empty, sentGeneration := none }
    rotationPending := true }

variable (hc : c ∈ g.channels)
include hc

lemma onHello_of_find (hfind : g.peers.find u = some peer) :
    g.onHello crypto coins c u peer.publicKey = (g.noted c u peer).answer crypto coins u none := by
  simp [onHello, hc, learnPeer, hfind, noted]

variable {pk : PublicKey}

lemma onHello_of_none (hfind : g.peers.find u = none) :
    g.onHello crypto coins c u pk = (.ok ([], some .new), g.met c u pk) := by
  simp [onHello, hc, learnPeer, hfind, met]

variable {wrapped : Bytes} {secret : Secret}

lemma onSenderKey_of_find {generation : UInt8} (hfind : g.peers.find u = some peer)
    (hopen : g.identity.unwrap crypto peer.publicKey generation wrapped = .ok secret) :
    g.onSenderKey crypto coins c u peer.publicKey generation wrapped =
      if peer.sentGeneration.isNone then
        ((g.noted c u peer).addKey u (.derive crypto generation secret)).answer crypto coins u none
      else (.ok ([], none), (g.noted c u peer).addKey u (.derive crypto generation secret)) := by
  simp [onSenderKey, hc, hopen, learnPeer, hfind, noted, addKey, needsOurKey]

lemma onSenderKey_of_none {generation : UInt8}
    (hfind : g.peers.find u = none) (hopen : g.identity.unwrap crypto pk generation wrapped = .ok secret) :
    g.onSenderKey crypto coins c u pk generation wrapped =
      (.ok ([], some .new), (g.met c u pk).addKey u (.derive crypto generation secret)) := by
  simp [onSenderKey, hc, hopen, learnPeer, hfind, met]

end Group

end AurixVoice.E2ee
