import AurixVoice.E2ee.History

namespace AurixVoice.E2ee.Group

open Finset

variable (crypto : Crypto)

def SharedIn (channels : Finset ChannelId) (peer : Peer) : Prop :=
  peer.channels.Nonempty ∧ peer.channels ⊆ channels

def Shared (g : Group) : Prop := g.peers.All fun _ peer => SharedIn g.channels peer

lemma new_shared (identity : IdentityKey) (secret : Secret) :
    (new crypto identity secret).Shared := nofun

def AllPeers (Q : Finset ChannelId → Peer → Prop) (g : Group) : Prop := g.peers.All fun _ peer => Q g.channels peer

/-- What may hold of a peer in a group with these channels and survives whatever a call does to the peer. -/
structure Lasting (Q : Finset ChannelId → Peer → Prop) : Prop where
  mono : ∀ {channels channels' peer}, channels ⊆ channels' → Q channels peer → Q channels' peer
  without : ∀ {channels peer c}, peer.channels.erase c ≠ ∅ → Q channels peer →
    Q (channels.erase c) { peer with channels := peer.channels.erase c }
  noted : ∀ {channels peer c}, c ∈ channels → Q channels peer →
    Q channels { peer with channels := insert c peer.channels }
  replaced : ∀ {channels peer c}, c ∈ channels → Q channels peer →
    ∀ pk, Q channels ⟨pk, insert c peer.channels, .empty, none⟩
  met : ∀ {channels c}, c ∈ channels → ∀ pk, Q channels ⟨pk, {c}, .empty, none⟩
  keyed : ∀ {channels peer}, Q channels peer → ∀ key, Q channels { peer with keys := peer.keys.insert key }
  opened : ∀ {channels peer}, Q channels peer →
    ∀ frame, Q channels { peer with keys := (peer.keys.openFrame crypto frame).2 }
  sent : ∀ {channels peer}, Q channels peer → ∀ n, Q channels { peer with sentGeneration := n }

lemma sharedIn_lasting : Lasting crypto SharedIn where
  mono hsub h := ⟨h.1, h.2.trans hsub⟩
  without hne h := ⟨nonempty_iff_ne_empty.mpr hne, erase_subset_erase _ h.2⟩
  noted hc h := ⟨insert_nonempty _ _, insert_subset hc h.2⟩
  replaced hc h _ := ⟨insert_nonempty _ _, insert_subset hc h.2⟩
  met hc _ := ⟨singleton_nonempty _, singleton_subset_iff.mpr hc⟩
  keyed h _ := h
  opened h _ := h
  sent h _ := h

namespace Lasting

variable {crypto} {Q : Finset ChannelId → Peer → Prop} {g : Group} (hQ : Lasting crypto Q) (h : g.AllPeers Q)
  (coins : Coins) (c : ChannelId) (u : UserId) (us : List UserId) (pk : PublicKey)
include hQ h

lemma joined : (g.joined c).2.AllPeers Q := by
  unfold Group.joined
  split
  · exact h
  · exact Dict.All.mono h fun _ _ hpeer => hQ.mono (subset_insert _ _) hpeer

lemma peerLeft : (g.peerLeft c u).AllPeers Q := by
  unfold Group.peerLeft
  split
  · exact h
  next peer hpeer =>
    split
    · exact Dict.All.erase h u
    next hne => exact Dict.All.set h (hQ.mono (erase_subset _ _) (hQ.without hne (h u peer hpeer)))

lemma dropAbsent : (Group.dropAbsent c us g).2.AllPeers Q := by
  induction us generalizing g with
  | nil => exact h
  | cons u us ih => exact ih (hQ.peerLeft h c u)

lemma rejoined (members : Finset UserId) : (g.rejoined coins c members).2.AllPeers Q := by
  unfold Group.rejoined
  split
  · exact hQ.joined h c
  · exact hQ.dropAbsent h c _

lemma left : (g.left coins c).AllPeers Q := by
  unfold Group.left
  split
  · exact h
  · intro u peer hu
    simp only [Dict.find_foldl_erase] at hu
    split at hu
    · cases hu
    next hgone =>
      have hne : peer.channels ≠ ∅ := by
        intro hempty
        apply hgone
        simp only [gone, List.mem_filter, coins.mem_users, Dict.mem_keys_iff, hu, hempty, decide_true, and_true]
        exact ⟨peer, rfl⟩
      simp only [withoutChannel, Dict.find_mapValues, Option.map_eq_some_iff] at hu
      obtain ⟨old, hold, rfl⟩ := hu
      exact hQ.without hne (h u old hold)

lemma learnPeer {c : ChannelId} (hc : c ∈ g.channels) (u : UserId) (pk : PublicKey) :
    (g.learnPeer crypto c u pk).2.AllPeers Q := by
  unfold Group.learnPeer
  split
  next peer hpeer =>
    split
    · exact Dict.All.set h (hQ.noted hc (h u peer hpeer))
    · exact Dict.All.set h (hQ.replaced hc (h u peer hpeer) pk)
  · exact Dict.All.set h (hQ.met hc pk)

lemma addKey (key : SenderKey) : (g.addKey u key).AllPeers Q := by
  unfold Group.addKey
  split
  · exact h
  next peer hpeer => exact Dict.All.set h (hQ.keyed (h u peer hpeer) key)

lemma wrapFor : (g.wrapFor crypto coins u).2.AllPeers Q := by
  obtain ⟨hw, -⟩ | ⟨_, -, -, -, hw⟩ | ⟨peer, _, _, hpeer, -, -, -, hw⟩ := wrapFor_cases crypto g coins u
  · rw [hw]
    exact h
  · rw [hw]
    exact h
  · rw [hw]
    exact Dict.All.set h (hQ.sent (h u peer hpeer) _)

lemma answer (change : Option PeerChange) : (g.answer crypto coins u change).2.AllPeers Q := by
  rw [(answer_cases crypto g coins u change).1]
  exact hQ.wrapFor h coins u

lemma onHello : (g.onHello crypto coins c u pk).2.AllPeers Q := by
  unfold Group.onHello
  split
  · exact h
  next hc =>
    have hlearn := hQ.learnPeer h (not_not.mp hc) u pk
    dsimp only
    split
    · exact hlearn
    · exact hQ.answer hlearn coins u none

lemma onSenderKey (generation : UInt8) (wrapped : Bytes) :
    (g.onSenderKey crypto coins c u pk generation wrapped).2.AllPeers Q := by
  unfold Group.onSenderKey
  split
  · exact h
  next hc =>
    split
    · exact h
    next secret _ =>
      have hadd := hQ.addKey (hQ.learnPeer h (not_not.mp hc) u pk) u (.derive crypto generation secret)
      dsimp only
      split
      · exact hQ.answer hadd coins u _
      · exact hadd

lemma rotate (force : Bool) : (g.rotate crypto coins force).2.AllPeers Q := by
  obtain ⟨-, hr⟩ | ⟨-, hr⟩ := rotate_cases crypto g coins force
  · rw [hr]
    exact h
  · rw [hr]
    apply wrapAll_invariant crypto (P := AllPeers Q) (fun _ u h => hQ.wrapFor h coins u)
    exact h

lemma decrypt (frame : Bytes) : (g.decrypt crypto u frame).2.AllPeers Q := by
  unfold Group.decrypt
  split
  · exact h
  next peer hpeer => exact Dict.All.set h (hQ.opened (h u peer hpeer) frame)

lemma apply (op : GroupOp) : (g.apply crypto coins op).2.AllPeers Q := by
  cases op with
  | joined c => exact hQ.joined h c
  | rejoined c members => exact hQ.rejoined h coins c members
  | left c => exact hQ.left h coins c
  | reset => exact nofun
  | peerLeft c u => exact hQ.peerLeft h c u
  | hello c u pk => exact hQ.onHello h coins c u pk
  | senderKey c u pk generation wrapped => exact hQ.onSenderKey h coins c u pk generation wrapped
  | rotate force => exact hQ.rotate h coins force
  | encrypt => exact h
  | decrypt u frame => exact hQ.decrypt h u frame

end Lasting

end AurixVoice.E2ee.Group
