import AurixVoice.E2ee.SharedChannels

/-! What a group keeps of its peers, after any sequence of calls. -/

namespace AurixVoice.E2ee

variable (crypto : Crypto)

namespace PeerKeys

structure Bounded (p : PeerKeys) : Prop where
  length : p.generations.length ≤ keptGenerations
  distinct : p.Distinct

variable {p : PeerKeys}

lemma empty_bounded : empty.Bounded := ⟨Nat.zero_le _, List.nodup_nil⟩

lemma insert_bounded (h : p.Bounded) (key : SenderKey) : (p.insert key).Bounded := by
  refine ⟨?_, insert_distinct h.distinct key⟩
  simp only [insert, List.length_drop]
  omega

lemma openFrame_bounded (h : p.Bounded) (frame : Bytes) : (p.openFrame crypto frame).2.Bounded := by
  obtain ⟨e, he⟩ | ⟨key, replay, counter, plain, -, -, -, -, hopen⟩ := p.openFrame_cases crypto frame
  · rw [he]
    exact h
  · have hgenerations := setReplay_generations key.generation (replay.accept counter).2 p.generations
    rw [hopen]
    constructor
    · have hlength := congrArg List.length hgenerations
      simp only [List.length_map] at hlength
      rw [hlength]
      exact h.length
    · rw [Distinct, hgenerations]
      exact h.distinct

end PeerKeys

lemma Group.bounded_lasting : Group.Lasting crypto fun _ peer => peer.keys.Bounded where
  mono _ h := h
  without _ h := h
  noted _ h := h
  replaced _ _ _ := PeerKeys.empty_bounded
  met _ _ := PeerKeys.empty_bounded
  keyed h key := PeerKeys.insert_bounded h key
  opened h frame := PeerKeys.openFrame_bounded crypto h frame
  sent h _ := h

/-- The group after the calls `ops`, each with the randomness and the iteration orders it meets. -/
def runGroup (identity : IdentityKey) (secret : Secret) (ops : List (Coins × GroupOp)) : Group :=
  ops.foldl (fun g e => (g.apply crypto e.1 e.2).2) (.new crypto identity secret)

theorem group_bookkeeping (identity : IdentityKey) (secret : Secret) (ops : List (Coins × GroupOp)) (u : UserId)
    (peer : Peer) :
    let g := runGroup crypto identity secret ops
    g.peers.find u = some peer →
      peer.channels.Nonempty ∧ peer.channels ⊆ g.channels ∧
        peer.keys.generations.length ≤ keptGenerations ∧
        (peer.keys.generations.map fun e => e.1.generation).Nodup := by
  intro g hpeer
  have hg : g.Shared ∧ g.AllPeers fun _ peer => peer.keys.Bounded := by
    apply Traces.foldl_invariant fun g : Group => g.Shared ∧ g.AllPeers fun _ peer => peer.keys.Bounded
    · rintro g ⟨coins, op⟩ ⟨hshared, hkeys⟩
      exact ⟨(Group.sharedIn_lasting crypto).apply hshared coins op,
        (Group.bounded_lasting crypto).apply hkeys coins op⟩
    · exact ⟨Group.new_shared crypto identity secret, nofun⟩
  obtain ⟨hnonempty, hsub⟩ := hg.1 u peer hpeer
  have hkeys := hg.2 u peer hpeer
  exact ⟨hnonempty, hsub, hkeys.length, hkeys.distinct⟩

theorem group_bookkeeping_peerLeft :
    let key : PublicKey := Vector.replicate 32 1
    let coins := Coins.sorted (Vector.replicate 32 0)
    let ops : List (Coins × GroupOp) :=
      [(coins, .joined 7), (coins, .joined 8), (coins, .hello 7 2 key), (coins, .peerLeft 8 2)]
    let identity := IdentityKey.fromBytes .masks (Vector.replicate 32 3)
    let g := runGroup .masks identity (Vector.replicate 32 5) ops
    let peer : Peer := ⟨key, {7}, .empty, none⟩
    g.peers.find 2 = some peer ∧ peer.channels.Nonempty ∧ peer.channels ⊆ g.channels ∧
      peer.keys.generations.length ≤ keptGenerations ∧
      (peer.keys.generations.map fun e => e.1.generation).Nodup := by
  intro key coins ops identity g peer
  have hpeer : g.peers.find 2 = some peer := rfl
  exact ⟨hpeer, group_bookkeeping .masks identity (Vector.replicate 32 5) ops 2 peer hpeer⟩

end AurixVoice.E2ee
