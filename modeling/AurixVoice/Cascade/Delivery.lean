import AurixVoice.Cascade.Legs
import AurixVoice.Cascade.Relay
import AurixVoice.Cascade.RouteFacts

namespace AurixVoice.Cascade.Fleet

open Flood Option

variable {Addr : Type} [LinearOrder Addr] (F : Fleet Addr) (channelIdHash : ChannelId → UInt32)
  (channel : ChannelId) (hosting : Finset MediaNodeId) (links : LinkMatrix)

def peerAddrs (n : MediaNodeId) : Finset Addr :=
  (F.peers n).keys.biUnion fun id => (Cascade.addrOf (F.peers n) id).toFinset

def relay (n : MediaNodeId) : CascadeRelay Addr :=
  match F.nodes.find n with
  | none => .new ∅
  | some p => .routing channelIdHash (F.peerAddrs n) channel
      (planRegionTree channel (localNode n p) hosting (F.peers n) links)

def nodeAt (a : Addr) : Option MediaNodeId := (ascending F.nodes.keys).find? fun id => F.addrOf id = some a

def copies (n : MediaNodeId) (hops : ℕ) (targets : List Addr) : List (Copy MediaNodeId) :=
  (targets.filterMap F.nodeAt).map fun t => ⟨n, t, hops⟩

def forwarded (c : Copy MediaNodeId) : List (Copy MediaNodeId) :=
  match F.addrOf c.src with
  | none => []
  | some src => F.copies c.dst (c.hops + 1)
      (((F.relay channelIdHash channel hosting links c.dst).forwardTargets (channelIdHash channel) src
        c.hops).getD [])

def network : Net (Copy MediaNodeId) where
  next := F.forwarded channelIdHash channel hosting links
  rank c := maxRelayHops - c.hops
  decreases c c' hc' := by
    unfold forwarded at hc'
    split at hc'
    · cases hc'
    · by_cases hhops : maxRelayHops ≤ c.hops
      · rw [CascadeRelay.forwardTargets_of_maxRelayHops hhops] at hc'
        cases hc'
      · obtain ⟨t, -, rfl⟩ := List.mem_map.mp hc'
        dsimp only
        omega

def sent (o : MediaNodeId) : List (Copy MediaNodeId) :=
  F.copies o 1 ((F.relay channelIdHash channel hosting links o).channelPeers channel)

variable {F channel hosting links}

lemma nodeAt_eq_some {a : Addr} {v : MediaNodeId} : F.nodeAt a = some v ↔ F.addrOf v = some a := by
  constructor
  · intro h
    simpa using List.find?_some h
  · intro h
    obtain ⟨p, hp, -⟩ := map_eq_some_iff.mp h
    have hmem : v ∈ ascending F.nodes.keys :=
      mem_ascending.mpr (Dict.mem_keys_iff.mpr ⟨p, hp⟩)
    cases hfind : F.nodeAt a with
    | none =>
      have := List.find?_eq_none.mp hfind v hmem
      simp [h] at this
    | some w =>
      have hw : F.addrOf w = some a := by simpa using List.find?_some hfind
      rw [addrOf_inj hw h]

lemma nodes_of_addrs {targets : List Addr} {s : Finset MediaNodeId} (hnodup : targets.Nodup)
    (hs : s ⊆ F.nodes.keys) (hmem : ∀ a, a ∈ targets ↔ ∃ v ∈ s, F.addrOf v = some a) :
    (targets.filterMap F.nodeAt).Nodup ∧ (targets.filterMap F.nodeAt).toFinset = s := by
  constructor
  · apply List.Nodup.filterMap _ hnodup
    intro a b v ha hb
    have ha' := nodeAt_eq_some.mp ha
    have hb' := nodeAt_eq_some.mp hb
    exact some.inj (ha'.symm.trans hb')
  · ext v
    rw [List.mem_toFinset, List.mem_filterMap]
    constructor
    · rintro ⟨a, ha, hv⟩
      obtain ⟨w, hw, hwa⟩ := (hmem a).mp ha
      rwa [addrOf_inj (nodeAt_eq_some.mp hv) hwa]
    · intro hv
      obtain ⟨p, hp⟩ := Dict.mem_keys_iff.mp (hs hv)
      have ha : F.addrOf v = some p.addr := by simp [addrOf, hp]
      exact ⟨p.addr, (hmem p.addr).mpr ⟨v, hv, ha⟩, nodeAt_eq_some.mpr ha⟩

variable {n : MediaNodeId}

lemma mem_peerAddrs {a : Addr} : a ∈ F.peerAddrs n ↔ ∃ v, v ≠ n ∧ F.addrOf v = some a := by
  simp only [peerAddrs, Finset.mem_biUnion, mem_toFinset, mem_def, addrOf_peers]
  constructor
  · rintro ⟨v, -, hv⟩
    exact ⟨v, hv⟩
  · rintro ⟨v, hne, hv⟩
    obtain ⟨p, hp, -⟩ := map_eq_some_iff.mp hv
    refine ⟨v, ?_, hne, hv⟩
    rw [Dict.mem_keys_iff]
    exact ⟨p, by simp [peers, hne, hp]⟩

variable {p : PeerNode Addr} {S : Snapshot Addr}

lemma mem_planRegionTree_forward (hn : S.nodes.find n = some p)
    {src : MediaNodeId} {a b : Addr} (ha : S.addrOf src = some a) :
    b ∈ ((planRegionTree S.channel (localNode n p) S.hosting (S.peers n) S.links).forward.find a).getD [] ↔
      ∃ v ∈ S.layout.forward n src, S.addrOf v = some b := by
  rw [← mem_routeForward hn ha, planRegionTree, compute_eq hn, Dict.find_filterValues, Dict.find_mapValues]
  have hpeer : b ∈ ((routeForward S.plan (localNode n p) (S.peers n)).find a).getD [] →
      isPeerAddr (S.peers n) b = true := by
    intro hb
    obtain ⟨v, hv, hvb⟩ := (mem_routeForward hn ha).mp hb
    have hne : v ≠ n := (Layout.ne_of_mem_forward hv).1
    have hpeers := addrOf_peers.mpr ⟨hne, hvb⟩
    rw [isPeerAddr, decide_eq_true_eq]
    refine ⟨v, ?_, hpeers⟩
    rw [Dict.mem_keys, Option.isSome_iff_exists]
    obtain ⟨q, hq, -⟩ := Option.map_eq_some_iff.mp hpeers
    exact ⟨q, hq⟩
  cases hfind : (routeForward S.plan (localNode n p) (S.peers n)).find a with
  | none => simp
  | some ts =>
    rw [hfind] at hpeer
    have hmem : b ∈ (sortDedup ts).filter (isPeerAddr (S.peers n)) ↔ b ∈ ts := by
      rw [List.mem_filter, mem_sortDedup]
      exact and_iff_left_of_imp hpeer
    rw [Option.map_some, Option.getD_some, ← hmem]
    cases (sortDedup ts).filter (isPeerAddr (S.peers n)) <;> simp [Option.filter]

lemma relay_eq (hn : F.nodes.find n = some p) :
    F.relay channelIdHash channel hosting links n = .routing channelIdHash (F.peerAddrs n) channel
      (planRegionTree channel (localNode n p) hosting (F.peers n) links) := by
  simp [relay, hn]

lemma network_follows :
    Follows (F.network channelIdHash channel hosting links) (F.layout channel hosting links) maxRelayHops := by
  rintro ⟨src, n, hops⟩ hhops hsrc hdst
  obtain ⟨q, hq⟩ := Dict.mem_keys_iff.mp hsrc
  obtain ⟨p, hp⟩ := Dict.mem_keys_iff.mp hdst
  have ha : F.addrOf src = some q.addr := by simp [addrOf, hq]
  refine ⟨(((F.relay channelIdHash channel hosting links n).forwardTargets (channelIdHash channel) q.addr
    hops).getD []).filterMap F.nodeAt, ?_⟩
  rw [← and_assoc]
  refine ⟨?_, by simp [network, forwarded, ha, copies]⟩
  rw [relay_eq channelIdHash hp]
  by_cases hpeer : q.addr ∈ F.peerAddrs n
  · apply nodes_of_addrs (CascadeRelay.nodup_forwardTargets channelIdHash _ channel _ hhops hpeer)
      (Layout.forward_alive n src)
    intro a
    rw [CascadeRelay.mem_forwardTargets channelIdHash _ channel _ hhops hpeer,
      mem_planRegionTree_forward (S := ⟨F, channel, hosting, links⟩) hp ha]
    constructor
    · exact fun h => h.1
    · rintro ⟨v, hv, hva⟩
      refine ⟨⟨v, hv, hva⟩, ?_, mem_peerAddrs.mpr ⟨v, ?_, hva⟩⟩
      · rintro rfl
        exact (Layout.ne_of_mem_forward hv).2 (addrOf_inj hva ha)
      · rintro rfl
        exact (Layout.ne_of_mem_forward hv).1 rfl
  · -- only the node itself is not among its peers
    rw [CascadeRelay.forwardTargets_of_notMem channelIdHash _ channel _ hhops hpeer]
    obtain rfl : src = n := by
      by_contra hne
      exact hpeer (mem_peerAddrs.mpr ⟨src, hne, ha⟩)
    simp [Layout.forward]

lemma sent_eq {o : MediaNodeId} (ho : o ∈ (F.layout channel hosting links).hosts) :
    ∃ ts : List MediaNodeId, ts.Nodup ∧ ts.toFinset = (F.layout channel hosting links).origin o ∧
      F.sent channelIdHash channel hosting links o = ts.map fun t => ⟨o, t, 1⟩ := by
  obtain ⟨hhost, halive⟩ := Finset.mem_filter.mp ho
  obtain ⟨p, hp⟩ := Dict.mem_keys_iff.mp halive
  refine ⟨((F.relay channelIdHash channel hosting links o).channelPeers channel).filterMap F.nodeAt, ?_⟩
  rw [← and_assoc]
  refine ⟨?_, rfl⟩
  rw [relay_eq channelIdHash hp]
  apply nodes_of_addrs (CascadeRelay.nodup_channelPeers channelIdHash _ channel _) (Layout.origin_alive ho)
  intro a
  rw [CascadeRelay.mem_channelPeers, planRegionTree, compute_eq hp, mem_sortDedup,
    mem_routeOrigin (S := ⟨F, channel, hosting, links⟩) hp hhost]
  refine and_iff_left_of_imp ?_
  rintro ⟨v, hv, hva⟩
  refine mem_peerAddrs.mpr ⟨v, ?_, hva⟩
  rintro rfl
  exact (Leg.of_origin ho hv).dst_ne rfl

end AurixVoice.Cascade.Fleet
