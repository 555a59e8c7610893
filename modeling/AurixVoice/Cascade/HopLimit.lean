import AurixVoice.Cascade.Envelope
import Mathlib.Logic.Hydra

/-! How far a client packet gets in a fleet with any routes. A datagram carries the nodes that sent it on. -/

namespace AurixVoice.Cascade

open Protocol (Bytes Suite MediaKeys AurixPacket PacketType)
open Protocol.AurixPacket (opened relayEnvelopeHop relayInnerHop_eq_ok sampleAudio sampleKeys)
open CascadeNode

namespace CascadeNode

variable {Addr : Type} [LinearOrder Addr] {suite : Suite} {form : AddrForm Addr} {keys : MediaKeys}
  {inner : AurixPacket} {counter : UInt64} {sender : UserId} {data : Bytes} {n n' : CascadeNode Addr} {src : Addr}
  {r : InboundRelay} {hop : Option UInt8}

lemma relayInnerHop_of_openEnvelope {e : AurixPacket} (hv : e.header.version = Protocol.protocolVersion)
    (h : openEnvelope suite keys (e.sealPacket suite keys) = .ok (counter, sender, hop, inner)) :
    (opened suite e.header e.payload keys).relayInnerHop suite = .ok (sender, hop, inner) := by
  have henvelope : ∀ e', envelope suite keys (e.sealPacket suite keys) = .ok e' →
      e' = opened suite e.header e.payload keys := by
    intro e' he
    unfold envelope at he
    split at he
    · cases he
    rename_i p hp
    obtain rfl := AurixPacket.sealed_of_decodeBounded hv hp
    split at he
    · cases he
    · rw [AurixPacket.openPacket_sealed] at he
      exact (Except.ok.inj he).symm
  unfold openEnvelope at h
  split at h
  · cases h
  rename_i e' he
  obtain rfl := henvelope e' he
  split at h
  · cases h
  next opened hopened => rw [hopened, (Prod.mk.inj (Except.ok.inj h)).2]

lemma encode_fits_of_openEnvelope (h : openEnvelope suite keys data = .ok (counter, sender, hop, inner)) :
    inner.header.version = Protocol.protocolVersion ∧
      (inner.encode suite).length ≤ Protocol.maxPacketSize := by
  unfold openEnvelope at h
  split at h
  · cases h
  split at h
  · cases h
  next opened hopened =>
    obtain ⟨-, rfl⟩ := Prod.mk.inj (Except.ok.inj h)
    exact AurixPacket.encode_fits_of_decode (relayInnerHop_eq_ok hopened).2

omit [LinearOrder Addr] in
lemma classify_audio (h : classify form sender hop inner = .ok (.audio r)) :
    r = ⟨sender, hop.getD 1, inner⟩ ∧ r.hops ≤ Protocol.maxRelayHops := by
  unfold classify at h
  split at h
  · cases h
  · cases h
  split at h
  · cases h
  split at h
  · cases h
    exact ⟨rfl, show (1 : UInt8) ≤ Protocol.maxRelayHops by decide⟩
  · split at h
    next hrange =>
      cases h
      exact ⟨rfl, hrange.2⟩
    · cases h

omit [LinearOrder Addr] in
lemma classify_control {c : CascadeControl Addr}
    (h : classify form sender hop inner = .ok (.control c)) : inner.header.packetType = .heartbeat := by
  by_contra htype
  have hnone : CascadeControl.fromPacket form inner = .ok none := if_pos htype
  unfold classify at h
  rw [hnone] at h
  dsimp only at h
  split at h
  · cases h
  split at h
  · cases h
  · split at h <;> cases h

lemma authenticate_eq_ok {inbound : Inbound Addr} (h : n.authenticate suite form keys data src = (.ok inbound, n')) :
    ∃ counter sender hop inner, openEnvelope suite keys data = .ok (counter, sender, hop, inner) ∧
      classify form sender hop inner = .ok inbound := by
  unfold authenticate at h
  split at h
  · cases h
  split at h
  · cases h
  next counter sender hop inner hopen =>
    split at h
    · cases h
    · exact ⟨counter, sender, hop, inner, hopen, (Prod.mk.inj h).1⟩

variable {sent : Addr × Bytes}

lemma mem_forwardInbound (h : sent ∈ (n.forwardInbound suite keys src r).1) :
    r.hops.toNat < maxRelayHops ∧
      sent.2 = (relayEnvelopeHop suite r.packet n.relaySsrc n.relayCounter r.sender
        (r.hops + 1)).sealPacket suite keys := by
  have hlimit : r.hops.toNat < maxRelayHops := by
    by_contra hmax
    have hnil : (n.relay.forwardTargets r.packet.header.channelIdHash src r.hops.toNat).getD [] = [] :=
      CascadeRelay.forwardTargets_of_maxRelayHops (not_lt.mp hmax)
    unfold forwardInbound at h
    cases htargets : n.relay.forwardTargets r.packet.header.channelIdHash src r.hops.toNat with
    | none => simp [htargets] at h
    | some targets =>
      rw [htargets, Option.getD_some] at hnil
      simp [htargets, hnil] at h
  refine ⟨hlimit, ?_⟩
  unfold forwardInbound at h
  split at h
  · cases h
  split at h
  · cases h
  · obtain ⟨peer, -, rfl⟩ := List.mem_map.mp h
    rfl

lemma toNat_hops_succ {hops : UInt8} (h : hops.toNat < maxRelayHops) :
    (hops + 1).toNat = hops.toNat + 1 ∧ hops + 1 ≤ Protocol.relayHopMask := by
  have hsucc : (hops + 1).toNat = hops.toNat + 1 := by
    rw [UInt8.toNat_add, UInt8.toNat_one, Nat.mod_eq_of_lt]
    simp only [maxRelayHops] at h
    omega
  refine ⟨hsucc, UInt8.le_iff_toNat_le.mpr ?_⟩
  rw [hsucc]
  exact h.trans (by decide)

lemma forwardInbound_hop (h : n.authenticate suite form keys data src = (.ok (.audio r), n'))
    (hsent : sent ∈ (n'.forwardInbound suite keys src r).1) :
    ∃ e : AurixPacket, e.header.version = Protocol.protocolVersion ∧
      sent.2 = e.sealPacket suite keys ∧
      (opened suite e.header e.payload keys).relayInnerHop suite =
        .ok (r.sender, some (r.hops + 1), r.packet.encoded suite) := by
  obtain ⟨counter, sender, hop, inner, hopen, hclass⟩ := authenticate_eq_ok h
  obtain ⟨rfl, -⟩ := classify_audio hclass
  obtain ⟨hlimit, hdata⟩ := mem_forwardInbound hsent
  obtain ⟨hv, hfits⟩ := encode_fits_of_openEnvelope hopen
  exact ⟨_, rfl, hdata, AurixPacket.relayInnerHop_opened hv hfits _ _ _ (toNat_hops_succ hlimit).2 keys⟩

end CascadeNode

structure Datagram (Addr : Type) where
  src : Addr
  dst : Addr
  data : Bytes
  via : List Addr

structure Traffic (Addr : Type) where
  nodes : Addr → Option (CascadeNode Addr)
  flight : Multiset (Datagram Addr)

namespace Traffic

variable {Addr : Type} [LinearOrder Addr] (suite : Suite) (form : AddrForm Addr) (keys : MediaKeys)

def sentOn (c : Datagram Addr) (sent : Addr × Bytes) : Datagram Addr := ⟨c.dst, sent.1, sent.2, c.dst :: c.via⟩

def launch (nodes : Addr → Option (CascadeNode Addr)) (origin : Addr) (n : CascadeNode Addr)
    (channel : ChannelId) (sender : UserId) (packet : AurixPacket) (level : Option UInt8) : Traffic Addr :=
  let (sent, n) := n.forwardToPeers suite keys channel sender packet level
  ⟨Function.update nodes origin (some n), (sent.map fun s => ⟨origin, s.1, s.2, [origin]⟩ : List (Datagram Addr))⟩

inductive Deliver (t : Traffic Addr) : Traffic Addr → Prop
  | arrive {c : Datagram Addr} {rest : Multiset (Datagram Addr)} {n : CascadeNode Addr}
      (hflight : t.flight = c ::ₘ rest) (hnode : t.nodes c.dst = some n) :
      Deliver t
        ⟨Function.update t.nodes c.dst (some (n.receive suite form keys c.data c.src).2),
          rest + ((n.receive suite form keys c.data c.src).1.map (sentOn c) : List (Datagram Addr))⟩
  | lose {c : Datagram Addr} {rest : Multiset (Datagram Addr)} (hflight : t.flight = c ::ₘ rest) :
      Deliver t ⟨t.nodes, rest⟩

/-- One delivery. Before it the nodes may have changed in any way: other traffic moved their windows
and counters, and the control plane may have replaced their peers and routes. -/
def Move (t t' : Traffic Addr) : Prop :=
  ∃ nodes, Deliver suite form keys { t with nodes } t'

def isAudio (t : PacketType) : Prop := t = .audio ∨ t = .audioFec

structure Labelled (c : Datagram Addr) : Prop where
  limit : c.via.length ≤ maxRelayHops
  opens : ∀ {counter sender hop inner},
    openEnvelope suite keys c.data = .ok (counter, sender, hop, inner) →
      isAudio inner.header.packetType ∧ (hop.getD 1).toNat = c.via.length

variable {suite form keys} {packet : AurixPacket}

omit [LinearOrder Addr] in
lemma labelled_origin (haudio : isAudio packet.header.packetType)
    (relaySsrc : UInt32) (counter : UInt64) (sender : UserId) (origin dst : Addr) :
    Labelled suite keys ⟨origin, dst,
      (AurixPacket.relayEnvelope suite packet relaySsrc counter sender).sealPacket suite keys, [origin]⟩ where
  limit := by simp [maxRelayHops]
  opens := by
    intro counter' sender' hop inner hopen
    have hinner := relayInnerHop_of_openEnvelope
      (e := AurixPacket.relayEnvelope suite packet relaySsrc counter sender) rfl hopen
    obtain ⟨hnone, hdecode⟩ := relayInnerHop_eq_ok hinner
    have hflag : (opened suite (AurixPacket.relayEnvelope suite packet relaySsrc counter
        sender).header (AurixPacket.relayEnvelope suite packet relaySsrc counter sender).payload
        keys).header.hasFlag .relayHop = false := by
      change Protocol.Flags.has (((Protocol.Flags.set 0 .relay).set .authenticated).clear .encrypted)
        .relayHop = false
      decide
    have hpayload : (opened suite (AurixPacket.relayEnvelope suite packet relaySsrc counter
        sender).header (AurixPacket.relayEnvelope suite packet relaySsrc counter sender).payload
        keys).payload = sender.asBytes ++ packet.encode suite := rfl
    rw [hflag, if_neg Bool.false_ne_true, hpayload, List.drop_left' sender.length_asBytes] at hdecode
    rw [AurixPacket.packetType_of_decode_encode hdecode, hnone hflag]
    exact ⟨haudio, rfl⟩

lemma Labelled.sentOn {c : Datagram Addr} (h : Labelled suite keys c) {n : CascadeNode Addr}
    (hsent : sent ∈ (n.receive suite form keys c.data c.src).1) : Labelled suite keys (sentOn c sent) := by
  unfold receive at hsent
  split at hsent
  · cases hsent
  split at hsent
  next r n' hauth =>
    obtain ⟨counter, sender, hop, inner, hopen, hclass⟩ := authenticate_eq_ok hauth
    obtain ⟨rfl, -⟩ := classify_audio hclass
    obtain ⟨hlimit, -⟩ := mem_forwardInbound hsent
    obtain ⟨hsucc, -⟩ := toNat_hops_succ hlimit
    obtain ⟨haudio, hhops⟩ := h.opens hopen
    obtain ⟨e, hv, hdata, hinner⟩ := forwardInbound_hop hauth hsent
    refine ⟨?_, ?_⟩
    · change c.via.length + 1 ≤ maxRelayHops
      rw [← hhops]
      exact hlimit
    · intro counter' sender' hop' inner' hopen'
      change openEnvelope suite keys sent.2 = _ at hopen'
      rw [hdata] at hopen'
      have hsame := hinner.symm.trans (relayInnerHop_of_openEnvelope hv hopen')
      cases hsame
      refine ⟨haudio, ?_⟩
      change (hop.getD 1 + 1).toNat = c.via.length + 1
      rw [hsucc, hhops]
  · -- a pong would be sent without a hop count, but audio is never read as a control message
    rename_i control n' hauth
    obtain ⟨counter, sender, hop, inner, hopen, hclass⟩ := authenticate_eq_ok hauth
    have htype := classify_control hclass
    rcases (h.opens hopen).1 with haudio | haudio
    all_goals
      rw [htype] at haudio
      cases haudio
  · cases hsent

variable {t t' : Traffic Addr}

lemma labelled_move (hmove : Move suite form keys t t')
    (h : ∀ c ∈ t.flight, Labelled suite keys c) : ∀ c ∈ t'.flight, Labelled suite keys c := by
  obtain ⟨nodes, hdeliver⟩ := hmove
  cases hdeliver with
  | arrive hflight =>
    rw [hflight] at h
    intro c hc
    rcases Multiset.mem_add.mp hc with hc | hc
    · exact h c (Multiset.mem_cons_of_mem hc)
    · obtain ⟨sent, hsent, rfl⟩ := List.mem_map.mp (Multiset.mem_coe.mp hc)
      exact (h _ (Multiset.mem_cons_self _ _)).sentOn hsent
  | lose hflight =>
    rw [hflight] at h
    exact fun c hc => h c (Multiset.mem_cons_of_mem hc)

lemma labelled_launch (haudio : isAudio packet.header.packetType)
    (nodes : Addr → Option (CascadeNode Addr)) (origin : Addr) (n : CascadeNode Addr) (channel : ChannelId)
    (sender : UserId) (level : Option UInt8) :
    ∀ c ∈ (launch suite keys nodes origin n channel sender packet level).flight, Labelled suite keys c := by
  intro c hc
  obtain ⟨sent, hsent, rfl⟩ := List.mem_map.mp (Multiset.mem_coe.mp hc)
  change sent ∈ (n.forwardToPeers suite keys channel sender packet level).1 at hsent
  unfold forwardToPeers at hsent
  split at hsent
  · cases hsent
  dsimp only at hsent
  split at hsent
  · cases hsent
  · obtain ⟨peer, -, rfl⟩ := List.mem_map.mp hsent
    apply labelled_origin
    cases level with
    | none | some => exact haudio

def remaining (c : Datagram Addr) : ℕ := maxRelayHops - c.via.length

lemma cutExpand_move (hmove : Move suite form keys t t') (h : ∀ c ∈ t'.flight, Labelled suite keys c) :
    Relation.CutExpand (InvImage (· < ·) remaining) t'.flight t.flight := by
  obtain ⟨nodes, hdeliver⟩ := hmove
  cases hdeliver with
  | @arrive c rest n hflight =>
    refine ⟨((n.receive suite form keys c.data c.src).1.map (sentOn c) : List (Datagram Addr)), c, ?_, ?_⟩
    · intro c' hc'
      have hlimit := (h c' (Multiset.mem_add.mpr (.inr hc'))).limit
      obtain ⟨sent, -, rfl⟩ := List.mem_map.mp (Multiset.mem_coe.mp hc')
      change maxRelayHops - (c.via.length + 1) < maxRelayHops - c.via.length
      change c.via.length + 1 ≤ maxRelayHops at hlimit
      omega
    · rw [hflight, ← Multiset.singleton_add, add_comm, add_assoc]
  | @lose c rest hflight =>
    refine ⟨0, c, fun c' hc' => absurd hc' (Multiset.notMem_zero c'), ?_⟩
    rw [add_zero, add_comm, Multiset.singleton_add, hflight]

theorem forwarding_bounded (suite : Suite) (form : AddrForm Addr) (keys : MediaKeys)
    (nodes : Addr → Option (CascadeNode Addr)) (origin : Addr) (n : CascadeNode Addr) (channel : ChannelId)
    (sender : UserId) (packet : AurixPacket) (level : Option UInt8) (haudio : isAudio packet.header.packetType) :
    (∀ run : ℕ → Traffic Addr, run 0 = launch suite keys nodes origin n channel sender packet level →
      ¬ ∀ i, Move suite form keys (run i) (run (i + 1))) ∧
    (∀ t, Relation.ReflTransGen (Move suite form keys)
        (launch suite keys nodes origin n channel sender packet level) t →
      ∀ c ∈ t.flight, c.via.length ≤ maxRelayHops ∧ ∀ counter sender' hop inner,
        openEnvelope suite keys c.data = .ok (counter, sender', hop, inner) →
          (hop.getD 1).toNat = c.via.length) ∧
    ∀ (m m' : CascadeNode Addr) (data : Bytes) (src : Addr) (r : InboundRelay),
      m.authenticate suite form keys data src = (.ok (.audio r), m') →
      (∃ counter hop, openEnvelope suite keys data = .ok (counter, r.sender, hop, r.packet) ∧
        r.hops = hop.getD 1) ∧
      ∀ sent ∈ (m'.forwardInbound suite keys src r).1, ∃ e : AurixPacket,
        sent.2 = e.sealPacket suite keys ∧
        (opened suite e.header e.payload keys).relayInnerHop suite =
          .ok (r.sender, some (r.hops + 1), r.packet.encoded suite) ∧
        (r.hops + 1).toNat = r.hops.toNat + 1 := by
  have hstart : ∀ c ∈ (launch suite keys nodes origin n channel sender packet level).flight,
      Labelled suite keys c := labelled_launch haudio nodes origin n channel sender level
  refine ⟨?_, ?_, ?_⟩
  · intro run hzero hmoves
    have hlabelled : ∀ i, ∀ c ∈ (run i).flight, Labelled suite keys c := by
      intro i
      induction i with
      | zero => exact hzero ▸ hstart
      | succ i ih => exact labelled_move (hmoves i) ih
    have hwf : WellFounded (Relation.CutExpand (InvImage (· < ·) (remaining : Datagram Addr → ℕ))) :=
      (InvImage.wf _ wellFounded_lt).cutExpand
    exact (wellFounded_iff_isEmpty_descending_chain.mp hwf).false
      ⟨fun i => (run i).flight, fun i => cutExpand_move (hmoves i) (hlabelled (i + 1))⟩
  · intro t hrun
    have hlabelled : ∀ c ∈ t.flight, Labelled suite keys c := by
      induction hrun with
      | refl => exact hstart
      | tail _ hmove ih => exact labelled_move hmove ih
    intro c hc
    refine ⟨(hlabelled c hc).limit, ?_⟩
    intro counter sender' hop inner hopen
    exact ((hlabelled c hc).opens hopen).2
  · intro m m' data src r hauth
    obtain ⟨counter, s, hop, inner, hopen, hclass⟩ := authenticate_eq_ok hauth
    obtain ⟨rfl, -⟩ := classify_audio hclass
    refine ⟨⟨counter, hop, hopen, rfl⟩, ?_⟩
    intro sent hsent
    obtain ⟨e, -, hdata, hinner⟩ := forwardInbound_hop hauth hsent
    exact ⟨e, hdata, hinner, (toNat_hops_succ (mem_forwardInbound hsent).1).1⟩

def ring (a : ℕ) : Option (CascadeNode ℕ) :=
  let next := a % 3 + 1
  let previous := next % 3 + 1
  if a ∈ [1, 2, 3] then
    some ((new {next, previous} (UInt32.ofNat a) 5).setChannelRoute .masks 4
      ⟨[next], Dict.empty.set previous [next]⟩)
  else none

def ringNode : CascadeNode ℕ := (ring 1).getD (.new ∅ 0 0)

theorem forwarding_bounded_ring :
    (launch .masks sampleKeys ring 1 ringNode 4 7 sampleAudio none).flight.card = 1 ∧
    isAudio sampleAudio.header.packetType ∧
    ∀ form, ∀ run : ℕ → Traffic ℕ,
      run 0 = launch .masks sampleKeys ring 1 ringNode 4 7 sampleAudio none →
        ¬ ∀ i, Move .masks form sampleKeys (run i) (run (i + 1)) :=
  ⟨by decide +kernel, .inl rfl,
    fun form => (forwarding_bounded .masks form sampleKeys ring 1 ringNode 4 7 sampleAudio
      none (.inl rfl)).1⟩

end Traffic

end AurixVoice.Cascade
