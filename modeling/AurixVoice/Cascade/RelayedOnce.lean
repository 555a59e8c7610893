import AurixVoice.Cascade.Delivery

namespace AurixVoice.Cascade.Fleet

open Flood

variable {Addr : Type} [LinearOrder Addr] (F : Fleet Addr) (channelIdHash : ChannelId → UInt32)
  (channel : ChannelId) (hosting : Finset MediaNodeId) (links : LinkMatrix)

def start (o : MediaNodeId) : Net.State (Copy MediaNodeId) := ⟨F.sent channelIdHash channel hosting links o, 0⟩

def received (s : Net.State (Copy MediaNodeId)) (n : MediaNodeId) :
    ℕ := s.consumed.countP fun c => c.dst = n

variable {F}

section Run

variable {channel hosting links} {o : MediaNodeId} (ho : o ∈ (F.layout channel hosting links).hosts)
include ho

lemma total_start : ∃ ts : List MediaNodeId, ts.Nodup ∧
    ts.toFinset = (F.layout channel hosting links).origin o ∧
    (F.network channelIdHash channel hosting links).total (F.start channelIdHash channel hosting links o) =
      (ts.flatMap fun t => (F.network channelIdHash channel hosting links).spread ⟨o, t, 1⟩ : List _) := by
  obtain ⟨ts, hnodup, hset, hsent⟩ := sent_eq channelIdHash ho
  refine ⟨ts, hnodup, hset, ?_⟩
  rw [Net.total, start, hsent, zero_add, Multiset.coe_bind, List.flatMap_map]

lemma countP_total_start {n : MediaNodeId} (hn : n ∈ (F.layout channel hosting links).hosts) (hne : n ≠ o) :
    ((F.network channelIdHash channel hosting links).total
      (F.start channelIdHash channel hosting links o)).countP (fun c => c.dst = n) = 1 := by
  obtain ⟨ts, hnodup, hset, htotal⟩ := total_start channelIdHash ho
  have hvisits := (network_follows channelIdHash).visits_origin hn ho (by decide)
  rw [if_neg hne, ← hset, List.sum_toFinset _ hnodup] at hvisits
  rw [htotal, Multiset.coe_countP, List.countP_flatMap]
  exact hvisits

variable {c : Copy MediaNodeId}

lemma total_start_legs
    (hc : c ∈ (F.network channelIdHash channel hosting links).total (F.start channelIdHash channel hosting links o)) :
    Leg (F.layout channel hosting links) o c := by
  obtain ⟨ts, -, hset, htotal⟩ := total_start channelIdHash ho
  rw [htotal, Multiset.mem_coe, List.mem_flatMap] at hc
  obtain ⟨t, ht, hc⟩ := hc
  have hleg : Leg (F.layout channel hosting links) o ⟨o, t, 1⟩ :=
    .of_origin ho (hset ▸ List.mem_toFinset.mpr ht)
  exact (network_follows channelIdHash).legs (by decide) ho hleg c hc

lemma not_returned (hleg : Leg (F.layout channel hosting links) o c) :
    ∀ c' ∈ (F.network channelIdHash channel hosting links).next c, c'.dst ≠ c.src := by
  intro c' hc'
  obtain ⟨hsrc, hdst⟩ := hleg.alive ho
  have hhops : c.hops < maxRelayHops := Nat.lt_succ_of_le hleg.hops_le
  obtain ⟨ts, -, hset, hnext⟩ := network_follows channelIdHash c hhops hsrc hdst
  rw [hnext] at hc'
  obtain ⟨t, ht, rfl⟩ := List.mem_map.mp hc'
  have hmem := hset ▸ List.mem_toFinset.mpr ht
  rintro rfl
  exact (Layout.ne_of_mem_forward hmem).2 rfl

omit [LinearOrder Addr] in
lemma seen_by_host_or_relay (hleg : Leg (F.layout channel hosting links) o c) :
    c.dst ∈ hosting ∨ ∃ p, F.nodes.find c.dst = some p ∧ p.relayOnly = true := by
  rcases hleg.dst_mem ho with hdst | ⟨t, ht, hdst⟩
  · exact .inl (Finset.mem_filter.mp hdst).1
  · obtain ⟨hub, hhub⟩ := Dict.mem_keys_iff.mp ht
    have heq : c.dst = hub := by
      rw [hdst]
      exact congrArg (Option.getD · 0) hhub
    rw [heq]
    exact (hub_cases hhub).2.symm

end Run

/-- `s` is any state of a run in which the copies arrive in any order. -/
theorem relayed_exactly_once {o : MediaNodeId} (ho : o ∈ hosting) (halive : o ∈ F.nodes.keys)
    {s : Net.State (Copy MediaNodeId)}
    (hrun : (F.network channelIdHash channel hosting links).Run (F.start channelIdHash channel hosting links o) s) :
    (∀ c ∈ s.consumed, c.dst ≠ o ∧ (∀ c' ∈ F.forwarded channelIdHash channel hosting links c, c'.dst ≠ c.src) ∧
      (c.dst ∈ hosting ∨ ∃ p, F.nodes.find c.dst = some p ∧ p.relayOnly = true) ∧ c.hops ≤ maxRelayHops) ∧
    (∀ n ∈ hosting, n ∈ F.nodes.keys → n ≠ o →
      received s n ≤ 1 ∧ (s.inflight = 0 → received s n = 1)) ∧
    ∃ s', (F.network channelIdHash channel hosting links).Run s s' ∧ s'.inflight = 0 := by
  have hhost : o ∈ (F.layout channel hosting links).hosts := Finset.mem_filter.mpr ⟨ho, halive⟩
  have hle := Net.run_consumed_le _ hrun
  refine ⟨?_, ?_, Net.run_finishes _ s⟩
  · intro c hc
    have hleg := total_start_legs channelIdHash hhost (Multiset.mem_of_le hle hc)
    exact ⟨hleg.dst_ne, not_returned channelIdHash hhost hleg,
      seen_by_host_or_relay hhost hleg, Nat.le_succ_of_le hleg.hops_le⟩
  · intro n hn hnalive hne
    have hcount := countP_total_start channelIdHash hhost (Finset.mem_filter.mpr ⟨hn, hnalive⟩) hne
    refine ⟨?_, ?_⟩
    · rw [← hcount]
      exact Multiset.countP_le_of_le _ hle
    · intro hdone
      rw [received, Net.run_finished _ hrun hdone, hcount]

def atlantic : Fleet ℕ where
  nodes := (((Dict.empty.set 1 ⟨10, .usEast, false⟩).set 2 ⟨20, .usEast, false⟩).set 3
    ⟨30, .euWest, false⟩).set 4 ⟨40, .euWest, true⟩
  addr_inj i j p q hi hj hpq := by
    simp only [Dict.find_set, Dict.find_empty] at hi hj
    split_ifs at hi hj <;> grind

theorem relayed_exactly_once_atlantic :
    ∃ s, (atlantic.network (fun _ => 0) 7 {1, 2, 3} .new).Run
        (atlantic.start (fun _ => 0) 7 {1, 2, 3} .new 1) s ∧
      s.inflight = 0 ∧ received s 2 = 1 ∧ received s 3 = 1 := by
  have halive : (1 : MediaNodeId) ∈ atlantic.nodes.keys := by decide
  obtain ⟨-, -, s, hrun, hdone⟩ := relayed_exactly_once (fun _ => 0) 7 {1, 2, 3} .new (by decide) halive (.refl)
  obtain ⟨-, honce, -⟩ := relayed_exactly_once (fun _ => 0) 7 {1, 2, 3} .new (by decide) halive hrun
  exact ⟨s, hrun, hdone, (honce 2 (by decide) (by decide) (by decide)).2 hdone,
    (honce 3 (by decide) (by decide) (by decide)).2 hdone⟩

end AurixVoice.Cascade.Fleet
