import AurixVoice.Cascade.Fleet

namespace AurixVoice.Cascade

open Finset

variable {Addr : Type}

structure Snapshot (Addr : Type) extends Fleet Addr where
  channel : ChannelId
  hosting : Finset MediaNodeId
  links : LinkMatrix

namespace Snapshot

variable (S : Snapshot Addr)

abbrev plan : RegionTreePlan := S.toFleet.plan S.channel S.hosting S.links

abbrev layout : Layout MediaNodeId Region := S.toFleet.layout S.channel S.hosting S.links

end Snapshot

namespace Fleet

variable (F : Fleet Addr)

def addrOf (v : MediaNodeId) : Option Addr := (F.nodes.find v).map fun p => p.addr

variable {F} {n : MediaNodeId} {p : PeerNode Addr} {a : Addr} {v : MediaNodeId}

lemma addrOf_inj {w : MediaNodeId} (hv : F.addrOf v = some a) (hw : F.addrOf w = some a) : v = w := by
  obtain ⟨p, hp, hpa⟩ := Option.map_eq_some_iff.mp hv
  obtain ⟨q, hq, hqa⟩ := Option.map_eq_some_iff.mp hw
  exact F.addr_inj v w p q hp hq (hpa.trans hqa.symm)

lemma addrOf_peers : Cascade.addrOf (F.peers n) v = some a ↔ v ≠ n ∧ F.addrOf v = some a := by
  by_cases hv : v = n <;> simp [Cascade.addrOf, addrOf, peers, hv]

variable {S : Snapshot Addr}

lemma home_eq (hn : S.nodes.find n = some p) : S.layout.home n = p.region := by
  simp [layout, region, hn]

lemma region_eq_some (hv : v ∈ S.nodes.keys) (r : Region) : S.region v = some r ↔ S.layout.home v = r := by
  obtain ⟨q, hq⟩ := Dict.mem_keys_iff.mp hv
  simp [layout, region, hq]

variable {r : Region}

lemma mem_hostsIn_iff : v ∈ S.layout.hostsIn r ↔ v ∈ S.hosting ∧ S.region v = some r := by
  rw [Layout.mem_hostsIn]
  constructor
  · rintro ⟨hv, hhome⟩
    obtain ⟨hin, halive⟩ := mem_filter.mp hv
    exact ⟨hin, (region_eq_some halive r).mpr hhome⟩
  · rintro ⟨hin, hr⟩
    have halive := mem_keys_of_region hr
    exact ⟨mem_filter.mpr ⟨hin, halive⟩, (region_eq_some halive r).mp hr⟩

lemma localIsHub_iff (hn : S.nodes.find n = some p) :
    localIsHub S.plan (localNode n p) = true ↔
      S.layout.IsHub n := by
  rw [localIsHub, decide_eq_true_eq, Layout.IsHub, home_eq hn]
  simp only [layout, Dict.mem_keys_iff]
  constructor
  · intro h
    exact ⟨⟨n, h⟩, by rw [h]; rfl⟩
  · rintro ⟨⟨hub, h⟩, heq⟩
    rw [h] at heq ⊢
    exact congrArg some heq

variable {hub : MediaNodeId}

lemma find_hub_iff : S.plan.hubs.find r = some hub ↔ r ∈ S.layout.regions ∧ S.layout.hub r = hub := by
  simp only [layout, Dict.mem_keys_iff]
  constructor
  · intro h
    exact ⟨⟨hub, h⟩, by rw [h]; rfl⟩
  · rintro ⟨⟨hub', h⟩, heq⟩
    rw [h] at heq ⊢
    exact congrArg some heq

lemma mem_remoteHubs :
    (r, hub) ∈ remoteHubs S.plan (localNode n p) ↔
      r ∈ S.layout.regions ∧ S.layout.hub r = hub ∧
        r ≠ p.region := by
  rw [remoteHubs, List.mem_filter, Dict.mem_entries, find_hub_iff, decide_eq_true_eq, and_assoc]

lemma hub_self (hn : S.nodes.find n = some p) (hhub : S.layout.IsHub n) :
    p.region ∈ S.layout.regions ∧
      S.layout.hub p.region = n := by
  rw [← home_eq hn]
  exact hhub

lemma mem_star :
    r ∈ S.layout.star ↔ r ∈ S.plan.starRegions := Iff.rfl

lemma mem_relayTargets (hn : S.nodes.find n = some p) (hr : r ∈ S.layout.regions) {b : Addr} :
    b ∈ relayTargets S.plan (localNode n p) (S.peers n) r
        (S.layout.hub r) ↔
      ∃ v ∈ S.layout.relayedFor n (S.layout.hub r),
        S.addrOf v = some b := by
  have hhome : S.layout.home n = p.region := home_eq hn
  rw [relayTargets, Layout.relayedFor, hhome, S.layout.home_hub r hr]
  simp only [List.mem_filterMap, List.mem_filter, decide_eq_true_eq, mem_filter, mem_image, mem_erase, addrOf_peers]
  constructor
  · rintro ⟨⟨z, hub⟩, ⟨he, hzr, hzn, hrelay⟩, -, hb⟩
    obtain ⟨hz, rfl⟩ := (find_hub_iff).mp (Dict.mem_entries.mp he)
    exact ⟨_, ⟨⟨z, ⟨hzn, hzr, hz⟩, rfl⟩, hrelay⟩, hb⟩
  · rintro ⟨v, ⟨⟨z, ⟨hzn, hzr, hz⟩, rfl⟩, hrelay⟩, hb⟩
    have he := Dict.mem_entries.mpr ((find_hub_iff).mpr ⟨hz, rfl⟩)
    refine ⟨_, ⟨he, hzr, hzn, hrelay⟩, ?_, hb⟩
    intro heq
    apply hzn
    rw [← hhome, ← heq, S.layout.home_hub z hz]

lemma mem_remoteAddrs :
    (a, r, hub) ∈ remoteAddrs S.plan (localNode n p) (S.peers n) ↔
      (r, hub) ∈ remoteHubs S.plan (localNode n p) ∧ hub ≠ n ∧
        S.addrOf hub = some a := by
  simp only [remoteAddrs, List.mem_filterMap, Option.map_eq_some_iff, addrOf_peers]
  constructor
  · rintro ⟨e, he, a', ha, heq⟩
    obtain ⟨rfl, rfl⟩ := Prod.mk.inj heq
    exact ⟨he, ha⟩
  · rintro ⟨he, ha⟩
    exact ⟨_, he, a, ha, rfl⟩

lemma nodup_remoteAddrs : ((remoteAddrs S.plan (localNode n p) (S.peers n)).map Prod.fst).Nodup := by
  have hhubs : (remoteHubs S.plan (localNode n p)).Nodup :=
    (Dict.nodup_entries _).filter _
  rw [remoteAddrs, List.map_filterMap, List.Nodup, List.pairwise_filterMap]
  refine hhubs.imp_of_mem ?_
  rintro ⟨r, h⟩ ⟨r', h'⟩ he he' hne a ha a' ha' rfl
  obtain ⟨hreg, rfl, -⟩ := (mem_remoteHubs).mp he
  obtain ⟨hreg', rfl, -⟩ := (mem_remoteHubs).mp he'
  simp only [Option.map_map, Option.map_eq_some_iff, Function.comp_apply, exists_eq_right, addrOf_peers] at ha ha'
  have heq := addrOf_inj ha.2 ha'.2
  have hrr := Layout.hub_inj hreg hreg' heq
  exact hne (by rw [hrr])

lemma mem_remoteAddrs_fst :
    a ∈ (remoteAddrs S.plan (localNode n p) (S.peers n)).map Prod.fst ↔
      ∃ r ∈ S.layout.regions, r ≠ p.region ∧
        S.layout.hub r ≠ n ∧
        S.addrOf (S.layout.hub r) = some a := by
  constructor
  · intro ha
    obtain ⟨⟨a, r, hub⟩, he, rfl⟩ := List.mem_map.mp ha
    obtain ⟨hhub, hne, haddr⟩ := (mem_remoteAddrs).mp he
    obtain ⟨hr, rfl, hrp⟩ := (mem_remoteHubs).mp hhub
    exact ⟨r, hr, hrp, hne, haddr⟩
  · rintro ⟨r, hr, hrp, hne, ha⟩
    apply List.mem_map.mpr
    exact ⟨(a, r, _), (mem_remoteAddrs).mpr ⟨(mem_remoteHubs).mpr ⟨hr, rfl, hrp⟩, hne, ha⟩, rfl⟩

variable {src : MediaNodeId}

lemma forward_eq_empty (hn : S.nodes.find n = some p) (hin : ¬ (src ∈ S.layout.hostsIn p.region ∧ src ≠ n))
    (hremote : S.layout.IsHub src →
      S.layout.home src ≠ p.region → False) :
    S.layout.forward n src = ∅ := by
  unfold Layout.forward
  rw [home_eq hn]
  split_ifs with hhub hhome hhost hstar hsrc
  · exact absurd ⟨Layout.mem_hostsIn.mpr ⟨hhost.1, hhome⟩, hhost.2⟩ hin
  · exact absurd ⟨Layout.mem_hostsIn.mpr ⟨hhost.1, hhome⟩, hhost.2⟩ hin
  · rfl
  · exact (hremote hsrc hhome).elim
  · rfl
  · rfl

end Fleet

variable [LinearOrder Addr]

section Rules

variable (plan : RegionTreePlan) (loc : LocalNode) (peers : Dict MediaNodeId (PeerNode Addr))

lemma mem_foldl_push (a b : Addr) (as : List Addr) (d : Dict Addr (List Addr)) (j : Addr) :
    b ∈ ((as.foldl (fun d x => d.set a ((d.find a).getD [] ++ [x])) d).find j).getD [] ↔
      b ∈ (d.find j).getD [] ∨ (j = a ∧ b ∈ as) := by
  induction as generalizing d with
  | nil => simp
  | cons x xs ih =>
    rw [List.foldl_cons, ih, Dict.find_set]
    by_cases hj : j = a
    · subst hj
      simp [or_assoc]
    · simp [hj]

lemma mem_foldl_pushTargets (es : List (Addr × Region × MediaNodeId)) (d : Dict Addr (List Addr)) (a b : Addr) :
    b ∈ ((es.foldl (pushTargets plan loc peers) d).find a).getD [] ↔
      b ∈ (d.find a).getD [] ∨ ∃ e ∈ es, a = e.1 ∧ b ∈ relayTargets plan loc peers e.2.1 e.2.2 := by
  induction es generalizing d with
  | nil => simp
  | cons e es ih =>
    rw [List.foldl_cons, ih, pushTargets, mem_foldl_push]
    simp [or_assoc]

lemma find_foldl_addHubRule {es : List (Addr × Region × MediaNodeId)} (hes : (es.map Prod.fst).Nodup)
    (s : Dict Addr (List Addr) × Dict Addr (List Addr)) (a : Addr) :
    (es.foldl (addHubRule plan loc peers) s).2.find a =
      if a ∈ es.map Prod.fst then some (inRegionHosts plan loc peers ++ (s.1.find a).getD []) else s.2.find a := by
  induction es generalizing s with
  | nil => simp
  | cons e es ih =>
    obtain ⟨hnot, hnodup⟩ := List.nodup_cons.mp hes
    rw [List.foldl_cons, ih hnodup]
    simp only [addHubRule, Dict.find_erase, Dict.find_set, List.map_cons, List.mem_cons]
    by_cases ha : a = e.1
    · subst ha
      simp [hnot]
    · simp only [ha, ↓reduceIte, false_or]

end Rules

namespace Fleet

variable {S : Snapshot Addr} {n : MediaNodeId} {p : PeerNode Addr}

lemma mem_inRegionHosts :
    a ∈ inRegionHosts S.plan (localNode n p) (S.peers n) ↔
      ∃ v ∈ (S.layout.hostsIn p.region).erase n, S.addrOf v = some a := by
  simp only [inRegionHosts, List.mem_insertionSort, List.mem_filterMap, List.mem_filter, mem_ascending,
    decide_eq_true_eq, addrOf_peers, mem_erase, mem_hostsIn_iff]
  constructor
  · rintro ⟨v, ⟨hv, hne⟩, -, ha⟩
    exact ⟨v, ⟨hne, mem_hostsByRegion.mp hv⟩, ha⟩
  · rintro ⟨v, ⟨hne, hv⟩, ha⟩
    exact ⟨v, ⟨mem_hostsByRegion.mpr hv, hne⟩, hne, ha⟩

variable (hn : S.nodes.find n = some p)
include hn

lemma mem_crossTargets (hhub : S.layout.IsHub n) :
    a ∈ crossTargets S.plan (localNode n p) (S.peers n) ↔
      ∃ v ∈ S.layout.cross p.region, S.addrOf v = some a := by
  obtain ⟨hr, hself⟩ := hub_self hn hhub
  have hne : ∀ v ∈ S.layout.cross p.region, v ≠ n := by
    rintro v hv rfl
    exact Layout.home_of_mem_cross hv (home_eq hn)
  rw [crossTargets, if_pos ((localIsHub_iff hn).mpr hhub), mem_sortDedup, List.mem_filterMap]
  constructor
  · rintro ⟨⟨r, hub⟩, he, ha⟩
    obtain ⟨hreg, rfl, hrn⟩ := (mem_remoteHubs).mp he
    refine ⟨_, ?_, (addrOf_peers.mp ha).2⟩
    rw [Layout.cross, hself]
    exact mem_image_of_mem _ (mem_erase.mpr ⟨hrn, hreg⟩)
  · rintro ⟨v, hv, ha⟩
    have hvn := hne v hv
    obtain ⟨r, hr', rfl⟩ := mem_image.mp hv
    obtain ⟨hrn, hreg⟩ := mem_erase.mp hr'
    refine ⟨(r, _), (mem_remoteHubs).mpr ⟨hreg, rfl, hrn⟩, ?_⟩
    rw [hself] at ha hvn
    exact addrOf_peers.mpr ⟨hvn, ha⟩

lemma mem_routeOrigin (hhost : n ∈ S.hosting) :
    a ∈ routeOrigin S.plan (localNode n p) (S.peers n) S.hosting ↔
      ∃ v ∈ S.layout.origin n, S.addrOf v = some a := by
  have hhome : S.layout.home n = p.region := home_eq hn
  simp only [routeOrigin, hhost, ↓reduceIte, Layout.origin, hhome, mem_star]
  by_cases hhub : S.layout.IsHub n
  · rw [if_pos ((localIsHub_iff hn).mpr hhub), if_pos hhub, List.mem_append,
      mem_inRegionHosts, mem_crossTargets hn hhub]
    simp [or_and_right, exists_or]
  · have hreg : p.region ∈ S.layout.regions := by
      rw [← hhome]
      exact S.layout.home_host n (mem_filter.mpr ⟨hhost, Dict.mem_keys_iff.mpr ⟨p, hn⟩⟩)
    have hne : S.layout.hub p.region ≠ n := fun h =>
      hhub ⟨hhome.symm ▸ hreg, hhome.symm ▸ h⟩
    have hsend : a ∈ ((S.plan.hubs.find p.region).bind
        (Cascade.addrOf (S.peers n))).toList ↔
        S.addrOf (S.layout.hub p.region) = some a := by
      rw [(find_hub_iff).mpr ⟨hreg, rfl⟩, Option.bind_some, Option.mem_toList]
      exact addrOf_peers.trans (and_iff_right hne)
    have hhub' : localIsHub S.plan (localNode n p) ≠ true := fun h =>
      hhub ((localIsHub_iff hn).mp h)
    have hcard : S.layout.regions.card = S.plan.hubs.keys.card := rfl
    rw [if_neg hhub', if_neg hhub, List.mem_append, hcard]
    simp only [mem_union, or_and_right, exists_or]
    refine or_congr ?_ ?_
    · by_cases hstar : p.region ∈ S.plan.starRegions
      · simp [hstar]
      · simp only [hstar, not_false_eq_true, ↓reduceIte]
        exact mem_inRegionHosts
    · by_cases hout : p.region ∈ S.plan.starRegions ∨
          1 < S.plan.hubs.keys.card
      · rw [if_pos hout, if_pos hout, hsend]
        simp
      · rw [if_neg hout, if_neg hout]
        simp

lemma mem_relayedFor (hhub : S.layout.IsHub n) (hr : r ∈ S.layout.regions) (hrp : r ≠ p.region) {b : Addr}
    (ha : S.addrOf (S.layout.hub r) = some a) :
    b ∈ ((relayedFor S.plan (localNode n p) (S.peers n)).find a).getD [] ↔
      ∃ v ∈ S.layout.relayedFor n (S.layout.hub r),
        S.addrOf v = some b := by
  have hne : S.layout.hub r ≠ n := by
    intro heq
    apply hrp
    rw [← home_eq hn, ← heq, S.layout.home_hub r hr]
  rw [relayedFor, if_pos ((localIsHub_iff hn).mpr hhub), mem_foldl_pushTargets, ← mem_relayTargets hn hr]
  simp only [Dict.find_empty, Option.getD_none, List.not_mem_nil, false_or]
  constructor
  · rintro ⟨⟨a', r', hub⟩, he, rfl, hb⟩
    obtain ⟨hhub', -, ha'⟩ := (mem_remoteAddrs).mp he
    obtain ⟨hr', rfl, -⟩ := (mem_remoteHubs).mp hhub'
    have heq := Layout.hub_inj hr hr' (addrOf_inj ha ha')
    rwa [heq]
  · intro hb
    exact ⟨(a, r, _), (mem_remoteAddrs).mpr ⟨(mem_remoteHubs).mpr ⟨hr, rfl, hrp⟩, hne, ha⟩, rfl, hb⟩

lemma mem_hostRules (hhub : S.layout.IsHub n) (hsrc : src ∈ S.layout.hostsIn p.region) (hne : src ≠ n) {b : Addr}
    (ha : S.addrOf src = some a) :
    b ∈ ((hostRules S.plan (localNode n p) (S.peers n)).find a).getD [] ↔
      ∃ v ∈ S.layout.forward n src, S.addrOf v = some b := by
  obtain ⟨hr, hself⟩ := hub_self hn hhub
  have hin : a ∈ inRegionHosts S.plan (localNode n p) (S.peers n) :=
    (mem_inRegionHosts).mpr ⟨src, mem_erase.mpr ⟨hne, hsrc⟩, ha⟩
  have hforward := Layout.forward_of_host hr hsrc (hself.symm ▸ hne)
  rw [hself] at hforward
  rw [hostRules, Dict.find_foldl_set, if_pos hin, Option.getD_some, List.mem_append, hforward,
    mem_crossTargets hn hhub]
  simp only [mem_union, or_and_right, exists_or, mem_star]
  refine or_congr Iff.rfl ?_
  by_cases hstar : p.region ∈ S.plan.starRegions
  · rw [if_pos hstar, if_pos hstar, List.mem_filter, mem_inRegionHosts, decide_eq_true_eq]
    constructor
    · rintro ⟨⟨v, hv, hb⟩, hba⟩
      refine ⟨v, mem_erase.mpr ⟨?_, hv⟩, hb⟩
      rintro rfl
      exact hba (Option.some.inj (hb.symm.trans ha))
    · rintro ⟨v, hv, hb⟩
      obtain ⟨hvs, hv⟩ := mem_erase.mp hv
      refine ⟨⟨v, hv, hb⟩, ?_⟩
      rintro rfl
      exact hvs (addrOf_inj hb ha)
  · rw [if_neg hstar, if_neg hstar]
    simp

lemma mem_routeForward {b : Addr} (ha : S.addrOf src = some a) :
    b ∈ ((routeForward S.plan (localNode n p) (S.peers n)).find a).getD [] ↔
      ∃ v ∈ S.layout.forward n src, S.addrOf v = some b := by
  by_cases hhub : S.layout.IsHub n
  · obtain ⟨hr, hself⟩ := hub_self hn hhub
    rw [routeForward, if_pos ((localIsHub_iff hn).mpr hhub), find_foldl_addHubRule _ _ _ (nodup_remoteAddrs)]
    by_cases hremote : a ∈
        (remoteAddrs S.plan (localNode n p) (S.peers n)).map Prod.fst
    · obtain ⟨r, hrr, hrp, -, ha'⟩ := (mem_remoteAddrs_fst).mp hremote
      obtain rfl := addrOf_inj ha ha'
      have hforward := Layout.forward_of_hub hrr hr hrp
      rw [hself] at hforward
      rw [if_pos hremote, Option.getD_some, List.mem_append, mem_inRegionHosts,
        mem_relayedFor hn hhub hrr hrp ha, hforward]
      simp only [mem_union, or_and_right, exists_or]
    · rw [if_neg hremote]
      by_cases hin : src ∈ S.layout.hostsIn p.region ∧ src ≠ n
      · exact mem_hostRules hn hhub hin.1 hin.2 ha
      · have hnone : a ∉ inRegionHosts S.plan (localNode n p) (S.peers n) := by
          intro hmem
          obtain ⟨v, hv, hva⟩ := (mem_inRegionHosts).mp hmem
          obtain ⟨hvn, hv⟩ := mem_erase.mp hv
          obtain rfl := addrOf_inj ha hva
          exact hin ⟨hv, hvn⟩
        rw [hostRules, Dict.find_foldl_set, if_neg hnone, forward_eq_empty hn hin ?_]
        · simp
        · rintro ⟨hreg, heq⟩ hhome
          apply hremote
          rw [mem_remoteAddrs_fst]
          refine ⟨_, hreg, hhome, ?_, by rw [heq, ha]⟩
          rintro hsn
          apply hhome
          rw [← heq, hsn, home_eq hn]
  · have hhub' : localIsHub S.plan (localNode n p) ≠ true := fun h =>
      hhub ((localIsHub_iff hn).mp h)
    rw [routeForward, if_neg hhub', Layout.forward_of_not_isHub hhub]
    simp

end Fleet

end AurixVoice.Cascade
