import AurixVoice.Cascade.Layout
import AurixVoice.Cascade.PlanFacts
import AurixVoice.Cascade.Route

/-! Nodes with distinct addresses that compute one plan from one snapshot; the plan is a layout. -/

namespace AurixVoice.Cascade

open Finset

structure Fleet (Addr : Type) where
  nodes : Dict MediaNodeId (PeerNode Addr)
  addr_inj : ∀ i j p q, nodes.find i = some p → nodes.find j = some q → p.addr = q.addr → i = j

namespace Fleet

variable {Addr : Type} (F : Fleet Addr) (channel : ChannelId) (hosting : Finset MediaNodeId)
  (links : LinkMatrix)

abbrev localNode (i : MediaNodeId) (p : PeerNode Addr) : LocalNode := ⟨i, p.region, p.relayOnly⟩

def peers (i : MediaNodeId) : Dict MediaNodeId (PeerNode Addr) := F.nodes.erase i

def region (i : MediaNodeId) : Option Region := (F.nodes.find i).map fun p => p.region

def hostsByRegion : Dict Region (Finset MediaNodeId) :=
  .tabulate (univ.filter fun r => ∃ id ∈ hosting, F.region id = some r) fun r =>
    some (hosting.filter fun id => F.region id = some r)

def relayNodes (r : Region) : List MediaNodeId :=
  ascending (F.nodes.keys.filter fun id => (F.nodes.find id).any fun p => p.relayOnly && p.region = r)

def plan : RegionTreePlan := planOf channel links (F.hostsByRegion hosting) F.relayNodes

variable {F channel hosting links} {i : MediaNodeId} {p : PeerNode Addr}

section

variable (hi : F.nodes.find i = some p)
include hi

lemma regionOf_eq (id : MediaNodeId) : regionOf (localNode i p) (F.peers i) id = F.region id := by
  by_cases hid : id = i
  · subst hid
    simp [regionOf, region, hi]
  · simp [regionOf, region, peers, hid]

lemma relayOnlyIn_eq (r : Region) : relayOnlyIn (localNode i p) (F.peers i) r = F.relayNodes r := by
  unfold relayOnlyIn relayNodes
  congr 1
  ext id
  rw [mem_union, mem_filter, mem_filter]
  by_cases hid : id = i
  · subst hid
    by_cases hr : p.relayOnly = true ∧ p.region = r
    · simp [peers, hi, hr, Dict.mem_keys_iff]
    · simp [peers, hi, hr]
  · have hlocal : id ∉ (if (localNode i p).relayOnly = true ∧ (localNode i p).region = r then
        {(localNode i p).id} else (∅ : Finset MediaNodeId)) := by
      split <;> simp [hid]
    rw [or_iff_left hlocal]
    simp [peers, hid]

lemma compute_eq :
    RegionTreePlan.compute channel links (localNode i p) hosting (F.peers i) = F.plan channel hosting links := by
  have hgroup : groupByRegion (localNode i p) hosting (F.peers i) = F.hostsByRegion hosting := by
    simp [groupByRegion, hostsByRegion, regionOf_eq hi]
  have hrelay : relayOnlyIn (localNode i p) (F.peers i) = F.relayNodes := funext (relayOnlyIn_eq hi)
  rw [RegionTreePlan.compute, hgroup, hrelay, plan]

end

variable {r : Region} {n : MediaNodeId}

lemma mem_hostsByRegion : n ∈ ((F.hostsByRegion hosting).find r).getD ∅ ↔ n ∈ hosting ∧ F.region n = some r := by
  rw [hostsByRegion, Dict.find_tabulate]
  split
  · simp
  next hno =>
    simp only [Option.getD_none, notMem_empty, false_iff]
    intro hn
    exact hno (mem_filter.mpr ⟨mem_univ r, n, hn⟩)

lemma mem_relayNodes : n ∈ F.relayNodes r ↔ ∃ p, F.nodes.find n = some p ∧ p.relayOnly = true ∧ p.region = r := by
  rw [relayNodes, mem_ascending, mem_filter, Dict.mem_keys_iff]
  cases F.nodes.find n <;> simp

lemma mem_keys_of_region (h : F.region n = some r) : n ∈ F.nodes.keys := by
  obtain ⟨p, hp, -⟩ := Option.map_eq_some_iff.mp h
  exact Dict.mem_keys_iff.mpr ⟨p, hp⟩

lemma hub_cases {hub : MediaNodeId} (h : (F.plan channel hosting links).hubs.find r = some hub) :
    F.region hub = some r ∧
      ((∃ p, F.nodes.find hub = some p ∧ p.relayOnly = true) ∨ hub ∈ hosting) := by
  rcases (electHubs_mem channel links h).2 with hmem | hmem
  · obtain ⟨p, hp, honly, hr⟩ := mem_relayNodes.mp hmem
    exact ⟨by simp [region, hp, hr], .inl ⟨p, hp, honly⟩⟩
  · obtain ⟨hin, hr⟩ := mem_hostsByRegion.mp hmem
    exact ⟨hr, .inr hin⟩

lemma hub_exists (hn : n ∈ hosting) (hr : F.region n = some r) :
    ∃ hub, (F.plan channel hosting links).hubs.find r = some hub := by
  have hmem := mem_hostsByRegion.mpr ⟨hn, hr⟩
  cases hfind : (F.hostsByRegion hosting).find r with
  | none => simp [hfind] at hmem
  | some =>
    apply electHubs_exists channel links hfind
    rw [hfind] at hmem
    exact ⟨n, hmem⟩

lemma plan_relayLaws :
    let hubIds := (F.plan channel hosting links).hubs.entries.map Prod.snd
    RelayLaws hubIds (coreHubs links hubIds) (F.plan channel hosting links).relays :=
  hubRelays_laws channel links _ _

lemma core_hub {c : MediaNodeId} (h : c ∈ coreHubs links ((F.plan channel hosting links).hubs.entries.map Prod.snd)) :
    ∃ t, (F.plan channel hosting links).hubs.find t = some c := by
  obtain ⟨⟨t, c'⟩, he, rfl⟩ := List.mem_map.mp (List.mem_filter.mp h).1
  exact ⟨t, Dict.mem_entries.mp he⟩

variable (F channel hosting links)

def layout : Layout MediaNodeId Region where
  regions := (F.plan channel hosting links).hubs.keys
  home n := (F.region n).getD .usEast
  hosts := hosting.filter fun n => n ∈ F.nodes.keys
  hub r := ((F.plan channel hosting links).hubs.find r).getD 0
  star := (F.plan channel hosting links).starRegions
  relay x z := (F.plan channel hosting links).relays.find (x, z)
  alive := F.nodes.keys
  host_alive n hn := (mem_filter.mp hn).2
  hub_alive r hr := by
    obtain ⟨hub, hhub⟩ := Dict.mem_keys_iff.mp hr
    rw [hhub]
    exact mem_keys_of_region (hub_cases hhub).1
  home_host n hn := by
    obtain ⟨hin, halive⟩ := mem_filter.mp hn
    obtain ⟨p, hp⟩ := Dict.mem_keys_iff.mp halive
    have hr : F.region n = some p.region := by simp [region, hp]
    rw [hr, Option.getD_some, Dict.mem_keys_iff]
    exact hub_exists hin hr
  home_hub r hr := by
    obtain ⟨hub, hhub⟩ := Dict.mem_keys_iff.mp hr
    rw [hhub, Option.getD_some, (hub_cases hhub).1]
    rfl
  relay_hub x z c h := by
    have hcore := ((plan_relayLaws).carrier x z c h).1
    obtain ⟨t, ht⟩ := core_hub hcore
    exact ⟨t, Dict.mem_keys_iff.mpr ⟨c, ht⟩, by simp [ht]⟩
  relay_ne x z c h := by
    obtain ⟨hcore, hne, hx, -⟩ := (plan_relayLaws).carrier x z c h
    refine ⟨?_, hne⟩
    rintro rfl
    exact hx hcore
  relay_core x z c h w := by
    have hcore := ((plan_relayLaws).carrier x z c h).1
    by_contra hsome
    obtain ⟨d, hd⟩ := Option.ne_none_iff_exists'.mp hsome
    exact ((plan_relayLaws).carrier c w d hd).2.2.1 hcore
  relay_direct x z c h := (plan_relayLaws).direct x z c h

end Fleet

end AurixVoice.Cascade
