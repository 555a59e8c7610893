import AurixVoice.Cascade.RegionTree

/-! One node's part of the plan: where its own packets go, and those of each of its peers. -/

namespace AurixVoice.Cascade

structure ChannelRoute (Addr : Type) where
  origin : List Addr
  forward : Dict Addr (List Addr)

namespace ChannelRoute

def default (Addr : Type) : ChannelRoute Addr := ⟨[], .empty⟩

def isEmpty {Addr : Type} (r : ChannelRoute Addr) : Prop :=
  r.origin = [] ∧ ∀ src ∈ r.forward.keys, r.forward.find src = some []

instance {Addr : Type} [DecidableEq Addr] (r : ChannelRoute Addr) : Decidable r.isEmpty :=
  inferInstanceAs (Decidable (_ ∧ _))

end ChannelRoute

variable {Addr : Type} [LinearOrder Addr]

def sortDedup (l : List Addr) : List Addr := (l.insertionSort (· ≤ ·)).dedup

@[simp] lemma mem_sortDedup {l : List Addr} {a : Addr} : a ∈ sortDedup l ↔ a ∈ l := by
  simp [sortDedup]

lemma nodup_sortDedup (l : List Addr) : (sortDedup l).Nodup := List.nodup_dedup _

section Plan

variable (plan : RegionTreePlan) (loc : LocalNode) (peers : Dict MediaNodeId (PeerNode Addr))

def addrOf (id : MediaNodeId) : Option Addr := (peers.find id).map fun p => p.addr

def inRegionHosts : List Addr :=
  (((ascending ((plan.hostingByRegion.find loc.region).getD ∅)).filter fun id => id ≠ loc.id).filterMap
    (addrOf peers)).insertionSort (· ≤ ·)

def remoteHubs : List (Region × MediaNodeId) := plan.hubs.entries.filter fun e => e.1 ≠ loc.region

def localIsHub : Bool := plan.hubs.find loc.region = some loc.id

def crossTargets : List Addr :=
  if localIsHub plan loc then
    sortDedup ((remoteHubs plan loc).filterMap fun e => addrOf peers (plan.nextHub loc.id e.2))
  else []

def remoteAddrs : List (Addr × Region × MediaNodeId) :=
  (remoteHubs plan loc).filterMap fun e => (addrOf peers e.2).map fun a => (a, e)

def relayTargets (region : Region) (hub : MediaNodeId) : List Addr :=
  (plan.hubs.entries.filter fun e => e.1 ≠ region ∧ e.1 ≠ loc.region ∧
    plan.relays.find (hub, e.2) = some loc.id).filterMap fun e => addrOf peers e.2

def pushTargets (d : Dict Addr (List Addr)) (e : Addr × Region × MediaNodeId) : Dict Addr (List Addr) :=
  (relayTargets plan loc peers e.2.1 e.2.2).foldl (fun d a => d.set e.1 ((d.find e.1).getD [] ++ [a])) d

def relayedFor : Dict Addr (List Addr) :=
  if localIsHub plan loc then (remoteAddrs plan loc peers).foldl (pushTargets plan loc peers) .empty
  else .empty

def routeOrigin (hosting : Finset MediaNodeId) : List Addr :=
  if loc.id ∈ hosting then
    if localIsHub plan loc then inRegionHosts plan loc peers ++ crossTargets plan loc peers
    else (if loc.region ∉ plan.starRegions then inRegionHosts plan loc peers else []) ++
      (if loc.region ∈ plan.starRegions ∨ 1 < plan.hubs.keys.card then
        ((plan.hubs.find loc.region).bind (addrOf peers)).toList else [])
  else []

def hostRules : Dict Addr (List Addr) :=
  (inRegionHosts plan loc peers).foldl (fun d src => d.set src (crossTargets plan loc peers ++
    if loc.region ∈ plan.starRegions then (inRegionHosts plan loc peers).filter fun a => a ≠ src else []))
    .empty

def addHubRule (s : Dict Addr (List Addr) × Dict Addr (List Addr)) (e : Addr × Region × MediaNodeId) :
    Dict Addr (List Addr) × Dict Addr (List Addr) :=
  (s.1.erase e.1, s.2.set e.1 (inRegionHosts plan loc peers ++ (s.1.find e.1).getD []))

def routeForward : Dict Addr (List Addr) :=
  if localIsHub plan loc then
    ((remoteAddrs plan loc peers).foldl (addHubRule plan loc peers)
      (relayedFor plan loc peers, hostRules plan loc peers)).2
  else .empty

def isPeerAddr (a : Addr) : Bool := decide (∃ id ∈ peers.keys, addrOf peers id = some a)

end Plan

def planRegionTree (channel : ChannelId) (loc : LocalNode) (hosting : Finset MediaNodeId)
    (peers : Dict MediaNodeId (PeerNode Addr)) (links : LinkMatrix) : ChannelRoute Addr :=
  let plan := RegionTreePlan.compute channel links loc hosting peers
  { origin := sortDedup (routeOrigin plan loc peers hosting)
    forward := ((routeForward plan loc peers).mapValues fun ts =>
      (sortDedup ts).filter (isPeerAddr peers)).filterValues fun ts => !ts.isEmpty }

end AurixVoice.Cascade
