import AurixVoice.Cascade.LinkMatrix
import Mathlib.Data.UInt

/-! The plan of one channel in `region_tree` mode: a hub per region, and core hubs between hubs out of reach. -/

namespace AurixVoice.Cascade

inductive Region
  | usEast
  | usWest
  | euWest
  | euCentral
  | asiaPacific
  | southAmerica
  | australia
  | middleEast
  | africa
  deriving DecidableEq

def Region.all : List Region :=
  [usEast, usWest, euWest, euCentral, asiaPacific, southAmerica, australia, middleEast, africa]

instance : Fintype Region := ⟨Region.all.toFinset, fun r => by cases r <;> decide⟩

instance : LinearOrder Region :=
  LinearOrder.lift' Region.ctorIdx (fun r s h => by cases r <;> cases s <;> first | rfl | cases h)

structure PeerNode (Addr : Type) where
  addr : Addr
  region : Region
  relayOnly : Bool

structure LocalNode where
  id : MediaNodeId
  region : Region
  relayOnly : Bool

def channelNodeMix (channel : ChannelId) (node : MediaNodeId) : BitVec 128 :=
  (channel.bits ^^^ node.bits) * 0x9E3779B97F4A7C15F39CC0605CEDC835#128

structure HubRank where
  unconfirmed : Bool
  notRelayOnly : Bool
  bucket : UInt32
  mix : BitVec 128
  node : BitVec 128
  deriving Ord

def hubRank (channel : ChannelId) (node : MediaNodeId) (relayOnly : Bool) (reach : List LinkCost) : HubRank where
  unconfirmed := reach.any LinkCost.isUnconfirmed
  notRelayOnly := !relayOnly
  bucket := (reach.map fun c => c.ms / rankBucketMs).sum
  mix := channelNodeMix channel node
  node := node.bits

structure ViaRank where
  sum : UInt32
  mix : BitVec 128
  node : BitVec 128
  deriving Ord

def minBy {α κ : Type} [Ord κ] (key : α → κ) : List α → Option α
  | [] => none
  | a :: as => some (as.foldl (fun best b => if compare (key b) (key best) = .lt then b else best) a)

lemma minBy_mem {α κ : Type} [Ord κ] {key : α → κ} {l : List α} {a : α} (h : minBy key l = some a) : a ∈ l := by
  cases l with
  | nil => cases h
  | cons b bs =>
    have hfold : ∀ (bs : List α) (best : α),
        bs.foldl (fun best b => if compare (key b) (key best) = .lt then b else best) best ∈ best :: bs := by
      intro bs
      induction bs with
      | nil => intro best; exact List.mem_singleton.mpr rfl
      | cons c cs ih =>
        intro best
        rw [List.foldl_cons]
        split
        · exact List.mem_cons_of_mem best (ih c)
        · rcases List.mem_cons.mp (ih best) with h | h
          · rw [h]
            exact List.mem_cons_self
          · exact List.mem_cons_of_mem best (List.mem_cons_of_mem c h)
    obtain rfl := Option.some.inj h
    exact hfold bs b

lemma minBy_isSome {α κ : Type} [Ord κ] (key : α → κ) {l : List α} (h : l ≠ []) : ∃ a, minBy key l = some a := by
  cases l with
  | nil => exact absurd rfl h
  | cons => exact ⟨_, rfl⟩

structure RegionTreePlan where
  hostingByRegion : Dict Region (Finset MediaNodeId)
  hubs : Dict Region MediaNodeId
  starRegions : Finset Region
  relays : Dict (MediaNodeId × MediaNodeId) MediaNodeId

section Compute

variable {Addr : Type} (channel : ChannelId) (links : LinkMatrix)

variable (hosts : Dict Region (Finset MediaNodeId)) (relayOnly : Region → List MediaNodeId)

def regionOf (loc : LocalNode) (peers : Dict MediaNodeId (PeerNode Addr)) (id : MediaNodeId) : Option Region :=
  if id = loc.id then some loc.region else (peers.find id).map fun p => p.region

def groupByRegion (loc : LocalNode) (hosting : Finset MediaNodeId)
    (peers : Dict MediaNodeId (PeerNode Addr)) : Dict Region (Finset MediaNodeId) :=
  .tabulate (Finset.univ.filter fun r => ∃ id ∈ hosting, regionOf loc peers id = some r) fun r =>
    some (hosting.filter fun id => regionOf loc peers id = some r)

def relayOnlyIn (loc : LocalNode) (peers : Dict MediaNodeId (PeerNode Addr)) (region : Region) : List MediaNodeId :=
  ascending ((peers.keys.filter fun id => (peers.find id).any fun p => p.relayOnly && p.region = region) ∪
    if loc.relayOnly ∧ loc.region = region then {loc.id} else ∅)

def candidates (region : Region) : List (MediaNodeId × Bool) :=
  ((relayOnly region).map fun id => (id, true)) ++
    ((ascending ((hosts.find region).getD ∅)).map fun id => (id, false))

def nearest (id : MediaNodeId) (others : List (MediaNodeId × Bool)) : LinkCost :=
  (minBy (fun c => c.ms) (others.map fun n => links.cost id n.1)).getD .unknown

def reach (region : Region) (id : MediaNodeId) : List LinkCost :=
  (((ascending ((hosts.find region).getD ∅)).filter fun h => h ≠ id).map (links.cost id)) ++
    (((ascending hosts.keys).filter fun other => other ≠ region).map fun other =>
      nearest links id (candidates hosts relayOnly other))

def electHub (region : Region) : Option MediaNodeId :=
  (minBy (fun c => hubRank channel c.1 c.2 (reach links hosts relayOnly region c.1))
    (candidates hosts relayOnly region)).map Prod.fst

def electHubs : Dict Region MediaNodeId :=
  .tabulate hosts.keys (electHub channel links hosts relayOnly)

def blocked : List MediaNodeId → Bool
  | [] => false
  | a :: rest => rest.any (fun b => (links.cost a b).isUnconfirmed) || blocked rest

def starRegions (hubs : Dict Region MediaNodeId) : Finset Region :=
  hosts.keys.filter fun region =>
    blocked links ((ascending ((hosts.find region).getD ∅)).filter fun h => some h ≠ hubs.find region)

def coreHubs (hubIds : List MediaNodeId) : List MediaNodeId :=
  hubIds.filter fun c => hubIds.all fun z => z = c || !(links.cost c z).isUnconfirmed

def via (core : List MediaNodeId) (x z : MediaNodeId) : Option MediaNodeId :=
  let direct := links.cost x z
  let budget := if direct.isUnconfirmed then unconfirmedLinkMs else saturatingSub direct.ms relayGainMs
  let sum c := saturatingAdd (links.cost x c).ms (links.cost c z).ms
  minBy (fun c => ViaRank.mk (sum c) (channelNodeMix channel c) c.bits)
    ((core.filter fun c => c ≠ z).filter fun c => sum c < budget)

def addRelay (core : List MediaNodeId) (x : MediaNodeId) (relays : Dict (MediaNodeId × MediaNodeId) MediaNodeId)
    (z : MediaNodeId) : Dict (MediaNodeId × MediaNodeId) MediaNodeId :=
  if z = x then relays else match via channel links core x z with
    | none => relays
    | some c => relays.set (x, z) c

def relaysOf (hubIds core : List MediaNodeId) (relays : Dict (MediaNodeId × MediaNodeId) MediaNodeId)
    (x : MediaNodeId) : Dict (MediaNodeId × MediaNodeId) MediaNodeId :=
  let relays := hubIds.foldl (addRelay channel links core x) relays
  let used := hubIds.filterMap fun z => relays.find (x, z)
  used.foldl (fun d c => d.erase (x, c)) relays

def hubRelays (hubIds core : List MediaNodeId) : Dict (MediaNodeId × MediaNodeId) MediaNodeId :=
  hubIds.foldl (fun d x => if x ∈ core then d else relaysOf channel links hubIds core d x) .empty

def planOf : RegionTreePlan :=
  let hubs := electHubs channel links hosts relayOnly
  let hubIds := hubs.entries.map Prod.snd
  { hostingByRegion := hosts
    hubs := hubs
    starRegions := starRegions links hosts hubs
    relays := hubRelays channel links hubIds (coreHubs links hubIds) }

def RegionTreePlan.compute (loc : LocalNode) (hosting : Finset MediaNodeId)
    (peers : Dict MediaNodeId (PeerNode Addr)) : RegionTreePlan :=
  planOf channel links (groupByRegion loc hosting peers) (relayOnlyIn loc peers)

end Compute

def RegionTreePlan.nextHub (plan : RegionTreePlan) (src dst : MediaNodeId) : MediaNodeId :=
  (plan.relays.find (src, dst)).getD dst

end AurixVoice.Cascade
