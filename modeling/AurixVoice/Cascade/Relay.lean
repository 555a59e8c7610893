import AurixVoice.Cascade.Route

/-! The routing state of one node's `CascadeRelay`; nothing here depends on what the channel hash computes. -/

namespace AurixVoice.Cascade

def maxRelayHops : ℕ := 5

structure CascadeRelay (Addr : Type) where
  routes : Dict ChannelId (ChannelRoute Addr)
  routesByHash : Dict UInt32 ChannelId
  allowedPeers : Finset Addr
  staticPeers : Finset Addr
  dynamicPeers : Finset Addr

namespace CascadeRelay

variable {Addr : Type} [LinearOrder Addr]

def new (staticPeers : Finset Addr) : CascadeRelay Addr := ⟨.empty, .empty, staticPeers, staticPeers, ∅⟩

def dropPeer (route : ChannelRoute Addr) (removed : Addr) : ChannelRoute Addr where
  origin := route.origin.filter fun a => a ≠ removed
  forward := (route.forward.erase removed).mapValues fun ts => ts.filter fun a => a ≠ removed

def setDynamicPeers (relay : CascadeRelay Addr) (peers : Finset Addr) : CascadeRelay Addr :=
  let added := peers \ relay.dynamicPeers
  let removed := (relay.dynamicPeers \ peers) \ relay.staticPeers
  { relay with
    allowedPeers := (relay.allowedPeers ∪ added) \ removed
    routes := relay.routes.mapValues fun route => (ascending removed).foldl dropPeer route
    dynamicPeers := peers }

def allowedRoute (relay : CascadeRelay Addr) (route : ChannelRoute Addr) : ChannelRoute Addr where
  origin := sortDedup (route.origin.filter fun a => a ∈ relay.allowedPeers)
  forward := .tabulate (route.forward.keys.filter fun src => src ∈ relay.allowedPeers) fun src =>
    (((route.forward.find src).map fun ts =>
      sortDedup (ts.filter fun t => t ≠ src ∧ t ∈ relay.allowedPeers)).filter fun ts => !ts.isEmpty)

variable (channelIdHash : ChannelId → UInt32)

def setChannelRoute (relay : CascadeRelay Addr) (channel : ChannelId) (route : ChannelRoute Addr) :
    CascadeRelay Addr :=
  let route := relay.allowedRoute route
  let hash := channelIdHash channel
  if route.isEmpty then
    { relay with
      routes := relay.routes.erase channel
      routesByHash := if relay.routesByHash.find hash = some channel then relay.routesByHash.erase hash
        else relay.routesByHash }
  else
    { relay with
      routes := relay.routes.set channel route, routesByHash := relay.routesByHash.set hash channel }

def channelPeers (relay : CascadeRelay Addr) (channel : ChannelId) : List Addr :=
  ((relay.routes.find channel).map fun r => r.origin).getD []

def forwardTargets (relay : CascadeRelay Addr) (hash : UInt32) (src : Addr) (hops : ℕ) :
    Option (List Addr) := do
  let channel ← relay.routesByHash.find hash
  let route ← relay.routes.find channel
  let targets ← route.forward.find src
  if targets = [] then none
  else if maxRelayHops ≤ hops then some []
  else some (targets.filter fun t => t ≠ src)

variable {src : Addr} {hops : ℕ}

lemma forwardTargets_of_maxRelayHops {relay : CascadeRelay Addr} {hash : UInt32}
    (h : maxRelayHops ≤ hops) : (relay.forwardTargets hash src hops).getD [] = [] := by
  unfold forwardTargets
  cases relay.routesByHash.find hash with
  | none => rfl
  | some channel =>
    cases hroute : relay.routes.find channel with
    | none => simp [hroute]
    | some route =>
      cases htargets : route.forward.find src with
      | none => simp [hroute, htargets]
      | some targets => by_cases hnil : targets = [] <;> simp [hroute, htargets, hnil, h]

section Fresh

variable (peers : Finset Addr) (channel : ChannelId) (route : ChannelRoute Addr)

def routing : CascadeRelay Addr := ((new ∅).setDynamicPeers peers).setChannelRoute channelIdHash channel route

variable (relay : CascadeRelay Addr)

lemma channelPeers_setChannelRoute :
    (relay.setChannelRoute channelIdHash channel route).channelPeers channel = (relay.allowedRoute route).origin := by
  unfold setChannelRoute
  dsimp only
  split
  next hempty =>
    rw [hempty.1]
    simp [channelPeers]
  · simp [channelPeers]

lemma forwardTargets_setChannelRoute (hfresh : relay.routesByHash = .empty) (hhops : hops < maxRelayHops) :
    ((relay.setChannelRoute channelIdHash channel route).forwardTargets (channelIdHash channel) src hops).getD [] =
      (((relay.allowedRoute route).forward.find src).getD []).filter fun t => t ≠ src := by
  unfold setChannelRoute
  dsimp only
  split
  next hempty =>
    have hnil : ((relay.allowedRoute route).forward.find src).getD [] = [] := by
      by_cases hkey : src ∈ (relay.allowedRoute route).forward.keys
      · rw [hempty.2 src hkey]
        rfl
      · rw [Dict.mem_keys, Option.not_isSome_iff_eq_none] at hkey
        rw [hkey]
        rfl
    rw [hnil]
    simp [forwardTargets, hfresh]
  · cases hfind : (relay.allowedRoute route).forward.find src with
    | none => simp [forwardTargets, hfind]
    | some targets =>
      by_cases hnil : targets = [] <;> simp [forwardTargets, hfind, hnil, not_le.mpr hhops]

lemma allowedRoute_forward :
    ((relay.allowedRoute route).forward.find src).getD [] = if src ∈ relay.allowedPeers then
      sortDedup (((route.forward.find src).getD []).filter fun t => t ≠ src ∧ t ∈ relay.allowedPeers) else [] := by
  rw [allowedRoute, Dict.find_tabulate]
  cases hfind : route.forward.find src with
  | none => simp [sortDedup]
  | some ts =>
    have hkey : src ∈ route.forward.keys := Dict.mem_keys_iff.mpr ⟨ts, hfind⟩
    simp only [Finset.mem_filter, hkey, true_and]
    split
    · rw [Option.map_some, Option.getD_some]
      cases sortDedup (ts.filter fun t => t ≠ src ∧ t ∈ relay.allowedPeers) <;> simp [Option.filter]
    · rfl

variable {a : Addr}

lemma mem_allowedPeers_setDynamicPeers : a ∈ ((new ∅).setDynamicPeers peers).allowedPeers ↔ a ∈ peers := by
  simp [setDynamicPeers, new]

lemma mem_channelPeers :
    a ∈ (routing channelIdHash peers channel route).channelPeers channel ↔ a ∈ route.origin ∧ a ∈ peers := by
  rw [routing, channelPeers_setChannelRoute, allowedRoute, mem_sortDedup, List.mem_filter, decide_eq_true_eq,
    mem_allowedPeers_setDynamicPeers]

lemma nodup_channelPeers : ((routing channelIdHash peers channel route).channelPeers channel).Nodup := by
  rw [routing, channelPeers_setChannelRoute]
  exact nodup_sortDedup _

section

variable (hhops : hops < maxRelayHops)
include hhops

lemma forwardTargets_routing :
    ((routing channelIdHash peers channel route).forwardTargets (channelIdHash channel) src hops).getD [] =
      (if src ∈ peers then sortDedup (((route.forward.find src).getD []).filter fun t => t ≠ src ∧ t ∈ peers)
        else []).filter fun t => t ≠ src := by
  rw [routing, forwardTargets_setChannelRoute _ _ _ _ rfl hhops, allowedRoute_forward]
  simp only [mem_allowedPeers_setDynamicPeers]

lemma forwardTargets_of_notMem (hsrc : src ∉ peers) :
    ((routing channelIdHash peers channel route).forwardTargets (channelIdHash channel) src hops).getD [] =
      [] := by
  rw [forwardTargets_routing _ _ _ _ hhops, if_neg hsrc]
  rfl

variable (hsrc : src ∈ peers)
include hsrc

lemma mem_forwardTargets :
    a ∈ ((routing channelIdHash peers channel route).forwardTargets (channelIdHash channel) src hops).getD [] ↔
      a ∈ (route.forward.find src).getD [] ∧ a ≠ src ∧ a ∈ peers := by
  rw [forwardTargets_routing _ _ _ _ hhops, if_pos hsrc, List.mem_filter, mem_sortDedup, List.mem_filter]
  simp only [decide_eq_true_eq]
  tauto

lemma nodup_forwardTargets :
    (((routing channelIdHash peers channel route).forwardTargets (channelIdHash channel) src hops).getD
      []).Nodup := by
  rw [forwardTargets_routing _ _ _ _ hhops, if_pos hsrc]
  exact (nodup_sortDedup _).filter _

end

end Fresh

end CascadeRelay

end AurixVoice.Cascade
