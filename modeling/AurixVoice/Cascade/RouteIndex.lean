import AurixVoice.Cascade.Envelope
import AurixVoice.Library.Crc
import AurixVoice.Library.Traces

namespace AurixVoice.Cascade

open Dict Option Finset
open Protocol (Suite channelIdHash)

variable {Addr : Type}

def ChannelRoute.Within (route : ChannelRoute Addr) (peers : Finset Addr) : Prop :=
  (∀ a ∈ route.origin, a ∈ peers) ∧
    ∀ src targets, route.forward.find src = some targets → src ∈ peers ∧ ∀ t ∈ targets, t ≠ src ∧ t ∈ peers

namespace CascadeRelay

variable (hash : ChannelId → UInt32) (relay : CascadeRelay Addr)

def removeChannel (channel : ChannelId) : CascadeRelay Addr :=
  { relay with
    routes := relay.routes.erase channel
    routesByHash := if relay.routesByHash.find (hash channel) = some channel
      then relay.routesByHash.erase (hash channel) else relay.routesByHash }

def retainChannels (keep : Finset ChannelId) : CascadeRelay Addr :=
  (ascending (relay.routes.keys.filter fun c => c ∉ keep)).foldl (removeChannel hash) relay

def Confined : Prop := relay.routes.All fun _ route => route.Within relay.allowedPeers

def Indexed : Prop := ∀ h channel, relay.routesByHash.find h = some channel ↔
  hash channel = h ∧ channel ∈ relay.routes.keys

def Alone (channel : ChannelId) : Prop := ∀ c ∈ relay.routes.keys, hash c = hash channel → c = channel

variable {hash relay} {peers : Finset Addr} {channel : ChannelId} {route : ChannelRoute Addr}

lemma Indexed.set (h : Indexed hash relay) (halone : Alone hash relay channel) :
    Indexed hash
      { relay with
        routes := relay.routes.set channel route
        routesByHash := relay.routesByHash.set (hash channel) channel } := by
  intro i c
  have hkeys : c ∈ (relay.routes.set channel route).keys ↔ c = channel ∨ c ∈ relay.routes.keys := mem_insert
  rw [find_set, hkeys]
  split
  next hi =>
    subst hi
    constructor
    · rintro ⟨rfl⟩
      exact ⟨rfl, .inl rfl⟩
    · rintro ⟨hh, rfl | hc⟩
      · rfl
      · rw [halone c hc hh]
  next hi =>
    rw [h i c]
    refine and_congr_right fun hh => (or_iff_right ?_).symm
    rintro rfl
    exact hi hh.symm

lemma Indexed.removeChannel (h : Indexed hash relay) (channel : ChannelId) :
    Indexed hash (relay.removeChannel hash channel) := by
  intro i c
  have hkeys : c ∈ (relay.routes.erase channel).keys ↔ c ≠ channel ∧ c ∈ relay.routes.keys := mem_erase
  simp only [CascadeRelay.removeChannel, hkeys]
  have hc := h i c
  split
  · rw [find_erase]
    split
    · grind
    · grind
  · grind

variable [LinearOrder Addr]

lemma within_dropPeer (h : route.Within peers) (removed : Addr) :
    (dropPeer route removed).Within (peers.erase removed) := by
  constructor
  · intro a ha
    simp only [dropPeer, List.mem_filter, decide_eq_true_eq] at ha
    exact mem_erase.mpr ⟨ha.2, h.1 a ha.1⟩
  · intro src targets hfind
    simp only [dropPeer, find_mapValues, find_erase, map_eq_some_iff] at hfind
    obtain ⟨old, hold, rfl⟩ := hfind
    split at hold
    · cases hold
    next hne =>
      obtain ⟨hsrc, htargets⟩ := h.2 src old hold
      refine ⟨mem_erase.mpr ⟨hne, hsrc⟩, fun t ht => ?_⟩
      simp only [List.mem_filter, decide_eq_true_eq] at ht
      exact ⟨(htargets t ht.1).1, mem_erase.mpr ⟨ht.2, (htargets t ht.1).2⟩⟩

lemma within_foldl_dropPeer (h : route.Within peers) (removed : List Addr) :
    (removed.foldl dropPeer route).Within (peers \ removed.toFinset) := by
  induction removed generalizing route peers with
  | nil => simpa using h
  | cons a removed ih =>
    have hrest : peers \ (a :: removed).toFinset = peers.erase a \ removed.toFinset := by
      ext b
      simp only [List.toFinset_cons, mem_sdiff, mem_insert, mem_erase]
      tauto
    exact hrest ▸ ih (within_dropPeer h a)

lemma within_allowedRoute (relay : CascadeRelay Addr) (route : ChannelRoute Addr) :
    (relay.allowedRoute route).Within relay.allowedPeers := by
  constructor
  · intro a ha
    simp only [allowedRoute, mem_sortDedup, List.mem_filter, decide_eq_true_eq] at ha
    exact ha.2
  · intro src targets hfind
    simp only [allowedRoute, find_tabulate] at hfind
    split at hfind
    next hsrc =>
      obtain ⟨hmap, -⟩ := filter_eq_some_iff.mp hfind
      obtain ⟨old, -, rfl⟩ := map_eq_some_iff.mp hmap
      refine ⟨(mem_filter.mp hsrc).2, fun t ht => ?_⟩
      simp only [mem_sortDedup, List.mem_filter, decide_eq_true_eq] at ht
      exact ht.2
    · cases hfind

lemma Confined.setDynamicPeers (h : relay.Confined) (peers : Finset Addr) :
    (relay.setDynamicPeers peers).Confined := by
  intro channel route hfind
  simp only [CascadeRelay.setDynamicPeers, find_mapValues, map_eq_some_iff] at hfind
  obtain ⟨old, hold, rfl⟩ := hfind
  obtain ⟨horigin, hforward⟩ := h channel old hold
  have hgrown : old.Within (relay.allowedPeers ∪ (peers \ relay.dynamicPeers)) := by
    refine ⟨fun a ha => mem_union_left _ (horigin a ha), fun src targets htargets => ?_⟩
    obtain ⟨hsrc, hts⟩ := hforward src targets htargets
    exact ⟨mem_union_left _ hsrc, fun t ht => ⟨(hts t ht).1, mem_union_left _ (hts t ht).2⟩⟩
  have hdropped := within_foldl_dropPeer hgrown (ascending ((relay.dynamicPeers \ peers) \ relay.staticPeers))
  rwa [ascending, sort_toFinset] at hdropped

end CascadeRelay

inductive RouteEvent (Addr : Type)
  | setDynamicPeers (peers : Finset Addr)
  | addPeer (channel : ChannelId) (peer : Addr)
  | setChannelRoute (channel : ChannelId) (route : ChannelRoute Addr)
  | removeChannel (channel : ChannelId)
  | retainChannels (keep : Finset ChannelId)

namespace CascadeNode

open CascadeRelay (Confined Indexed Alone within_allowedRoute)

variable [LinearOrder Addr] (suite : Suite) (form : AddrForm Addr)

def route (n : CascadeNode Addr) : RouteEvent Addr → CascadeNode Addr
  | .setDynamicPeers peers => n.setDynamicPeers peers
  | .addPeer channel peer => (n.addPeer suite form channel peer).2
  | .setChannelRoute channel route => n.setChannelRoute suite channel route
  | .removeChannel channel => { n with relay := n.relay.removeChannel (channelIdHash suite) channel }
  | .retainChannels keep => { n with relay := n.relay.retainChannels (channelIdHash suite) keep }

/-- The channel that is given a route shares its hash with no other channel that has one. -/
def HashFree (n : CascadeNode Addr) : RouteEvent Addr → Prop
  | .addPeer channel _ | .setChannelRoute channel _ => Alone (channelIdHash suite) n.relay channel
  | .setDynamicPeers _ | .removeChannel _ | .retainChannels _ => True

variable {suite form} {n : CascadeNode Addr}

lemma confined_route (h : n.relay.Confined) (e : RouteEvent Addr) : (n.route suite form e).relay.Confined := by
  cases e with
  | setDynamicPeers peers => exact h.setDynamicPeers peers
  | addPeer channel =>
    simp only [route, addPeer]
    split
    · exact h
    next hpeer =>
      have hold : ((n.relay.routes.find channel).getD (.default Addr)).Within n.relay.allowedPeers := by
        cases hfind : n.relay.routes.find channel with
        | none => exact ⟨fun _ ha => (by cases ha), fun _ _ ht => (by cases ht)⟩
        | some old => exact h channel old hfind
      apply All.set h
      split
      · exact hold
      · refine ⟨fun a ha => ?_, hold.2⟩
        rcases List.mem_append.mp ha with ha | ha
        · exact hold.1 a ha
        · rw [mem_singleton.mp ha]
          exact not_not.mp hpeer
  | setChannelRoute channel =>
    simp only [route, setChannelRoute, CascadeRelay.setChannelRoute]
    split
    · exact All.erase h channel
    · exact All.set h (within_allowedRoute _ _)
  | removeChannel channel => exact All.erase h channel
  | retainChannels =>
    have hremove : ∀ (relay : CascadeRelay Addr) (c : ChannelId), relay.Confined →
        (relay.removeChannel (channelIdHash suite) c).Confined := fun _ c hc => All.erase hc c
    exact Traces.foldl_invariant _ hremove _ h

lemma indexed_route (h : Indexed (channelIdHash suite) n.relay) (e : RouteEvent Addr)
    (hfree : HashFree suite n e) : Indexed (channelIdHash suite) (n.route suite form e).relay := by
  cases e with
  | setDynamicPeers => exact h
  | addPeer =>
    simp only [route, addPeer]
    split
    · exact h
    · exact h.set hfree
  | setChannelRoute channel =>
    simp only [route, setChannelRoute, CascadeRelay.setChannelRoute]
    split
    · exact h.removeChannel channel
    · exact h.set hfree
  | removeChannel channel => exact h.removeChannel channel
  | retainChannels => exact Traces.foldl_invariant _ (fun _ c hc => hc.removeChannel c) _ h

/-- Routes stay among the allowed peers and away from their sources in every run, and the index has exactly
the channels with a route in every run that gives no two channels of one hash a route at a time. -/
theorem routes_confined (peers : Finset Addr) (ssrc : UInt32) (secs : UInt64) (events : List (RouteEvent Addr)) :
    let relay := (events.foldl (route suite form) (new peers ssrc secs)).relay
    (∀ channel r, relay.routes.find channel = some r → r.Within relay.allowedPeers) ∧
      (Traces.Meets (route suite form) (HashFree suite) (new peers ssrc secs) events →
        ∀ h channel, relay.routesByHash.find h = some channel ↔
          channelIdHash suite channel = h ∧ channel ∈ relay.routes.keys) := by
  constructor
  · refine Traces.foldl_invariant (fun n : CascadeNode Addr => n.relay.Confined)
      (fun _ e h => confined_route h e) events fun _ _ hr => ?_
    cases hr
  · intro hfree
    refine Traces.meets_invariant (fun n : CascadeNode Addr => Indexed (channelIdHash suite) n.relay)
      (fun _ e h hfree => indexed_route h e hfree) hfree fun h channel => ?_
    simp [new, CascadeRelay.new, empty]

def plainForm : AddrForm ℕ := ⟨fun _ _ => 0, fun _ => [], fun _ => 0, id, fun _ => ""⟩

/-- Two channels get a route, one of them with a forwarding rule, and then a peer goes. -/
def rerouted : List (RouteEvent ℕ) :=
  [.setDynamicPeers {4}, .addPeer 1 4, .setChannelRoute 2 ⟨[3, 4], (empty.set 3 [4, 5]).set 4 [3]⟩,
    .setDynamicPeers ∅]

theorem routes_confined_one :
    let relay := (rerouted.foldl (route .masks plainForm) (new {3, 5} 0 0)).relay
    relay.routes.keys = {1, 2} ∧ relay.allowedPeers = {3, 5} ∧
      (relay.routes.find 2).map (fun r => (r.origin, r.forward.find 3, r.forward.find 4)) =
        some ([3], some [5], none) ∧
      (∀ channel r, relay.routes.find channel = some r → r.Within relay.allowedPeers) ∧
      Traces.Meets (route .masks plainForm) (HashFree .masks) (new {3, 5} 0 0) rerouted ∧
      ∀ h channel, relay.routesByHash.find h = some channel ↔
        channelIdHash .masks channel = h ∧ channel ∈ relay.routes.keys := by
  have hfree : Traces.Meets (route .masks plainForm) (HashFree .masks) (new {3, 5} 0 0) rerouted := by
    refine ⟨trivial, ?_, ?_, trivial, trivial⟩
    all_goals
      simp only [HashFree, Alone]
      decide +kernel
  exact ⟨by decide +kernel, by decide +kernel, by decide +kernel, (routes_confined {3, 5} 0 0 rerouted).1, hfree,
    (routes_confined {3, 5} 0 0 rerouted).2 hfree⟩

theorem routed_channel_not_indexed :
    let suite : Suite := { Suite.masks with crc32 := crc32Ieee }
    let relay := ([.addPeer 0 3, .addPeer 279280999169 3].foldl (route suite plainForm) (new {3} 0 0)).relay
    (0 : ChannelId) ∈ relay.routes.keys ∧ relay.routesByHash.keys = {channelIdHash suite 0} ∧
      relay.routesByHash.find (channelIdHash suite 0) = some 279280999169 := by decide +kernel

end CascadeNode

end AurixVoice.Cascade
