import AurixVoice.Cascade.RegionTree

namespace AurixVoice.Cascade

open List

variable (channel : ChannelId) (links : LinkMatrix)

section Hubs

variable {hosts : Dict Region (Finset MediaNodeId)} {relayOnly : Region → List MediaNodeId}
  {region : Region} {hub : MediaNodeId}

lemma electHubs_mem (h : (electHubs channel links hosts relayOnly).find region = some hub) :
    region ∈ hosts.keys ∧ (hub ∈ relayOnly region ∨ hub ∈ (hosts.find region).getD ∅) := by
  rw [electHubs, Dict.find_tabulate] at h
  split at h
  next hkey =>
    obtain ⟨⟨id, flag⟩, hmin, rfl⟩ := Option.map_eq_some_iff.mp h
    refine ⟨hkey, ?_⟩
    have hmem := minBy_mem hmin
    simp only [candidates, mem_append, mem_map, mem_ascending, Prod.mk.injEq] at hmem
    rcases hmem with ⟨_, hid, rfl, _⟩ | ⟨_, hid, rfl, _⟩
    · exact .inl hid
    · exact .inr hid
  · cases h

lemma electHubs_exists {s : Finset MediaNodeId} (h : hosts.find region = some s) (hs : s.Nonempty) :
    ∃ hub, (electHubs channel links hosts relayOnly).find region = some hub := by
  obtain ⟨id, hid⟩ := hs
  have hne : candidates hosts relayOnly region ≠ [] := by
    apply ne_nil_of_mem (a := (id, false))
    simp [candidates, h, hid]
  obtain ⟨best, hbest⟩ := minBy_isSome (fun c => hubRank channel c.1 c.2 (reach links hosts relayOnly region c.1)) hne
  refine ⟨best.1, ?_⟩
  rw [electHubs, Dict.find_tabulate, if_pos (Dict.mem_keys_iff.mpr ⟨s, h⟩), electHub, hbest]
  rfl

end Hubs

structure RelayLaws (hubIds core : List MediaNodeId)
    (relays : Dict (MediaNodeId × MediaNodeId) MediaNodeId) : Prop where
  carrier : ∀ x z c, relays.find (x, z) = some c → c ∈ core ∧ c ≠ z ∧ x ∉ core ∧ z ∈ hubIds
  direct : ∀ x z c, relays.find (x, z) = some c → relays.find (x, c) = none

section Relays

variable {hubIds core : List MediaNodeId} {x z c y w : MediaNodeId} {d : Dict (MediaNodeId × MediaNodeId) MediaNodeId}

lemma via_mem (h : via channel links core x z = some c) : c ∈ core ∧ c ≠ z := by
  have hmem := minBy_mem h
  simp only [mem_filter, decide_eq_true_eq] at hmem
  exact hmem.1

lemma addRelay_find (h : (addRelay channel links core x d z).find (y, w) = some c) :
    d.find (y, w) = some c ∨ (y = x ∧ w = z ∧ c ∈ core ∧ c ≠ z) := by
  unfold addRelay at h
  split at h
  · exact .inl h
  · split at h
    · exact .inl h
    next c' hvia =>
      rcases Dict.of_find_set h with ⟨heq, rfl⟩ | ⟨-, h⟩
      · obtain ⟨rfl, rfl⟩ := Prod.mk.inj heq
        exact .inr ⟨rfl, rfl, via_mem channel links hvia⟩
      · exact .inl h

lemma addRelay_find_ne (hy : y ≠ x) : (addRelay channel links core x d z).find (y, w) = d.find (y, w) := by
  unfold addRelay
  split
  · rfl
  · split
    · rfl
    · simp [hy]

lemma foldl_addRelay_find {zs : List MediaNodeId}
    (h : (zs.foldl (addRelay channel links core x) d).find (y, w) = some c) :
    d.find (y, w) = some c ∨ (y = x ∧ w ∈ zs ∧ c ∈ core ∧ c ≠ w) := by
  induction zs generalizing d with
  | nil => exact .inl h
  | cons z zs ih =>
    rcases ih h with h | ⟨hy, hw, hc⟩
    · rcases addRelay_find channel links h with h | ⟨hy, rfl, hc⟩
      · exact .inl h
      · exact .inr ⟨hy, mem_cons_self, hc⟩
    · exact .inr ⟨hy, mem_cons_of_mem z hw, hc⟩

lemma foldl_addRelay_find_ne (zs : List MediaNodeId) (hy : y ≠ x) :
    (zs.foldl (addRelay channel links core x) d).find (y, w) = d.find (y, w) := by
  induction zs generalizing d with
  | nil => rfl
  | cons z zs ih => rw [foldl_cons, ih, addRelay_find_ne channel links hy]

lemma foldl_erase_find (cs : List MediaNodeId) (d : Dict (MediaNodeId × MediaNodeId) MediaNodeId) (y w : MediaNodeId) :
    (cs.foldl (fun d c => d.erase (x, c)) d).find (y, w) =
      if y = x ∧ w ∈ cs then none else d.find (y, w) := by
  induction cs generalizing d with
  | nil => simp
  | cons c cs ih =>
    rw [foldl_cons, ih, Dict.find_erase]
    by_cases hy : y = x <;> by_cases hw : w ∈ cs <;> by_cases hc : w = c <;> simp [hy, hw, hc]

lemma relaysOf_find (d : Dict (MediaNodeId × MediaNodeId) MediaNodeId) (y w : MediaNodeId) :
    (relaysOf channel links hubIds core d x).find (y, w) =
      let d' := hubIds.foldl (addRelay channel links core x) d
      if y = x ∧ w ∈ hubIds.filterMap (fun z => d'.find (x, z)) then none else d'.find (y, w) :=
  foldl_erase_find _ _ y w

lemma relaysOf_laws (hx : x ∉ core) (h : RelayLaws hubIds core d) :
    RelayLaws hubIds core (relaysOf channel links hubIds core d x) := by
  have hcarrier : ∀ y w c, (hubIds.foldl (addRelay channel links core x) d).find (y, w) = some c →
      c ∈ core ∧ c ≠ w ∧ y ∉ core ∧ w ∈ hubIds := by
    intro y w c hfind
    rcases foldl_addRelay_find channel links hfind with hold | ⟨rfl, hw, hc, hne⟩
    · exact h.carrier y w c hold
    · exact ⟨hc, hne, hx, hw⟩
  constructor
  · intro y w c hfind
    rw [relaysOf_find] at hfind
    dsimp only at hfind
    split at hfind
    · cases hfind
    · exact hcarrier y w c hfind
  · intro y w c hfind
    rw [relaysOf_find] at hfind ⊢
    dsimp only at hfind ⊢
    split at hfind
    · cases hfind
    · by_cases hy : y = x
      · -- the relay of `(x, w)` is among the used ones, so its own entry was removed
        subst hy
        have hw := (hcarrier y w c hfind).2.2.2
        rw [if_pos ⟨rfl, mem_filterMap.mpr ⟨w, hw, hfind⟩⟩]
      · rw [if_neg (fun hc => hy hc.1)]
        rw [foldl_addRelay_find_ne channel links hubIds hy] at hfind ⊢
        exact h.direct y w c hfind

end Relays

lemma hubRelays_laws (hubIds core : List MediaNodeId) :
    RelayLaws hubIds core (hubRelays channel links hubIds core) := by
  have hempty : RelayLaws hubIds core .empty := ⟨nofun, nofun⟩
  refine foldlRecOn hubIds _ hempty ?_
  intro d hd x _
  split
  · exact hd
  next hx => exact relaysOf_laws channel links hx hd

end AurixVoice.Cascade
