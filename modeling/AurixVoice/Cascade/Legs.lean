import AurixVoice.Cascade.ExactlyOnce

namespace AurixVoice.Cascade

open Flood Layout
open Finset (mem_erase mem_union)

variable {Node Region : Type} [DecidableEq Node] [DecidableEq Region]

inductive Leg (L : Layout Node Region) (o : Node) : Copy Node → Prop
  | home {v : Node} (hv : v ∈ L.hostsIn (L.home o) ∨ v = L.hub (L.home o)) (hne : v ≠ o) : Leg L o ⟨o, v, 1⟩
  | star {v : Node} (hv : v ∈ L.hostsIn (L.home o)) (hhub : v ≠ L.hub (L.home o)) (hne : v ≠ o) :
      Leg L o ⟨L.hub (L.home o), v, 2⟩
  | cross {t : Region} {k : ℕ} (ht : t ∈ L.regions) (hto : t ≠ L.home o) (hk : k ≤ 2) :
      Leg L o ⟨L.hub (L.home o), L.hub t, k⟩
  | relayed {t z : Region} {k : ℕ} (ht : t ∈ L.regions) (hz : z ∈ L.regions) (htz : t ≠ z)
      (hzo : z ≠ L.home o) (hcore : ∀ w, L.relay (L.hub t) w = none) (hk : k ≤ 3) :
      Leg L o ⟨L.hub t, L.hub z, k⟩
  | region {t : Region} {v : Node} {k : ℕ} (ht : t ∈ L.regions) (hto : t ≠ L.home o) (hv : v ∈ L.hostsIn t)
      (hhub : v ≠ L.hub t) (hk : k ≤ 4) : Leg L o ⟨L.hub t, v, k⟩

namespace Leg

variable {L : Layout Node Region} {o : Node} {c : Copy Node}

omit [DecidableEq Node] in
lemma hops_le (h : Leg L o c) : c.hops ≤ 4 := by
  cases h <;> dsimp only <;> omega

omit [DecidableEq Node] in
lemma dst_ne (h : Leg L o c) : c.dst ≠ o := by
  cases h with
  | home _ hne | star _ _ hne => exact hne
  | cross ht hto _ =>
    intro heq
    exact hto ((L.home_hub _ ht).symm.trans (congrArg L.home heq))
  | relayed _ hz _ hzo _ _ =>
    intro heq
    exact hzo ((L.home_hub _ hz).symm.trans (congrArg L.home heq))
  | region _ hto hv _ _ =>
    intro heq
    exact hto ((mem_hostsIn.mp hv).2.symm.trans (congrArg L.home heq))

omit [DecidableEq Node] in
lemma dst_mem (ho : o ∈ L.hosts) (h : Leg L o c) : c.dst ∈ L.hosts ∨ ∃ t ∈ L.regions, c.dst = L.hub t := by
  cases h with
  | home hv _ =>
    rcases hv with hv | rfl
    · exact .inl (mem_hostsIn.mp hv).1
    · exact .inr ⟨_, L.home_host o ho, rfl⟩
  | star hv _ _ | region _ _ hv _ _ => exact .inl (mem_hostsIn.mp hv).1
  | cross ht _ _ => exact .inr ⟨_, ht, rfl⟩
  | relayed _ hz _ _ _ _ => exact .inr ⟨_, hz, rfl⟩

omit [DecidableEq Node] in
lemma alive (ho : o ∈ L.hosts) (h : Leg L o c) : c.src ∈ L.alive ∧ c.dst ∈ L.alive := by
  refine ⟨?_, ?_⟩
  · cases h with
    | home _ _ => exact L.host_alive ho
    | star _ _ _ | cross _ _ _ => exact L.hub_alive _ (L.home_host o ho)
    | relayed ht _ _ _ _ _ | region ht _ _ _ _ => exact L.hub_alive _ ht
  · rcases h.dst_mem ho with hhost | ⟨t, ht, heq⟩
    · exact L.host_alive hhost
    · rw [heq]
      exact L.hub_alive t ht

lemma of_origin (ho : o ∈ L.hosts) {v : Node} (hv : v ∈ L.origin o) : Leg L o ⟨o, v, 1⟩ := by
  unfold origin at hv
  split at hv
  next hhub =>
    rcases mem_union.mp hv with hv | hv
    · obtain ⟨hne, hv⟩ := mem_erase.mp hv
      exact .home (.inl hv) hne
    · obtain ⟨t, ht, hto, -, rfl⟩ := mem_cross.mp hv
      have hleg : Leg L o ⟨L.hub (L.home o), L.hub t, 1⟩ := .cross ht hto (by omega)
      rwa [hhub.2] at hleg
  next hhub =>
    rcases mem_union.mp hv with hv | hv
    · split at hv
      · cases hv
      · obtain ⟨hne, hv⟩ := mem_erase.mp hv
        exact .home (.inl hv) hne
    · split at hv
      · obtain rfl := Finset.mem_singleton.mp hv
        exact .home (.inr rfl) fun h => hhub ⟨L.home_host o ho, h⟩
      · cases hv

lemma region_next {t : Region} {src v : Node} {k : ℕ} (ht : t ∈ L.regions) (hto : t ≠ L.home o) (hk : k ≤ 4)
    (hv : v ∈ (L.hostsIn t).erase (L.hub t)) (hsrc : src = L.hub t) : Leg L o ⟨src, v, k⟩ := by
  obtain ⟨hne, hv⟩ := mem_erase.mp hv
  exact hsrc ▸ .region ht hto hv hne hk

lemma forward (ho : o ∈ L.hosts) (h : Leg L o c) {v : Node} (hv : v ∈ L.forward c.dst c.src) :
    Leg L o ⟨c.dst, v, c.hops + 1⟩ := by
  have hr := L.home_host o ho
  cases h with
  | @home w hw hne =>
    by_cases hhub : w = L.hub (L.home o)
    · subst hhub
      rw [forward_of_host hr (mem_hostsIn.mpr ⟨ho, rfl⟩) hne.symm] at hv
      rcases mem_union.mp hv with hv | hv
      · obtain ⟨t, ht, hto, -, rfl⟩ := mem_cross.mp hv
        exact .cross ht hto (le_refl 2)
      · split at hv
        · obtain ⟨hvo, hv⟩ := mem_erase.mp hv
          obtain ⟨hvh, hv⟩ := mem_erase.mp hv
          exact .star hv hvh hvo
        · cases hv
    · have hhost := hw.resolve_right hhub
      rw [forward_of_not_isHub (not_isHub_of_host hhost hhub)] at hv
      cases hv
  | star hw hhub | region _ _ hw hhub =>
    rw [forward_of_not_isHub (not_isHub_of_host hw hhub)] at hv
    cases hv
  | @cross t k ht hto =>
    rw [forward_of_hub hr ht hto.symm] at hv
    rcases mem_union.mp hv with hv | hv
    · exact region_next ht hto (by dsimp only; omega) hv rfl
    · rw [relayedFor_eq hr ht] at hv
      obtain ⟨z, hz, rfl⟩ := Finset.mem_image.mp hv
      obtain ⟨hz, hrelay⟩ := Finset.mem_filter.mp hz
      obtain ⟨hzo, hz⟩ := mem_erase.mp hz
      refine .relayed ht hz ?_ hzo (L.relay_core _ _ _ hrelay) (by dsimp only; omega)
      rintro rfl
      exact (L.relay_ne _ _ _ hrelay).2 rfl
  | @relayed t z k ht hz htz hzo hcore =>
    have hnone : L.relayedFor (L.hub z) (L.hub t) = ∅ := by
      simp [relayedFor, hcore]
    rw [forward_of_hub ht hz htz, hnone, Finset.union_empty] at hv
    exact region_next hz hzo (by dsimp only; omega) hv rfl

end Leg

lemma Follows.legs {net : Net (Copy Node)} {L : Layout Node Region} {maxHops : ℕ}
    (hnet : Follows net L maxHops) (hmax : 4 < maxHops) {o : Node} (ho : o ∈ L.hosts) {c : Copy Node}
    (hc : Leg L o c) : ∀ c' ∈ net.spread c, Leg L o c' := by
  apply net.spread_forall ?_ hc
  intro c hc c' hc'
  obtain ⟨hsrc, hdst⟩ := hc.alive ho
  have hhops := hc.hops_le
  obtain ⟨ts, -, hset, hnext⟩ := hnet c (by omega) hsrc hdst
  rw [hnext] at hc'
  obtain ⟨t, ht, rfl⟩ := List.mem_map.mp hc'
  apply hc.forward ho
  rw [← hset]
  exact List.mem_toFinset.mpr ht

end AurixVoice.Cascade
