import AurixVoice.Cascade.Layout

namespace AurixVoice.Cascade

open Flood Layout Finset

variable {Node Region : Type} [DecidableEq Node] [DecidableEq Region]

structure Copy (Node : Type) where
  src : Node
  dst : Node
  hops : ℕ
  deriving DecidableEq

def Follows (net : Net (Copy Node)) (L : Layout Node Region) (maxHops : ℕ) : Prop :=
  ∀ c : Copy Node, c.hops < maxHops → c.src ∈ L.alive → c.dst ∈ L.alive →
    ∃ ts : List Node, ts.Nodup ∧ ts.toFinset = L.forward c.dst c.src ∧
      net.next c = ts.map fun t => ⟨c.dst, t, c.hops + 1⟩

def visits (net : Net (Copy Node)) (n : Node) (c : Copy Node) : ℕ :=
  (net.spread c).countP fun c' => c'.dst = n

namespace Follows

variable {net : Net (Copy Node)} {L : Layout Node Region} {maxHops : ℕ} (hnet : Follows net L maxHops)
include hnet

variable {src o : Node} {k : ℕ} {r : Region}

section

variable (hk : k < maxHops) (hsrc : src ∈ L.alive)
include hk hsrc

lemma visits_eq {dst : Node} (hdst : dst ∈ L.alive) (n : Node) :
    visits net n ⟨src, dst, k⟩ =
      (if dst = n then 1 else 0) + ∑ t ∈ L.forward dst src, visits net n ⟨dst, t, k + 1⟩ := by
  obtain ⟨ts, hnodup, hset, hnext⟩ := hnet ⟨src, dst, k⟩ hk hsrc hdst
  rw [visits, Net.countP_spread, hnext, List.map_map, ← hset, List.sum_toFinset _ hnodup]
  simp only [decide_eq_true_eq]
  rfl

lemma visits_leaf {v : Node} (hv : v ∈ L.alive) (hhub : ¬ L.IsHub v) (n : Node) :
    visits net n ⟨src, v, k⟩ = if v = n then 1 else 0 := by
  rw [hnet.visits_eq hk hsrc hv, forward_of_not_isHub hhub, sum_empty, add_zero]

lemma sum_leaves {s : Finset Node} (hs : s ⊆ (L.hostsIn r).erase (L.hub r)) (n : Node) :
    ∑ v ∈ s, visits net n ⟨src, v, k⟩ = if n ∈ s then 1 else 0 := by
  have hleaf : ∀ v ∈ s, visits net n ⟨src, v, k⟩ = if v = n then 1 else 0 := by
    intro v hv
    obtain ⟨hne, hhost⟩ := mem_erase.mp (hs hv)
    have halive := L.host_alive (mem_hostsIn.mp hhost).1
    exact hnet.visits_leaf hk hsrc halive (not_isHub_of_host hhost hne) n
  rw [sum_congr rfl hleaf, sum_ite_eq']

end

variable {n : Node} (hn : n ∈ L.hosts)
include hn

lemma visits_region {s : Region} (hs : s ∈ L.regions) (hk : k < maxHops) (hsrc : src ∈ L.alive) :
    (if L.hub s = n then 1 else 0) + (∑ v ∈ (L.hostsIn s).erase (L.hub s), visits net n ⟨src, v, k⟩) =
      if L.home n = s then 1 else 0 := by
  rw [hnet.sum_leaves hk hsrc (refl _)]
  by_cases hhub : L.hub s = n
  · have hhome : L.home n = s := by rw [← hhub, L.home_hub s hs]
    simp [hhub, hhome]
  · have hmem : n ∈ (L.hostsIn s).erase (L.hub s) ↔ L.home n = s := by
      rw [mem_erase, mem_hostsIn]
      exact ⟨fun h => h.2.2, fun h => ⟨fun h' => hhub h'.symm, hn, h⟩⟩
    simp [hhub, hmem]

lemma visits_lastHub {s t : Region} (hs : s ∈ L.regions) (ht : t ∈ L.regions) (hts : t ≠ s)
    (hcore : ∀ w, L.relay (L.hub t) w = none) (hk : k + 1 < maxHops) :
    visits net n ⟨L.hub t, L.hub s, k⟩ = if L.home n = s then 1 else 0 := by
  have hnone : L.relayedFor (L.hub s) (L.hub t) = ∅ := by
    simp [relayedFor, hcore]
  rw [hnet.visits_eq (by omega) (L.hub_alive t ht) (L.hub_alive s hs), forward_of_hub ht hs hts, hnone, union_empty]
  exact hnet.visits_region hn hs hk (L.hub_alive s hs)

lemma visits_firstHub {t : Region} (hr : r ∈ L.regions) (ht : t ∈ L.regions) (hrt : r ≠ t) (hk : k + 2 < maxHops) :
    visits net n ⟨L.hub r, L.hub t, k⟩ = (if L.home n = t then 1 else 0) +
      ∑ z ∈ (L.regions.erase r).filter (fun z => L.relay (L.hub r) (L.hub z) = some (L.hub t)),
        if L.home n = z then 1 else 0 := by
  have hdisj : Disjoint ((L.hostsIn t).erase (L.hub t)) (L.relayedFor (L.hub t) (L.hub r)) := by
    rw [disjoint_left]
    intro v hv hv'
    obtain ⟨-, hhome⟩ := mem_hostsIn.mp (mem_of_mem_erase hv)
    simp only [relayedFor, mem_filter, mem_image, mem_erase, L.home_hub t ht] at hv'
    obtain ⟨⟨z, ⟨hzt, -, hz⟩, rfl⟩, -⟩ := hv'
    exact hzt ((L.home_hub z hz).symm.trans hhome)
  rw [hnet.visits_eq (by omega) (L.hub_alive r hr) (L.hub_alive t ht), forward_of_hub hr ht hrt,
    sum_union hdisj, ← add_assoc, hnet.visits_region hn ht (by omega) (L.hub_alive t ht),
    relayedFor_eq hr ht, sum_image]
  · congr 1
    apply sum_congr rfl
    intro z hz
    obtain ⟨hz, hrelay⟩ := mem_filter.mp hz
    have htz : t ≠ z := by
      rintro rfl
      exact (L.relay_ne _ _ _ hrelay).2 rfl
    exact hnet.visits_lastHub hn (mem_of_mem_erase hz) ht htz (L.relay_core _ _ _ hrelay) (by omega)
  · intro a ha b hb hab
    have hreg : ∀ x ∈ (L.regions.erase r).filter
        (fun z => L.relay (L.hub r) (L.hub z) = some (L.hub t)), x ∈ L.regions :=
      fun x hx => mem_of_mem_erase (mem_filter.mp hx).1
    exact hub_inj (hreg a ha) (hreg b hb) hab

lemma visits_cross (hr : r ∈ L.regions) (hk : k + 2 < maxHops) :
    ∑ v ∈ L.cross r, visits net n ⟨L.hub r, v, k⟩ = if L.home n = r then 0 else 1 := by
  have hreg : ∀ x ∈ (L.regions.erase r).filter (fun t => L.relay (L.hub r) (L.hub t) = none),
      x ∈ L.regions ∧ r ≠ x := by
    intro x hx
    obtain ⟨hne, hx⟩ := mem_erase.mp (mem_filter.mp hx).1
    exact ⟨hx, hne.symm⟩
  rw [cross_eq, sum_image]
  · rw [sum_congr rfl fun t ht =>
      hnet.visits_firstHub hn hr (hreg t ht).1 (hreg t ht).2 hk, sum_regions]
    have hhome := L.home_host n hn
    by_cases hnr : L.home n = r <;> simp [sum_ite_eq, hnr, hhome]
  · intro a ha b hb hab
    exact hub_inj (hreg a ha).1 (hreg b hb).1 hab

lemma visits_ownHub (ho : o ∈ L.hostsIn r) (hne : o ≠ L.hub r) (hk : k + 3 < maxHops) :
    visits net n ⟨o, L.hub r, k⟩ = (if L.hub r = n then 1 else 0) + ((if L.home n = r then 0 else 1) +
      if r ∈ L.star ∧ n ∈ ((L.hostsIn r).erase (L.hub r)).erase o then 1 else 0) := by
  obtain ⟨hhost, rfl⟩ := mem_hostsIn.mp ho
  have hr := L.home_host o hhost
  have hhub := L.hub_alive _ hr
  have hdisj : Disjoint (L.cross (L.home o)) (if L.home o ∈ L.star then
      ((L.hostsIn (L.home o)).erase (L.hub (L.home o))).erase o else ∅) := by
    rw [disjoint_left]
    intro v hv hv'
    split at hv'
    · have hhome := (mem_hostsIn.mp (mem_of_mem_erase (mem_of_mem_erase hv'))).2
      exact home_of_mem_cross hv hhome
    · cases hv'
  rw [hnet.visits_eq (by omega) (L.host_alive hhost) hhub, forward_of_host hr ho hne,
    sum_union hdisj, hnet.visits_cross hn hr (by omega)]
  congr 2
  split
  next hstar =>
    rw [hnet.sum_leaves (by omega) hhub (erase_subset _ _)]
    simp [hstar]
  next hstar => simp [hstar]

lemma visits_origin_hub (ho : o ∈ L.hosts) (hhub : L.IsHub o) (hmax : 3 < maxHops) :
    ∑ v ∈ L.origin o, visits net n ⟨o, v, 1⟩ = if n = o then 0 else 1 := by
  obtain ⟨hr, heq⟩ := hhub
  have hdisj : Disjoint ((L.hostsIn (L.home o)).erase o) (L.cross (L.home o)) := by
    rw [disjoint_left]
    intro v hv hv'
    exact home_of_mem_cross hv' (mem_hostsIn.mp (mem_of_mem_erase hv)).2
  have hhosts : (L.hostsIn (L.home o)).erase o ⊆ (L.hostsIn (L.home o)).erase (L.hub (L.home o)) := by
    rw [heq]
  have hcross := hnet.visits_cross (k := 1) hn hr hmax
  rw [heq] at hcross
  rw [origin, if_pos ⟨hr, heq⟩, sum_union hdisj, hcross, hnet.sum_leaves (by omega) (L.host_alive ho) hhosts]
  by_cases hno : n = o
  · simp [hno]
  · by_cases hhome : L.home n = L.home o <;> simp [mem_hostsIn, hno, hhome, hn]

omit hnet in
lemma count_others (ho : o ∈ L.hosts) (hne : o ≠ L.hub (L.home o)) :
    (if L.hub (L.home o) = n then 1 else 0) + ((if L.home n = L.home o then 0 else 1) +
      if n ∈ ((L.hostsIn (L.home o)).erase (L.hub (L.home o))).erase o then 1 else 0) =
      if n = o then 0 else 1 := by
  by_cases hno : n = o
  · subst hno
    simp [hne.symm]
  · by_cases hhub : L.hub (L.home o) = n
    · have hhome : L.home n = L.home o := by rw [← hhub, L.home_hub _ (L.home_host o ho)]
      simp [hhub, hhome, hno]
    · have hhub' : n ≠ L.hub (L.home o) := fun h => hhub h.symm
      by_cases hhome : L.home n = L.home o <;>
        simp [mem_hostsIn, hno, hhub, hhub', hhome, hn]

section

variable (ho : o ∈ L.hosts) (hne : o ≠ L.hub (L.home o)) (hhub : ¬ L.IsHub o)
include ho hne hhub

lemma visits_origin_mesh (hstar : L.home o ∉ L.star) (hmax : 4 < maxHops) :
    ∑ v ∈ L.origin o, visits net n ⟨o, v, 1⟩ = if n = o then 0 else 1 := by
  have hin := mem_hostsIn.mpr ⟨ho, rfl⟩
  have hr := L.home_host o ho
  rw [← count_others hn ho hne]
  by_cases hsent : L.hub (L.home o) ∈ L.hosts ∨ 1 < L.regions.card
  · have horigin : L.origin o =
        insert (L.hub (L.home o)) (((L.hostsIn (L.home o)).erase (L.hub (L.home o))).erase o) := by
      ext v
      rw [origin, if_neg hhub, if_neg hstar]
      by_cases hv : v = L.hub (L.home o)
      · subst hv
        rcases hsent with hhost | hcard
        · simp [mem_hostsIn, hhost, hne.symm, L.home_hub _ hr]
        · simp [hcard]
      · by_cases hcard : 1 < L.regions.card <;> simp [hv, hcard, hstar]
    rw [horigin, sum_insert (by simp), hnet.visits_ownHub hn hin hne (by omega),
      hnet.sum_leaves (by omega) (L.host_alive ho) (erase_subset _ _)]
    simp only [hstar, false_and, ↓reduceIte]
    omega
  · obtain ⟨hnot, hcard⟩ := not_or.mp hsent
    have horigin : L.origin o = ((L.hostsIn (L.home o)).erase (L.hub (L.home o))).erase o := by
      ext v
      rw [origin, if_neg hhub, if_neg hstar, if_neg (by simp [hstar, hcard]), union_empty]
      simp only [mem_erase, mem_hostsIn]
      constructor
      · rintro ⟨hvo, hv, hhome⟩
        exact ⟨hvo, fun h => hnot (h ▸ hv), hv, hhome⟩
      · rintro ⟨hvo, -, hv⟩
        exact ⟨hvo, hv⟩
    have hhome : L.home n = L.home o :=
      card_le_one.mp (not_lt.mp hcard) _ (L.home_host n hn) _ hr
    have hhubn : L.hub (L.home o) ≠ n := fun h => hnot (h ▸ hn)
    rw [horigin, hnet.sum_leaves (by omega) (L.host_alive ho) (erase_subset _ _)]
    simp [hhome, hhubn]

lemma visits_origin_star (hstar : L.home o ∈ L.star) (hmax : 4 < maxHops) :
    ∑ v ∈ L.origin o, visits net n ⟨o, v, 1⟩ = if n = o then 0 else 1 := by
  rw [origin, if_neg hhub, if_pos hstar, if_pos (.inl hstar), empty_union, sum_singleton,
    hnet.visits_ownHub hn (mem_hostsIn.mpr ⟨ho, rfl⟩) hne (by omega)]
  simp only [hstar, true_and]
  exact count_others hn ho hne

end

lemma visits_origin (ho : o ∈ L.hosts) (hmax : 4 < maxHops) :
    ∑ v ∈ L.origin o, visits net n ⟨o, v, 1⟩ = if n = o then 0 else 1 := by
  by_cases hhub : L.IsHub o
  · exact hnet.visits_origin_hub hn ho hhub (by omega)
  · have hne : o ≠ L.hub (L.home o) := fun h => hhub ⟨L.home_host o ho, h.symm⟩
    by_cases hstar : L.home o ∈ L.star
    · exact hnet.visits_origin_star hn ho hne hhub hstar hmax
    · exact hnet.visits_origin_mesh hn ho hne hhub hstar hmax

end Follows

end AurixVoice.Cascade
