import AurixVoice.Library.Flood
import Mathlib.Algebra.BigOperators.Group.Finset.Piecewise
import Mathlib.Algebra.BigOperators.Group.Finset.Sigma

/-! What a region tree is for: hosts, a hub per region, and relays that reach every host exactly once. -/

namespace AurixVoice.Cascade

open Finset

structure Layout (Node Region : Type) where
  regions : Finset Region
  home : Node → Region
  hosts : Finset Node
  hub : Region → Node
  star : Finset Region
  relay : Node → Node → Option Node
  alive : Finset Node
  host_alive : hosts ⊆ alive
  hub_alive : ∀ r ∈ regions, hub r ∈ alive
  home_host : ∀ n ∈ hosts, home n ∈ regions
  home_hub : ∀ r ∈ regions, home (hub r) = r
  relay_hub : ∀ x z c, relay x z = some c → ∃ t ∈ regions, hub t = c
  relay_ne : ∀ x z c, relay x z = some c → c ≠ x ∧ c ≠ z
  relay_core : ∀ x z c, relay x z = some c → ∀ w, relay c w = none
  relay_direct : ∀ x z c, relay x z = some c → relay x c = none

namespace Layout

variable {Node Region : Type} [DecidableEq Node] [DecidableEq Region] (L : Layout Node Region)

def hostsIn (r : Region) : Finset Node := L.hosts.filter fun n => L.home n = r

def nextHub (x z : Node) : Node := (L.relay x z).getD z

def cross (r : Region) : Finset Node :=
  (L.regions.erase r).image fun s => L.nextHub (L.hub r) (L.hub s)

def relayedFor (v x : Node) : Finset Node :=
  ((L.regions.erase (L.home x)).erase (L.home v)).image L.hub |>.filter fun z => L.relay x z = some v

def IsHub (v : Node) : Prop := L.home v ∈ L.regions ∧ L.hub (L.home v) = v

instance : DecidablePred L.IsHub := fun _ => inferInstanceAs (Decidable (_ ∧ _))

def origin (o : Node) : Finset Node :=
  if L.IsHub o then (L.hostsIn (L.home o)).erase o ∪ L.cross (L.home o)
  else (if L.home o ∈ L.star then ∅ else (L.hostsIn (L.home o)).erase o) ∪
    (if L.home o ∈ L.star ∨ 1 < L.regions.card then {L.hub (L.home o)} else ∅)

def forward (v src : Node) : Finset Node :=
  if L.IsHub v then
    if L.home src = L.home v then
      if src ∈ L.hosts ∧ src ≠ v then
        L.cross (L.home v) ∪
          (if L.home v ∈ L.star then ((L.hostsIn (L.home v)).erase v).erase src else ∅)
      else ∅
    else if L.IsHub src then (L.hostsIn (L.home v)).erase v ∪ L.relayedFor v src
    else ∅
  else ∅

variable {L}

omit [DecidableEq Node] in
lemma mem_hostsIn {n : Node} {r : Region} : n ∈ L.hostsIn r ↔ n ∈ L.hosts ∧ L.home n = r := mem_filter

omit [DecidableEq Node] [DecidableEq Region] in
lemma isHub_hub {r : Region} (hr : r ∈ L.regions) : L.IsHub (L.hub r) := by
  rw [IsHub, L.home_hub r hr]
  exact ⟨hr, rfl⟩

omit [DecidableEq Node] [DecidableEq Region] in
lemma hub_inj {r s : Region} (hr : r ∈ L.regions) (hs : s ∈ L.regions) (h : L.hub r = L.hub s) : r = s := by
  rw [← L.home_hub r hr, h, L.home_hub s hs]

omit [DecidableEq Node] in
lemma not_isHub_of_host {v : Node} {r : Region} (hv : v ∈ L.hostsIn r) (hne : v ≠ L.hub r) : ¬ L.IsHub v := by
  rintro ⟨-, hhub⟩
  obtain ⟨-, rfl⟩ := mem_hostsIn.mp hv
  exact hne hhub.symm

lemma cross_eq (r : Region) :
    L.cross r = ((L.regions.erase r).filter fun t => L.relay (L.hub r) (L.hub t) = none).image L.hub := by
  ext v
  simp only [cross, nextHub, mem_image, mem_filter, mem_erase]
  constructor
  · rintro ⟨s, ⟨hsr, hs⟩, rfl⟩
    cases hrelay : L.relay (L.hub r) (L.hub s) with
    | none => exact ⟨s, ⟨⟨hsr, hs⟩, hrelay⟩, by simp⟩
    | some =>
      obtain ⟨t, ht, rfl⟩ := L.relay_hub _ _ _ hrelay
      refine ⟨t, ⟨⟨?_, ht⟩, L.relay_direct _ _ _ hrelay⟩, by simp⟩
      rintro rfl
      exact (L.relay_ne _ _ _ hrelay).1 rfl
  · rintro ⟨t, ⟨ht, hnone⟩, rfl⟩
    exact ⟨t, ht, by simp [hnone]⟩

variable {r : Region} {v : Node}

lemma mem_cross : v ∈ L.cross r ↔ ∃ t ∈ L.regions, t ≠ r ∧ L.relay (L.hub r) (L.hub t) = none ∧ L.hub t = v := by
  simp only [cross_eq, mem_image, mem_filter, mem_erase]
  constructor
  · rintro ⟨t, ⟨⟨htr, ht⟩, hnone⟩, rfl⟩
    exact ⟨t, ht, htr, hnone, rfl⟩
  · rintro ⟨t, ht, htr, hnone, rfl⟩
    exact ⟨t, ⟨⟨htr, ht⟩, hnone⟩, rfl⟩

lemma home_of_mem_cross (h : v ∈ L.cross r) : L.home v ≠ r := by
  obtain ⟨t, ht, htr, -, rfl⟩ := mem_cross.mp h
  rw [L.home_hub t ht]
  exact htr

lemma relayedFor_eq {t : Region} (hr : r ∈ L.regions) (ht : t ∈ L.regions) :
    L.relayedFor (L.hub t) (L.hub r) =
      ((L.regions.erase r).filter fun z => L.relay (L.hub r) (L.hub z) = some (L.hub t)).image L.hub := by
  rw [relayedFor, L.home_hub r hr, L.home_hub t ht, filter_image]
  congr 1
  ext z
  simp only [mem_filter, mem_erase]
  constructor
  · rintro ⟨⟨-, hz⟩, hrelay⟩
    exact ⟨hz, hrelay⟩
  · rintro ⟨hz, hrelay⟩
    refine ⟨⟨?_, hz⟩, hrelay⟩
    rintro rfl
    exact (L.relay_ne _ _ _ hrelay).2 rfl

lemma sum_regions (a : Region → ℕ) :
    (∑ t ∈ (L.regions.erase r).filter (fun t => L.relay (L.hub r) (L.hub t) = none),
      (a t + ∑ z ∈ (L.regions.erase r).filter (fun z => L.relay (L.hub r) (L.hub z) = some (L.hub t)), a z)) =
    ∑ t ∈ L.regions.erase r, a t := by
  rw [sum_add_distrib,
    ← sum_filter_add_sum_filter_not (L.regions.erase r) (fun t => L.relay (L.hub r) (L.hub t) = none) a]
  congr 1
  have hmaps : ∀ z ∈ (L.regions.erase r).filter (fun z => ¬ L.relay (L.hub r) (L.hub z) = none),
      L.home (L.nextHub (L.hub r) (L.hub z)) ∈
        (L.regions.erase r).filter (fun t => L.relay (L.hub r) (L.hub t) = none) := by
    intro z hz
    obtain ⟨hz, hsome⟩ := mem_filter.mp hz
    obtain ⟨c, hc⟩ := Option.ne_none_iff_exists'.mp hsome
    obtain ⟨t, ht, rfl⟩ := L.relay_hub _ _ _ hc
    rw [nextHub, hc, Option.getD_some, L.home_hub t ht, mem_filter, mem_erase]
    refine ⟨⟨?_, ht⟩, L.relay_direct _ _ _ hc⟩
    rintro rfl
    exact (L.relay_ne _ _ _ hc).1 rfl
  rw [← sum_fiberwise_of_maps_to hmaps]
  apply sum_congr rfl
  intro t ht
  have ht' := mem_of_mem_erase (mem_filter.mp ht).1
  apply sum_congr _ fun _ _ => rfl
  ext z
  rw [mem_filter, mem_filter, mem_filter, nextHub]
  constructor
  · rintro ⟨hz, hrelay⟩
    refine ⟨⟨hz, by simp [hrelay]⟩, ?_⟩
    rw [hrelay, Option.getD_some, L.home_hub t ht']
  · rintro ⟨⟨hz, hsome⟩, hhome⟩
    obtain ⟨c, hc⟩ := Option.ne_none_iff_exists'.mp hsome
    obtain ⟨t', ht'', rfl⟩ := L.relay_hub _ _ _ hc
    rw [hc, Option.getD_some, L.home_hub t' ht''] at hhome
    exact ⟨hz, hhome ▸ hc⟩

lemma forward_of_not_isHub (h : ¬ L.IsHub v) (src : Node) : L.forward v src = ∅ := if_neg h

lemma forward_of_host {src : Node} (hr : r ∈ L.regions) (hsrc : src ∈ L.hostsIn r) (hne : src ≠ L.hub r) :
    L.forward (L.hub r) src = L.cross r ∪
      (if r ∈ L.star then ((L.hostsIn r).erase (L.hub r)).erase src else ∅) := by
  obtain ⟨hhost, hhome⟩ := mem_hostsIn.mp hsrc
  rw [forward, if_pos (isHub_hub hr), L.home_hub r hr, if_pos hhome, if_pos ⟨hhost, hne⟩]

lemma forward_of_hub {t : Region} (hr : r ∈ L.regions) (ht : t ∈ L.regions) (hrt : r ≠ t) :
    L.forward (L.hub t) (L.hub r) =
      (L.hostsIn t).erase (L.hub t) ∪ L.relayedFor (L.hub t) (L.hub r) := by
  rw [forward, if_pos (isHub_hub ht), L.home_hub r hr, L.home_hub t ht, if_neg hrt, if_pos (isHub_hub hr)]

lemma ne_of_mem_forward {src x : Node} (hx : x ∈ L.forward v src) : x ≠ v ∧ x ≠ src := by
  unfold forward at hx
  split_ifs at hx with hv hhome hsrc hstar hsrc
  · rcases mem_union.mp hx with hm | hm
    · exact ⟨ne_of_apply_ne L.home (home_of_mem_cross hm), ne_of_apply_ne L.home (hhome ▸ home_of_mem_cross hm)⟩
    · exact ⟨ne_of_mem_erase (mem_of_mem_erase hm), ne_of_mem_erase hm⟩
  · rcases mem_union.mp hx with hm | hm
    · exact ⟨ne_of_apply_ne L.home (home_of_mem_cross hm), ne_of_apply_ne L.home (hhome ▸ home_of_mem_cross hm)⟩
    · cases hm
  · cases hx
  · rcases mem_union.mp hx with hm | hm
    · obtain ⟨hne, hmem⟩ := mem_erase.mp hm
      exact ⟨hne, ne_of_apply_ne L.home ((mem_hostsIn.mp hmem).2.trans_ne (symm hhome))⟩
    · simp only [relayedFor, mem_filter, mem_image, mem_erase] at hm
      obtain ⟨⟨z, ⟨hz, hz', hzr⟩, rfl⟩, -⟩ := hm
      exact ⟨fun h => hz (h ▸ (L.home_hub z hzr).symm), fun h => hz' (h ▸ (L.home_hub z hzr).symm)⟩
  · cases hx
  · cases hx

omit [DecidableEq Node] in
lemma hostsIn_alive (h : v ∈ L.hostsIn r) : v ∈ L.alive :=
  L.host_alive (mem_hostsIn.mp h).1

lemma cross_alive (h : v ∈ L.cross r) : v ∈ L.alive := by
  obtain ⟨t, ht, -, -, rfl⟩ := mem_cross.mp h
  exact L.hub_alive t ht

lemma origin_alive {o : Node} (ho : o ∈ L.hosts) : L.origin o ⊆ L.alive := by
  intro v hv
  have hhub : L.hub (L.home o) ∈ L.alive := L.hub_alive _ (L.home_host o ho)
  unfold origin at hv
  split_ifs at hv
  all_goals simp only [mem_union, mem_erase, mem_singleton, notMem_empty,
    false_or, or_false] at hv
  · rcases hv with ⟨-, hv⟩ | hv
    · exact hostsIn_alive hv
    · exact cross_alive hv
  · rwa [hv]
  · rcases hv with ⟨-, hv⟩ | hv
    · exact hostsIn_alive hv
    · rwa [hv]
  · exact hostsIn_alive hv.2

lemma forward_alive (v src : Node) : L.forward v src ⊆ L.alive := by
  intro w hw
  unfold forward at hw
  split_ifs at hw with hv hhome hsrc hstar hsrc
  · rcases mem_union.mp hw with hw | hw
    · exact cross_alive hw
    · exact hostsIn_alive (mem_of_mem_erase (mem_of_mem_erase hw))
  · rcases mem_union.mp hw with hw | hw
    · exact cross_alive hw
    · cases hw
  · cases hw
  · rcases mem_union.mp hw with hw | hw
    · exact hostsIn_alive (mem_of_mem_erase hw)
    · simp only [relayedFor, mem_filter, mem_image, mem_erase] at hw
      obtain ⟨⟨z, ⟨-, -, hz⟩, rfl⟩, -⟩ := hw
      exact L.hub_alive z hz
  · cases hw
  · cases hw

end Layout

end AurixVoice.Cascade
