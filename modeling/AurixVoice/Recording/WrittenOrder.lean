import AurixVoice.Recording.PacketOrderer

namespace AurixVoice.Recording

open List

variable {ps : List (UInt32 × Payload)}

/-- Each timestamp as the number nearest to the highest one before it, or the lower of two. -/
def unwrap : ℤ → List (UInt32 × Payload) → List (ℤ × Payload)
  | _, [] => []
  | high, (ts, data) :: ps =>
    let t := high + ((ts.toNat - high + 2 ^ 31) % 2 ^ 32 - 2 ^ 31)
    (t, data) :: unwrap (max high t) ps

def unwrapped (ps : List (UInt32 × Payload)) : List (ℤ × Payload) :=
  unwrap ((ps.head?.map fun p => (p.1.toNat : ℤ)).getD 0) ps

def natural (p : ℤ × Payload) : ℕ × Payload := (p.1.toNat, p.2)

lemma tracked_unwrap {high : ℕ} (hhigh : high < 2 ^ 64) (hps : ∀ u ∈ unwrap high ps, 0 ≤ u.1 ∧ u.1 < 2 ^ 64) :
    Tracked high ((unwrap high ps).map natural) ∧ ((unwrap high ps).map natural).map onWire = ps := by
  induction ps generalizing high with
  | nil => exact ⟨trivial, rfl⟩
  | cons p ps ih =>
    obtain ⟨ts, data⟩ := p
    obtain ⟨t, ht⟩ : ∃ t : ℕ, (t : ℤ) = high + ((ts.toNat - high + 2 ^ 31) % 2 ^ 32 - 2 ^ 31) :=
      ⟨_, Int.toNat_of_nonneg (hps _ mem_cons_self).1⟩
    have hts := ts.toNat_lt
    have hbound := (hps _ mem_cons_self).2
    simp only [unwrap, ← ht] at hps hbound ⊢
    have hmax : max (high : ℤ) t = (max high t : ℕ) := by omega
    rw [hmax] at hps ⊢
    obtain ⟨htracked, hwire⟩ := ih (by omega : max high t < 2 ^ 64) fun u hu => hps u (mem_cons_of_mem _ hu)
    refine ⟨⟨?_, .inr ⟨?_, hhigh⟩, htracked⟩, ?_⟩
    · change t < _
      omega
    · change _ ≤ t + _
      omega
    · rw [map_cons, map_cons, hwire]
      have hmod : t % 2 ^ 32 = ts.toNat := by omega
      exact congrArg (fun ts => (ts, data) :: ps) (UInt32.toNat_inj.mp (by simpa [natural] using hmod))

lemma countP_inserted (f : ℕ × Payload → Bool) (all qs : List (ℕ × Payload)) :
    (inserted all qs).countP f ≤ all.countP f + qs.countP f := by
  induction qs generalizing all with
  | nil => exact le_rfl
  | cons q qs ih =>
    refine (ih (insertAbsent q.1 q.2 all)).trans ?_
    rw [countP_cons]
    rcases insertAbsent_cases q.1 q.2 all with ⟨hsame, -⟩ | hperm
    · rw [hsame]
      omega
    · rw [hperm.countP_eq, countP_cons]
      change _ + (if f q = true then 1 else 0) + _ ≤ _
      omega

lemma shallow_of_depth {qs : List (ℕ × Payload)} (before : List (ℕ × Payload))
    (h : ∀ earlier q later, before ++ qs = earlier ++ q :: later → earlier.countP (fun p => q.1 < p.1) ≤ reorderDepth) :
    Shallow (inserted [] before) qs := by
  induction qs generalizing before with
  | nil => trivial
  | cons q qs ih =>
    refine ⟨(countP_inserted _ [] before).trans ?_, ?_⟩
    · simpa using h before q qs rfl
    · have hrest := ih (before ++ [q]) (by simpa using h)
      rwa [inserted, foldl_append] at hrest

lemma keys_insertAbsent (t s : ℕ) (data : Payload) (all : List (ℕ × Payload)) :
    s ∈ (insertAbsent t data all).map Prod.fst ↔ s = t ∨ s ∈ all.map Prod.fst := by
  rcases insertAbsent_cases t data all with ⟨hsame, hmem⟩ | hperm
  · rw [hsame]
    exact (or_iff_right_of_imp fun h => h ▸ hmem).symm
  · rw [(hperm.map Prod.fst).mem_iff, map_cons, mem_cons]

lemma inserted_spec (all qs : List (ℕ × Payload)) (hall : Increasing all) :
    Increasing (inserted all qs) ∧ (∀ p ∈ inserted all qs, p ∈ all ∨ p ∈ qs) ∧
      ∀ s, s ∈ (inserted all qs).map Prod.fst ↔ s ∈ all.map Prod.fst ∨ s ∈ qs.map Prod.fst := by
  induction qs generalizing all with
  | nil => exact ⟨hall, fun p hp => .inl hp, fun s => (or_iff_left (not_mem_nil)).symm⟩
  | cons q qs ih =>
    obtain ⟨hsorted, hfrom, hkeys⟩ := ih (insertAbsent q.1 q.2 all) hall.insertAbsent
    refine ⟨hsorted, fun p hp => ?_, fun s => ?_⟩
    · rcases hfrom p hp with hp | hp
      · rcases mem_insertAbsent hp with rfl | hp
        · exact .inr mem_cons_self
        · exact .inl hp
      · exact .inr (mem_cons_of_mem _ hp)
    · refine (hkeys s).trans ?_
      rw [keys_insertAbsent, map_cons, mem_cons]
      tauto

/-- No packet is behind more than `REORDER_DEPTH` later ones, and the first is the earliest: what is written are
the packets with distinct timestamps, each once, in increasing order. -/
theorem recording_order (ps : List (UInt32 × Payload))
    (hfirst : ∀ first ∈ (unwrapped ps).head?, ∀ u ∈ unwrapped ps, first.1 ≤ u.1)
    (hdepth : ∀ earlier u later, unwrapped ps = earlier ++ u :: later →
      earlier.countP (fun v => u.1 < v.1) ≤ reorderDepth)
    (h64 : ∀ u ∈ unwrapped ps, u.1 < 2 ^ 64) :
    ∃ written : List (ℕ × Payload), PacketOrderer.new.offer ps = covered none written ∧ Increasing written ∧
      (∀ p ∈ written, ((p.1 : ℤ), p.2) ∈ unwrapped ps) ∧ ∀ u ∈ unwrapped ps, ∃ p ∈ written, (p.1 : ℤ) = u.1 := by
  cases ps with
  | nil => exact ⟨[], rfl, .nil, by simp, by simp [unwrapped, unwrap]⟩
  | cons p ps =>
    obtain ⟨ts, data⟩ := p
    have hus : unwrapped ((ts, data) :: ps) = ((ts.toNat : ℤ), data) :: unwrap ts.toNat ps := by
      simp [unwrapped, unwrap]
    rw [hus] at hfirst hdepth h64 ⊢
    have hts := ts.toNat_lt
    have hpos : ∀ u ∈ unwrap ts.toNat ps, 0 ≤ u.1 := fun u hu =>
      (Int.natCast_nonneg _).trans (hfirst _ rfl u (mem_cons_of_mem _ hu))
    obtain ⟨htracked, hwire⟩ := tracked_unwrap (by omega : ts.toNat < 2 ^ 64) fun u hu =>
      ⟨hpos u hu, h64 u (mem_cons_of_mem _ hu)⟩
    have hshallow : Shallow (inserted [] []) ((((ts.toNat : ℤ), data) :: unwrap ts.toNat ps).map natural) := by
      refine shallow_of_depth [] fun earlier q later hsplit => ?_
      obtain ⟨before, rest, hus, rfl, hrest⟩ := map_eq_append_iff.mp hsplit
      obtain ⟨u, after, rfl, rfl, -⟩ := map_eq_cons_iff.mp hrest
      refine le_trans ?_ (hdepth before u after hus)
      rw [countP_map]
      refine countP_mono_left fun v _ hlt => ?_
      refine decide_eq_true (not_le.mp fun hle => ?_)
      exact absurd (Int.toNat_le_toNat hle) (not_le.mpr (of_decide_eq_true hlt))
    obtain ⟨hsorted, hfrom, hkeys⟩ := inserted_spec [(ts.toNat, data)]
      ((unwrap ts.toNat ps).map natural) (pairwise_singleton _ _)
    refine ⟨_, ?_, hsorted, fun p hp => ?_, fun u hu => ?_⟩
    · have hoffer := offer_eq hts htracked hshallow.2
      rw [map_cons, hwire] at hoffer
      refine Eq.trans ?_ hoffer
      simp [onWire]
    · rcases hfrom p hp with hp | hp
      · rw [mem_singleton.mp hp]
        exact mem_cons_self
      · obtain ⟨u, hu, rfl⟩ := mem_map.mp hp
        have hcast : ((u.1.toNat : ℤ), u.2) = u := Prod.ext (Int.toNat_of_nonneg (hpos u hu)) rfl
        exact mem_cons_of_mem _ (hcast ▸ hu)
    · have hkey : u.1.toNat ∈ (inserted [(ts.toNat, data)] ((unwrap ts.toNat ps).map natural)).map Prod.fst := by
        rw [hkeys, map_map]
        rcases mem_cons.mp hu with rfl | hu
        · exact .inl (mem_singleton.mpr rfl)
        · exact .inr (mem_map_of_mem (f := Prod.fst ∘ natural) hu)
      obtain ⟨p, hp, hp'⟩ := mem_map.mp hkey
      have hu0 : 0 ≤ u.1 := (Int.natCast_nonneg _).trans (hfirst _ rfl u hu)
      exact ⟨p, hp, by rw [hp', Int.toNat_of_nonneg hu0]⟩

def swapped : List (UInt32 × Payload) := [(4294967000, [1]), (500, [3]), (4, [2]), (4, [2])]

theorem recording_order_swapped :
    (∀ first ∈ (unwrapped swapped).head?, ∀ u ∈ unwrapped swapped, first.1 ≤ u.1) ∧
    ∃ written : List (ℕ × Payload), PacketOrderer.new.offer swapped = covered none written ∧ Increasing written ∧
      (∀ p ∈ written, ((p.1 : ℤ), p.2) ∈ unwrapped swapped) ∧
        ∀ u ∈ unwrapped swapped, ∃ p ∈ written, (p.1 : ℤ) = u.1 := by
  have hus : unwrapped swapped = [(4294967000, [1]), (4294967796, [3]), (4294967300, [2]), (4294967300, [2])] := by
    decide
  have hfirst : ∀ first ∈ (unwrapped swapped).head?, ∀ u ∈ unwrapped swapped, first.1 ≤ u.1 := by
    simp [hus]
  refine ⟨hfirst, recording_order swapped hfirst (fun earlier u later h => ?_) (by simp [hus])⟩
  have hlen := congrArg length h
  rw [hus] at hlen
  have hle := countP_le_length (p := fun v : ℤ × Payload => decide (u.1 < v.1)) (l := earlier)
  simp only [length_cons, length_nil, length_append, reorderDepth] at hlen ⊢
  omega

end AurixVoice.Recording
