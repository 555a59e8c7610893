import Mathlib.Data.Finset.Sort

/-! Finite maps with an extensional lookup and no iteration order. -/

namespace AurixVoice

open Option Finset

def ascending {K : Type} [LinearOrder K] (s : Finset K) : List K := s.sort (· ≤ ·)

@[simp] lemma mem_ascending {K : Type} [LinearOrder K] {s : Finset K} {k : K} :
    k ∈ ascending s ↔ k ∈ s := mem_sort _

lemma nodup_ascending {K : Type} [LinearOrder K] (s : Finset K) : (ascending s).Nodup := s.sort_nodup _

structure Dict (K V : Type) where
  find : K → Option V
  keys : Finset K
  mem_keys : ∀ k, k ∈ keys ↔ (find k).isSome = true

namespace Dict

variable {K V : Type}

lemma ext {d e : Dict K V} (h : ∀ k, d.find k = e.find k) : d = e := by
  obtain ⟨f, ks, hf⟩ := d
  obtain ⟨g, ls, hg⟩ := e
  obtain rfl : f = g := funext h
  have hk : ks = ls := Finset.ext fun k => (hf k).trans (hg k).symm
  subst hk
  rfl

lemma mem_keys_iff {d : Dict K V} {k : K} : k ∈ d.keys ↔ ∃ v, d.find k = some v := by
  rw [d.mem_keys, isSome_iff_exists]

def empty : Dict K V := ⟨fun _ => none, ∅, by simp⟩

instance : Inhabited (Dict K V) := ⟨empty⟩

@[simp] lemma find_empty (k : K) : (empty : Dict K V).find k = none := rfl

variable [DecidableEq K]

def set (d : Dict K V) (k : K) (v : V) : Dict K V where
  find j := if j = k then some v else d.find j
  keys := insert k d.keys
  mem_keys j := by by_cases h : j = k <;> simp [h, d.mem_keys]

@[simp] lemma find_set (d : Dict K V) (k : K) (v : V) (j : K) :
    (d.set k v).find j = if j = k then some v else d.find j := rfl

def erase (d : Dict K V) (k : K) : Dict K V where
  find j := if j = k then none else d.find j
  keys := d.keys.erase k
  mem_keys j := by by_cases h : j = k <;> simp [h, d.mem_keys]

@[simp] lemma find_erase (d : Dict K V) (k j : K) :
    (d.erase k).find j = if j = k then none else d.find j := rfl

lemma of_find_set {d : Dict K V} {k j : K} {v w : V} (h : (d.set k v).find j = some w) :
    (j = k ∧ v = w) ∨ j ≠ k ∧ d.find j = some w := by
  rw [find_set] at h
  split at h
  next heq => exact .inl ⟨heq, some.inj h⟩
  next hne => exact .inr ⟨hne, h⟩

lemma of_find_erase {d : Dict K V} {k j : K} {w : V} (h : (d.erase k).find j = some w) :
    j ≠ k ∧ d.find j = some w := by
  rw [find_erase] at h
  split at h
  · cases h
  next hne => exact ⟨hne, h⟩

@[simp] lemma keys_erase (d : Dict K V) (k : K) : (d.erase k).keys = d.keys.erase k := rfl

def mapValues (d : Dict K V) (f : V → V) : Dict K V where
  find j := (d.find j).map f
  keys := d.keys
  mem_keys j := by simp [d.mem_keys]

omit [DecidableEq K] in
@[simp] lemma find_mapValues (d : Dict K V) (f : V → V) (j : K) :
    (d.mapValues f).find j = (d.find j).map f := rfl

def modify (d : Dict K V) (k : K) (f : V → V) : Dict K V where
  find j := if j = k then (d.find k).map f else d.find j
  keys := d.keys
  mem_keys j := by by_cases h : j = k <;> simp [h, d.mem_keys]

@[simp] lemma find_modify (d : Dict K V) (k : K) (f : V → V) (j : K) :
    (d.modify k f).find j = if j = k then (d.find k).map f else d.find j := rfl

def tabulate (ks : Finset K) (f : K → Option V) : Dict K V where
  find k := if k ∈ ks then f k else none
  keys := ks.filter fun k => (f k).isSome = true
  mem_keys k := by by_cases h : k ∈ ks <;> simp [h]

@[simp] lemma find_tabulate (ks : Finset K) (f : K → Option V) (k : K) :
    (tabulate ks f).find k = if k ∈ ks then f k else none := rfl

def filterValues (d : Dict K V) (p : V → Bool) : Dict K V := tabulate d.keys fun k =>
    (d.find k).filter p

@[simp] lemma find_filterValues (d : Dict K V) (p : V → Bool) (k : K) :
    (d.filterValues p).find k = (d.find k).filter p := by
  simp only [filterValues, find_tabulate, d.mem_keys]
  cases d.find k <;> simp

def entries [LinearOrder K] (d : Dict K V) : List (K × V) :=
  (ascending d.keys).filterMap fun k => (d.find k).map fun v => (k, v)

omit [DecidableEq K] in
lemma mem_entries [LinearOrder K] {d : Dict K V} {k : K} {v : V} : (k, v) ∈ d.entries ↔ d.find k = some v := by
  simp only [entries, List.mem_filterMap, mem_ascending, map_eq_some_iff, Prod.mk.injEq]
  constructor
  · rintro ⟨_, _, _, hv, rfl, rfl⟩
    exact hv
  · intro h
    exact ⟨k, mem_keys_iff.mpr ⟨v, h⟩, v, h, rfl, rfl⟩

omit [DecidableEq K] in
lemma nodup_entries_keys [LinearOrder K] (d : Dict K V) : (d.entries.map Prod.fst).Nodup := by
  rw [entries, List.map_filterMap]
  apply List.Nodup.filterMap _ (nodup_ascending d.keys)
  intro j k e hj hk
  obtain ⟨_, hj', rfl⟩ := map_eq_some_iff.mp hj
  obtain ⟨_, hk', heq⟩ := map_eq_some_iff.mp hk
  obtain ⟨_, -, rfl⟩ := map_eq_some_iff.mp hj'
  obtain ⟨_, -, rfl⟩ := map_eq_some_iff.mp hk'
  exact heq.symm

omit [DecidableEq K] in
lemma nodup_entries [LinearOrder K] (d : Dict K V) : d.entries.Nodup := d.nodup_entries_keys.of_map

lemma find_foldl_set (f : K → V) (ks : List K) (d : Dict K V) (j : K) :
    (ks.foldl (fun d k => d.set k (f k)) d).find j = if j ∈ ks then some (f j) else d.find j := by
  induction ks generalizing d with
  | nil => simp
  | cons k ks ih =>
    rw [List.foldl_cons, ih, find_set]
    by_cases hj : j = k <;> by_cases hm : j ∈ ks <;> simp [hj, hm]

lemma find_foldl_erase (ks : List K) (d : Dict K V) (j : K) :
    (ks.foldl erase d).find j = if j ∈ ks then none else d.find j := by
  induction ks generalizing d with
  | nil => simp
  | cons k ks ih =>
    rw [List.foldl_cons, ih, find_erase]
    by_cases hj : j = k <;> by_cases hm : j ∈ ks <;> simp [hj, hm]

def count (p : V → Bool) (d : Dict K V) : ℕ := (d.keys.filter fun k => (d.find k).any p = true).card

omit [DecidableEq K] in
lemma count_le_card (p : V → Bool) (d : Dict K V) : d.count p ≤ d.keys.card := card_filter_le _ _

lemma count_eq_erase (p : V → Bool) (d : Dict K V) (k : K) :
    d.count p = (d.erase k).count p + if (d.find k).any p then 1 else 0 := by
  have herase : ((d.erase k).keys.filter fun j => ((d.erase k).find j).any p = true) =
      (d.keys.filter fun j => (d.find j).any p = true).erase k := by
    ext j
    rw [mem_filter, mem_erase, mem_filter, keys_erase, mem_erase, find_erase]
    by_cases hj : j = k <;> simp [hj]
  unfold count
  rw [herase]
  by_cases hk : (d.find k).any p = true
  · have hmem : k ∈ d.keys.filter fun j => (d.find j).any p = true := by
      obtain ⟨v, hv, -⟩ := (any_eq_true _ _).mp hk
      exact mem_filter.mpr ⟨mem_keys_iff.mpr ⟨v, hv⟩, hk⟩
    rw [if_pos hk, card_erase_add_one hmem]
  · have hmem : k ∉ d.keys.filter fun j => (d.find j).any p = true := by simp [hk]
    rw [if_neg hk, erase_eq_of_notMem hmem, add_zero]

lemma count_set (p : V → Bool) (d : Dict K V) (k : K) (v : V) :
    (d.set k v).count p = (d.erase k).count p + if p v then 1 else 0 := by
  have herase : (d.set k v).erase k = d.erase k := by
    apply ext
    intro j
    by_cases hj : j = k <;> simp [hj]
  rw [count_eq_erase p (d.set k v) k, herase]
  simp

def All (P : K → V → Prop) (d : Dict K V) : Prop := ∀ k v, d.find k = some v → P k v

variable {P Q : K → V → Prop} {d : Dict K V}

omit [DecidableEq K] in
lemma All.mono (h : d.All P) (hPQ : ∀ k v, P k v → Q k v) : d.All Q :=
  fun k v hv => hPQ k v (h k v hv)

lemma All.set (h : d.All P) {k : K} {v : V} (hv : P k v) : (d.set k v).All P := by
  intro j w hw
  rcases of_find_set hw with ⟨rfl, rfl⟩ | ⟨-, hw⟩
  · exact hv
  · exact h j w hw

lemma All.erase (h : d.All P) (k : K) : (d.erase k).All P :=
  fun j w hw => h j w (of_find_erase hw).2

lemma All.foldl_erase (h : d.All P) (ks : List K) : (ks.foldl Dict.erase d).All P := by
  intro j w hw
  rw [find_foldl_erase] at hw
  split at hw
  · cases hw
  · exact h j w hw

end Dict

end AurixVoice
