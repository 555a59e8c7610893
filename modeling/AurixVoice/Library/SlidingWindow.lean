import Mathlib.Data.Nat.Basic
import Mathlib.Order.Basic
import Mathlib.Tactic.Common

/-!
Anti-replay windows: the highest counter and marks for the `width` counters up to it. They accept exactly the
counters that are fresh with respect to all accepted before.
-/

namespace AurixVoice

structure SlidingWindow (σ : Type) where
  width : ℕ
  highest : σ → Option ℕ
  marked : σ → ℕ → Bool
  accept : σ → ℕ → Bool × σ
  first : ∀ {s n}, highest s = none →
    (accept s n).1 = true ∧ highest (accept s n).2 = some n ∧
      ∀ d < width, marked (accept s n).2 d = decide (d = 0)
  ahead : ∀ {s n h}, highest s = some h → h < n →
    (accept s n).1 = true ∧ highest (accept s n).2 = some n ∧
      ∀ d < width, marked (accept s n).2 d =
        (decide (d = 0) || decide (n - h ≤ d) && marked s (d - (n - h)))
  behind : ∀ {s n h}, highest s = some h → n ≤ h → h - n < width → marked s (h - n) = false →
    (accept s n).1 = true ∧ highest (accept s n).2 = some h ∧
      ∀ d < width, marked (accept s n).2 d = (decide (d = h - n) || marked s d)
  refused : ∀ {s n h}, highest s = some h → n ≤ h → (h - n < width → marked s (h - n) = true) →
    accept s n = (false, s)

namespace SlidingWindow

variable {σ : Type}

def Fresh (width : ℕ) (seen : List ℕ) (n : ℕ) : Prop := ∀ m ∈ seen, m ≠ n ∧ m < n + width

instance (width : ℕ) (seen : List ℕ) (n : ℕ) : Decidable (Fresh width seen n) :=
  inferInstanceAs (Decidable (∀ m ∈ seen, m ≠ n ∧ m < n + width))

variable {seen : List ℕ} {m n : ℕ} {s : σ}

lemma Fresh.not_mem {width : ℕ} (h : Fresh width seen n) : n ∉ seen :=
  fun hn => (h n hn).1 rfl

lemma fresh_cons {width : ℕ} :
    Fresh width (n :: seen) m ↔ (n ≠ m ∧ n < m + width) ∧ Fresh width seen m := List.forall_mem_cons

variable (W : SlidingWindow σ)

def Seen (s : σ) (n : ℕ) : Prop :=
  ∃ h, W.highest s = some h ∧ n ≤ h ∧ (h - n < W.width → W.marked s (h - n) = true)

variable {W}

lemma seen_iff {top : ℕ} (hsome : W.highest s = some top) :
    W.Seen s n ↔ n ≤ top ∧ (top - n < W.width → W.marked s (top - n) = true) := by
  simp [Seen, hsome]

lemma not_seen_of_none (hnone : W.highest s = none) : ¬ W.Seen s n := by
  simp [Seen, hnone]

lemma Seen.refused (h : W.Seen s n) : W.accept s n = (false, s) := by
  obtain ⟨top, hsome, hle, hmark⟩ := h
  exact W.refused hsome hle hmark

lemma seen_first (hnone : W.highest s = none) : W.Seen (W.accept s n).2 m ↔ m = n ∨ m + W.width ≤ n ∨ W.Seen s m := by
  obtain ⟨-, hhighest, hmarks⟩ := W.first (n := n) hnone
  rw [seen_iff hhighest, or_iff_left (not_seen_of_none hnone)]
  by_cases hwidth : n - m < W.width
  · rw [hmarks _ hwidth, decide_eq_true_eq]
    omega
  · omega

variable {top : ℕ} (hsome : W.highest s = some top)
include hsome

lemma seen_ahead (hlt : top < n) : W.Seen (W.accept s n).2 m ↔ m = n ∨ m + W.width ≤ n ∨ W.Seen s m := by
  obtain ⟨-, hhighest, hmarks⟩ := W.ahead hsome hlt
  rw [seen_iff hhighest, seen_iff hsome]
  by_cases hwidth : n - m < W.width
  · rw [hmarks _ hwidth, Bool.or_eq_true, decide_eq_true_eq, Bool.and_eq_true, decide_eq_true_eq]
    by_cases hle : m ≤ top
    · have hidx : n - m - (n - top) = top - m := by omega
      rw [hidx]
      grind
    · omega
  · omega

lemma seen_behind (hle : n ≤ top) (hwidth : top - n < W.width) (hmark : W.marked s (top - n) = false) :
    W.Seen (W.accept s n).2 m ↔ m = n ∨ m + W.width ≤ n ∨ W.Seen s m := by
  obtain ⟨-, hhighest, hmarks⟩ := W.behind hsome hle hwidth hmark
  rw [seen_iff hhighest, seen_iff hsome]
  by_cases hnear : top - m < W.width
  · rw [hmarks _ hnear, Bool.or_eq_true, decide_eq_true_eq]
    grind
  · omega

omit hsome

lemma accept_of_not_seen (h : ¬ W.Seen s n) : (W.accept s n).1 = true ∧
    ∀ m, W.Seen (W.accept s n).2 m ↔ m = n ∨ m + W.width ≤ n ∨ W.Seen s m := by
  cases hsome : W.highest s with
  | none => exact ⟨(W.first hsome).1, fun m => seen_first hsome⟩
  | some top =>
    by_cases hlt : top < n
    · exact ⟨(W.ahead hsome hlt).1, fun m => seen_ahead hsome hlt⟩
    · have hle : n ≤ top := not_lt.mp hlt
      rw [seen_iff hsome, not_and, Classical.not_imp, Bool.not_eq_true] at h
      obtain ⟨hwidth, hmark⟩ := h hle
      exact ⟨(W.behind hsome hle hwidth hmark).1, fun m => seen_behind hsome hle hwidth hmark⟩

lemma accept_iff : (W.accept s n).1 = true ↔ ¬ W.Seen s n := by
  refine ⟨fun haccept hseen => ?_, fun h => (accept_of_not_seen h).1⟩
  rw [hseen.refused] at haccept
  cases haccept

lemma seen_accept (s : σ) (n : ℕ) : W.Seen (W.accept s n).2 n := by
  by_cases h : W.Seen s n
  · rwa [h.refused]
  · exact ((accept_of_not_seen h).2 n).mpr (.inl rfl)

lemma Seen.accept (hm : W.Seen s m) (n : ℕ) : W.Seen (W.accept s n).2 m := by
  by_cases h : W.Seen s n
  · rwa [h.refused]
  · exact ((accept_of_not_seen h).2 m).mpr (.inr (.inr hm))

variable (W) in
def Tracks (s : σ) (seen : List ℕ) : Prop := ∀ n, W.Seen s n ↔ ¬ Fresh W.width seen n

lemma tracks_nil (hnone : W.highest s = none) : W.Tracks s [] :=
  fun _ => iff_of_false (not_seen_of_none hnone) (not_not.mpr fun _ hm => absurd hm List.not_mem_nil)

lemma Tracks.accept_iff (h : W.Tracks s seen) (n : ℕ) : (W.accept s n).1 = true ↔ Fresh W.width seen n := by
  rw [SlidingWindow.accept_iff, h n, not_not]

lemma Tracks.accept (h : W.Tracks s seen) (hfresh : Fresh W.width seen n) :
    (W.accept s n).1 = true ∧ W.Tracks (W.accept s n).2 (n :: seen) := by
  obtain ⟨haccept, hnext⟩ := accept_of_not_seen (mt (h n).mp (not_not.mpr hfresh))
  refine ⟨haccept, fun m => ?_⟩
  rw [hnext, h m, fresh_cons, not_and_or, not_and_or, not_ne_iff, not_lt, or_assoc, eq_comm (a := n)]

lemma Tracks.next (h : W.Tracks s seen) (n : ℕ) :
    W.Tracks (W.accept s n).2 (if (W.accept s n).1 then n :: seen else seen) := by
  by_cases hfresh : Fresh W.width seen n
  · rw [if_pos (h.accept hfresh).1]
    exact (h.accept hfresh).2
  · rw [((h n).mpr hfresh).refused]
    exact h

end SlidingWindow

end AurixVoice
