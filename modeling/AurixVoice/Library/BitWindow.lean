import AurixVoice.Library.SlidingWindow
import Mathlib.Data.Fin.Basic

/-!
The sliding window that keeps its marks in one word, bit `i` for the counter `i` behind the highest.
-/

namespace AurixVoice

structure BitWindow (w : ℕ) where
  highest : Option ℕ
  marks : BitVec w

namespace BitWindow

variable {w : ℕ}

def accept (b : BitWindow w) (n : ℕ) : Bool × BitWindow w :=
  match b.highest with
  | none => (true, ⟨some n, 1#w⟩)
  | some h =>
    if h < n then (true, ⟨some n, (if w ≤ n - h then 0#w else b.marks <<< (n - h)) ||| 1#w⟩)
    else if w ≤ h - n then (false, b)
    else if b.marks.getLsbD (h - n) then (false, b)
    else (true, ⟨b.highest, b.marks ||| 1#w <<< (h - n)⟩)

lemma getLsbD_bit {k d : ℕ} (hd : d < w) : (1#w <<< k).getLsbD d = decide (d = k) := by
  rw [← BitVec.twoPow_eq, BitVec.getLsbD_twoPow]
  by_cases h : d = k
  · simp [h ▸ hd, h]
  · simp [Ne.symm h, h]

lemma getLsbD_first {d : ℕ} (hd : d < w) : (1#w).getLsbD d = decide (d = 0) := by
  have h := getLsbD_bit (k := 0) hd
  rwa [BitVec.shiftLeft_zero] at h

lemma and_mask_eq_zero_iff (b : BitVec w) {k : ℕ} (hk : k < w) : b &&& (1#w <<< k) = 0#w ↔ b.getLsbD k = false := by
  constructor
  · intro h
    have hbit := congrArg (fun x => BitVec.getLsbD x k) h
    simpa [getLsbD_bit hk, hk] using hbit
  · intro h
    apply BitVec.eq_of_getLsbD_eq
    intro d hd
    rw [BitVec.getLsbD_and, getLsbD_bit hd]
    by_cases hdk : d = k
    · simp [hdk, h]
    · simp [hdk]

lemma getLsbD_moved (marks : BitVec w) {k d : ℕ} (hd : d < w) :
    ((if w ≤ k then 0#w else marks <<< k) ||| 1#w).getLsbD d =
      (decide (d = 0) || decide (k ≤ d) && marks.getLsbD (d - k)) := by
  rw [BitVec.getLsbD_or, getLsbD_first hd, Bool.or_comm]
  by_cases hwidth : w ≤ k
  · have hlt : ¬ k ≤ d := by omega
    simp [hwidth, hlt]
  · have hnot : (!decide (d < k)) = decide (k ≤ d) := by
      rw [← decide_not]
      exact decide_eq_decide.mpr not_lt
    rw [if_neg hwidth, BitVec.getLsbD_shiftLeft, hnot, decide_eq_true hd, Bool.true_and]

def sliding (w : ℕ) : SlidingWindow (BitWindow w) where
  width := w
  highest := highest
  marked b d := b.marks.getLsbD d
  accept := accept
  first := by
    intro b n h
    simp only [accept, h]
    exact ⟨trivial, trivial, fun d hd => getLsbD_first hd⟩
  ahead := by
    intro b n h hsome hlt
    simp only [accept, hsome, hlt, if_true]
    exact ⟨trivial, trivial, fun d hd => getLsbD_moved b.marks hd⟩
  behind := by
    intro b n h hsome hle hwidth hmark
    simp only [accept, hsome, Nat.not_lt.mpr hle, Nat.not_le.mpr hwidth, hmark, if_false, Bool.false_eq_true]
    refine ⟨trivial, trivial, fun d hd => ?_⟩
    rw [BitVec.getLsbD_or, getLsbD_bit hd, Bool.or_comm]
  refused := by
    intro b n h hsome hle hmark
    simp only [accept, hsome, Nat.not_lt.mpr hle, if_false]
    split
    · rfl
    next hwidth => rw [if_pos (hmark (Nat.not_le.mp hwidth))]

end BitWindow

end AurixVoice
