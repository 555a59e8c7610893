import AurixVoice.Library.Buffer
import Mathlib.Algebra.Order.Ring.Abs
import Mathlib.Tactic.Linarith

/-! Numbers as sequences of limbs to a base; limbs may be negative or exceed the base. -/

namespace AurixVoice

open List

variable (B : ℤ)

def value : ℕ → (ℕ → ℤ) → ℤ
  | 0, _ => 0
  | n + 1, f => value n f + f n * B ^ n

variable {B}

lemma value_succ (n : ℕ) (f : ℕ → ℤ) : value B (n + 1) f = value B n f + f n * B ^ n := rfl

lemma value_zeros (n : ℕ) : value B n (fun _ => 0) = 0 := by
  induction n with
  | zero => rfl
  | succ n ih => rw [value_succ, ih, zero_mul, add_zero]

variable {n : ℕ} {f : ℕ → ℤ}

lemma value_congr {g : ℕ → ℤ} (h : ∀ i < n, f i = g i) : value B n f = value B n g := by
  induction n with
  | zero => rfl
  | succ n ih => rw [value, value, ih fun i hi => h i (by omega), h n (by omega)]

lemma value_update_of_le {i : ℕ} (h : n ≤ i) (f : ℕ → ℤ) (x : ℤ) :
    value B n (Function.update f i x) = value B n f := by
  apply value_congr
  intro j hj
  rw [Function.update_of_ne (by omega)]

lemma value_update {i : ℕ} (h : i < n) (f : ℕ → ℤ) (x : ℤ) :
    value B n (Function.update f i x) = value B n f + (x - f i) * B ^ i := by
  induction n with
  | zero => exact absurd h (Nat.not_lt_zero i)
  | succ n ih =>
    rw [value, value]
    by_cases hi : i = n
    · subst hi
      rw [value_update_of_le le_rfl, Function.update_self]
      ring
    · rw [ih (by omega), Function.update_of_ne (symm hi)]
      ring

lemma value_add (n : ℕ) (f g : ℕ → ℤ) : value B n (fun i => f i + g i) = value B n f + value B n g := by
  induction n with
  | zero => rfl
  | succ n ih =>
    rw [value, value, value, ih]
    ring

lemma value_sub (n : ℕ) (f g : ℕ → ℤ) : value B n (fun i => f i - g i) = value B n f - value B n g := by
  induction n with
  | zero => rfl
  | succ n ih =>
    rw [value, value, value, ih]
    ring

lemma value_append (m n : ℕ) (f : ℕ → ℤ) :
    value B (m + n) f = value B m f + B ^ m * value B n fun i => f (m + i) := by
  induction n with
  | zero => rw [value, mul_zero, add_zero, add_zero]
  | succ n ih =>
    rw [← add_assoc, value, value, ih, pow_add]
    ring

lemma value_digits (h : ∀ i < n, 0 ≤ f i ∧ f i < B) : 0 ≤ value B n f ∧ value B n f < B ^ n := by
  induction n with
  | zero => exact ⟨le_rfl, by rw [pow_zero]; exact zero_lt_one⟩
  | succ n ih =>
    obtain ⟨hlow, hhigh⟩ := ih fun i hi => h i (by omega)
    obtain ⟨hf, hfB⟩ := h n (by omega)
    have hpow : 0 < B ^ n := lt_of_le_of_lt hlow hhigh
    have hterm : f n * B ^ n ≤ (B - 1) * B ^ n := mul_le_mul_of_nonneg_right (by omega) hpow.le
    have hnonneg : 0 ≤ f n * B ^ n := mul_nonneg hf hpow.le
    rw [value, pow_succ]
    constructor
    · omega
    · linarith

lemma abs_value_le {m : ℤ} (hB : 2 ≤ B) (h : ∀ i < n, |f i| ≤ m) :
    |value B n f| ≤ m * (B ^ n - 1) := by
  induction n with
  | zero => simp [value]
  | succ n ih =>
    have hlow := ih fun i hi => h i (by omega)
    have hpow : 0 < B ^ n := pow_pos (by omega) n
    have hm : 0 ≤ m := le_trans (abs_nonneg _) (h n (by omega))
    have hterm : |f n * B ^ n| ≤ m * B ^ n := by
      rw [abs_mul, abs_of_pos hpow]
      exact mul_le_mul_of_nonneg_right (h n (by omega)) hpow.le
    have hdouble : m * B ^ n * 2 ≤ m * B ^ n * B := mul_le_mul_of_nonneg_left hB (mul_nonneg hm hpow.le)
    have htri := abs_add_le (value B n f) (f n * B ^ n)
    rw [value, pow_succ]
    linarith

def ofLe : List UInt8 → ℕ
  | [] => 0
  | b :: bytes => b.toNat + 256 * ofLe bytes

lemma ofLe_append (xs ys : List UInt8) : ofLe (xs ++ ys) = ofLe xs + 256 ^ xs.length * ofLe ys := by
  induction xs with
  | nil => simp [ofLe]
  | cons x xs ih =>
    rw [cons_append, ofLe, ofLe, ih, length_cons, pow_succ]
    ring

def toLe : ℕ → ℕ → List UInt8
  | 0, _ => []
  | width + 1, n => UInt8.ofNat n :: toLe width (n / 256)

lemma ofLe_toLe {width : ℕ} (h : n < 256 ^ width) : ofLe (toLe width n) = n := by
  induction width generalizing n with
  | zero =>
    exact (Nat.lt_one_iff.mp h).symm
  | succ width ih =>
    rw [toLe, ofLe, ih (by omega), UInt8.toNat_ofNat']
    omega

lemma ofLe_testBit (bytes : List UInt8) (t : ℕ) :
    (ofLe bytes).testBit t = (byteAt bytes (t / 8)).toNat.testBit (t % 8) := by
  induction bytes generalizing t with
  | nil => simp [ofLe, byteAt, getU8]
  | cons b bytes ih =>
    have hb : b.toNat < 2 ^ 8 := b.toNat_lt
    have hsplit : ofLe (b :: bytes) = 2 ^ 8 * ofLe bytes + b.toNat := add_comm ..
    rw [hsplit, Nat.testBit_two_pow_mul_add _ hb]
    by_cases ht : t < 8
    · rw [if_pos ht, Nat.div_eq_of_lt ht, Nat.mod_eq_of_lt ht]
      rfl
    · have hdiv : t / 8 = (t - 8) / 8 + 1 := by omega
      have hmod : t % 8 = (t - 8) % 8 := by omega
      rw [if_neg ht, ih, hdiv, hmod]
      rfl

lemma value_pairs {bytes : List UInt8} (h : bytes.length = 2 * n) :
    value 65536 n (fun i => (byteAt bytes (2 * i)).toNat + 256 * (byteAt bytes (2 * i + 1)).toNat) = ofLe bytes := by
  induction n generalizing bytes with
  | zero =>
    rw [length_eq_zero_iff.mp h]
    rfl
  | succ n ih =>
    match bytes, h with
    | a :: b :: rest, h =>
      have hrest : rest.length = 2 * n := by
        simp only [length_cons] at h
        omega
      have hshift : ∀ i, 2 * (1 + i) = 2 * i + 1 + 1 := fun i => by omega
      have hlow : value 65536 1 (fun i => ((byteAt (a :: b :: rest) (2 * i)).toNat +
          256 * (byteAt (a :: b :: rest) (2 * i + 1)).toNat : ℤ)) = a.toNat + 256 * b.toNat := by
        simp [value, byteAt]
      have hhigh : value 65536 n (fun i => ((byteAt (a :: b :: rest) (2 * (1 + i))).toNat +
          256 * (byteAt (a :: b :: rest) (2 * (1 + i) + 1)).toNat : ℤ)) = ofLe rest := by
        rw [← ih hrest]
        apply value_congr
        intro i _
        rw [hshift]
        rfl
      rw [add_comm, value_append, hlow, hhigh, ofLe, ofLe]
      push_cast
      ring

lemma ofLe_flatMap {lo hi : ℕ → UInt8} (h : ∀ i < n, f i = (lo i).toNat + 256 * (hi i).toNat) :
    ofLe ((range n).flatMap fun i => [lo i, hi i]) = value 65536 n f := by
  induction n with
  | zero => rfl
  | succ n ih =>
    have hlen : ((range n).flatMap fun i => [lo i, hi i]).length = 2 * n := by
      simp [length_flatMap, mul_comm]
    rw [range_succ, flatMap_append, ofLe_append, hlen, value_succ, ← ih fun i hi => h i (by omega),
      h n (by omega), flatMap_singleton, ofLe, ofLe, ofLe, pow_mul]
    push_cast
    ring

end AurixVoice
