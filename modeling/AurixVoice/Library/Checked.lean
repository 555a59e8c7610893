import Mathlib.Tactic.Positivity
import Mathlib.Tactic.Ring

/-! Computations on 64-bit words that stop at an overflow, with rules for what they return. -/

namespace AurixVoice

section Returns

variable {α β σ : Type}

def Returns (c : Option α) (P : α → Prop) : Prop := ∃ x, c = some x ∧ P x

variable {P : α → Prop}

lemma Returns.pure {x : α} (h : P x) : Returns (some x) P := ⟨x, rfl, h⟩

variable {c : Option α}

lemma Returns.bind {f : α → Option β} {Q : β → Prop} (hc : Returns c P)
    (hf : ∀ x, P x → Returns (f x) Q) : Returns (c >>= f) Q := by
  obtain ⟨x, rfl, hx⟩ := hc
  exact hf x hx

lemma Returns.mono {Q : α → Prop} (hc : Returns c P) (h : ∀ x, P x → Q x) : Returns c Q := by
  obtain ⟨x, hx, hP⟩ := hc
  exact ⟨x, hx, h x hP⟩

lemma Returns.range {n : ℕ} {f : σ → ℕ → Option σ} {I : ℕ → σ → Prop} {s : σ} (h : I 0 s)
    (hstep : ∀ i < n, ∀ s, I i s → Returns (f s i) (I (i + 1))) : Returns ((List.range n).foldlM f s) (I n) := by
  induction n with
  | zero => exact pure h
  | succ n ih =>
    rw [List.range_succ, List.foldlM_append]
    apply bind (ih fun i hi => hstep i (Nat.lt_succ_of_lt hi))
    intro t ht
    apply bind (hstep n (Nat.lt_succ_self n) t ht)
    intro u hu
    exact pure hu

end Returns

namespace Long

def checked (n : ℤ) : Option Int64 := if -2 ^ 63 ≤ n ∧ n < 2 ^ 63 then some (Int64.ofInt n) else none

def add (a b : Int64) : Option Int64 := checked (a.toInt + b.toInt)
def sub (a b : Int64) : Option Int64 := checked (a.toInt - b.toInt)
def mul (a b : Int64) : Option Int64 := checked (a.toInt * b.toInt)
def shl (a : Int64) (k : ℕ) : Option Int64 := checked (a.toInt * 2 ^ k)

lemma checked_returns {n : ℤ} (h : -2 ^ 63 ≤ n ∧ n < 2 ^ 63) : Returns (checked n) fun x => x.toInt = n := by
  refine ⟨Int64.ofInt n, if_pos h, Int64.toInt_ofInt_of_le h.1 h.2⟩

section Operations

variable {a b : Int64} {x y : ℤ} (ha : a.toInt = x) (hb : b.toInt = y)
include ha

variable {k : ℕ}

lemma shl_returns (h : -2 ^ 63 ≤ x * 2 ^ k ∧ x * 2 ^ k < 2 ^ 63) :
    Returns (shl a k) fun z => z.toInt = x * 2 ^ k := by
  subst ha
  exact checked_returns h

include hb

lemma add_returns (h : -2 ^ 63 ≤ x + y ∧ x + y < 2 ^ 63) : Returns (add a b) fun z => z.toInt = x + y := by
  subst ha hb
  exact checked_returns h

lemma sub_returns (h : -2 ^ 63 ≤ x - y ∧ x - y < 2 ^ 63) : Returns (sub a b) fun z => z.toInt = x - y := by
  subst ha hb
  exact checked_returns h

lemma mul_returns (h : -2 ^ 63 ≤ x * y ∧ x * y < 2 ^ 63) : Returns (mul a b) fun z => z.toInt = x * y := by
  subst ha hb
  exact checked_returns h

end Operations

lemma toInt_shr {x s : Int64} (h : (x >>> s).toBitVec = x.toBitVec.sshiftRight k) :
    (x >>> s).toInt = x.toInt / 2 ^ k := by
  rw [← Int64.toInt_toBitVec, h, BitVec.toInt_sshiftRight, Int.shiftRight_eq_div_pow, Int64.toInt_toBitVec,
    Int.natCast_pow]
  rfl

lemma toInt_emod (x : Int64) (hk : k ≤ 64) : x.toInt % 2 ^ k = (x.toBitVec.toNat % 2 ^ k : ℕ) := by
  have hsplit : ((2 ^ 64 : ℕ) : ℤ) = 2 ^ k * 2 ^ (64 - k) := by
    rw [← pow_add, Nat.add_sub_cancel' hk]
    rfl
  rw [← Int64.toInt_toBitVec, BitVec.toInt_eq_toNat_cond]
  split
  · rfl
  · rw [hsplit, Int.sub_mul_emod_self_left, Int.natCast_mod, Int.natCast_pow]
    rfl

lemma toInt_and_mask (x : Int64) (hk : k < 63) : (x &&& Int64.ofNat (2 ^ k - 1)).toInt = x.toInt % 2 ^ k := by
  have hsmall : 2 ^ k < 2 ^ 63 := Nat.pow_lt_pow_right (by decide) hk
  have hbits : (x &&& Int64.ofNat (2 ^ k - 1)).toBitVec.toNat = x.toBitVec.toNat % 2 ^ k := by
    change _ &&& (2 ^ k - 1) % 2 ^ 64 = _
    rw [Nat.mod_eq_of_lt (by omega), Nat.and_two_pow_sub_one_eq_mod]
  rw [toInt_emod x (by omega), ← hbits, ← Int64.toInt_toBitVec, BitVec.toInt_eq_toNat_cond, if_pos (by omega)]

lemma toNat_toUInt8 (x : Int64) : (x.toUInt64.toUInt8.toNat : ℤ) = x.toInt % 256 := by
  have hmod := toInt_emod x (show 8 ≤ 64 by decide)
  rw [show (256 : ℤ) = 2 ^ 8 by rfl, hmod]
  rfl

end Long

section Words

variable {n : ℕ}

def wordAt (t : Vector Int64 n) (i : ℕ) : Int64 := t[i]?.getD 0

def ints (t : Vector Int64 n) (i : ℕ) : ℤ := (wordAt t i).toInt

lemma toInt_wordAt (t : Vector Int64 n) (i : ℕ) : (wordAt t i).toInt = ints t i := rfl

lemma ints_set {t : Vector Int64 n} {i : ℕ} (h : i < n) (x : Int64) :
    ints (t.setIfInBounds i x) = Function.update (ints t) i x.toInt := by
  funext j
  unfold ints wordAt
  rw [Vector.getElem?_setIfInBounds]
  by_cases hj : i = j
  · subst hj
    rw [if_pos rfl, if_pos h, Function.update_self]
    rfl
  · rw [if_neg hj, Function.update_of_ne (symm hj)]

def fill (n : ℕ) (f : ℕ → Option Int64) : Option (Vector Int64 n) :=
  (List.range n).foldlM (fun o i => (f i).map (o.setIfInBounds i)) (Vector.replicate n 0)

lemma fill_returns {f : ℕ → Option Int64} {v : ℕ → ℤ} (h : ∀ i < n, Returns (f i) fun x => x.toInt = v i) :
    Returns (fill n f) fun o => ∀ i < n, ints o i = v i := by
  apply Returns.range (I := fun k (o : Vector Int64 n) => ∀ i < k, ints o i = v i)
  · intro i hi
    exact absurd hi (Nat.not_lt_zero i)
  · intro k hk o ho
    obtain ⟨x, hx, hv⟩ := h k hk
    refine ⟨o.setIfInBounds k x, by rw [hx]; rfl, ?_⟩
    intro i hi
    rw [ints_set hk]
    by_cases hik : i = k
    · rw [hik, Function.update_self, hv]
    · rw [Function.update_of_ne hik]
      exact ho i (by omega)

end Words

end AurixVoice
