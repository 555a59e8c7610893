import AurixVoice.Library.Radix
import AurixVoice.Sdk.Curve25519
import AurixVoice.Unity.X25519
import Mathlib.Tactic.LinearCombination

namespace AurixVoice.Unity.X25519

open Curve25519 (prime Element)
open Returns
open Function (update update_of_ne update_self)

abbrev val (o : Limbs) : ℤ := value 65536 16 (ints o)

def Bounded (m : ℤ) (o : Limbs) : Prop := ∀ i < 16, |ints o i| ≤ m

variable {o a b : Limbs} {V m : ℤ} {x y : Element}

lemma carryStep_returns {i : ℕ} (hi : i < 16) (h : |ints o i| ≤ 2 ^ 61) (hnext : |ints o (nextLimb i)| ≤ 2 ^ 61) :
    Returns (carryStep o i) fun o' => ints o' =
      update (update (ints o) i (ints o i % 65536)) (nextLimb i)
        (ints o (nextLimb i) + (if i = 15 then 38 else 1) * (ints o i / 65536)) := by
  have hne : nextLimb i ≠ i := by
    unfold nextLimb
    split <;> omega
  have hlt : nextLimb i < 16 := by
    unfold nextLimb
    split <;> omega
  rw [abs_le] at h hnext
  refine bind (Long.add_returns (toInt_wordAt o i) (y := 65536) rfl (by omega)) fun oi hoi => ?_
  have hword : wordAt (o.setIfInBounds i oi) i = oi := by
    simp [wordAt, hi]
  dsimp only
  rw [hword]
  have hc : (oi >>> 16).toInt = ints o i / 65536 + 1 := by
    rw [Long.toInt_shr (k := 16) rfl, hoi]
    omega
  refine bind (Long.sub_returns hc Int64.toInt_one (by omega)) fun d hd => ?_
  refine bind (Long.mul_returns (x := 37) rfl hd (by omega)) fun e he => ?_
  have hindicator : (if i = 15 then 1 else 0 : Int64).toInt = if i = 15 then 1 else 0 := by
    split <;> rfl
  refine bind (Long.mul_returns he hindicator (by split <;> omega)) fun d' hd' => ?_
  refine bind (Long.add_returns hd hd' (by split <;> omega)) fun inc hinc => ?_
  have hread : (wordAt (o.setIfInBounds i oi) (nextLimb i)).toInt = ints o (nextLimb i) := by
    rw [toInt_wordAt, ints_set hi, update_of_ne hne]
  refine bind (Long.add_returns hread hinc (by split <;> omega)) fun on hon => ?_
  refine bind (Long.shl_returns (k := 16) hc (by omega)) fun s hs => ?_
  have hread' : (wordAt ((o.setIfInBounds i oi).setIfInBounds (nextLimb i) on) i).toInt = ints o i + 65536 := by
    rw [toInt_wordAt, ints_set hlt, ints_set hi, update_of_ne hne.symm, update_self, hoi]
  refine bind (Long.sub_returns hread' hs (by omega)) fun oi' hoi' => ?_
  apply Returns.pure
  have hlow : oi'.toInt = ints o i % 65536 := by
    omega
  have hhigh : on.toInt = ints o (nextLimb i) + (if i = 15 then 38 else 1) * (ints o i / 65536) := by
    rw [hon]
    split <;> omega
  rw [ints_set hi, ints_set hlt, ints_set hi, hlow, hhigh, Function.update_comm hne, Function.update_idem]

structure Carrying (V m : ℤ) (k : ℕ) (o : Limbs) : Prop where
  val_eq : val o = V
  digits : ∀ j < k, 0 ≤ ints o j ∧ ints o j < 65536
  here : |ints o k| ≤ 2 * m
  above : ∀ j, k < j → j < 16 → |ints o j| ≤ m

lemma Carrying.step {k : ℕ} (h : Carrying V m k o) (hk : k < 15) (hm : 2 ^ 16 ≤ m) (hm' : m ≤ 2 ^ 60) :
    Returns (carryStep o k) (Carrying V m (k + 1)) := by
  have hnext : nextLimb k = k + 1 := by
    rw [nextLimb, if_pos hk, mul_one]
  have hhere := h.here
  have habove := h.above (k + 1) (by omega) (by omega)
  have hstep := carryStep_returns (by omega) (by omega) (show |ints o (nextLimb k)| ≤ 2 ^ 61 by rw [hnext]; omega)
  rw [hnext, if_neg (by omega)] at hstep
  apply hstep.mono
  intro o' ho'
  have hsplit := Int.emod_add_mul_ediv (ints o k) 65536
  rw [abs_le] at hhere habove
  constructor
  · rw [val, ho', value_update (by omega), value_update (by omega), update_of_ne (by omega), pow_succ, ← h.val_eq]
    linear_combination (65536 : ℤ) ^ k * hsplit
  · intro j hj
    rw [ho', update_of_ne (by omega)]
    by_cases hjk : j = k
    · rw [hjk, update_self]
      omega
    · rw [update_of_ne hjk]
      exact h.digits j (by omega)
  · rw [ho', update_self, abs_le]
    omega
  · intro j hj hj'
    rw [ho', update_of_ne (by omega), update_of_ne (by omega)]
    exact h.above j (by omega) hj'

structure Carried (V : ℤ) (o : Limbs) : Prop where
  val_eq : val o = V % 2 ^ 256 + 38 * (V / 2 ^ 256)
  first : 0 ≤ ints o 0 - 38 * (V / 2 ^ 256) ∧ ints o 0 - 38 * (V / 2 ^ 256) < 65536
  digits : ∀ i, 0 < i → i < 16 → 0 ≤ ints o i ∧ ints o i < 65536

lemma carry_returns (h : Bounded m o) (hm : 2 ^ 16 ≤ m) (hm' : m ≤ 2 ^ 60) : Returns (carry o) (Carried (val o)) := by
  have hstart : Carrying (val o) m 0 o := by
    refine ⟨rfl, fun j hj => absurd hj (Nat.not_lt_zero j), ?_, fun j _ hj => h j hj⟩
    have := h 0 (by omega)
    omega
  have hloop : Returns ((List.range 15).foldlM carryStep o) (Carrying (val o) m 15) :=
    range hstart fun i hi s hs => hs.step hi hm hm'
  have hrange : List.range 16 = List.range 15 ++ [15] := rfl
  rw [carry, hrange, List.foldlM_append]
  refine bind hloop fun t ht => ?_
  have hhere := ht.here
  obtain ⟨hfirst, hfirst'⟩ := ht.digits 0 (by omega)
  have hstep := carryStep_returns (i := 15) (by omega) (by omega) (show |ints t 0| ≤ 2 ^ 61 by rw [abs_le]; omega)
  refine bind hstep fun o' ho' => pure ?_
  have hnext : nextLimb 15 = 0 := rfl
  rw [hnext, if_pos rfl] at ho'
  have hzero : ints o' 0 = ints t 0 + 38 * (ints t 15 / 65536) := by
    rw [ho', update_self]
  have hdigits : ∀ i, 0 < i → i < 16 → 0 ≤ ints o' i ∧ ints o' i < 65536 := by
    intro i hi hi'
    rw [ho', update_of_ne (by omega)]
    by_cases htop : i = 15
    · rw [htop, update_self]
      omega
    · rw [update_of_ne htop]
      exact ht.digits i (by omega)
  have hsplit := Int.emod_add_mul_ediv (ints t 15) 65536
  have hval : val o' = val o + (38 - 2 ^ 256) * (ints t 15 / 65536) := by
    rw [val, ho', value_update (by omega), value_update (by omega), update_of_ne (by omega), ← ht.val_eq]
    linear_combination (65536 : ℤ) ^ 15 * hsplit
  -- the limbs less what came back are the digits of the value below 2^256
  have hrest : 0 ≤ value 65536 16 (update (ints t) 15 (ints t 15 % 65536)) ∧
      value 65536 16 (update (ints t) 15 (ints t 15 % 65536)) < 65536 ^ 16 := by
    apply value_digits
    intro i hi
    by_cases htop : i = 15
    · rw [htop, update_self]
      omega
    · rw [update_of_ne htop]
      exact ht.digits i (by omega)
  have hsame : value 65536 16 (ints t) = val o := ht.val_eq
  have hdigitsVal : value 65536 16 (update (ints t) 15 (ints t 15 % 65536)) =
      val o - 2 ^ 256 * (ints t 15 / 65536) := by
    rw [value_update (by omega), hsame]
    linear_combination (65536 : ℤ) ^ 15 * hsplit
  have hcarry : val o / 2 ^ 256 = ints t 15 / 65536 := by omega
  have hmod : val o % 2 ^ 256 = val o - 2 ^ 256 * (ints t 15 / 65536) := by omega
  refine ⟨?_, ?_, hdigits⟩
  · rw [hval, hmod, hcarry]
    ring
  · omega

structure Rep (m : ℤ) (o : Limbs) (x : Element) : Prop where
  bounded : Bounded m o
  val_eq : (val o : Element) = x

lemma Carried.bounded {k : ℤ} (h : Carried V o) (hk : |V / 2 ^ 256| ≤ k) : Bounded (65536 + 38 * k) o := by
  rw [abs_le] at hk
  obtain ⟨hfirst, hfirst'⟩ := h.first
  intro i hi
  by_cases hzero : i = 0
  · rw [hzero, abs_le]
    omega
  · obtain ⟨hlow, hhigh⟩ := h.digits i (by omega) hi
    rw [abs_le]
    omega

lemma two_pow_eq : ((2 ^ 256 : ℤ) : Element) = 38 := by
  have hsplit : (2 ^ 256 : ℤ) = 38 + 2 * (prime : ℤ) := by
    rw [prime]
    norm_num
  rw [hsplit]
  push_cast
  rw [ZMod.natCast_self, mul_zero, add_zero]

lemma Carried.cast_eq (h : Carried V o) : (val o : Element) = V := by
  have hsplit := Int.emod_add_mul_ediv V (2 ^ 256)
  have hcast := congrArg (Int.cast : ℤ → Element) hsplit
  rw [Int.cast_add, Int.cast_mul, two_pow_eq] at hcast
  rw [h.val_eq, Int.cast_add, Int.cast_mul]
  exact hcast

lemma ediv_of_bounded (h : Bounded m o) : |val o / 2 ^ 256| ≤ m := by
  have hval := abs_value_le (B := 65536) (by norm_num) h
  rw [abs_le] at hval ⊢
  constructor
  · rw [Int.le_ediv_iff_mul_le (by norm_num)]
    nlinarith
  · apply Int.le_of_lt_add_one
    rw [Int.ediv_lt_iff_lt_mul (by norm_num)]
    nlinarith

lemma carry_twice (h : Bounded m o) (hm : 2 ^ 16 ≤ m) (hm' : m ≤ 2 ^ 50) :
    Returns (do let o ← carry o; carry o) fun o' => Rep (2 ^ 17) o' (val o) := by
  have hdiv := ediv_of_bounded h
  refine bind (carry_returns h hm (by omega)) fun o₁ h₁ => ?_
  have hbounded : Bounded (65536 + 38 * m) o₁ := h₁.bounded hdiv
  refine (carry_returns hbounded (by omega) (by omega)).mono fun o₂ h₂ => ?_
  have hone : |val o₁ / 2 ^ 256| ≤ 1 := by
    have hval := h₁.val_eq
    rw [abs_le] at hdiv ⊢
    omega
  constructor
  · intro i hi
    exact le_trans (h₂.bounded hone i hi) (by norm_num)
  · rw [h₂.cast_eq, h₁.cast_eq]

lemma abs_product_le {x y : ℤ} (hx : |x| ≤ 2 ^ 18) (hy : |y| ≤ 2 ^ 18) : |x * y| ≤ 2 ^ 36 := by
  rw [abs_mul]
  calc |x| * |y| ≤ 2 ^ 18 * 2 ^ 18 := mul_le_mul hx hy (abs_nonneg y) (by norm_num)
    _ = 2 ^ 36 := by norm_num

section Product

variable {a b : Limbs} (ha : Bounded (2 ^ 18) a) (hb : Bounded (2 ^ 18) b)
include ha hb

structure Accumulated (a b : Limbs) (i j : ℕ) (t : Vector Int64 31) : Prop where
  value_eq : value 65536 31 (ints t) =
    value 65536 i (ints a) * val b + ints a i * 65536 ^ i * value 65536 j (ints b)
  bounded : ∀ k < 31, |ints t k| ≤ (16 * i + j) * 2 ^ 36

lemma Accumulated.step {i j : ℕ} {t : Vector Int64 31} (h : Accumulated a b i j t) (hi : i < 16) (hj : j < 16) :
    Returns (productStep a b i t j) (Accumulated a b i (j + 1)) := by
  have hold := h.bounded (i + j) (by omega)
  have hproduct := abs_product_le (ha i hi) (hb j hj)
  rw [abs_le] at hold hproduct
  refine bind (Long.mul_returns (toInt_wordAt a i) (toInt_wordAt b j) (by omega)) fun x hx => ?_
  refine bind (Long.add_returns (toInt_wordAt t (i + j)) hx (by omega)) fun y hy => pure ?_
  constructor
  · rw [ints_set (by omega), value_update (by omega), h.value_eq, hy, value, pow_add]
    ring
  · intro k hk
    rw [ints_set (by omega)]
    by_cases hkij : k = i + j
    · rw [hkij, update_self, hy, abs_le]
      omega
    · have := h.bounded k hk
      rw [update_of_ne hkij]
      omega

lemma product_returns :
    Returns ((List.range 16).foldlM (fun t i => (List.range 16).foldlM (productStep a b i) t) (Vector.replicate 31 0))
      fun t => value 65536 31 (ints t) = val a * val b ∧ ∀ k < 31, |ints t k| ≤ 2 ^ 44 := by
  have hzero : ints (Vector.replicate 31 0) = fun _ => 0 := by
    funext k
    unfold ints wordAt
    by_cases hk : k < 31 <;> simp [hk]
  have hrow : ∀ i < 16, ∀ t, Accumulated a b i 0 t →
      Returns ((List.range 16).foldlM (productStep a b i) t) (Accumulated a b (i + 1) 0) := by
    intro i hi t ht
    have hloop := range (I := Accumulated a b i) ht fun j hj s hs => hs.step ha hb hi hj
    apply hloop.mono
    intro u hu
    constructor
    · have hnone : value 65536 0 (ints b) = 0 := rfl
      rw [hu.value_eq, value_succ i, hnone]
      ring
    · intro k hk
      have := hu.bounded k hk
      omega
  have hstart : Accumulated a b 0 0 (Vector.replicate 31 0) := by
    constructor
    · rw [hzero, value_zeros]
      simp [value]
    · rw [hzero]
      simp
  apply (range (I := fun i => Accumulated a b i 0) hstart hrow).mono
  intro t ht
  constructor
  · rw [ht.value_eq, value, mul_zero, add_zero]
  · intro k hk
    have := ht.bounded k hk
    omega

end Product

structure Folded (t : Vector Int64 31) (k : ℕ) (u : Vector Int64 31) : Prop where
  value_eq : value 65536 16 (ints u) = value 65536 16 (ints t) + 38 * value 65536 k fun i => ints t (16 + i)
  rest : ∀ j, k ≤ j → ints u j = ints t j
  bounded : ∀ j < 31, |ints u j| ≤ 39 * 2 ^ 44

lemma Folded.step {t u : Vector Int64 31} {k : ℕ} (ht : ∀ j < 31, |ints t j| ≤ 2 ^ 44) (h : Folded t k u)
    (hk : k < 15) : Returns (foldStep u k) (Folded t (k + 1)) := by
  have hlow := ht k (by omega)
  have hhigh := ht (k + 16) (by omega)
  have hreadLow : (wordAt u k).toInt = ints t k := h.rest k le_rfl
  have hreadHigh : (wordAt u (k + 16)).toInt = ints t (k + 16) := h.rest (k + 16) (by omega)
  rw [abs_le] at hlow hhigh
  refine bind (Long.mul_returns (x := 38) rfl hreadHigh (by omega)) fun x hx => ?_
  refine bind (Long.add_returns hreadLow hx (by omega)) fun y hy => pure ?_
  constructor
  · rw [ints_set (by omega), value_update (by omega), h.value_eq, h.rest k le_rfl, hy, value_succ k, add_comm 16 k]
    ring
  · intro j hj
    rw [ints_set (by omega), update_of_ne (by omega)]
    exact h.rest j (by omega)
  · intro j hj
    rw [ints_set (by omega)]
    by_cases hjk : j = k
    · rw [hjk, update_self, hy, abs_le]
      omega
    · rw [update_of_ne hjk]
      exact h.bounded j hj

lemma mul_returns (ha : Rep (2 ^ 18) a x) (hb : Rep (2 ^ 18) b y) :
    Returns (mul a b) fun o => Rep (2 ^ 17) o (x * y) := by
  refine bind (product_returns ha.bounded hb.bounded) fun t ht => ?_
  obtain ⟨hvalue, hbound⟩ := ht
  have hstart : Folded t 0 t := by
    refine ⟨by simp [value], fun j _ => rfl, fun j hj => ?_⟩
    have := hbound j hj
    omega
  refine bind (range hstart fun k hk s hs => hs.step hbound hk) fun u hu => ?_
  have hcopy : Returns (fill 16 fun i => some (wordAt u i)) fun o => ∀ i < 16, ints o i = ints u i :=
    fill_returns fun i _ => pure rfl
  refine bind hcopy fun o ho => ?_
  have hbounded : Bounded (2 ^ 50) o := by
    intro i hi
    have := hu.bounded i (by omega)
    rw [ho i hi]
    omega
  apply (carry_twice hbounded (by norm_num) le_rfl).mono
  intro o' ho'
  have hval : (val o : Element) = x * y := by
    have happend := value_append (B := 65536) 16 15 (ints t)
    have hpow : ((65536 ^ 16 : ℤ) : Element) = 38 := by
      rw [← two_pow_eq]
      norm_num
    have hcast := congrArg (Int.cast : ℤ → Element) (happend.symm.trans hvalue)
    rw [Int.cast_add, Int.cast_mul, hpow, Int.cast_mul, ha.val_eq, hb.val_eq] at hcast
    rw [val, value_congr ho, hu.value_eq, Int.cast_add, Int.cast_mul, ← hcast]
    rfl
  rw [← hval]
  exact ho'

lemma add_returns (ha : Rep (2 ^ 17) a x) (hb : Rep (2 ^ 17) b y) :
    Returns (add a b) fun o => Rep (2 ^ 18) o (x + y) := by
  have hfill : Returns (add a b) fun o => ∀ i < 16, ints o i = ints a i + ints b i := by
    apply fill_returns
    intro i hi
    have hai := ha.bounded i hi
    have hbi := hb.bounded i hi
    rw [abs_le] at hai hbi
    exact Long.add_returns (toInt_wordAt a i) (toInt_wordAt b i) (by omega)
  apply hfill.mono
  intro o ho
  constructor
  · intro i hi
    have hai := ha.bounded i hi
    have hbi := hb.bounded i hi
    rw [ho i hi]
    rw [abs_le] at hai hbi ⊢
    omega
  · rw [val, value_congr ho, value_add, Int.cast_add, ha.val_eq, hb.val_eq]

lemma sub_returns (ha : Rep (2 ^ 17) a x) (hb : Rep (2 ^ 17) b y) :
    Returns (sub a b) fun o => Rep (2 ^ 18) o (x - y) := by
  have hfill : Returns (sub a b) fun o => ∀ i < 16, ints o i = ints a i - ints b i := by
    apply fill_returns
    intro i hi
    have hai := ha.bounded i hi
    have hbi := hb.bounded i hi
    rw [abs_le] at hai hbi
    exact Long.sub_returns (toInt_wordAt a i) (toInt_wordAt b i) (by omega)
  apply hfill.mono
  intro o ho
  constructor
  · intro i hi
    have hai := ha.bounded i hi
    have hbi := hb.bounded i hi
    rw [ho i hi]
    rw [abs_le] at hai hbi ⊢
    omega
  · rw [val, value_congr ho, value_sub, Int.cast_sub, ha.val_eq, hb.val_eq]

lemma Rep.weaken (h : Rep (2 ^ 17) o x) : Rep (2 ^ 18) o x :=
  ⟨fun i hi => le_trans (h.bounded i hi) (by norm_num), h.val_eq⟩

lemma select_eq (p q : Limbs) (b : Bool) : select p q (if b then 1 else 0) = some (if b then (q, p) else (p, q)) := by
  have hswap : ∀ x y : Int64, x ^^^ (x ^^^ y) = y := by
    intro x y
    rw [← Int64.xor_assoc, Int64.xor_self, Int64.zero_xor]
  cases b with
  | false =>
    have hmask : Long.sub 0 1 = some (-1) := by decide
    have hzero : ~~~(-1 : Int64) = 0 := by decide
    apply congrArg some
    apply Prod.ext
    all_goals
      apply Vector.ext
      simp [hzero]
  | true =>
    have hmask : Long.sub 1 1 = some 0 := by decide
    have hones : ~~~(0 : Int64) = -1 := by decide
    rw [if_pos rfl, if_pos rfl, select, hmask]
    apply congrArg some
    apply Prod.ext
    all_goals
      apply Vector.ext
      intro i hi
      simp only [Vector.getElem_zipWith, hones, Int64.neg_one_and]
    · exact hswap _ _
    · rw [Int64.xor_comm p[i] q[i]]
      exact hswap _ _

def invertExponent : ℕ → ℕ → ℕ
  | 0, e => e
  | a + 1, e => invertExponent a (if a ≠ 2 ∧ a ≠ 4 then 2 * e + 1 else 2 * e)

lemma invertLoop_returns {i : Limbs} (hi : Rep (2 ^ 17) i x) (n : ℕ) {c : Limbs} {e : ℕ}
    (hc : Rep (2 ^ 17) c (x ^ e)) : Returns (invertLoop i n c) fun o => Rep (2 ^ 17) o (x ^ invertExponent n e) := by
  induction n generalizing c e with
  | zero => exact pure hc
  | succ a ih =>
    rw [invertLoop, invertExponent]
    have hsquare := mul_returns hc.weaken hc.weaken
    rw [← pow_add, ← two_mul] at hsquare
    refine bind hsquare fun c₁ h₁ => ?_
    by_cases ha : a ≠ 2 ∧ a ≠ 4
    · rw [if_pos ha, if_pos ha]
      have hmul := mul_returns h₁.weaken hi.weaken
      exact bind hmul fun c₂ h₂ => ih h₂
    · rw [if_neg ha, if_neg ha]
      exact bind (pure h₁) fun c₂ h₂ => ih h₂

lemma invert_returns {i : Limbs} (h : Rep (2 ^ 17) i x) :
    Returns (invert i) fun o => Rep (2 ^ 17) o (x ^ (prime - 2)) := by
  have hexponent : invertExponent 254 1 = prime - 2 := by decide +kernel
  rw [← hexponent]
  apply invertLoop_returns h 254
  rw [pow_one]
  exact h

end AurixVoice.Unity.X25519
