import AurixVoice.Unity.FieldLimbs

namespace AurixVoice.Unity.X25519

open Curve25519 (prime Element)
open Function Returns

def Digits (o : Limbs) : Prop := ∀ i < 16, 0 ≤ ints o i ∧ ints o i < 65536

lemma Digits.val_lt {o : Limbs} (h : Digits o) : 0 ≤ val o ∧ val o < 2 ^ 256 := by
  have hval := value_digits h
  exact hval

def primeLimb (i : ℕ) : ℤ := if i = 0 then 0xffed else if i < 15 then 0xffff else 0x7fff

lemma value_primeLimb : value 65536 16 primeLimb = prime := by decide +kernel

lemma toInt_borrow (m : Limbs) (i : ℕ) : (borrow m i).toInt = ints m i / 65536 % 2 := by
  have hmask : (1 : Int64) = Int64.ofNat (2 ^ 1 - 1) := rfl
  rw [borrow, hmask, Long.toInt_and_mask _ (by decide), Long.toInt_shr (k := 16) rfl]
  rfl

lemma toInt_low (x : Int64) : (x &&& 0xffff).toInt = x.toInt % 65536 := by
  have hmask : (0xffff : Int64) = Int64.ofNat (2 ^ 16 - 1) := by decide
  rw [hmask, Long.toInt_and_mask x (by decide)]
  rfl

structure Borrowed (t : Limbs) (k : ℕ) (m : Limbs) : Prop where
  value_eq : value 65536 (k + 1) (ints m) = value 65536 (k + 1) fun i => ints t i - primeLimb i
  digits : ∀ j < k, 0 ≤ ints m j ∧ ints m j < 65536
  here : -65536 ≤ ints m k ∧ ints m k < 65536

lemma Borrowed.step {t m : Limbs} {k : ℕ} (ht : Digits t) (h : Borrowed t k m) (hk : k < 14) :
    Returns (borrowStep t m (k + 1)) (Borrowed t (k + 1)) := by
  obtain ⟨hlow, hhigh⟩ := ht (k + 1) (by omega)
  have hhere := h.here
  have hprime : primeLimb (k + 1) = 65535 := by
    rw [primeLimb, if_neg (by omega), if_pos (by omega)]
  refine bind (Long.sub_returns (toInt_wordAt t (k + 1)) (y := 65535) rfl (by omega)) fun x hx => ?_
  refine bind (Long.sub_returns hx (toInt_borrow m (k + 1 - 1)) (by omega)) fun y hy => pure ?_
  rw [Nat.add_sub_cancel] at hy ⊢
  have hread : ints (m.setIfInBounds (k + 1) y) k = ints m k := by
    rw [ints_set (by omega), update_of_ne (by omega)]
  have hints : ints ((m.setIfInBounds (k + 1) y).setIfInBounds k (wordAt (m.setIfInBounds (k + 1) y) k &&& 0xffff)) =
      update (update (ints m) (k + 1) y.toInt) k (ints m k % 65536) := by
    rw [ints_set (by omega), ints_set (by omega), toInt_low, toInt_wordAt, hread]
  have hmask : ints m k % 65536 = ints m k + 65536 * (ints m k / 65536 % 2) := by omega
  constructor
  · rw [hints, value_update (by omega), update_of_ne (by omega), value_update (by omega), value_succ,
      h.value_eq, value_succ (k + 1), hprime, hy, hmask, pow_succ]
    ring
  · intro j hj
    rw [hints]
    by_cases hjk : j = k
    · rw [hjk, update_self]
      omega
    · rw [update_of_ne hjk, update_of_ne (by omega)]
      exact h.digits j (by omega)
  · rw [hints, update_of_ne (by omega), update_self, hy]
    omega

lemma reduceStep_returns {t : Limbs} (ht : Digits t) (m : Limbs) :
    Returns (reduceStep t m) fun r =>
      Digits r.1 ∧ val r.1 = if val t < prime then val t else val t - prime := by
  obtain ⟨hlow, hhigh⟩ := ht 0 (by omega)
  obtain ⟨htop, htop'⟩ := ht 15 (by omega)
  refine bind (Long.sub_returns (toInt_wordAt t 0) (y := 65517) rfl (by omega)) fun x hx => ?_
  have hstart : Borrowed t 0 (m.setIfInBounds 0 x) := by
    refine ⟨?_, fun j hj => absurd hj (Nat.not_lt_zero j), ?_⟩
    · rw [ints_set (by omega)]
      simp [value, primeLimb, hx]
    · rw [ints_set (by omega), update_self, hx]
      omega
  refine bind (range (I := fun k m => Borrowed t k m) hstart fun k hk m hm => hm.step ht hk) fun m₁ h₁ => ?_
  have hhere := h₁.here
  refine bind (Long.sub_returns (toInt_wordAt t 15) (y := 32767) rfl (by omega)) fun y hy => ?_
  refine bind (Long.sub_returns hy (toInt_borrow m₁ 14) (by omega)) fun z hz => ?_
  dsimp only
  generalize hm₂ : m₁.setIfInBounds 15 z = m₂
  have hints : ints m₂ = update (ints m₁) 15 z.toInt := by
    rw [← hm₂, ints_set (by omega)]
  have hz₂ : ints m₂ 15 = ints t 15 - 32767 - ints m₁ 14 / 65536 % 2 := by
    rw [hints, update_self, hz]
  generalize hm₃ : m₂.setIfInBounds 14 (wordAt m₂ 14 &&& 0xffff) = m₃
  have hints₃ : ints m₃ = update (update (ints m₁) 15 z.toInt) 14 (ints m₁ 14 % 65536) := by
    rw [← hm₃, ints_set (by omega), toInt_low, toInt_wordAt, hints, update_of_ne (by omega)]
  have hmask : ints m₁ 14 % 65536 = ints m₁ 14 + 65536 * (ints m₁ 14 / 65536 % 2) := by omega
  have hdigits : ∀ j < 15, 0 ≤ ints m₃ j ∧ ints m₃ j < 65536 := by
    intro j hj
    rw [hints₃]
    by_cases hj14 : j = 14
    · rw [hj14, update_self]
      omega
    · rw [update_of_ne hj14, update_of_ne (by omega)]
      exact h₁.digits j (by omega)
  have htop₃ : ints m₃ 15 = ints m₂ 15 := by
    rw [hints₃, hints, update_of_ne (by omega)]
  have hval : val m₃ = val t - prime := by
    rw [val, hints₃, value_update (by omega), update_of_ne (by omega), value_update (by omega), value_succ,
      h₁.value_eq, ← value_primeLimb, val, ← value_sub, value_succ 15, hz, hmask]
    have hprime : primeLimb 15 = 32767 := rfl
    rw [hprime]
    ring
  -- the sign of the top limb is the sign of the difference
  have hsign : ints m₂ 15 < 0 ↔ val t < prime := by
    obtain ⟨hnonneg, hlt⟩ := value_digits hdigits
    have hsucc : val m₃ = value 65536 15 (ints m₃) + ints m₃ 15 * 65536 ^ 15 := rfl
    omega
  refine bind (Long.sub_returns (x := 1) rfl (toInt_borrow m₂ 15) (by omega)) fun w hw => ?_
  have hbit : w = if (decide (prime ≤ val t) : Bool) then 1 else 0 := by
    apply Int64.toInt_inj.mp
    by_cases hless : val t < prime
    · rw [hw, decide_eq_false (by omega), if_neg Bool.false_ne_true, Int64.toInt_zero]
      omega
    · rw [hw, decide_eq_true (by omega), if_pos rfl, Int64.toInt_one]
      omega
  rw [hbit, select_eq]
  apply Returns.pure
  by_cases hless : val t < prime
  · rw [decide_eq_false (by omega), if_neg Bool.false_ne_true, if_pos hless]
    exact ⟨ht, rfl⟩
  · rw [decide_eq_true (by omega), if_pos rfl, if_neg hless]
    refine ⟨?_, hval⟩
    intro i hi
    by_cases htop15 : i = 15
    · rw [htop15, htop₃]
      omega
    · exact hdigits i (by omega)

lemma carry_thrice {o : Limbs} {x : Element} (h : Rep (2 ^ 17) o x) :
    Returns (do let t ← carry o; let t ← carry t; carry t) fun t => Digits t ∧ (val t : Element) = x := by
  have hdiv := ediv_of_bounded h.bounded
  refine bind (carry_returns h.bounded (by norm_num) (by norm_num)) fun o₁ h₁ => ?_
  have hval₁ := h₁.val_eq
  have hbounded₁ := h₁.bounded hdiv
  have hdiv₁ := ediv_of_bounded hbounded₁
  refine bind (carry_returns hbounded₁ (by norm_num) (by norm_num)) fun o₂ h₂ => ?_
  have hval₂ := h₂.val_eq
  have hbounded₂ := h₂.bounded hdiv₁
  rw [abs_le] at hdiv hdiv₁
  refine (carry_returns hbounded₂ (by norm_num) (by norm_num)).mono fun t h₃ => ?_
  constructor
  · have hnone : val o₂ / 2 ^ 256 = 0 := by omega
    have hfirst := h₃.first
    rw [hnone, mul_zero, sub_zero] at hfirst
    intro i hi
    by_cases hzero : i = 0
    · rw [hzero]
      exact hfirst
    · exact h₃.digits i (by omega) hi
  · rw [h₃.cast_eq, h₂.cast_eq, h₁.cast_eq, h.val_eq]

lemma ofLe_packed {t : Limbs} (h : Digits t) :
    ofLe ((List.range 16).flatMap fun i =>
      [(wordAt t i &&& 0xff).toUInt64.toUInt8, (wordAt t i >>> 8).toUInt64.toUInt8]) = val t := by
  have hmask : (0xff : Int64) = Int64.ofNat (2 ^ 8 - 1) := by decide
  apply ofLe_flatMap
  intro i hi
  obtain ⟨hlow, hhigh⟩ := h i hi
  rw [Long.toNat_toUInt8, Long.toNat_toUInt8, hmask, Long.toInt_and_mask _ (by decide),
    Long.toInt_shr (k := 8) rfl, toInt_wordAt]
  omega

lemma pack_returns {n : Limbs} {x : Element} (h : Rep (2 ^ 17) n x) :
    Returns (pack n) fun q => q.length = 32 ∧ ofLe q < prime ∧ (ofLe q : Element) = x := by
  have hpack : pack n = (do let t ← carry n; let t ← carry t; carry t) >>= fun t =>
      reduceStep t zeros >>= fun r => reduceStep r.1 r.2 >>= fun r =>
        some ((List.range 16).flatMap fun i =>
          [(wordAt r.1 i &&& 0xff).toUInt64.toUInt8, (wordAt r.1 i >>> 8).toUInt64.toUInt8]) := by
    simp only [pack, bind_assoc]
  have hprime : (prime : ℤ) = 2 ^ 255 - 19 := by
    rw [prime]
    norm_num
  rw [hpack]
  refine bind (carry_thrice h) fun t ht => ?_
  obtain ⟨hdigits, hcast⟩ := ht
  have hrange := hdigits.val_lt
  refine bind (reduceStep_returns hdigits zeros) fun r₁ h₁ => ?_
  refine bind (reduceStep_returns h₁.1 r₁.2) fun r₂ h₂ => pure ?_
  have hpacked := ofLe_packed h₂.1
  have hlt : val r₂.1 < prime := by
    have hfirst := h₁.2
    have hsecond := h₂.2
    split at hfirst <;> split at hsecond <;> omega
  have hsame : (val r₂.1 : Element) = val t := by
    have hcast₂ : ∀ V : ℤ, ((if V < prime then V else V - prime : ℤ) : Element) = V := by
      intro V
      split
      · rfl
      · rw [Int.cast_sub, Int.cast_natCast, ZMod.natCast_self, sub_zero]
    rw [h₂.2, hcast₂, h₁.2, hcast₂]
  refine ⟨rfl, ?_, ?_⟩
  · rw [← hpacked] at hlt
    exact Int.ofNat_lt.mp hlt
  · rw [← Int.cast_natCast, hpacked, hsame, hcast]

def maskTop (n : Bytes) : Bytes := n.set 31 (byteAt n 31 &&& 127)

lemma byteAt_set_self {n : Bytes} {k : ℕ} (h : k < n.length) (b : UInt8) : byteAt (n.set k b) k = b := by
  rw [byteAt_eq_getD, List.getElem?_set_self h]
  rfl

lemma byteAt_set_ne {n : Bytes} {j k : ℕ} (h : k ≠ j) (b : UInt8) : byteAt (n.set k b) j = byteAt n j := by
  rw [byteAt_eq_getD, List.getElem?_set_ne h, ← byteAt_eq_getD]

lemma toNat_and_mask (b : UInt8) : (b &&& 127).toNat = b.toNat % 128 := by
  exact Nat.and_two_pow_sub_one_eq_mod b.toNat 7

lemma toInt_ofByte (b : UInt8) : (Int64.ofNat b.toNat).toInt = b.toNat := by
  have hb := b.toNat_lt
  exact Int64.toInt_ofNat_of_lt (by omega)

lemma unpack_returns {n : Bytes} (h : n.length = 32) :
    Returns (unpack n) fun o => Rep (2 ^ 17) o (ofLe (maskTop n) : ℕ) := by
  have hfill : Returns (fill 16 fun i => do
      Long.add (Int64.ofNat (byteAt n (2 * i)).toNat) (← Long.shl (Int64.ofNat (byteAt n (2 * i + 1)).toNat) 8))
      fun o => ∀ i < 16, ints o i = (byteAt n (2 * i)).toNat + (byteAt n (2 * i + 1)).toNat * 2 ^ 8 := by
    apply fill_returns
    intro i _
    have hlow := (byteAt n (2 * i)).toNat_lt
    have hhigh := (byteAt n (2 * i + 1)).toNat_lt
    refine bind (Long.shl_returns (toInt_ofByte _) (by omega)) fun x hx => ?_
    exact Long.add_returns (toInt_ofByte _) hx (by omega)
  refine bind hfill fun o ho => pure ?_
  have hmask : (0x7fff : Int64) = Int64.ofNat (2 ^ 15 - 1) := by decide
  have hlimbs : ∀ i < 16, ints (o.setIfInBounds 15 (wordAt o 15 &&& 0x7fff)) i =
      (byteAt (maskTop n) (2 * i)).toNat + 256 * (byteAt (maskTop n) (2 * i + 1)).toNat := by
    intro i hi
    rw [ints_set (by omega), hmask, Long.toInt_and_mask _ (by decide), toInt_wordAt, maskTop,
      byteAt_set_ne (by omega)]
    by_cases htop : i = 15
    · have hlow := (byteAt n (2 * 15)).toNat_lt
      have hindex : 2 * 15 + 1 = 31 := rfl
      subst htop
      rw [hindex, update_self, ho 15 (by omega), hindex, byteAt_set_self (by omega), toNat_and_mask]
      omega
    · rw [update_of_ne htop, ho i hi, byteAt_set_ne (by omega)]
      ring
  constructor
  · intro i hi
    have hlow := (byteAt (maskTop n) (2 * i)).toNat_lt
    have hhigh := (byteAt (maskTop n) (2 * i + 1)).toNat_lt
    rw [hlimbs i hi, abs_le]
    omega
  · have hlen : (maskTop n).length = 2 * 16 := by
      rw [maskTop, List.length_set, h]
    rw [val, value_congr hlimbs, value_pairs hlen, Int.cast_natCast]

end AurixVoice.Unity.X25519
