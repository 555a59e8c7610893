import AurixVoice.Unity.ScalarMult
import AurixVoice.Web.X25519

namespace AurixVoice.Web.X25519

open List

open Curve25519 (prime Element)

lemma p25519_eq : p25519 = prime := by
  rw [p25519, prime]
  norm_num

lemma cast_tmod (a : ℤ) : ((a.tmod p25519 : ℤ) : Element) = a := by
  have hsplit := Int.tmod_add_mul_tdiv a p25519
  have hcast := congrArg (Int.cast : ℤ → Element) hsplit
  rw [Int.cast_add, Int.cast_mul, p25519_eq, Int.cast_natCast, ZMod.natCast_self, zero_mul, add_zero] at hcast
  exact hcast

lemma cast_mod (a : ℤ) : ((mod a : ℤ) : Element) = a := by
  unfold mod
  dsimp only
  split
  · rw [Int.cast_add, cast_tmod, p25519_eq, Int.cast_natCast, ZMod.natCast_self, add_zero]
  · exact cast_tmod a

lemma p25519_pos : 0 < p25519 := by decide +kernel

lemma mod_nonneg (a : ℤ) : 0 ≤ mod a := by
  have hlow := Int.lt_tmod_of_pos a p25519_pos
  unfold mod
  dsimp only
  split <;> omega

lemma powModLoop_spec (e : ℕ) {result b : ℤ} (hr : 0 ≤ result) (hb : 0 ≤ b) :
    0 ≤ powModLoop result b e ∧ ((powModLoop result b e : ℤ) : Element) = result * b ^ e := by
  induction e using Nat.strongRecOn generalizing result b with
  | _ e ih =>
    rw [powModLoop]
    by_cases hzero : e = 0
    · rw [if_pos hzero, hzero, pow_zero, mul_one]
      exact ⟨hr, rfl⟩
    · have hhalf : e >>> 1 = e / 2 := Nat.shiftRight_eq_div_pow e 1
      have hsquare : 0 ≤ (b * b).tmod p25519 := Int.tmod_nonneg _ (mul_nonneg hb hb)
      rw [if_neg hzero, hhalf, Nat.and_one_is_mod]
      rcases Nat.mod_two_eq_zero_or_one e with heven | hodd
      · obtain ⟨hnonneg, hcast⟩ := ih (e / 2) (by omega) hr hsquare
        have hsplit : e = 2 * (e / 2) := by omega
        rw [heven, if_neg (by decide)]
        refine ⟨hnonneg, ?_⟩
        rw [hcast, cast_tmod, Int.cast_mul, ← sq, ← pow_mul, ← hsplit]
      · have hproduct : 0 ≤ (result * b).tmod p25519 := Int.tmod_nonneg _ (mul_nonneg hr hb)
        obtain ⟨hnonneg, hcast⟩ := ih (e / 2) (by omega) hproduct hsquare
        have hsplit : e = 2 * (e / 2) + 1 := by omega
        rw [hodd, if_pos (by decide)]
        refine ⟨hnonneg, ?_⟩
        rw [hcast, cast_tmod, cast_tmod, Int.cast_mul, Int.cast_mul, ← sq, ← pow_mul, mul_assoc, ← pow_succ',
          ← hsplit]

def Points.cast (s : Points) : Curve25519.Points := ⟨s.x2, s.z2, s.x3, s.z3⟩

lemma cast_ladderStep (x1 : ℤ) (s : Points) : (ladderStep x1 s).cast = s.cast.step x1 := by
  simp [ladderStep, Points.cast, Curve25519.Points.step, cast_tmod, cast_mod, a24, sq]

lemma cast_swap (s : Points) (b : Bool) : (if b.toNat = 1 then s.swap else s).cast = s.cast.swapIf b := by
  cases b <;> rfl

lemma bit_eq (kn t : ℕ) : (kn >>> t) &&& 1 = (kn.testBit t).toNat := by
  rw [Nat.and_one_is_mod, Nat.shiftRight_eq_div_pow, Nat.toNat_testBit]

lemma cast_ladder (x1 : ℤ) (kn n : ℕ) (b : Bool) (s : Points) :
    ∃ c : Bool, (ladder x1 kn n b.toNat s).1 = c.toNat ∧
      (ladder x1 kn n b.toNat s).2.cast.swapIf c =
        Curve25519.Points.ladder x1 kn.testBit n (s.cast.swapIf b) := by
  induction n generalizing b s with
  | zero => exact ⟨b, rfl, rfl⟩
  | succ t ih =>
    have hxor : b.toNat ^^^ (kn.testBit t).toNat = (b ^^ kn.testBit t).toNat := by
      cases b <;> cases kn.testBit t <;> rfl
    rw [ladder, Curve25519.Points.ladder, bit_eq, hxor]
    obtain ⟨c, hc, hcast⟩ := ih (kn.testBit t) (ladderStep x1 (if (b ^^ kn.testBit t).toNat = 1 then s.swap else s))
    refine ⟨c, hc, ?_⟩
    rw [hcast, cast_ladderStep, cast_swap, Curve25519.Points.swapIf_swapIf]

def Points.Nonneg (s : Points) : Prop := 0 ≤ s.x2 ∧ 0 ≤ s.z2 ∧ 0 ≤ s.x3 ∧ 0 ≤ s.z3

lemma Points.Nonneg.swap {s : Points} (h : s.Nonneg) (swap : ℕ) : (if swap = 1 then s.swap else s).Nonneg := by
  obtain ⟨hx2, hz2, hx3, hz3⟩ := h
  split
  · exact ⟨hx3, hz3, hx2, hz2⟩
  · exact ⟨hx2, hz2, hx3, hz3⟩

lemma ladderStep_nonneg {x1 : ℤ} (hx : 0 ≤ x1) (s : Points) : (ladderStep x1 s).Nonneg := by
  have hsquare : ∀ a : ℤ, 0 ≤ (a * a).tmod p25519 := fun a => Int.tmod_nonneg _ (mul_self_nonneg a)
  refine ⟨?_, ?_, hsquare _, ?_⟩
  · exact Int.tmod_nonneg _ (mul_nonneg (hsquare _) (hsquare _))
  · exact Int.tmod_nonneg _ (mul_nonneg (mod_nonneg _) (mod_nonneg _))
  · exact Int.tmod_nonneg _ (mul_nonneg hx (hsquare _))

lemma ladder_nonneg {x1 : ℤ} (hx : 0 ≤ x1) (kn n swap : ℕ) {s : Points} (h : s.Nonneg) :
    (ladder x1 kn n swap s).2.Nonneg := by
  induction n generalizing swap s with
  | zero => exact h
  | succ t ih => exact ih _ (ladderStep_nonneg hx _)

lemma decodeLittleEndian_eq (b : Bytes) : decodeLittleEndian b = ofLe b := by
  induction b with
  | nil => rfl
  | cons b bytes ih =>
    have hb : b.toNat < 2 ^ 8 := b.toNat_lt
    change (decodeLittleEndian bytes <<< 8) ||| b.toNat = _
    rw [← Nat.shiftLeft_add_eq_or_of_lt hb, ih, Nat.shiftLeft_eq, ofLe]
    omega

lemma encodeLoop_ofLe (bytes : Bytes) : encodeLoop bytes.length (ofLe bytes) = bytes := by
  induction bytes with
  | nil => rfl
  | cons b bytes ih =>
    have hb := b.toNat_lt
    have hlow : ((ofLe (b :: bytes) : ℕ) % 256 : ℤ).toNat = b.toNat := by
      rw [ofLe]
      omega
    have hhigh : ((ofLe (b :: bytes) : ℕ) : ℤ) >>> (8 : ℕ) = (ofLe bytes : ℕ) := by
      rw [Int.shiftRight_eq_div_pow, ofLe]
      omega
    rw [length_cons, encodeLoop, hlow, hhigh, ih, UInt8.ofNat_toNat]

lemma clamp_eq (scalar : Bytes) : Unity.X25519.clamp scalar = clamp scalar := by
  have hfirst : byteAt (scalar.set 31 ((byteAt scalar 31 &&& 127) ||| 64)) 0 = byteAt scalar 0 :=
    Unity.X25519.byteAt_set_ne (by decide) _
  have hlast : (scalar.set 0 (scalar.getD 0 0 &&& 248)).getD 31 0 = scalar.getD 31 0 := by
    rw [getD_eq_getElem?_getD, getElem?_set_ne (by decide), ← getD_eq_getElem?_getD]
  unfold Unity.X25519.clamp clamp
  dsimp only
  rw [hfirst, hlast, set_comm _ _ (by decide), byteAt_eq_getD, byteAt_eq_getD, getD_eq_getElem?_getD,
    getD_eq_getElem?_getD]

lemma maskTop_eq (u : Bytes) : Unity.X25519.maskTop u = maskTop u := by
  rw [Unity.X25519.maskTop, maskTop, byteAt_eq_getD, getD_eq_getElem?_getD]

lemma powMod_spec (base : ℤ) :
    0 ≤ powMod base (p25519 - 2).toNat ∧ ((powMod base (p25519 - 2).toNat : ℤ) : Element) = base ^ (prime - 2) := by
  have hexponent : (p25519 - 2).toNat = prime - 2 := by decide +kernel
  obtain ⟨hnonneg, hcast⟩ := powModLoop_spec (prime - 2) zero_le_one (mod_nonneg base)
  rw [cast_mod, Int.cast_one, one_mul] at hcast
  exact ⟨hnonneg, hcast⟩

lemma quotient_eq {s : Points} {n : ℕ} (hs : s.Nonneg) (hn : n < prime)
    (h : (n : Element) = s.x2 * (s.z2 : Element) ^ (prime - 2)) :
    (s.x2 * powMod s.z2 (p25519 - 2).toNat).tmod p25519 = n := by
  obtain ⟨hnonneg, hcast⟩ := powMod_spec s.z2
  apply Curve25519.eq_of_cast (Int.tmod_nonneg _ (mul_nonneg hs.1 hnonneg)) _ hn
  · rw [cast_tmod, Int.cast_mul, hcast, h]
  · exact Int.tmod_lt_of_pos _ p25519_pos

lemma product_eq (scalar u : Bytes) {q : Bytes} (hlen : q.length = 32) (hlt : ofLe q < prime)
    (hq : (ofLe q : Element) = Curve25519.multiply (ofLe (clamp scalar)) (ofLe (maskTop u) : ℕ)) :
    product scalar u = q := by
  unfold product
  dsimp only
  rw [decodeLittleEndian_eq, decodeLittleEndian_eq]
  have hx1 := mod_nonneg (ofLe (maskTop u))
  have hcast1 := cast_mod (ofLe (maskTop u))
  generalize mod (ofLe (maskTop u)) = x1 at hx1 hcast1 ⊢
  have hstart : Points.Nonneg ⟨1, 0, x1, 1⟩ := ⟨zero_le_one, le_rfl, hx1, zero_le_one⟩
  have hpoints : Points.cast ⟨1, 0, x1, 1⟩ = ⟨1, 0, x1, 1⟩ := by
    rw [Points.cast, Int.cast_one, Int.cast_zero]
  have hnonneg := ladder_nonneg hx1 (ofLe (clamp scalar)) 255 0 hstart
  obtain ⟨c, hswap, hcast⟩ := cast_ladder x1 (ofLe (clamp scalar)) 255 false ⟨1, 0, x1, 1⟩
  have hfalse : false.toNat = 0 := rfl
  rw [hfalse] at hswap hcast
  generalize ladder x1 (ofLe (clamp scalar)) 255 0 ⟨1, 0, x1, 1⟩ = last at hnonneg hswap hcast ⊢
  have hfinal := hnonneg.swap last.1
  rw [hswap] at hfinal ⊢
  rw [← cast_swap] at hcast
  have hmultiply := Curve25519.multiply_of_ladder hcast
  rw [hcast1, Int.cast_natCast, ← hq] at hmultiply
  rw [quotient_eq hfinal hlt hmultiply, encodeLittleEndian, ← hlen, encodeLoop_ofLe]

end AurixVoice.Web.X25519

namespace AurixVoice.Sdk

/-- The limbs never overflow, and the bytes they give are those of the browser, which refuses exactly the
all-zero ones. -/
theorem x25519_agree {scalar point : List UInt8} (hscalar : scalar.length = 32) (hpoint : point.length = 32) :
    ∃ q : List UInt8, q.length = 32 ∧ Unity.X25519.scalarMult scalar point = .ok q ∧
      Web.X25519.x25519 scalar point =
        if q = List.replicate 32 0 then .error "low-order X25519 public key" else .ok q := by
  obtain ⟨q, hq, hlen, hlt, hcast⟩ := Unity.X25519.multiply_returns scalar hpoint
  rw [Web.X25519.clamp_eq, Web.X25519.maskTop_eq] at hcast
  have hproduct := Web.X25519.product_eq scalar point hlen hlt hcast
  refine ⟨q, hlen, ?_, ?_⟩
  · rw [Unity.X25519.scalarMult, if_neg (not_not.mpr hscalar), if_neg (not_not.mpr hpoint), hq]
  · have hzero : q.all (· = 0) = true ↔ q = List.replicate 32 0 := by
      rw [List.all_eq_true, ← hlen, List.eq_replicate_iff]
      simp
    rw [Web.X25519.x25519, if_neg (by omega), hproduct]
    by_cases hall : q = List.replicate 32 0
    · rw [if_pos hall]
      exact if_pos (hzero.mpr hall)
    · rw [if_neg hall]
      exact if_neg (mt hzero.mp hall)

def sampleScalar : List UInt8 := List.replicate 32 0x42

theorem x25519_agree_base :
    ∃ q : List UInt8, q.length = 32 ∧ Unity.X25519.scalarMult sampleScalar Unity.X25519.basePoint = .ok q ∧
      Web.X25519.x25519 sampleScalar Unity.X25519.basePoint =
        if q = List.replicate 32 0 then .error "low-order X25519 public key" else .ok q :=
  x25519_agree (by decide) (by decide)

end AurixVoice.Sdk
