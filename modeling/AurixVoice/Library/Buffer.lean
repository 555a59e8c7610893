import Mathlib.Data.List.Basic
import Mathlib.Data.Vector.Defs
import Mathlib.Tactic.Ring

/-! Big-endian integers at the front of a byte buffer. -/

namespace AurixVoice

open List hiding Vector

def toBe : ℕ → ℕ → List UInt8
  | 0, _ => []
  | k + 1, n => UInt8.ofNat (n / 256 ^ k) :: toBe k n

def ofBe : List UInt8 → ℕ
  | [] => 0
  | b :: bytes => b.toNat * 256 ^ bytes.length + ofBe bytes

variable {buf done src : List UInt8} {off : ℕ} (bytes : List UInt8) (k : ℕ)

@[simp] lemma length_toBe (n : ℕ) : (toBe k n).length = k := by
  induction k with
  | zero => rfl
  | succ k ih => simp [toBe, ih]

lemma ofBe_lt : ofBe bytes < 256 ^ bytes.length := by
  induction bytes with
  | nil => decide
  | cons b bytes =>
    rw [ofBe, length_cons, pow_succ']
    have hb := b.toNat_lt
    have hle : b.toNat * 256 ^ bytes.length ≤ 255 * 256 ^ bytes.length :=
      Nat.mul_le_mul_right _ (by omega)
    omega

lemma ofBe_toBe (n : ℕ) : ofBe (toBe k n) = n % 256 ^ k := by
  induction k with
  | zero => simp [toBe, ofBe, Nat.mod_one]
  | succ k ih =>
    have hmod : n % 256 ^ (k + 1) = n % 256 ^ k + 256 ^ k * (n / 256 ^ k % 256) := Nat.mod_mul
    rw [toBe, ofBe, ih, length_toBe, UInt8.toNat_ofNat', hmod, add_comm, mul_comm]

lemma toBe_add (m n : ℕ) : toBe k (m * 256 ^ k + n) = toBe k n := by
  induction k generalizing m with
  | zero => rfl
  | succ k ih =>
    have hhead : UInt8.ofNat ((m * 256 ^ (k + 1) + n) / 256 ^ k) = UInt8.ofNat (n / 256 ^ k) := by
      have hsplit : m * 256 ^ (k + 1) + n = n + 256 ^ k * (m * 256) := by ring
      rw [hsplit, Nat.add_mul_div_left _ _ (Nat.pow_pos (by decide)), UInt8.ofNat_add]
      have hzero : UInt8.ofNat (m * 256) = 0 := by
        apply UInt8.toNat_inj.mp
        exact Nat.mul_mod_left m 256
      rw [hzero, UInt8.add_zero]
    rw [toBe, toBe, hhead]
    have hsplit : m * 256 ^ (k + 1) + n = m * 256 * 256 ^ k + n := by ring
    rw [hsplit, ih]

lemma toBe_ofBe : toBe bytes.length (ofBe bytes) = bytes := by
  induction bytes with
  | nil => rfl
  | cons b bytes ih =>
    rw [length_cons, toBe, ofBe, toBe_add, ih, mul_comm, Nat.mul_add_div (Nat.pow_pos (by decide)),
      Nat.div_eq_of_lt (ofBe_lt bytes), add_zero, UInt8.ofNat_toNat]

def putU16 (n : UInt16) : List UInt8 := toBe 2 n.toNat
def putU32 (n : UInt32) : List UInt8 := toBe 4 n.toNat
def putU64 (n : UInt64) : List UInt8 := toBe 8 n.toNat

def getU8 (buf : List UInt8) : UInt8 × List UInt8 := (buf.headD 0, buf.drop 1)
def getU16 (buf : List UInt8) : UInt16 × List UInt8 := (UInt16.ofNat (ofBe (buf.take 2)), buf.drop 2)
def getU32 (buf : List UInt8) : UInt32 × List UInt8 := (UInt32.ofNat (ofBe (buf.take 4)), buf.drop 4)
def getU64 (buf : List UInt8) : UInt64 × List UInt8 := (UInt64.ofNat (ofBe (buf.take 8)), buf.drop 8)

@[simp] lemma length_putU16 (n : UInt16) : (putU16 n).length = 2 := length_toBe 2 _
@[simp] lemma length_putU32 (n : UInt32) : (putU32 n).length = 4 := length_toBe 4 _
@[simp] lemma getU8_cons (b : UInt8) (rest : List UInt8) : getU8 (b :: rest) = (b, rest) := rfl

lemma ofBe_take_put {k n : ℕ} (h : n < 256 ^ k) (rest : List UInt8) :
    ofBe ((toBe k n ++ rest).take k) = n ∧ (toBe k n ++ rest).drop k = rest := by
  rw [take_left' (length_toBe k n), drop_left' (length_toBe k n), ofBe_toBe, Nat.mod_eq_of_lt h]
  exact ⟨rfl, rfl⟩

@[simp] lemma getU16_put (n : UInt16) (rest : List UInt8) : getU16 (putU16 n ++ rest) = (n, rest) := by
  obtain ⟨htake, hdrop⟩ := ofBe_take_put (k := 2) n.toNat_lt rest
  rw [getU16, putU16, htake, hdrop, UInt16.ofNat_toNat]

@[simp] lemma getU32_put (n : UInt32) (rest : List UInt8) : getU32 (putU32 n ++ rest) = (n, rest) := by
  obtain ⟨htake, hdrop⟩ := ofBe_take_put (k := 4) n.toNat_lt rest
  rw [getU32, putU32, htake, hdrop, UInt32.ofNat_toNat]

lemma toBe_take {k : ℕ} (h : k ≤ buf.length) : toBe k (ofBe (buf.take k)) = buf.take k := by
  have hlen : (buf.take k).length = k := length_take_of_le h
  have hput := toBe_ofBe (buf.take k)
  rwa [hlen] at hput

lemma ofBe_take_lt {k : ℕ} (h : k ≤ buf.length) : ofBe (buf.take k) < 256 ^ k := by
  have hlen : (buf.take k).length = k := length_take_of_le h
  have hlt := ofBe_lt (buf.take k)
  rwa [hlen] at hlt

lemma put_getU8 (h : 1 ≤ buf.length) : (getU8 buf).1 :: (getU8 buf).2 = buf := by
  cases buf with
  | nil => exact absurd h (by decide)
  | cons => rfl

lemma put_getU16 (h : 2 ≤ buf.length) : putU16 (getU16 buf).1 ++ (getU16 buf).2 = buf := by
  have hlt : ofBe (buf.take 2) < 2 ^ 16 := ofBe_take_lt h
  rw [getU16, putU16, UInt16.toNat_ofNat', Nat.mod_eq_of_lt hlt, toBe_take h, take_append_drop]

lemma put_getU32 (h : 4 ≤ buf.length) : putU32 (getU32 buf).1 ++ (getU32 buf).2 = buf := by
  have hlt : ofBe (buf.take 4) < 2 ^ 32 := ofBe_take_lt h
  rw [getU32, putU32, UInt32.toNat_ofNat', Nat.mod_eq_of_lt hlt, toBe_take h, take_append_drop]

def byteAt (buf : List UInt8) (off : ℕ) : UInt8 := (getU8 (buf.drop off)).1
def u16At (buf : List UInt8) (off : ℕ) : UInt16 := (getU16 (buf.drop off)).1
def u32At (buf : List UInt8) (off : ℕ) : UInt32 := (getU32 (buf.drop off)).1

def slice (buf : List UInt8) (off len : ℕ) : List UInt8 := (buf.drop off).take len

def blit (buf : List UInt8) (off : ℕ) (src : List UInt8) : List UInt8 :=
  buf.take off ++ src ++ buf.drop (off + src.length)

lemma blit_append {rest : List UInt8} (hoff : done.length = off) :
    blit (done ++ rest) off src = done ++ src ++ rest.drop src.length := by
  subst hoff
  rw [blit, take_left, ← drop_drop, drop_left]

lemma blit_zero (rest src : List UInt8) : blit rest 0 src = src ++ rest.drop src.length := by
  rw [blit, take_zero, nil_append, zero_add]

lemma blit_over {old rest : List UInt8} (hoff : done.length = off) (hlen : old.length = src.length) :
    blit (done ++ (old ++ rest)) off src = done ++ (src ++ rest) := by
  rw [blit_append hoff, ← hlen, drop_left, append_assoc]

lemma blit_zeros {before after : ℕ} (src : List UInt8) :
    blit (replicate (before + src.length + after) 0) before src =
      replicate before 0 ++ (src ++ replicate after 0) := by
  rw [add_assoc, replicate_add, replicate_add]
  exact blit_over length_replicate length_replicate

lemma slice_append {rest : List UInt8} {len : ℕ} (hoff : done.length = off) (hlen : src.length = len) :
    slice (done ++ (src ++ rest)) off len = src := by
  subst hoff hlen
  rw [slice, drop_left, take_left]

lemma ofFn_getD_xor {n : ℕ} {bytes : List UInt8} (h : bytes.toArray.size = n) (v : Vector UInt8 n) :
    (Vector.ofFn fun i => bytes.getD i 0 ^^^ v.get i) = Vector.zipWith (· ^^^ ·) ⟨bytes.toArray, h⟩ v := by
  apply Vector.ext
  intro i hi
  have hlen : i < bytes.length := by
    rw [size_toArray] at h
    omega
  rw [Vector.getElem_ofFn, Vector.getElem_zipWith, getD_eq_getElem?_getD, getElem?_eq_getElem hlen]
  rfl

lemma byteAt_eq_getD (i : ℕ) : byteAt bytes i = bytes[i]?.getD 0 := by
  rw [byteAt, getU8, headD_eq_head?_getD, head?_drop]

lemma zipWith_eq_map_range {f : UInt8 → UInt8 → UInt8} {a b : List UInt8} {n : ℕ} (ha : a.length = n)
    (hb : b.length = n) : zipWith f a b = (range n).map fun i => f (byteAt a i) (byteAt b i) := by
  apply ext_getElem
  · simp [ha, hb]
  · intro i hi hi'
    rw [getElem_zipWith, getElem_map, getElem_range, byteAt_eq_getD, byteAt_eq_getD,
      getElem?_eq_getElem (by simp_all), getElem?_eq_getElem (by simp_all)]
    rfl

lemma foldl_or_eq_zero (xs : List UInt8) (d : UInt8) : xs.foldl (· ||| ·) d = 0 ↔ d = 0 ∧ ∀ x ∈ xs, x = 0 := by
  induction xs generalizing d with
  | nil => simp
  | cons x xs ih => rw [foldl_cons, ih, UInt8.or_eq_zero_iff, forall_mem_cons, and_assoc]

lemma zipWith_xor_zero {xs ys : List UInt8} (h : xs.length = ys.length) :
    (zipWith (· ^^^ ·) xs ys).foldl (· ||| ·) 0 = 0 ↔ xs = ys := by
  rw [foldl_or_eq_zero]
  induction xs generalizing ys with
  | nil =>
    cases ys with
    | nil => simp
    | cons => cases h
  | cons x xs ih =>
    cases ys with
    | nil => cases h
    | cons =>
      have hrest := ih (Nat.succ.inj h)
      simp only [true_and] at hrest
      simp only [zipWith_cons_cons, forall_mem_cons, UInt8.xor_eq_zero_iff, true_and, hrest, cons.injEq]

end AurixVoice
