import AurixVoice.Library.Buffer

/-! Counter mode of a 16-byte block cipher: the keystream by definition, and as a loop over a counter block. -/

namespace AurixVoice

open List hiding Vector

abbrev Block := Vector UInt8 16

def counterBlock (iv : Block) (n : ℕ) : Block := ⟨(toBe 16 (ofBe iv.toList + n)).toArray, by simp⟩

def ctrKeystream (cipher : Block → Block) (iv : Block) (i : ℕ) : UInt8 :=
  (cipher (counterBlock iv (i / 16))).get ⟨i % 16, Nat.mod_lt i (by decide)⟩

def bumpReversed : List UInt8 → List UInt8
  | [] => []
  | b :: rest => if b + 1 ≠ 0 then (b + 1) :: rest else 0 :: bumpReversed rest

variable (bytes : List UInt8) (cipher : Block → Block)

@[simp] lemma length_bumpReversed : (bumpReversed bytes).length = bytes.length := by
  induction bytes with
  | nil => rfl
  | cons b rest ih =>
    unfold bumpReversed
    split
    · rfl
    · rw [length_cons, ih, length_cons]

def nextBlock (block : Block) : Block := ⟨(bumpReversed block.toList.reverse).reverse.toArray, by simp⟩

lemma ofBe_concat (b : UInt8) : ofBe (bytes ++ [b]) = ofBe bytes * 256 + b.toNat := by
  induction bytes with
  | nil => simp [ofBe]
  | cons a bytes ih =>
    rw [cons_append, ofBe, ofBe, ih, length_append, length_singleton, pow_succ]
    ring

lemma ofBe_bumpReversed : ofBe (bumpReversed bytes).reverse = (ofBe bytes.reverse + 1) % 256 ^ bytes.length := by
  induction bytes with
  | nil => rfl
  | cons b rest ih =>
    have hlt := ofBe_lt rest.reverse
    have hb := b.toNat_lt
    rw [length_reverse] at hlt
    rw [reverse_cons, ofBe_concat, length_cons, pow_succ]
    unfold bumpReversed
    split
    next hcarry =>
      have hsum : (b + 1).toNat = b.toNat + 1 := by
        rw [UInt8.toNat_add, UInt8.toNat_one]
        have : b.toNat ≠ 255 := by
          intro h
          apply hcarry
          apply UInt8.toNat_inj.mp
          rw [UInt8.toNat_add, h]
          rfl
        omega
      have hsmall : (b + 1).toNat < 256 := (b + 1).toNat_lt
      rw [reverse_cons, ofBe_concat, hsum, Nat.mod_eq_of_lt, add_assoc]
      omega
    next hcarry =>
      have hfull : b.toNat = 255 := by
        have hzero := congrArg UInt8.toNat (not_not.mp hcarry)
        rw [UInt8.toNat_add, UInt8.toNat_one, UInt8.toNat_zero] at hzero
        omega
      have hsum : ofBe rest.reverse * 256 + b.toNat + 1 = (ofBe rest.reverse + 1) * 256 := by omega
      rw [reverse_cons, ofBe_concat, ih, hsum, Nat.mul_mod_mul_right, UInt8.toNat_zero, add_zero]

lemma toBe_mod (k n : ℕ) : toBe k (n % 256 ^ k) = toBe k n := by
  conv_rhs => rw [← Nat.div_add_mod n (256 ^ k), mul_comm, toBe_add]

section

variable (iv : Block) (n : ℕ)

lemma ofBe_counterBlock : ofBe (counterBlock iv n).toList = (ofBe iv.toList + n) % 256 ^ 16 := ofBe_toBe 16 _

lemma nextBlock_counterBlock : nextBlock (counterBlock iv n) = counterBlock iv (n + 1) := by
  apply Vector.toList_inj.mp
  have hnext : ofBe (nextBlock (counterBlock iv n)).toList =
      (ofBe (counterBlock iv n).toList + 1) % 256 ^ 16 := by
    have hbump := ofBe_bumpReversed (counterBlock iv n).toList.reverse
    exact hbump
  have hbytes := toBe_ofBe (nextBlock (counterBlock iv n)).toList
  rw [Vector.length_toList, hnext, ofBe_counterBlock, Nat.mod_add_mod, toBe_mod] at hbytes
  exact hbytes.symm

lemma counterBlock_zero : counterBlock iv 0 = iv := by
  apply Vector.toList_inj.mp
  have hbytes := toBe_ofBe iv.toList
  rw [Vector.length_toList] at hbytes
  exact hbytes

lemma ofBe_block (a : Block) : ofBe a.toList = ofBe (a.toList.take 14) * 65536 + a[14].toNat * 256 + a[15].toNat := by
  have hsplit : a.toList = a.toList.take 14 ++ [a[14]] ++ [a[15]] := by
    apply ext_getElem (by simp)
    intro i hi _
    simp only [append_assoc, getElem_append]
    split
    · simp
    · obtain rfl | rfl : i = 14 ∨ i = 15 := by simp at *; omega
      · simp
      · simp
  conv_lhs => rw [hsplit, ofBe_concat, ofBe_concat]
  ring

lemma eq_of_counterBlock_eq {a b : Block} (h14 : a[14] = b[14]) (h15 : a[15] = b[15]) {i j : ℕ} (hi : i < 65536)
    (hj : j < 65536) (h : counterBlock a i = counterBlock b j) : a = b := by
  have hnumber : (ofBe a.toList + i) % 256 ^ 16 = (ofBe b.toList + j) % 256 ^ 16 := by
    rw [← ofBe_counterBlock, ← ofBe_counterBlock, h]
  have ha : ofBe (a.toList.take 14) < 256 ^ 14 := ofBe_take_lt (by simp)
  have hb : ofBe (b.toList.take 14) < 256 ^ 14 := ofBe_take_lt (by simp)
  have hsame : ofBe a.toList = ofBe b.toList := by
    have ha' := ofBe_block a
    have hb' := ofBe_block b
    rw [h14, h15] at ha'
    omega
  rw [← counterBlock_zero a, ← counterBlock_zero b]
  simp [counterBlock, hsame]

lemma nextBlock_iterate : nextBlock^[n] iv = counterBlock iv n := by
  induction n with
  | zero => exact (counterBlock_zero iv).symm
  | succ n ih => rw [Function.iterate_succ_apply', ih, nextBlock_counterBlock]

end

def blockStream (cipher : Block → Block) (iv : Block) (blocks : ℕ) : List UInt8 :=
  (range blocks).flatMap fun b => (cipher (nextBlock^[b] iv)).toList

lemma length_blockStream (iv : Block) (blocks : ℕ) : (blockStream cipher iv blocks).length = 16 * blocks := by
  induction blocks with
  | zero => rfl
  | succ n ih =>
    unfold blockStream at ih ⊢
    rw [range_succ, flatMap_append, length_append, ih, flatMap_singleton, Vector.length_toList]
    omega

lemma getElem?_blockStream (iv : Block) {blocks i : ℕ} (h : i < 16 * blocks) :
    (blockStream cipher iv blocks)[i]? = some (ctrKeystream cipher iv i) := by
  induction blocks with
  | zero => exact absurd h (by omega)
  | succ n ih =>
    have hlen := length_blockStream cipher iv n
    have hstream : blockStream cipher iv (n + 1) =
        blockStream cipher iv n ++ (cipher (nextBlock^[n] iv)).toList := by
      unfold blockStream
      rw [range_succ, flatMap_append, flatMap_singleton]
    rw [hstream]
    by_cases hi : i < 16 * n
    · rw [getElem?_append_left (by omega), ih hi]
    · have hdiv : i / 16 = n := by omega
      have hmod : i - 16 * n = i % 16 := by omega
      rw [getElem?_append_right (by omega), hlen, hmod, nextBlock_iterate, ctrKeystream, hdiv,
        getElem?_eq_getElem (by rw [Vector.length_toList]; omega)]
      rfl

lemma zipWith_blockStream (iv : Block) (data : List UInt8) :
    zipWith (· ^^^ ·) data (blockStream cipher iv ((data.length + 15) / 16)) =
      data.mapIdx fun i b => b ^^^ ctrKeystream cipher iv i := by
  apply ext_getElem?
  intro i
  rw [getElem?_zipWith, getElem?_mapIdx]
  by_cases hi : i < data.length
  · rw [getElem?_blockStream cipher iv (by omega), getElem?_eq_getElem hi]
    rfl
  · rw [getElem?_eq_none (by omega)]
    rfl

end AurixVoice
