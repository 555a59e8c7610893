import Mathlib.Data.UInt

/-! Reflected cyclic redundancy checks, bit by bit and by a table: shifting is linear. -/

namespace AurixVoice

variable {w : ℕ} (poly : BitVec w)

def crcShift (c : BitVec w) : BitVec w := if c.getLsbD 0 then poly ^^^ (c >>> 1) else c >>> 1

def crcOctet (c : BitVec w) : BitVec w := (crcShift poly)^[8] c

def crcBytes (c : BitVec w) (bytes : List (BitVec 8)) : BitVec w :=
  bytes.foldl (fun c b => crcOctet poly (c ^^^ b.setWidth w)) c

lemma crcShift_xor (c d : BitVec w) : crcShift poly (c ^^^ d) = crcShift poly c ^^^ crcShift poly d := by
  unfold crcShift
  rw [BitVec.getLsbD_xor, BitVec.ushiftRight_xor_distrib]
  cases c.getLsbD 0 <;> cases d.getLsbD 0
  · rfl
  · change poly ^^^ (c >>> 1 ^^^ d >>> 1) = c >>> 1 ^^^ (poly ^^^ d >>> 1)
    ac_rfl
  · exact (BitVec.xor_assoc ..).symm
  · have hcancel : poly ^^^ c >>> 1 ^^^ (poly ^^^ d >>> 1) = (poly ^^^ poly) ^^^ (c >>> 1 ^^^ d >>> 1) := by
      ac_rfl
    rw [BitVec.xor_self, BitVec.zero_xor] at hcancel
    exact hcancel.symm

lemma crcShift_iterate_xor (n : ℕ) (c d : BitVec w) :
    (crcShift poly)^[n] (c ^^^ d) = (crcShift poly)^[n] c ^^^ (crcShift poly)^[n] d := by
  induction n generalizing c d with
  | zero => rfl
  | succ n ih => rw [Function.iterate_succ_apply, crcShift_xor, ih]; rfl

lemma crcShift_iterate_of_low {n : ℕ} {c : BitVec w} (h : ∀ i < n, c.getLsbD i = false) :
    (crcShift poly)^[n] c = c >>> n := by
  induction n with
  | zero => rfl
  | succ n ih =>
    have hbit : (c >>> n).getLsbD 0 = false := by
      exact h n (by omega)
    rw [Function.iterate_succ_apply', ih fun i hi => h i (by omega), crcShift, hbit,
      if_neg Bool.false_ne_true, BitVec.shiftRight_add]

lemma crcOctet_split (c : BitVec w) : crcOctet poly c = crcOctet poly ((c.setWidth 8).setWidth w) ^^^ (c >>> 8) := by
  have hlow : ∀ i, ((c.setWidth 8).setWidth w).getLsbD i = (decide (i < 8) && c.getLsbD i) := by
    intro i
    by_cases hi : i < w
    · simp [hi]
    · simp [hi, BitVec.getLsbD_of_ge c i (by omega)]
  have hhigh : c = (c.setWidth 8).setWidth w ^^^ (c ^^^ (c.setWidth 8).setWidth w) := by
    have hswap : (c.setWidth 8).setWidth w ^^^ (c ^^^ (c.setWidth 8).setWidth w) =
        ((c.setWidth 8).setWidth w ^^^ (c.setWidth 8).setWidth w) ^^^ c := by ac_rfl
    rw [hswap, BitVec.xor_self, BitVec.zero_xor]
  have hclear : ∀ i < 8, (c ^^^ (c.setWidth 8).setWidth w).getLsbD i = false := by
    intro i hi
    rw [BitVec.getLsbD_xor, hlow, decide_eq_true hi, Bool.true_and, Bool.xor_self]
  have hrest : (c ^^^ (c.setWidth 8).setWidth w) >>> 8 = c >>> 8 := by
    apply BitVec.eq_of_getLsbD_eq
    intro i _
    rw [BitVec.getLsbD_ushiftRight, BitVec.getLsbD_xor, hlow, BitVec.getLsbD_ushiftRight,
      decide_eq_false (by omega), Bool.false_and, Bool.xor_false]
  conv_lhs => rw [hhigh]
  rw [crcOctet, crcShift_iterate_xor, crcShift_iterate_of_low poly hclear, hrest, crcOctet]

lemma crcBytes_of_table {table : BitVec 8 → BitVec w}
    (htable : ∀ b, table b = crcOctet poly (b.setWidth w)) (c : BitVec w) (bytes : List (BitVec 8)) :
    bytes.foldl (fun (c : BitVec w) b => table ((c ^^^ b.setWidth w).setWidth 8) ^^^ (c >>> 8)) c =
      crcBytes poly c bytes := by
  have hstep : ∀ (c : BitVec w) (b : BitVec 8),
      table ((c ^^^ b.setWidth w).setWidth 8) ^^^ (c >>> 8) = crcOctet poly (c ^^^ b.setWidth w) := by
    intro c b
    have hshift : (b.setWidth w) >>> 8 = 0#w := by
      apply BitVec.eq_of_getLsbD_eq
      simp
    rw [crcOctet_split poly (c ^^^ b.setWidth w), htable, BitVec.ushiftRight_xor_distrib, hshift, BitVec.xor_zero]
  simp only [hstep]
  rfl

def crc32Ieee (bytes : List UInt8) : UInt32 :=
  UInt32.ofBitVec (crcBytes 0xEDB88320#32 0xFFFFFFFF#32 (bytes.map UInt8.toBitVec) ^^^ 0xFFFFFFFF#32)

def crcWordShift (c : UInt32) : UInt32 := if c &&& 1 ≠ 0 then (0xEDB88320 : UInt32) ^^^ (c >>> 1) else c >>> 1

lemma toBitVec_crcWordShift (c : UInt32) : (crcWordShift c).toBitVec = crcShift 0xEDB88320#32 c.toBitVec := by
  have hlow : c &&& 1 ≠ 0 ↔ c.toBitVec.getLsbD 0 = true := by
    rw [ne_eq, ← UInt32.toBitVec_inj, UInt32.toBitVec_and]
    change ¬ c.toBitVec &&& 1#32 = 0#32 ↔ _
    rw [BitVec.and_one_eq_setWidth_ofBool_getLsbD]
    cases c.toBitVec.getLsbD 0 <;> decide
  have hshift : (c >>> 1).toBitVec = c.toBitVec >>> 1 := rfl
  unfold crcWordShift crcShift
  by_cases hbit : c &&& 1 ≠ 0
  · rw [if_pos hbit, if_pos (hlow.mp hbit), UInt32.toBitVec_xor, hshift]
    rfl
  · rw [if_neg hbit, if_neg (fun h => hbit (hlow.mpr h)), hshift]

lemma toBitVec_foldl_crcWordShift (n : ℕ) (c : UInt32) :
    ((List.range n).foldl (fun c _ => crcWordShift c) c).toBitVec = (crcShift 0xEDB88320#32)^[n] c.toBitVec := by
  induction n with
  | zero => rfl
  | succ n ih =>
    rw [List.range_succ, List.foldl_append, List.foldl_cons, List.foldl_nil, toBitVec_crcWordShift, ih,
      Function.iterate_succ_apply']

lemma vector_get_ofFn {α : Type} {n : ℕ} (f : Fin n → α) (i : Fin n) : (Vector.ofFn f).get i = f i := by
  simp only [Vector.get, Vector.toArray_ofFn, Array.getElem_ofFn]
  rfl

lemma crc32Ieee_of_table (entry : UInt8 → UInt32)
    (hentry : ∀ b, entry b = (List.range 8).foldl (fun c _ => crcWordShift c) (UInt32.ofNat b.toNat))
    (data : List UInt8) :
    data.foldl (fun (c : UInt32) b => entry ((c ^^^ b.toUInt32) &&& 0xFF).toUInt8 ^^^ (c >>> 8)) 0xFFFFFFFF ^^^
      0xFFFFFFFF = crc32Ieee data := by
  let table (b : BitVec 8) : BitVec 32 := (entry (UInt8.ofBitVec b)).toBitVec
  have htable : ∀ b, table b = crcOctet 0xEDB88320#32 (b.setWidth 32) := by
    intro b
    change (entry (UInt8.ofBitVec b)).toBitVec = _
    rw [hentry, toBitVec_foldl_crcWordShift]
    exact congrArg (crcOctet _) (BitVec.ofNat_toNat 32 b)
  have hfold : ∀ c : UInt32,
      (data.foldl (fun (c : UInt32) b => entry ((c ^^^ b.toUInt32) &&& 0xFF).toUInt8 ^^^ (c >>> 8)) c).toBitVec =
        crcBytes 0xEDB88320#32 c.toBitVec (data.map UInt8.toBitVec) := by
    intro c
    rw [← crcBytes_of_table _ htable]
    induction data generalizing c with
    | nil => rfl
    | cons b data ih =>
      rw [List.foldl_cons, List.map_cons, List.foldl_cons, ih]
      congr 1
      have hindex : UInt8.ofBitVec ((c.toBitVec ^^^ b.toBitVec.setWidth 32).setWidth 8) =
          ((c ^^^ b.toUInt32) &&& 0xFF).toUInt8 := by
        rw [UInt32.toUInt8_and]
        have hmask : (0xFF : UInt32).toUInt8 = -1 := by decide
        rw [hmask, UInt8.and_neg_one]
        rfl
      change (entry _ ^^^ (c >>> 8)).toBitVec = (entry _).toBitVec ^^^ (c.toBitVec >>> 8)
      rw [hindex, UInt32.toBitVec_xor]
      rfl
  apply UInt32.toBitVec_inj.mp
  rw [UInt32.toBitVec_xor, hfold]
  rfl

end AurixVoice
