import AurixVoice.Unity.FieldPacking
import Mathlib.Tactic.IntervalCases

namespace AurixVoice.Unity.X25519

open Curve25519 (prime Element)
open Returns Curve25519.Points

structure Points.Rep (s : Points) (q : Curve25519.Points) : Prop where
  a : X25519.Rep (2 ^ 17) s.a q.x2
  c : X25519.Rep (2 ^ 17) s.c q.z2
  b : X25519.Rep (2 ^ 17) s.b q.x3
  d : X25519.Rep (2 ^ 17) s.d q.z3

lemma rep_const121665 : Rep (2 ^ 18) const121665 121665 := by
  constructor
  · intro i hi
    interval_cases i <;> decide
  · have hval : val const121665 = 121665 := by decide +kernel
    rfl

variable {q : Curve25519.Points} {s : Points}

lemma Points.Rep.swap (h : s.Rep q) (r : Bool) :
    Points.Rep ⟨(if r then (s.b, s.a) else (s.a, s.b)).1, (if r then (s.b, s.a) else (s.a, s.b)).2,
      (if r then (s.d, s.c) else (s.c, s.d)).1, (if r then (s.d, s.c) else (s.c, s.d)).2⟩ (q.swapIf r) := by
  cases r with
  | false => exact h
  | true => exact ⟨h.b, h.d, h.a, h.c⟩

lemma ladderStep_returns {x : Limbs} {u : Element} (hx : Rep (2 ^ 17) x u) (h : s.Rep q) (r : Bool) :
    Returns (ladderStep x s (if r then 1 else 0)) fun s' => s'.Rep (((q.swapIf r).step u).swapIf r) := by
  unfold ladderStep
  rw [select_eq, select_eq]
  have hswap := h.swap r
  generalize q.swapIf r = p at hswap ⊢
  generalize (if r then (s.b, s.a) else (s.a, s.b)) = ab at hswap ⊢
  generalize (if r then (s.d, s.c) else (s.c, s.d)) = cd at hswap ⊢
  obtain ⟨a, b⟩ := ab
  obtain ⟨c, d⟩ := cd
  obtain ⟨ha, hc, hb, hd⟩ := hswap
  refine bind (pure (P := (· = (a, b))) rfl) ?_
  rintro _ rfl
  refine bind (pure (P := (· = (c, d))) rfl) ?_
  rintro _ rfl
  refine bind (add_returns ha hc) fun e he => ?_
  refine bind (sub_returns ha hc) fun a₁ ha₁ => ?_
  refine bind (add_returns hb hd) fun c₁ hc₁ => ?_
  refine bind (sub_returns hb hd) fun b₁ hb₁ => ?_
  refine bind (mul_returns he he) fun d₁ hd₁ => ?_
  refine bind (mul_returns ha₁ ha₁) fun f hf => ?_
  refine bind (mul_returns hc₁ ha₁) fun a₂ ha₂ => ?_
  refine bind (mul_returns hb₁ he) fun c₂ hc₂ => ?_
  refine bind (add_returns ha₂ hc₂) fun e₁ he₁ => ?_
  refine bind (sub_returns ha₂ hc₂) fun a₃ ha₃ => ?_
  refine bind (mul_returns ha₃ ha₃) fun b₂ hb₂ => ?_
  refine bind (sub_returns hd₁ hf) fun c₃ hc₃ => ?_
  refine bind (mul_returns hc₃ rep_const121665) fun a₄ ha₄ => ?_
  refine bind (add_returns ha₄ hd₁) fun a₅ ha₅ => ?_
  refine bind (mul_returns hc₃ ha₅) fun c₄ hc₄ => ?_
  refine bind (mul_returns hd₁.weaken hf.weaken) fun a₆ ha₆ => ?_
  refine bind (mul_returns hb₂.weaken hx.weaken) fun d₂ hd₂ => ?_
  refine bind (mul_returns he₁ he₁) fun b₃ hb₃ => ?_
  rw [select_eq, select_eq]
  have hstep : Points.Rep ⟨a₆, b₃, c₄, d₂⟩ (p.step u) := by
    constructor
    · convert ha₆ using 1
      simp only [step]
      ring
    · convert hc₄ using 1
      simp only [step]
      ring
    · convert hb₃ using 1
      simp only [step]
      ring
    · convert hd₂ using 1
      simp only [step]
      ring
  exact pure (hstep.swap r)

lemma bit_eq (z : Bytes) (i : ℕ) : bit z i = if (ofLe z).testBit i then 1 else 0 := by
  have hshift : i >>> 3 = i / 8 := Nat.shiftRight_eq_div_pow i 3
  have hmod : i &&& 7 = i % 8 := Nat.and_two_pow_sub_one_eq_mod i 3
  rw [bit, hshift, hmod, ofLe_testBit, Nat.and_one_is_mod, Nat.shiftRight_eq_div_pow,
    Nat.testBit_eq_decide_div_mod_eq]
  rcases Nat.mod_two_eq_zero_or_one ((byteAt z (i / 8)).toNat / 2 ^ (i % 8)) with hbit | hbit
  · rw [hbit]
    rfl
  · rw [hbit]
    rfl

lemma ladder_returns {x : Limbs} {u : Element} (hx : Rep (2 ^ 17) x u) (z : Bytes) (n : ℕ) (h : s.Rep q) :
    Returns (ladder x z n s) fun s' => s'.Rep (Curve25519.Points.ladder u (ofLe z).testBit n q) := by
  induction n generalizing s q with
  | zero => exact pure h
  | succ i ih =>
    rw [ladder, bit_eq]
    exact bind (ladderStep_returns hx h _) fun s' hs' => ih hs'

lemma rep_zeros : Rep (2 ^ 17) zeros 0 := by
  constructor
  · intro i hi
    interval_cases i <;> decide
  · have hval : val zeros = 0 := by decide +kernel
    rfl

lemma rep_one : Rep (2 ^ 17) (zeros.setIfInBounds 0 1) 1 := by
  constructor
  · intro i hi
    interval_cases i <;> decide
  · have hval : val (zeros.setIfInBounds 0 1) = 1 := by decide +kernel
    rfl

lemma multiply_returns (scalar : Bytes) {point : Bytes} (h : point.length = 32) :
    Returns (multiply scalar point) fun q => q.length = 32 ∧ ofLe q < prime ∧
      (ofLe q : Element) = Curve25519.multiply (ofLe (clamp scalar)) (ofLe (maskTop point) : ℕ) := by
  refine bind (unpack_returns h) fun x hx => ?_
  refine bind (ladder_returns hx (clamp scalar) 255 (q := ⟨1, 0, (ofLe (maskTop point) : ℕ), 1⟩)
    ⟨rep_one, rep_zeros, hx, rep_one⟩) fun s hs => ?_
  refine bind (invert_returns hs.c) fun c hc => ?_
  refine bind (mul_returns hs.a.weaken hc.weaken) fun a ha => ?_
  exact pack_returns ha

end AurixVoice.Unity.X25519
