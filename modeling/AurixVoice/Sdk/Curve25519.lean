import Mathlib.Data.ZMod.Basic

/-! The Montgomery ladder of X25519 in the field of 2^255 - 19. -/

namespace AurixVoice.Curve25519

def prime : ℕ := 2 ^ 255 - 19

abbrev Element := ZMod prime

structure Points where
  x2 : Element
  z2 : Element
  x3 : Element
  z3 : Element

namespace Points

def swapIf (s : Points) (b : Bool) : Points := if b then ⟨s.x3, s.z3, s.x2, s.z2⟩ else s

def step (u : Element) (s : Points) : Points :=
  let a := s.x2 + s.z2
  let b := s.x2 - s.z2
  let e := a ^ 2 - b ^ 2
  let da := (s.x3 - s.z3) * a
  let cb := (s.x3 + s.z3) * b
  ⟨a ^ 2 * b ^ 2, e * (a ^ 2 + 121665 * e), (da + cb) ^ 2, u * (da - cb) ^ 2⟩

def ladder (u : Element) (bits : ℕ → Bool) : ℕ → Points → Points
  | 0, s => s
  | n + 1, s => ladder u bits n (((s.swapIf (bits n)).step u).swapIf (bits n))

lemma swapIf_swapIf (s : Points) (b c : Bool) : (s.swapIf b).swapIf c = s.swapIf (b ^^ c) := by
  cases b <;> cases c <;> rfl

end Points

def multiply (scalar : ℕ) (u : Element) : Element :=
  let s := Points.ladder u scalar.testBit 255 ⟨1, 0, u, 1⟩
  s.x2 * s.z2 ^ (prime - 2)

lemma multiply_of_ladder {scalar : ℕ} {u : Element} {s : Points}
    (h : s = Points.ladder u scalar.testBit 255 ⟨1, 0, u, 1⟩) : multiply scalar u = s.x2 * s.z2 ^ (prime - 2) := by
  rw [h, multiply]

lemma eq_of_cast {p n : ℕ} {a : ℤ} (hlow : 0 ≤ a) (hhigh : a < p) (hn : n < p) (h : (a : ZMod p) = n) : a = n := by
  have hmod : a % p = n % p := by
    rw [← Int.cast_natCast n, ZMod.intCast_eq_intCast_iff] at h
    exact h
  rw [Int.emod_eq_of_lt hlow hhigh, Int.emod_eq_of_lt (by omega) (by omega)] at hmod
  exact hmod

end AurixVoice.Curve25519
