import Mathlib.Algebra.Ring.Int.Defs
import Mathlib.Tactic.Common

/-!
X25519 of the browser SDK, on integers without a bound. `%` of a `bigint` takes the sign of the
dividend.
-/

namespace AurixVoice.Web.X25519

abbrev Bytes := List UInt8

def p25519 : ℤ := 2 ^ 255 - 19
def a24 : ℤ := 121665

def decodeLittleEndian (b : Bytes) : ℕ := b.foldr (fun byte x => (x <<< 8) ||| byte.toNat) 0

def encodeLoop : ℕ → ℤ → Bytes
  | 0, _ => []
  | n + 1, x => UInt8.ofNat (x % 256).toNat :: encodeLoop n (x >>> (8 : ℕ))

def encodeLittleEndian (x : ℤ) : Bytes := encodeLoop 32 x

def mod (a : ℤ) : ℤ :=
  let r := a.tmod p25519
  if r < 0 then r + p25519 else r

def powModLoop (result b : ℤ) (e : ℕ) : ℤ :=
  if e = 0 then result
  else powModLoop (if e &&& 1 ≠ 0 then (result * b).tmod p25519 else result) ((b * b).tmod p25519) (e >>> 1)
  termination_by e
  decreasing_by
    rw [Nat.shiftRight_eq_div_pow]
    omega

def powMod (base : ℤ) (exp : ℕ) : ℤ := powModLoop 1 (mod base) exp

structure Points where
  x2 : ℤ
  z2 : ℤ
  x3 : ℤ
  z3 : ℤ

def Points.swap (s : Points) : Points := ⟨s.x3, s.z3, s.x2, s.z2⟩

def ladderStep (x1 : ℤ) (s : Points) : Points :=
  let a := mod (s.x2 + s.z2)
  let aa := (a * a).tmod p25519
  let b := mod (s.x2 - s.z2)
  let bb := (b * b).tmod p25519
  let e := mod (aa - bb)
  let c := mod (s.x3 + s.z3)
  let d := mod (s.x3 - s.z3)
  let da := (d * a).tmod p25519
  let cb := (c * b).tmod p25519
  let t := mod (da + cb)
  let df := mod (da - cb)
  { x3 := (t * t).tmod p25519
    z3 := (x1 * (df * df).tmod p25519).tmod p25519
    x2 := (aa * bb).tmod p25519
    z2 := (e * mod (aa + a24 * e)).tmod p25519 }

/-- `for (t = n - 1; t >= 0; t--)`, with the swap that is still to be made. -/
def ladder (x1 : ℤ) (kn : ℕ) : ℕ → ℕ → Points → ℕ × Points
  | 0, swap, s => (swap, s)
  | t + 1, swap, s =>
    let kt := (kn >>> t) &&& 1
    let swap := swap ^^^ kt
    let s := if swap = 1 then s.swap else s
    ladder x1 kn t kt (ladderStep x1 s)

def clamp (scalar : Bytes) : Bytes :=
  let k := scalar.set 0 (scalar.getD 0 0 &&& 248)
  k.set 31 ((k.getD 31 0 &&& 127) ||| 64)

def maskTop (u : Bytes) : Bytes := u.set 31 (u.getD 31 0 &&& 127)

def product (scalar u : Bytes) : Bytes :=
  let kn := decodeLittleEndian (clamp scalar)
  let x1 := mod (decodeLittleEndian (maskTop u))
  let (swap, s) := ladder x1 kn 255 0 ⟨1, 0, x1, 1⟩
  let s := if swap = 1 then s.swap else s
  encodeLittleEndian ((s.x2 * powMod s.z2 (p25519 - 2).toNat).tmod p25519)

def x25519 (scalar u : Bytes) : Except String Bytes :=
  if scalar.length ≠ 32 ∨ u.length ≠ 32 then .error "X25519 inputs must be 32 bytes"
  else
    let out := product scalar u
    if out.all (· = 0) then .error "low-order X25519 public key" else .ok out

end AurixVoice.Web.X25519
